import Mathlib.Data.List.Lex
import Mathlib.Data.List.Sort
import Mathlib.Data.String.Basic

/-!
# Sorting by a key

`sortOn key` is the stable sort by a key in a linear order.  When the keys of a list are distinct
the result depends on its elements only, not on the order they come in (`sortOn_congr`), and is
strictly increasing (`sortOn_strict`).
-/

namespace AuthSec

open List

section

variable {α β κ : Type} [LinearOrder κ]

/-- Sort by a key, elements of equal key staying in order. -/
def sortOn (key : α → κ) (l : List α) : List α :=
  l.insertionSort fun a b => key a ≤ key b

instance totalOnKey (key : α → κ) : Std.Total fun a b => key a ≤ key b :=
  ⟨fun a b => le_total (key a) (key b)⟩

instance transOnKey (key : α → κ) : IsTrans α fun a b => key a ≤ key b :=
  ⟨fun _ _ _ hab hbc => hab.trans hbc⟩

variable (key : α → κ) (l : List α)

lemma perm_sortOn : (sortOn key l).Perm l :=
  perm_insertionSort _ l

@[simp]
lemma mem_sortOn {a : α} : a ∈ sortOn key l ↔ a ∈ l :=
  (perm_sortOn key l).mem_iff

@[simp]
lemma length_sortOn : (sortOn key l).length = l.length :=
  (perm_sortOn key l).length_eq

@[simp]
lemma sortOn_nil : sortOn key [] = [] := rfl

lemma sortOn_sorted : (sortOn key l).Pairwise fun a b => key a ≤ key b :=
  pairwise_insertionSort _ l

variable {key l}

lemma sortOn_of_sorted (h : l.Pairwise fun a b => key a ≤ key b) : sortOn key l = l :=
  h.insertionSort_eq

lemma nodup_map_sortOn (h : (l.map key).Nodup) : ((sortOn key l).map key).Nodup :=
  ((perm_sortOn key l).map key).nodup_iff.2 h

lemma sortOn_strict (h : (l.map key).Nodup) : (sortOn key l).Pairwise fun a b => key a < key b := by
  have hne : (sortOn key l).Pairwise fun a b => key a ≠ key b :=
    pairwise_map.1 (nodup_map_sortOn h)
  exact (sortOn_sorted key l).imp₂ (fun _ _ hle hne => lt_of_le_of_ne hle hne) hne

/-- When elements of equal key are equal, the sorted list depends on the elements only. -/
lemma sortOn_congr_of_inj {l' : List α} (hperm : l.Perm l')
    (h : ∀ a ∈ l, ∀ b ∈ l, key a = key b → a = b) : sortOn key l = sortOn key l' := by
  refine List.Perm.eq_of_pairwise ?_ (sortOn_sorted key l) (sortOn_sorted key l')
    ((perm_sortOn key l).trans (hperm.trans (perm_sortOn key l').symm))
  intro a b ha hb hab hba
  exact h a ((mem_sortOn key l).1 ha) b (hperm.mem_iff.2 ((mem_sortOn key l').1 hb))
    (le_antisymm hab hba)

/-- With distinct keys the sorted list depends on the elements only. -/
theorem sortOn_congr {l' : List α} (hperm : l.Perm l') (h : (l.map key).Nodup) :
    sortOn key l = sortOn key l' :=
  sortOn_congr_of_inj hperm fun _ ha _ hb hab => List.inj_on_of_nodup_map h ha hb hab

lemma perm_of_sortOn_eq {l' : List α} (h : sortOn key l = sortOn key l') : l.Perm l' :=
  (perm_sortOn key l).symm.trans (h ▸ perm_sortOn key l')

lemma sortOn_eq_iff_perm {l' : List α} (h : (l.map key).Nodup) :
    sortOn key l = sortOn key l' ↔ l.Perm l' :=
  ⟨perm_of_sortOn_eq, fun hperm => sortOn_congr hperm h⟩

lemma sortOn_eq_iff_perm_of_injective (hkey : Function.Injective key) {l' : List α} :
    sortOn key l = sortOn key l' ↔ l.Perm l' :=
  ⟨perm_of_sortOn_eq, fun hperm => sortOn_congr_of_inj hperm fun _ _ _ _ hab => hkey hab⟩

lemma filter_sortOn (h : (l.map key).Nodup) (p : α → Bool) :
    (sortOn key l).filter p = sortOn key (l.filter p) := by
  refine List.Perm.eq_of_pairwise ?_ ((sortOn_sorted key l).filter p) (sortOn_sorted key _)
    (((perm_sortOn key l).filter p).trans (perm_sortOn key _).symm)
  intro a b ha hb hab hba
  exact List.inj_on_of_nodup_map h ((mem_sortOn key l).1 (mem_of_mem_filter ha))
    (mem_of_mem_filter ((mem_sortOn key _).1 hb)) (le_antisymm hab hba)

/-- Elements of one key stay in order. -/
lemma filter_key_sortOn (l : List α) (k : κ) :
    (sortOn key l).filter (key · = k) = l.filter (key · = k) := by
  have hsub : (l.filter (key · = k)).Sublist (sortOn key l) := by
    refine sublist_insertionSort ?_ filter_sublist
    refine pairwise_of_forall_mem_list fun a ha b hb => ?_
    rw [of_decide_eq_true (mem_filter.1 ha).2, of_decide_eq_true (mem_filter.1 hb).2]
  have hfilter := hsub.filter (key · = k)
  rw [filter_filter] at hfilter
  simp only [Bool.and_self] at hfilter
  exact (hfilter.eq_of_length ((perm_sortOn key l).filter _).length_eq.symm).symm

/-- The sort shows which of two elements of one key came first. -/
lemma eq_of_sortOn_eq {f : β → α} {a b : β} {as bs : List β}
    (h : sortOn key ((a :: as).map f) = sortOn key ((b :: bs).map f))
    (hkey : key (f a) = key (f b)) : f a = f b := by
  have hfilter := congrArg (List.filter (key · = key (f a))) h
  rw [filter_key_sortOn, filter_key_sortOn, map_cons, map_cons,
    filter_cons_of_pos (by simp), filter_cons_of_pos (by simp [hkey])] at hfilter
  exact (List.cons.inj hfilter).1

/-- The keys come out in the same order for every order of the elements. -/
lemma map_key_sortOn {l' : List α} (hperm : l.Perm l') :
    (sortOn key l).map key = (sortOn key l').map key := by
  refine List.Perm.eq_of_pairwise ?_ (pairwise_map.2 (sortOn_sorted key l))
    (pairwise_map.2 (sortOn_sorted key l'))
    (((perm_sortOn key l).trans (hperm.trans (perm_sortOn key l').symm)).map key)
  intro a b _ _ hab hba
  exact le_antisymm hab hba

/-- Sorting commutes with a map that keeps the keys. -/
lemma map_sortOn {key' : β → κ} {f : α → β} (hf : ∀ a, key' (f a) = key a) (l : List α) :
    (sortOn key l).map f = sortOn key' (l.map f) := by
  refine map_insertionSort _ _ f l fun a _ b _ => ?_
  simp [hf]

end

end AuthSec

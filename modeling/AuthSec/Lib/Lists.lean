import Mathlib.Data.List.Induction
import Mathlib.Data.List.Perm.Basic

/-!
# Lists

Lists that agree under a map, and texts cut by a separator.
-/

namespace AuthSec

open List

/-! ## Mapped lists -/

section

variable {α β : Type} {f : α → β}

/-- Lists that agree up to a map element by element. -/
lemma map_eq_of_zip {as bs : List α} (hlen : as.length = bs.length)
    (h : ∀ p ∈ as.zip bs, f p.1 = f p.2) : as.map f = bs.map f := by
  induction as generalizing bs with
  | nil => simp [length_eq_zero_iff.1 hlen.symm]
  | cons a as ih =>
      cases bs with
      | nil => simp at hlen
      | cons b bs =>
          rw [map_cons, map_cons, h (a, b) (by simp),
            ih (by simpa using hlen) fun p hp => h p (by simp [hp])]

lemma zip_of_map_eq {as bs : List α} (h : as.map f = bs.map f) :
    as.length = bs.length ∧ ∀ p ∈ as.zip bs, f p.1 = f p.2 := by
  induction as generalizing bs with
  | nil => simp [map_eq_nil_iff.1 h.symm]
  | cons a as ih =>
      cases bs with
      | nil => simp at h
      | cons b bs =>
          rw [map_cons, map_cons, List.cons.injEq] at h
          obtain ⟨hlen, hzip⟩ := ih h.2
          refine ⟨by simp [hlen], fun p hp => ?_⟩
          rw [zip_cons_cons, mem_cons] at hp
          rcases hp with rfl | hp
          · exact h.1
          · exact hzip p hp

/-- Every element of a list stands in front of one of an equally long list. -/
lemma exists_mem_zip {γ : Type} {as : List α} {cs : List γ} (hlen : as.length = cs.length)
    {a : α} (ha : a ∈ as) : ∃ c, (a, c) ∈ as.zip cs := by
  obtain ⟨i, hi, rfl⟩ := getElem_of_mem ha
  refine ⟨cs[i], ?_⟩
  have hzip : i < (as.zip cs).length := by simp [hlen, hlen ▸ hi]
  have hget : (as.zip cs)[i] = (as[i], cs[i]) := getElem_zip
  exact hget ▸ getElem_mem hzip

lemma length_le_flatMap {γ : Type} {f : α → List γ} (hf : ∀ a, f a ≠ []) (l : List α) :
    l.length ≤ (l.flatMap f).length := by
  induction l with
  | nil => simp
  | cons a l ih =>
      have hpos := length_pos_of_ne_nil (hf a)
      simp only [flatMap_cons, length_cons, length_append]
      omega

lemma exists_of_forall₂ {γ : Type} {R : α → γ → Prop} {as : List α} {cs : List γ}
    (h : List.Forall₂ R as cs) {a : α} (ha : a ∈ as) : ∃ c ∈ cs, R a c := by
  obtain ⟨hlen, hzip⟩ := List.forall₂_iff_zip.1 h
  obtain ⟨c, hc⟩ := exists_mem_zip hlen ha
  exact ⟨c, (of_mem_zip hc).2, hzip hc⟩

/-- A permutation of a mapped list comes from a permutation of the list. -/
lemma exists_perm_of_map_perm {l : List β} {bs : List α}
    (h : l.Perm (bs.map f)) : ∃ bs' : List α, bs'.Perm bs ∧ l = bs'.map f := by
  have hrel : List.Forall₂ (fun b a => b = f a) (bs.map f) bs := by
    rw [List.forall₂_map_left_iff]
    exact List.forall₂_same.2 fun _ _ => rfl
  obtain ⟨bs', hbs, hperm⟩ := List.perm_comp_forall₂ h hrel
  refine ⟨bs', hperm, ?_⟩
  clear hperm h hrel
  induction hbs with
  | nil => rfl
  | cons hb _ ih => rw [map_cons, hb, ih]

end

/-! ## Texts cut by a separator -/

section

variable {α : Type} {sep : α}

/-- A text up to the first separator, and what stands behind it. -/
lemma append_sep_inj {as bs us vs : List α} (has : sep ∉ as) (hbs : sep ∉ bs)
    (h : as ++ sep :: us = bs ++ sep :: vs) : as = bs ∧ us = vs := by
  induction as generalizing bs with
  | nil =>
      cases bs with
      | nil => exact ⟨rfl, (List.cons.inj h).2⟩
      | cons b bs => exact absurd (mem_cons.2 (Or.inl (List.cons.inj h).1)) hbs
  | cons a as ih =>
      cases bs with
      | nil => exact absurd (mem_cons.2 (Or.inl (List.cons.inj h).1.symm)) has
      | cons b bs =>
          obtain ⟨hab, htl⟩ := List.cons.inj h
          obtain ⟨hrec, huv⟩ := ih (fun hm => has (List.mem_cons_of_mem _ hm))
            (fun hm => hbs (List.mem_cons_of_mem _ hm)) htl
          exact ⟨by rw [hab, hrec], huv⟩

/-- Two texts around separators are of the same parts, or one of them is cut further behind. -/
lemma append_sep_cases {is js us vs : List α} (h : is ++ sep :: us = js ++ sep :: vs) :
    (is = js ∧ us = vs) ∨ (∃ xs, js = is ++ sep :: xs ∧ us = xs ++ sep :: vs) ∨
      ∃ xs, is = js ++ sep :: xs ∧ vs = xs ++ sep :: us := by
  rcases append_eq_append_iff.1 h with ⟨a, rfl, ha⟩ | ⟨a, rfl, ha⟩
  · cases a with
    | nil => exact Or.inl ⟨(append_nil is).symm, (List.cons.inj ha).2⟩
    | cons c xs =>
        obtain ⟨rfl, hus⟩ := List.cons.inj ha
        exact Or.inr (Or.inl ⟨xs, rfl, hus⟩)
  · cases a with
    | nil => exact Or.inl ⟨append_nil js, (List.cons.inj ha).2.symm⟩
    | cons c xs =>
        obtain ⟨rfl, hvs⟩ := List.cons.inj ha
        exact Or.inr (Or.inr ⟨xs, rfl, hvs⟩)

/-- A run of elements and what stands behind it. -/
lemma takeWhile_run {p : α → Bool} {bs rest : List α} (hbs : ∀ b ∈ bs, p b = true)
    (hrest : ∀ b ∈ rest.head?, p b = false) :
    (bs ++ rest).takeWhile p = bs ∧ (bs ++ rest).dropWhile p = rest := by
  rw [takeWhile_append_of_pos hbs, dropWhile_append_of_pos hbs]
  cases rest with
  | nil => simp
  | cons b rest => simp [hrest b rfl]

/-- The first piece, whatever stands in the others. -/
lemma sep_head_inj {as bs : List α} {ps qs : List (List α)} (has : sep ∉ as) (hbs : sep ∉ bs)
    (h : (as ++ ps.flatMap fun p => sep :: p) = bs ++ qs.flatMap fun q => sep :: q) : as = bs := by
  cases ps with
  | nil =>
      cases qs with
      | nil => simpa using h
      | cons q qs =>
          rw [flatMap_nil, append_nil] at h
          exact absurd (h ▸ mem_append_right _ (by simp)) has
  | cons p ps =>
      cases qs with
      | nil =>
          rw [flatMap_nil, append_nil] at h
          exact absurd (h ▸ mem_append_right _ (by simp)) hbs
      | cons q qs =>
          rw [flatMap_cons, flatMap_cons, cons_append, cons_append] at h
          exact (append_sep_inj has hbs h).1

/-- Pieces without the separator can be read off the text. -/
lemma flatMap_sep_inj {ps qs : List (List α)} (hps : ∀ p ∈ ps, sep ∉ p) (hqs : ∀ q ∈ qs, sep ∉ q)
    (h : (ps.flatMap fun p => sep :: p) = qs.flatMap fun q => sep :: q) : ps = qs := by
  induction ps generalizing qs with
  | nil =>
      cases qs with
      | nil => rfl
      | cons q qs => simp at h
  | cons p ps ih =>
      cases qs with
      | nil => simp at h
      | cons q qs =>
          simp only [flatMap_cons, cons_append, List.cons.injEq, true_and] at h
          have hhead := sep_head_inj (hps p (by simp)) (hqs q (by simp)) h
          subst hhead
          rw [ih (fun r hr => hps r (by simp [hr])) (fun r hr => hqs r (by simp [hr]))
            (append_cancel_left h)]

/-- Words of a code that can be read off any text that starts with one can be read off a text of
several. -/
lemma flatMap_code_inj {β : Type} {P : β → Prop} {f : β → List α} (hne : ∀ b, f b ≠ [])
    (hcode : ∀ b c us vs, P b → P c → f b ++ us = f c ++ vs → b = c ∧ us = vs) {bs cs : List β}
    (hbs : ∀ b ∈ bs, P b) (hcs : ∀ c ∈ cs, P c) (h : bs.flatMap f = cs.flatMap f) : bs = cs := by
  induction bs generalizing cs with
  | nil =>
      cases cs with
      | nil => rfl
      | cons c cs =>
          rw [flatMap_nil, flatMap_cons] at h
          exact absurd (append_eq_nil_iff.1 h.symm).1 (hne c)
  | cons b bs ih =>
      obtain ⟨hb, hbs⟩ := forall_mem_cons.1 hbs
      cases cs with
      | nil =>
          rw [flatMap_nil, flatMap_cons] at h
          exact absurd (append_eq_nil_iff.1 h).1 (hne b)
      | cons c cs =>
          obtain ⟨hc, hcs⟩ := forall_mem_cons.1 hcs
          obtain ⟨hhead, htail⟩ := hcode b c _ _ hb hc h
          rw [hhead, ih hbs hcs htail]

end

/-! ## Elements against those before them -/

section

variable {α : Type} {R : α → α → Prop}

/-- A check of each element against the part of the list before it. -/
lemma forall_zipIdx_take_iff_pairwise {l : List α} :
    (∀ p ∈ l.zipIdx, ∀ a ∈ l.take p.2, R a p.1) ↔ l.Pairwise R := by
  induction l using List.reverseRecOn with
  | nil => simp
  | append_singleton l b ih =>
      have htake : ∀ p ∈ l.zipIdx, (l ++ [b]).take p.2 = l.take p.2 := fun p hp =>
        take_append_of_le_length (Nat.le_of_lt (snd_lt_of_mem_zipIdx hp))
      rw [zipIdx_append, forall_mem_append, pairwise_append, ← ih]
      refine and_congr (forall₂_congr fun p hp => by rw [htake p hp]) ?_
      simp

end

/-! ## The first of each key -/

section

variable {α κ : Type} [DecidableEq κ]

/-- The elements whose key was not seen before. -/
def firsts (key : α → κ) : List κ → List α → List α
  | _, [] => []
  | seen, a :: l => if key a ∈ seen then firsts key seen l else a :: firsts key (key a :: seen) l

lemma mem_of_mem_firsts {key : α → κ} {seen : List κ} {l : List α} {a : α}
    (h : a ∈ firsts key seen l) : a ∈ l := by
  induction l generalizing seen with
  | nil => exact h
  | cons b l ih =>
      rw [firsts] at h
      split_ifs at h
      · exact List.mem_cons_of_mem b (ih h)
      · rcases mem_cons.1 h with rfl | h
        · exact mem_cons_self ..
        · exact List.mem_cons_of_mem b (ih h)

end

end AuthSec

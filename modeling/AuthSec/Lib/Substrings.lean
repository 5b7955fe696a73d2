import Mathlib.Data.List.Infix
import Mathlib.Tactic.Common

/-!
# Replacing parts of a list

`replaceAll` replaces a part of a list everywhere, from the left and without overlaps.

* `replace_ind`: the induction along the matches;
* `replaceAll_append_of_notMem`, `replaceAll_append_cons`: no match crosses a piece without the first
  element of the part, or an element that the part does not have;
* `Keeps.replaceAll_flatMap`, `Keeps.infix_flatMap`: replacing before and after an encoding that
  keeps the elements of the part;
* `undouble_double`: a sign that is doubled in front of an opening is found again.
-/

namespace AuthSec

open List

/-! ## Parts of a list -/

section

variable {α : Type} {old l p t : List α} {a b h q : α}

lemma prefix_of_prefix_append (hq : q ∉ old) (hpre : old <+: p ++ q :: l) : old <+: p := by
  rcases Nat.lt_or_ge p.length old.length with hlt | hle
  · have hshort : p ++ [q] <+: old := by
      refine prefix_of_prefix_length_le ⟨l, by simp⟩ hpre ?_
      simpa using Nat.succ_le_of_lt hlt
    exact absurd (hshort.subset (by simp)) hq
  · exact prefix_of_prefix_length_le hpre (prefix_append p _) hle

lemma infix_append_iff_of_notMem (hp : h ∉ p) : h :: t <:+: p ++ l ↔ h :: t <:+: l := by
  induction p with
  | nil => rfl
  | cons a p ih =>
      rw [mem_cons, not_or] at hp
      rw [cons_append, infix_cons_iff, ih hp.2, or_iff_right]
      exact fun hpre => hp.1 (cons_prefix_cons.1 hpre).1

lemma infix_append_cons_iff (hold : old ≠ []) (hq : q ∉ old) :
    old <:+: p ++ q :: l ↔ old <:+: p ∨ old <:+: l := by
  induction p with
  | nil =>
      rw [nil_append, infix_cons_iff, infix_nil, or_congr_left]
      exact ⟨fun hpre => prefix_nil.1 (prefix_of_prefix_append (p := []) hq hpre),
        fun hnil => absurd hnil hold⟩
  | cons a p ih =>
      rw [cons_append, infix_cons_iff, ih, infix_cons_iff, or_assoc]
      refine or_congr_left ⟨fun hpre => prefix_of_prefix_append (p := a :: p) hq hpre, ?_⟩
      exact fun hpre => hpre.trans (prefix_append (a :: p) _)

lemma pair_prefix_cons_iff {c : α} : [a, b] <+: c :: l ↔ a = c ∧ l.head? = some b := by
  cases l with
  | nil => simp
  | cons d l => simp [eq_comm]

lemma pair_prefix_congr {c : α} {m : List α} (hm : m.head? = l.head?) :
    [a, b] <+: c :: m ↔ [a, b] <+: c :: l := by
  rw [pair_prefix_cons_iff, pair_prefix_cons_iff, hm]

/-- The part `[a, b]` in a list with another element in front. -/
lemma pair_infix_cons_iff {c : α} : [a, b] <:+: c :: l ↔
    (a = c ∧ l.head? = some b) ∨ [a, b] <:+: l := by
  rw [infix_cons_iff, pair_prefix_cons_iff]

end

/-! ## Replacing -/

section

variable {α : Type} [DecidableEq α]

/-- Behind `skip` elements, every part `old` becomes `new`. -/
def replaceFrom (old new : List α) : ℕ → List α → List α
  | _, [] => []
  | skip + 1, _ :: l => replaceFrom old new skip l
  | 0, a :: l =>
    if old <+: a :: l then new ++ replaceFrom old new (old.length - 1) l
    else a :: replaceFrom old new 0 l

/-- Every part `old` becomes `new`, from the left and without overlaps, where `old` is not empty. -/
def replaceAll (old new l : List α) : List α :=
  replaceFrom old new 0 l

/-- The list without the parts `old`. -/
def deleteAll (old l : List α) : List α :=
  replaceAll old [] l

variable {old new l p t : List α} {a h q : α}

lemma replaceFrom_eq (skip : ℕ) (l : List α) :
    replaceFrom old new skip l = replaceAll old new (l.drop skip) := by
  induction l generalizing skip with
  | nil => cases skip <;> rfl
  | cons a l ih =>
      cases skip with
      | zero => rfl
      | succ skip => exact ih skip

@[simp]
lemma replaceAll_nil : replaceAll old new [] = [] := rfl

lemma replaceAll_append_self (hold : old ≠ []) :
    replaceAll old new (old ++ l) = new ++ replaceAll old new l := by
  obtain ⟨a, t, rfl⟩ := exists_cons_of_ne_nil hold
  have hpre : a :: t <+: a :: (t ++ l) := prefix_append (a :: t) l
  rw [cons_append, replaceAll, replaceFrom, if_pos hpre, replaceFrom_eq]
  simp

lemma replaceAll_cons (hpre : ¬ old <+: a :: l) :
    replaceAll old new (a :: l) = a :: replaceAll old new l := by
  rw [replaceAll, replaceFrom, if_neg hpre]
  rfl

/-- Induction along the matches from the left. -/
@[elab_as_elim]
theorem replace_ind (hold : old ≠ []) {motive : List α → Prop} (nil : motive [])
    (hit : ∀ l, motive l → motive (old ++ l))
    (cons : ∀ a l, ¬ old <+: a :: l → motive l → motive (a :: l)) (l : List α) : motive l := by
  induction hn : l.length using Nat.strong_induction_on generalizing l with
  | _ n ih =>
      cases l with
      | nil => exact nil
      | cons a l =>
          by_cases hpre : old <+: a :: l
          · obtain ⟨l', hl'⟩ := hpre
            rw [← hl']
            have hlen := congrArg List.length hl'
            have hpos := length_pos_of_ne_nil hold
            simp only [length_append, length_cons] at hlen hn
            exact hit l' (ih _ (by omega) l' rfl)
          · exact cons a l hpre (ih _ (by simp [← hn]) l rfl)

/-! ## Matches do not cross -/

/-- No match starts in a piece that does not have the first element of the part. -/
lemma replaceAll_append_of_notMem (hp : h ∉ p) :
    replaceAll (h :: t) new (p ++ l) = p ++ replaceAll (h :: t) new l := by
  induction p with
  | nil => rfl
  | cons a p ih =>
      rw [mem_cons, not_or] at hp
      rw [cons_append, replaceAll_cons fun hpre => hp.1 (cons_prefix_cons.1 hpre).1,
        ih hp.2, cons_append]

/-- No match crosses an element that the part does not have. -/
lemma replaceAll_append_cons (hold : old ≠ []) (hq : q ∉ old) :
    replaceAll old new (p ++ q :: l) = replaceAll old new p ++ q :: replaceAll old new l := by
  induction p using replace_ind hold with
  | nil =>
      obtain ⟨h, t, rfl⟩ := exists_cons_of_ne_nil hold
      have hpre : ¬ h :: t <+: q :: l := by
        intro hpre
        rw [(cons_prefix_cons.1 hpre).1] at hq
        exact hq (mem_cons_self ..)
      exact replaceAll_cons hpre
  | hit p ih => rw [append_assoc, replaceAll_append_self hold, ih, replaceAll_append_self hold,
      append_assoc]
  | cons a p hpre ih =>
      have hpre' : ¬ old <+: a :: (p ++ q :: l) :=
        fun h => hpre (prefix_of_prefix_append (p := a :: p) hq h)
      rw [cons_append, replaceAll_cons hpre', ih, replaceAll_cons hpre, cons_append]

end

/-! ## Encodings -/

/-- The encoding writes each element of `keep` as one unit, and no other element with such a unit. -/
structure Keeps {α β : Type} (keep : List α) (g : α → β) (f : α → List β) : Prop where
  kept : ∀ a ∈ keep, f a = [g a]
  inj : ∀ a ∈ keep, ∀ b ∈ keep, g a = g b → a = b
  other : ∀ a ∉ keep, f a ≠ [] ∧ ∀ b ∈ keep, g b ∉ f a

namespace Keeps

variable {α β : Type} {keep old l : List α} {g : α → β} {f : α → List β}

lemma prefix_flatMap (hf : Keeps keep g f) (hold : ∀ a ∈ old, a ∈ keep) :
    old.map g <+: l.flatMap f ↔ old <+: l := by
  induction old generalizing l with
  | nil => simp
  | cons a old ih =>
      have ha := hold a (by simp)
      have ih := fun l => ih (l := l) fun b hb => hold b (by simp [hb])
      cases l with
      | nil => simp
      | cons b l =>
          rw [flatMap_cons, map_cons, cons_prefix_cons]
          by_cases hb : b ∈ keep
          · rw [hf.kept b hb, cons_append, nil_append, cons_prefix_cons, ih]
            exact and_congr_left fun _ => ⟨hf.inj a ha b hb, congrArg g⟩
          · obtain ⟨hne, hother⟩ := hf.other b hb
            obtain ⟨c, cs, hc⟩ := exists_cons_of_ne_nil hne
            rw [hc, cons_append, cons_prefix_cons]
            refine iff_of_false (fun h => hother a ha ?_) (fun h => hb (h.1 ▸ ha))
            rw [hc, h.1]
            exact mem_cons_self ..

lemma flatMap_kept (hf : Keeps keep g f) (hold : ∀ a ∈ old, a ∈ keep) :
    old.flatMap f = old.map g := by
  induction old with
  | nil => rfl
  | cons a old ih =>
      rw [flatMap_cons, hf.kept a (hold a (by simp)), ih fun b hb => hold b (by simp [hb])]
      rfl

/-- Replacing in the text is replacing before the elements are written out. -/
theorem replaceAll_flatMap [DecidableEq α] [DecidableEq β] (hf : Keeps keep g f)
    (old new l : List α) (hne : old ≠ []) (hold : ∀ a ∈ old, a ∈ keep)
    (hnew : ∀ a ∈ new, a ∈ keep) :
    replaceAll (old.map g) (new.map g) (l.flatMap f) = (replaceAll old new l).flatMap f := by
  induction l using replace_ind hne with
  | nil => rfl
  | hit l ih =>
      rw [flatMap_append, hf.flatMap_kept hold, replaceAll_append_self (by simpa using hne), ih,
        replaceAll_append_self hne, flatMap_append, hf.flatMap_kept hnew]
  | cons a l hpre ih =>
      rw [replaceAll_cons hpre, flatMap_cons, flatMap_cons, ← ih]
      by_cases ha : a ∈ keep
      · have hpre' : ¬ old.map g <+: g a :: l.flatMap f := by
          rw [← singleton_append, ← hf.kept a ha, ← flatMap_cons, hf.prefix_flatMap hold]
          exact hpre
        rw [hf.kept a ha]
        exact replaceAll_cons hpre'
      · obtain ⟨h, t, rfl⟩ := exists_cons_of_ne_nil hne
        exact replaceAll_append_of_notMem ((hf.other a ha).2 h (hold h (by simp)))

/-- A part of kept elements occurs in the text exactly where it occurs in the list. -/
theorem infix_flatMap (hf : Keeps keep g f) (hne : old ≠ []) (hold : ∀ a ∈ old, a ∈ keep) :
    old.map g <:+: l.flatMap f ↔ old <:+: l := by
  induction l with
  | nil => simp [hne]
  | cons a l ih =>
      by_cases ha : a ∈ keep
      · rw [infix_cons_iff, ← ih, ← hf.prefix_flatMap hold, flatMap_cons, hf.kept a ha]
        exact infix_cons_iff
      · obtain ⟨h, t, rfl⟩ := exists_cons_of_ne_nil hne
        have hh := hold h (by simp)
        rw [flatMap_cons, map_cons, infix_append_iff_of_notMem ((hf.other a ha).2 h hh), ← map_cons,
          ih, infix_cons_iff, or_iff_right]
        exact fun hpre => ha ((cons_prefix_cons.1 hpre).1 ▸ hh)

end Keeps

/-! ## Doubled signs -/

section

variable {α : Type} [DecidableEq α] (o x y : α)

/-- The sign `x` is doubled wherever it stands in front of `o`. -/
def double (l : List α) : List α :=
  replaceAll [x, o] [x, x, o] l

variable {o x y} {l : List α} {a : α}

lemma double_hit : double o x (x :: o :: l) = x :: x :: o :: double o x l :=
  replaceAll_append_self (cons_ne_nil x [o])

lemma double_cons (h : ¬ [x, o] <+: a :: l) : double o x (a :: l) = a :: double o x l :=
  replaceAll_cons h

lemma double_cons_of_ne (h : a ≠ x) : double o x (a :: l) = a :: double o x l :=
  double_cons fun hpre => h (cons_prefix_cons.1 hpre).1.symm

lemma head?_double : (double o x l).head? = l.head? := by
  induction l using replace_ind (cons_ne_nil x [o]) with
  | nil => rfl
  | hit l _ => rw [cons_append, singleton_append, double_hit]; rfl
  | cons a l hpre _ => rw [double_cons hpre]; rfl

/-- Induction along the openings of two signs. -/
@[elab_as_elim]
theorem signs_ind {motive : List α → Prop} (nil : motive [])
    (first : ∀ l, motive l → motive (x :: o :: l)) (second : ∀ l, motive l → motive (y :: o :: l))
    (cons : ∀ a l, ¬ [x, o] <+: a :: l → ¬ [y, o] <+: a :: l → motive l → motive (a :: l))
    (l : List α) : motive l := by
  induction hn : l.length using Nat.strong_induction_on generalizing l with
  | _ n ih =>
      cases l with
      | nil => exact nil
      | cons a l =>
          have ihl := ih l.length (by simp [← hn]) l rfl
          have hlen : l.tail.length < n := by
            rw [← hn, length_tail, length_cons]
            omega
          have ihd : motive l.tail := ih _ hlen l.tail rfl
          by_cases hx : [x, o] <+: a :: l
          · obtain ⟨m, hm⟩ := hx
            obtain ⟨rfl, rfl⟩ : x = a ∧ o :: m = l := by simpa using hm
            exact first m ihd
          by_cases hy : [y, o] <+: a :: l
          · obtain ⟨m, hm⟩ := hy
            obtain ⟨rfl, rfl⟩ : y = a ∧ o :: m = l := by simpa using hm
            exact second m ihd
          · exact cons a l hx hy ihl

/-- Two doublings see different openings. -/
lemma double_comm (hxy : x ≠ y) (hx : x ≠ o) (hy : y ≠ o) (l : List α) :
    double o y (double o x l) = double o x (double o y l) := by
  induction l using signs_ind (o := o) (x := x) (y := y) with
  | nil => rfl
  | first l ih =>
      rw [double_hit, double_cons_of_ne hxy, double_cons_of_ne hxy, double_cons_of_ne hy.symm, ih,
        double_cons_of_ne hxy, double_cons_of_ne hy.symm, double_hit]
  | second l ih =>
      rw [double_cons_of_ne hxy.symm, double_cons_of_ne hx.symm, double_hit, ih, double_hit,
        double_cons_of_ne hxy.symm, double_cons_of_ne hxy.symm, double_cons_of_ne hx.symm]
  | cons a l hprex hprey ih =>
      rw [double_cons hprex, double_cons (mt (pair_prefix_congr head?_double).1 hprey), ih,
        double_cons hprey, double_cons (mt (pair_prefix_congr head?_double).1 hprex)]

lemma not_prefix_double (hx : x ≠ o) : ¬ [x, o] <+: double o x l := by
  induction l using replace_ind (cons_ne_nil x [o]) with
  | nil => simp [double]
  | hit l _ =>
      rw [cons_append, singleton_append, double_hit, pair_prefix_cons_iff]
      exact fun h => hx (by simpa using h.2)
  | cons a l hpre _ =>
      rw [double_cons hpre]
      exact mt (pair_prefix_congr head?_double).1 hpre

/-- What a doubled sign is replaced by comes in the place of the sign. -/
lemma replaceAll_double (hx : x ≠ o) (new l : List α) :
    replaceAll [x, x, o] new (double o x l) = replaceAll [x, o] new l := by
  induction l using replace_ind (cons_ne_nil x [o]) with
  | nil => rfl
  | hit l ih =>
      rw [replaceAll_append_self (by simp), cons_append, singleton_append, double_hit, ← ih]
      exact replaceAll_append_self (cons_ne_nil x [x, o])
  | cons a l hpre ih =>
      rw [double_cons hpre, replaceAll_cons hpre, ← ih]
      refine replaceAll_cons fun h => not_prefix_double hx (l := l) ?_
      exact (cons_prefix_cons.1 h).2

lemma replaceAll_self {old : List α} (hold : old ≠ []) (l : List α) : replaceAll old old l = l := by
  induction l using replace_ind hold with
  | nil => rfl
  | hit l ih => rw [replaceAll_append_self hold, ih]
  | cons a l hpre ih => rw [replaceAll_cons hpre, ih]

/-- What was doubled in front of `o` is undone by a replacement. -/
theorem undouble_double (hx : x ≠ o) (l : List α) :
    replaceAll [x, x, o] [x, o] (double o x l) = l := by
  rw [replaceAll_double hx, replaceAll_self (by simp)]

lemma double_eq_self (h : ¬ [x, o] <:+: l) :
    double o x l = l := by
  induction l with
  | nil => rfl
  | cons a l ih =>
      rw [infix_cons_iff, not_or] at h
      rw [double_cons h.1, ih h.2]

lemma length_le_double (o x : α) (l : List α) :
    l.length ≤ (double o x l).length := by
  induction l using replace_ind (cons_ne_nil x [o]) with
  | nil => simp
  | hit l ih =>
      rw [cons_append, singleton_append, double_hit]
      simp only [length_cons]
      omega
  | cons a l hpre ih =>
      rw [double_cons hpre]
      simpa using ih

lemma length_lt_double (h : [x, o] <:+: l) :
    l.length < (double o x l).length := by
  induction l using replace_ind (cons_ne_nil x [o]) with
  | nil => simp at h
  | hit l _ =>
      have hle := length_le_double o x l
      rw [cons_append, singleton_append, double_hit]
      simp only [length_cons]
      omega
  | cons a l hpre ih =>
      rw [double_cons hpre]
      simpa using ih ((infix_cons_iff.1 h).resolve_left hpre)

lemma deleteAll_cons (hpre : ¬ [y, o] <+: a :: l) :
    deleteAll [y, o] (a :: l) = a :: deleteAll [y, o] l :=
  replaceAll_cons hpre

lemma deleteAll_hit : deleteAll [y, o] (y :: o :: l) = deleteAll [y, o] l :=
  replaceAll_append_self (cons_ne_nil y [o])

lemma deleteAll_cons_of_ne (h : a ≠ y) : deleteAll [y, o] (a :: l) = a :: deleteAll [y, o] l :=
  deleteAll_cons fun hpre => h (cons_prefix_cons.1 hpre).1.symm

/-- Whether the openings of one sign leave another behind them does not depend on the doubling of the
other sign. -/
lemma infix_deleteAll_double (hxy : x ≠ y) (hx : x ≠ o) (hy : y ≠ o) (l : List α) :
    [y, o] <:+: deleteAll [y, o] (double o x l) ↔ [y, o] <:+: deleteAll [y, o] l := by
  suffices h : (deleteAll [y, o] (double o x l)).head? = (deleteAll [y, o] l).head? ∧
      ([y, o] <:+: deleteAll [y, o] (double o x l) ↔ [y, o] <:+: deleteAll [y, o] l) from h.2
  induction l using signs_ind (o := o) (x := x) (y := y) with
  | nil => exact ⟨rfl, Iff.rfl⟩
  | first l ih =>
      rw [double_hit]
      simp only [deleteAll_cons_of_ne hxy, deleteAll_cons_of_ne hy.symm, pair_infix_cons_iff,
        hxy.symm, hy, ih.2, false_and, false_or, head?_cons, and_self]
  | second l ih =>
      rw [double_cons_of_ne hxy.symm, double_cons_of_ne hx.symm, deleteAll_hit, deleteAll_hit]
      exact ih
  | cons a l hprex hprey ih =>
      have hprey' := mt (pair_prefix_congr (head?_double (o := o) (x := x) (l := l))).1 hprey
      rw [double_cons hprex, deleteAll_cons hprey', deleteAll_cons hprey, pair_infix_cons_iff,
        pair_infix_cons_iff, ih.1, ih.2]
      exact ⟨rfl, Iff.rfl⟩

end

end AuthSec

import Mathlib.Order.Basic
import Mathlib.Order.MinMax
import Mathlib.Data.List.Basic

/-!
# Sweeps over closed intervals

Elements that stand for closed intervals `[lo a, hi a]` of a linear order, placed in a dense order by
a strictly monotone map.  A sweep over intervals that are sorted by their start follows how far they
reach without a hole; it reaches a point exactly when the intervals cover all that lies before it
(`sweep_reaches_iff`).
-/

namespace AuthSec

open List

section

variable {α S T : Type} [LinearOrder T]

/-- Some interval of the list contains the point. -/
def InIntervals (lo hi : α → S) (place : S → T) (l : List α) (t : T) : Prop :=
  ∃ a ∈ l, place (lo a) ≤ t ∧ t ≤ place (hi a)

lemma InIntervals.of_subset {lo hi : α → S} {place : S → T} {l l' : List α} {t : T}
    (h : InIntervals lo hi place l t) (hsub : l ⊆ l') : InIntervals lo hi place l' t := by
  obtain ⟨a, ha, hat⟩ := h
  exact ⟨a, hsub ha, hat⟩

/-- Right after a point there is room before the next value of a list. -/
lemma exists_between_avoiding [DenselyOrdered T] (f : α → T) (l : List α) {x y : T} (h : x < y) :
    ∃ t, x < t ∧ t < y ∧ ∀ a ∈ l, f a ≤ t → f a ≤ x := by
  induction l with
  | nil =>
      obtain ⟨t, hxt, hty⟩ := exists_between h
      exact ⟨t, hxt, hty, by simp⟩
  | cons a l ih =>
      obtain ⟨t, hxt, hty, hl⟩ := ih
      rcases le_or_gt (f a) x with hax | hax
      · refine ⟨t, hxt, hty, fun b hb hbt => ?_⟩
        rcases mem_cons.1 hb with rfl | hb
        · exact hax
        · exact hl b hb hbt
      · -- the first value lies beyond the point: stay below it as well
        obtain ⟨u, hxu, hu⟩ := exists_between (lt_min hax hxt)
        refine ⟨u, hxu, (hu.trans_le (min_le_right _ _)).trans hty, fun b hb hbu => ?_⟩
        rcases mem_cons.1 hb with rfl | hb
        · exact absurd (hbu.trans_lt hu) (min_le_left _ _).not_gt
        · exact hl b hb (hbu.trans (hu.trans_le (min_le_right _ _)).le)

variable [LinearOrder S] (lo hi : α → S)

/-- How far the intervals reach from a point, if none of them starts beyond what is reached. -/
def sweep : S → List α → Option S
  | cur, [] => some cur
  | cur, a :: l => if cur < lo a then none else sweep (max cur (hi a)) l

variable {lo hi} {place : S → T} {l : List α} {cur stop : S}

/-- The sweep reaches the end of a stretch when the intervals cover it. -/
theorem sweep_reaches_iff [DenselyOrdered T] (hplace : StrictMono place)
    (hsorted : l.Pairwise fun a b => lo a ≤ lo b) (hstop : ∀ a ∈ l, lo a ≤ stop) :
    (∃ c, sweep lo hi cur l = some c ∧ stop ≤ c) ↔
      ∀ t, place cur < t → t ≤ place stop → InIntervals lo hi place l t := by
  induction l generalizing cur with
  | nil =>
      simp only [sweep, Option.some.injEq, exists_eq_left', InIntervals, not_mem_nil, false_and,
        exists_false, imp_false, not_le]
      constructor
      · intro hle t ht
        exact (hplace.monotone hle).trans_lt ht
      · intro h
        by_contra hlt
        exact lt_irrefl _ (h _ (hplace (not_le.1 hlt)))
  | cons a l ih =>
      obtain ⟨ha, hsorted⟩ := pairwise_cons.1 hsorted
      have hstop_l : ∀ b ∈ l, lo b ≤ stop := fun b hb => hstop b (List.mem_cons_of_mem a hb)
      rw [sweep]
      split_ifs with hgap
      · -- nothing covers the points right after `cur`, as `a` starts first
        refine iff_of_false (by simp) fun h => ?_
        obtain ⟨t, hcur, hta⟩ := exists_between (hplace hgap)
        obtain ⟨b, hb, hbt, -⟩ :=
          h t hcur (hta.le.trans (hplace.monotone (hstop a (mem_cons_self ..))))
        refine (hbt.trans_lt hta).not_ge (hplace.monotone ?_)
        rcases mem_cons.1 hb with rfl | hb
        · exact le_rfl
        · exact ha b hb
      · rw [ih hsorted hstop_l, hplace.monotone.map_max]
        constructor
        · intro h t ht hts
          rcases le_or_gt t (place (hi a)) with hhi | hhi
          · refine ⟨a, mem_cons_self .., ?_, hhi⟩
            exact (hplace.monotone (not_lt.1 hgap)).trans ht.le
          · exact (h t (max_lt ht hhi) hts).of_subset (subset_cons_self a l)
        · intro h t ht hts
          obtain ⟨hcur, hhi⟩ := max_lt_iff.1 ht
          obtain ⟨b, hb, hbt⟩ := h t hcur hts
          rcases mem_cons.1 hb with rfl | hb
          · exact absurd hbt.2 hhi.not_ge
          · exact ⟨b, hb, hbt⟩

/-- Closed intervals that cover all points after a point cover the point. -/
lemma inIntervals_start [DenselyOrdered T] (hplace : StrictMono place) (h : cur < stop)
    (hcovers : ∀ t, place cur < t → t ≤ place stop → InIntervals lo hi place l t) :
    InIntervals lo hi place l (place cur) := by
  obtain ⟨t, hcur, hstop, havoid⟩ :=
    exists_between_avoiding (fun a => place (lo a)) l (hplace h)
  obtain ⟨a, ha, hlo, hhi⟩ := hcovers t hcur hstop.le
  exact ⟨a, ha, havoid a ha hlo, hcur.le.trans hhi⟩

end

end AuthSec

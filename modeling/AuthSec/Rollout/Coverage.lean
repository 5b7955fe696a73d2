import Mathlib.Data.Real.Basic
import AuthSec.Lib.Coverage
import AuthSec.Lib.Sorting

/-!
# Coverage of a window

Reads of an account's events, and the sweep that tells whether they cover a window.

* `trailSweep_iff`: what the sweep answers, in whatever order equal starts were sorted;
* `trailCovers_iff`: with continuous time, the answer is exact and does not depend on the order of
  the reads.
-/

namespace AuthSec

open List

/-- A read of an account's events between two points of time. -/
structure TrailRead (T : Type) where
  fromTime : T
  toTime : T
  capHit : Bool
  deriving DecidableEq

section

variable {S : Type} [LinearOrder S]

/-- The loop of `trailCovers`: how far the reads reach without a hole. -/
def trailReach (start stop : S) : S → List (TrailRead S) → Except String S
  | cur, [] => .ok cur
  | cur, r :: rs =>
    if r.toTime ≤ start ∨ stop < r.fromTime then trailReach start stop cur rs
    else if r.capHit then .error "cloudtrail_event_cap_hit"
    else if cur < r.fromTime then .error "cloudtrail_coverage_gap"
    else trailReach start stop (if cur < r.toTime then r.toTime else cur) rs

/-- `trailCovers` from the sort on. -/
def trailSweep (rs : List (TrailRead S)) (start stop : S) : Bool × String :=
  match trailReach start stop start rs with
  | .error reason => (false, reason)
  | .ok cur =>
    if cur < stop then
      (false, if rs.isEmpty then "no_cloudtrail_coverage" else "cloudtrail_coverage_gap")
    else (true, "")

/-- `trailCovers`. -/
def trailCovers (reads : List (TrailRead S)) (start stop : S) : Bool × String :=
  if stop ≤ start then (true, "")
  else trailSweep (sortOn TrailRead.fromTime reads) start stop

/-- The read meets the window in more than its first instant. -/
def TrailRead.meets (start stop : S) (r : TrailRead S) : Bool :=
  decide (start < r.toTime) && decide (r.fromTime ≤ stop)

/-- The loop ends without an error when no read that meets the window hit the cap and the sweep
over them finds no hole. -/
lemma trailReach_eq_ok {start stop cur c : S} {rs : List (TrailRead S)} :
    trailReach start stop cur rs = .ok c ↔
      (∀ r ∈ rs.filter (·.meets start stop), r.capHit = false) ∧
        sweep TrailRead.fromTime TrailRead.toTime cur (rs.filter (·.meets start stop)) =
          some c := by
  induction rs generalizing cur with
  | nil => simp [trailReach, sweep]
  | cons r rs ih =>
      rw [trailReach]
      by_cases hmeets : r.meets start stop = true
      · have hcond : ¬(r.toTime ≤ start ∨ stop < r.fromTime) := by
          simpa [TrailRead.meets] using hmeets
        rw [if_neg hcond, filter_cons_of_pos hmeets, forall_mem_cons, sweep,
          ← max_def_lt cur r.toTime]
        cases hcap : r.capHit with
        | true => simp
        | false =>
            rw [if_neg Bool.false_ne_true]
            split_ifs with hgap
            · simp
            · simp only [ih, true_and]
      · have hcond : r.toTime ≤ start ∨ stop < r.fromTime := by
          simpa [TrailRead.meets, or_iff_not_imp_left] using hmeets
        rw [if_pos hcond, filter_cons_of_neg hmeets, ih]

lemma trailSweep_eq_true {rs : List (TrailRead S)} {start stop : S} :
    (trailSweep rs start stop).1 = true ↔
      ∃ c, trailReach start stop start rs = .ok c ∧ stop ≤ c := by
  rw [trailSweep]
  cases trailReach start stop start rs with
  | error reason => simp
  | ok cur => by_cases h : cur < stop <;> simp [h, not_lt.1]

variable {T : Type} [LinearOrder T] {place : S → T} {reads : List (TrailRead S)} {start stop : S}

/-- Every instant of the window lies in one of the reads, and none that meets it hit the cap. -/
@[mk_iff]
structure CoversWindow (place : S → T) (reads : List (TrailRead S)) (start stop : S) : Prop where
  covers : ∀ t, place start ≤ t → t ≤ place stop →
    ∃ r ∈ reads, place r.fromTime ≤ t ∧ t ≤ place r.toTime
  uncapped : ∀ r ∈ reads, start < r.toTime → r.fromTime ≤ stop → r.capHit = false

lemma CoversWindow.perm {reads' : List (TrailRead S)} (hperm : reads'.Perm reads) :
    CoversWindow place reads' start stop ↔ CoversWindow place reads start stop := by
  simp only [coversWindow_iff, hperm.mem_iff]

/-- More reads cover the window as well, if those that are added hit no cap. -/
lemma CoversWindow.append (h : CoversWindow place reads start stop) {added : List (TrailRead S)}
    (hadded : ∀ r ∈ added, r.capHit = false) : CoversWindow place (reads ++ added) start stop := by
  refine ⟨fun t ht hts => ?_, fun r hr hto hfrom => ?_⟩
  · obtain ⟨r, hr, hrt⟩ := h.covers t ht hts
    exact ⟨r, mem_append_left _ hr, hrt⟩
  · rcases mem_append.1 hr with hr | hr
    · exact h.uncapped r hr hto hfrom
    · exact hadded r hr

variable [DenselyOrdered T]

/-- What the sweep answers on reads that are sorted by their start. -/
lemma trailSweep_iff (hplace : StrictMono place) (hlt : start < stop)
    (hsorted : reads.Pairwise fun a b => a.fromTime ≤ b.fromTime) :
    (trailSweep reads start stop).1 = true ↔ CoversWindow place reads start stop := by
  have hcaps : (∀ r ∈ reads.filter (·.meets start stop), r.capHit = false) ↔
      ∀ r ∈ reads, start < r.toTime → r.fromTime ≤ stop → r.capHit = false := by
    simp [TrailRead.meets]
  have hstop : ∀ r ∈ reads.filter (·.meets start stop), r.fromTime ≤ stop := by
    intro r hr
    have := (mem_filter.1 hr).2
    simp only [TrailRead.meets, Bool.and_eq_true, decide_eq_true_eq] at this
    exact this.2
  rw [trailSweep_eq_true, coversWindow_iff]
  simp only [trailReach_eq_ok, and_assoc, exists_and_left]
  rw [sweep_reaches_iff hplace (hsorted.filter _) hstop, hcaps, and_comm]
  refine and_congr_left fun _ => ⟨fun h => ?_, fun h t ht hts => ?_⟩
  · intro t ht hts
    refine InIntervals.of_subset ?_ (filter_subset_self (p := (·.meets start stop)) reads)
    rcases ht.eq_or_lt with rfl | ht
    · exact inIntervals_start hplace hlt h
    · exact h t ht hts
  · -- a read that contains a later instant of the window meets it
    obtain ⟨r, hr, hlo, hhi⟩ := h t ht.le hts
    refine ⟨r, mem_filter.2 ⟨hr, ?_⟩, hlo, hhi⟩
    simp only [TrailRead.meets, Bool.and_eq_true, decide_eq_true_eq]
    exact ⟨hplace.lt_iff_lt.1 (ht.trans_le hhi), hplace.le_iff_le.1 (hlo.trans hts)⟩

lemma trailCovers_eq_true (hplace : StrictMono place) (hlt : start < stop) :
    (trailCovers reads start stop).1 = true ↔ CoversWindow place reads start stop := by
  rw [trailCovers, if_neg hlt.not_ge, trailSweep_iff hplace hlt (sortOn_sorted _ _),
    CoversWindow.perm (perm_sortOn _ _)]

/-- Every instant of a window that is covered lies in a read that did not hit the cap. -/
lemma CoversWindow.exists_uncapped (h : CoversWindow place reads start stop)
    (hplace : StrictMono place) (hlt : start < stop) {t : T} (ht : place start ≤ t)
    (hts : t ≤ place stop) :
    ∃ r ∈ reads, r.capHit = false ∧ place r.fromTime ≤ t ∧ t ≤ place r.toTime := by
  have hafter : ∀ t, place start < t → t ≤ place stop →
      InIntervals TrailRead.fromTime TrailRead.toTime place (reads.filter (!·.capHit)) t := by
    intro t ht hts
    obtain ⟨r, hr, hlo, hhi⟩ := h.covers t ht.le hts
    have hcap := h.uncapped r hr (hplace.lt_iff_lt.1 (ht.trans_le hhi))
      (hplace.le_iff_le.1 (hlo.trans hts))
    exact ⟨r, mem_filter.2 ⟨hr, by simpa using hcap⟩, hlo, hhi⟩
  have hin : InIntervals TrailRead.fromTime TrailRead.toTime place (reads.filter (!·.capHit)) t := by
    rcases ht.eq_or_lt with rfl | ht
    · exact inIntervals_start hplace hlt hafter
    · exact hafter t ht hts
  obtain ⟨r, hr, hlo, hhi⟩ := hin
  obtain ⟨hr, hcap⟩ := mem_filter.1 hr
  exact ⟨r, hr, by simpa using hcap, hlo, hhi⟩

/-- With continuous time, the reads cover a window exactly when their closed intervals contain every
instant of it and no read that meets it hit the cap.  Neither the order of the reads nor the order
in which equal starts are sorted makes a difference. -/
theorem trailCovers_iff (hplace : StrictMono place) (reads : List (TrailRead S)) {start stop : S}
    (hlt : start < stop) :
    ((trailCovers reads start stop).1 = true ↔
      (∀ t, place start ≤ t → t ≤ place stop →
        ∃ r ∈ reads, place r.fromTime ≤ t ∧ t ≤ place r.toTime) ∧
      ∀ r ∈ reads, start < r.toTime → r.fromTime ≤ stop → r.capHit = false) ∧
    (∀ reads', reads'.Perm reads →
      (trailCovers reads' start stop).1 = (trailCovers reads start stop).1) ∧
    ∀ rs, rs.Perm reads → rs.Pairwise (fun a b => a.fromTime ≤ b.fromTime) →
      (trailSweep rs start stop).1 = (trailCovers reads start stop).1 := by
  refine ⟨?_, fun reads' hperm => ?_, fun rs hperm hsorted => ?_⟩
  · rw [trailCovers_eq_true hplace hlt, coversWindow_iff]
  · rw [Bool.eq_iff_iff, trailCovers_eq_true hplace hlt, trailCovers_eq_true hplace hlt,
      CoversWindow.perm hperm]
  · rw [Bool.eq_iff_iff, trailSweep_iff hplace hlt hsorted, trailCovers_eq_true hplace hlt,
      CoversWindow.perm hperm]

end

/-- Two reads that meet at an instant cover a window together. -/
theorem trailCovers_adjacent :
    (trailCovers [⟨1, 2, false⟩, ⟨0, 1, false⟩] (0 : ℤ) 2).1 = true ∧
      ∀ t : ℝ, ((0 : ℤ) : ℝ) ≤ t → t ≤ ((2 : ℤ) : ℝ) →
        ∃ r ∈ [(⟨1, 2, false⟩ : TrailRead ℤ), ⟨0, 1, false⟩], (r.fromTime : ℝ) ≤ t ∧ t ≤ r.toTime := by
  have hcovers : (trailCovers [⟨1, 2, false⟩, ⟨0, 1, false⟩] (0 : ℤ) 2).1 = true := by decide
  exact ⟨hcovers, ((trailCovers_iff (T := ℝ) Int.cast_strictMono _ (by decide)).1.1 hcovers).1⟩

end AuthSec

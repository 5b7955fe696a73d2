import AuthSec.Go.Time
import AuthSec.Lib.Intervals
import AuthSec.Lib.Lists
import AuthSec.Lib.Sorting
import Mathlib.Data.Int.ConditionallyCompleteOrder
import Mathlib.Data.Prod.Lex
import Mathlib.Order.ConditionallyCompleteLattice.Basic

/-!
# Grant intervals

When a service was granted to a role.  A grant path holds while all of its components hold, a
component during any of its intervals; the service is granted while some path holds.  The intervals
of a grant come out separated, and they and their open-start flags depend on the paths, components
and intervals only as sets (`grantedIntervals_algebra`).
-/

namespace AuthSec

open List

/-- A span during which a component of a grant path held.  The end is exclusive, and absent while
the component still holds; `openStart` marks a component that was there when it was first looked
at. -/
structure Interval where
  fromTime : Time
  toTime : Option Time
  openStart : Bool
  deriving DecidableEq

/-- A path to a grant: all its components must hold. -/
structure GrantPath where
  key : String
  components : List (List Interval)
  deriving DecidableEq

def Interval.contains (iv : Interval) (t : Time) : Bool :=
  decide (iv.fromTime ≤ t) && iv.toTime.all fun e => decide (t < e)

def minEnd : Option Time → Option Time → Option Time
  | none, b => b
  | a, none => a
  | some a, some b => if a < b then some a else some b

/-- The later start, the earlier end, and the flag if both have it. -/
def Interval.meet (a b : Interval) : Interval where
  fromTime := if a.fromTime < b.fromTime then b.fromTime else a.fromTime
  toTime := minEnd a.toTime b.toTime
  openStart := a.openStart && b.openStart

/-- `intersect`; nothing where the intervals have no point in common. -/
def intersect (a b : Interval) : Option Interval :=
  if (a.meet b).toTime.any fun e => !decide ((a.meet b).fromTime < e) then none
  else some (a.meet b)

/-- The order that `normalizeIntervals` sorts by. -/
def Interval.sortKey (iv : Interval) : Time ×ₗ Bool :=
  toLex (iv.fromTime, !iv.openStart)

/-- The interval starts before the end of the last one, or at it. -/
def Interval.touches (last iv : Interval) : Bool :=
  last.toTime.all fun e => !decide (e < iv.fromTime)

/-- The last interval with another one merged into it. -/
def Interval.absorb (last iv : Interval) : Interval :=
  { last with
    toTime := if last.toTime.any fun e => iv.toTime.all fun e' => decide (e < e') then iv.toTime
      else last.toTime
    openStart := last.openStart || (iv.fromTime == last.fromTime && iv.openStart) }

/-- The loop of `normalizeIntervals` over the sorted intervals. -/
def mergeIntervals (last : Interval) : List Interval → List Interval
  | [] => [last]
  | iv :: ivs =>
    if last.touches iv then mergeIntervals (last.absorb iv) ivs else last :: mergeIntervals iv ivs

def normalizeIntervals (ivs : List Interval) : List Interval :=
  match sortOn Interval.sortKey ivs with
  | [] => []
  | iv :: ivs => mergeIntervals iv ivs

/-- The intervals during which two components hold. -/
def meetIntervals (as bs : List Interval) : List Interval :=
  as.flatMap fun a => bs.filterMap (intersect a)

/-- `PathIntervals`. -/
def pathIntervals (p : GrantPath) : List Interval :=
  match p.components with
  | [] => []
  | c :: cs =>
    cs.foldl (fun acc comp => normalizeIntervals (meetIntervals acc (normalizeIntervals comp)))
      (normalizeIntervals c)

/-- `GrantedIntervals`. -/
def grantedIntervals (paths : List GrantPath) : List Interval :=
  normalizeIntervals (paths.flatMap pathIntervals)

/-- `CurrentGrant`. -/
def currentGrant (paths : List GrantPath) (t : Time) : Option Interval :=
  (grantedIntervals paths).find? (·.contains t)

example : grantedIntervals
    [⟨"p", [[⟨5, some 9, false⟩, ⟨0, some 5, true⟩], [⟨3, none, true⟩]]⟩, ⟨"q", [[⟨12, none, false⟩]]⟩] =
      [⟨3, some 9, true⟩, ⟨12, none, false⟩] := by
  decide +kernel

/-! ## Ends -/

namespace Interval

/-- The end, beyond all times if there is none. -/
def stop (iv : Interval) : WithTop Time :=
  match iv.toTime with
  | none => ⊤
  | some e => e

/-- `To` is absent or after `From`. -/
def WellFormed (iv : Interval) : Prop :=
  ∀ e, iv.toTime = some e → iv.fromTime < e

/-- The interval contains the point. -/
abbrev Has (iv : Interval) (t : Time) : Prop :=
  Spans fromTime stop iv t

variable {a b iv last : Interval} {t : Time}

lemma contains_iff : iv.contains t = true ↔ iv.Has t := by
  rcases iv with ⟨s, _ | e, o⟩ <;> simp [contains, Has, Spans, stop]

lemma wellFormed_iff : iv.WellFormed ↔ (iv.fromTime : WithTop Time) < iv.stop := by
  rcases iv with ⟨s, _ | e, o⟩ <;> simp [WellFormed, stop]

lemma touches_iff : last.touches iv = true ↔ (iv.fromTime : WithTop Time) ≤ last.stop := by
  rcases last with ⟨s, _ | e, o⟩ <;> simp [touches, stop]

@[simp]
lemma fromTime_absorb : (last.absorb iv).fromTime = last.fromTime := rfl

lemma openStart_absorb : (last.absorb iv).openStart = true ↔ last.openStart = true ∨
    iv.fromTime = last.fromTime ∧ iv.openStart = true := by
  simp [absorb]

lemma stop_absorb : (last.absorb iv).stop = max last.stop iv.stop := by
  rcases last with ⟨s, _ | e, o⟩ <;> rcases iv with ⟨s', _ | e', o'⟩ <;> simp [absorb, stop]
  rcases lt_or_ge e e' with h | h
  · simp [h, h.le]
  · simp [h.not_gt, h]

lemma fromTime_meet : (a.meet b).fromTime = max a.fromTime b.fromTime := by
  rcases lt_or_ge a.fromTime b.fromTime with h | h
  · simp [meet, h, h.le]
  · simp [meet, h.not_gt, h]

lemma stop_meet : (a.meet b).stop = min a.stop b.stop := by
  rcases a with ⟨s, _ | e, o⟩ <;> rcases b with ⟨s', _ | e', o'⟩ <;> simp [meet, minEnd, stop]
  rcases lt_or_ge e e' with h | h
  · simp [h, h.le]
  · simp [h.not_gt, h]

lemma has_meet : (a.meet b).Has t ↔ a.Has t ∧ b.Has t := by
  simp only [Has, Spans, fromTime_meet, stop_meet, max_le_iff, lt_min_iff]
  tauto

lemma wellFormed_absorb (h : last.WellFormed) : (last.absorb iv).WellFormed := by
  rw [wellFormed_iff] at h ⊢
  rw [stop_absorb]
  exact lt_max_of_lt_left h

lemma wellFormed_of_has (h : iv.Has t) : iv.WellFormed :=
  wellFormed_iff.2 ((WithTop.coe_le_coe.2 h.1).trans_lt h.2)

lemma intersect_eq_some : intersect a b = some iv ↔ (a.meet b).WellFormed ∧ a.meet b = iv := by
  have hempty : (a.meet b).toTime.any (fun e => !decide ((a.meet b).fromTime < e)) = false ↔
      (a.meet b).WellFormed := by
    rw [WellFormed]
    cases (a.meet b).toTime <;> simp
  rw [intersect, ← hempty]
  split_ifs with h <;> simp [h]

end Interval

/-! ## Merging -/

open AuthSec.Interval

/-- The intervals are in the order of their starts. -/
abbrev InOrder (ivs : List Interval) : Prop :=
  ivs.Pairwise fun a b => a.fromTime ≤ b.fromTime

/-- Separated intervals of time. -/
abbrev Apart (ivs : List Interval) : Prop :=
  Separated fromTime stop ivs

section

variable {last iv : Interval} {ivs : List Interval}

/-- Everything but the first result starts after the end of the first interval. -/
lemma from_of_mem_merge (hwf : ∀ x ∈ ivs, x.WellFormed) (h : iv ∈ mergeIntervals last ivs) :
    iv.fromTime = last.fromTime ∨ last.stop < iv.fromTime := by
  induction ivs generalizing last with
  | nil => exact .inl (congrArg _ (mem_singleton.1 h))
  | cons x ivs ih =>
      obtain ⟨hx, hwf⟩ := forall_mem_cons.1 hwf
      rw [mergeIntervals] at h
      split_ifs at h with htouch
      · refine (ih hwf h).imp id fun hlt => ?_
        rw [stop_absorb] at hlt
        exact (le_max_left _ _).trans_lt hlt
      · rw [touches_iff, not_le] at htouch
        rcases mem_cons.1 h with rfl | h
        · exact .inl rfl
        · rcases ih hwf h with heq | hlt
          · exact .inr (heq ▸ htouch)
          · exact .inr (htouch.trans ((wellFormed_iff.1 hx).trans hlt))

lemma apart_merge (hlast : last.WellFormed) (hwf : ∀ x ∈ ivs, x.WellFormed) :
    Apart (mergeIntervals last ivs) := by
  induction ivs generalizing last with
  | nil => exact ⟨by simpa [mergeIntervals] using wellFormed_iff.1 hlast, by simp [mergeIntervals]⟩
  | cons x ivs ih =>
      obtain ⟨hx, hwf⟩ := forall_mem_cons.1 hwf
      rw [mergeIntervals]
      split_ifs with htouch
      · exact ih (wellFormed_absorb hlast) hwf
      · rw [touches_iff, not_le] at htouch
        obtain ⟨hproper, hapart⟩ := ih hx hwf
        refine ⟨forall_mem_cons.2 ⟨wellFormed_iff.1 hlast, hproper⟩,
          pairwise_cons.2 ⟨fun b hb => ?_, hapart⟩⟩
        rcases from_of_mem_merge hwf hb with heq | hlt
        · exact heq ▸ htouch
        · exact htouch.trans ((wellFormed_iff.1 hx).trans hlt)

/-- An interval that touches the last one adds its points to it. -/
lemma has_absorb {t : Time} (htouch : last.touches iv = true) (hle : last.fromTime ≤ iv.fromTime) :
    (last.absorb iv).Has t ↔ last.Has t ∨ iv.Has t := by
  rw [touches_iff] at htouch
  simp only [Interval.Has, Spans, stop_absorb, fromTime_absorb, lt_max_iff]
  constructor
  · rintro ⟨hfrom, hlt | hlt⟩
    · exact .inl ⟨hfrom, hlt⟩
    · rcases lt_or_ge (t : WithTop Time) last.stop with hlast | hlast
      · exact .inl ⟨hfrom, hlast⟩
      · exact .inr ⟨WithTop.coe_le_coe.1 (htouch.trans hlast), hlt⟩
  · rintro (⟨hfrom, hlt⟩ | ⟨hfrom, hlt⟩)
    · exact ⟨hfrom, .inl hlt⟩
    · exact ⟨hle.trans hfrom, .inr hlt⟩

lemma inOrder_absorb (h : InOrder (last :: iv :: ivs)) : InOrder (last.absorb iv :: ivs) := by
  obtain ⟨hlast, htail⟩ := pairwise_cons.1 h
  exact pairwise_cons.2
    ⟨fun b hb => hlast b (List.mem_cons_of_mem iv hb), (pairwise_cons.1 htail).2⟩

/-- Merging keeps the points. -/
lemma covers_merge {t : Time} (horder : InOrder (last :: ivs)) :
    (∃ a ∈ mergeIntervals last ivs, a.Has t) ↔ ∃ a ∈ last :: ivs, a.Has t := by
  induction ivs generalizing last with
  | nil => rfl
  | cons x ivs ih =>
      have hle : last.fromTime ≤ x.fromTime := (pairwise_cons.1 horder).1 x (by simp)
      rw [mergeIntervals]
      split_ifs with htouch
      · rw [ih (inOrder_absorb horder)]
        simp [has_absorb htouch hle, or_assoc]
      · simp only [exists_mem_cons_iff, ih horder.of_cons]

/-- A merged interval is open at its start if one of the intervals with that start is. -/
lemma openStart_merge (hlast : last.WellFormed) (hwf : ∀ x ∈ ivs, x.WellFormed)
    (horder : InOrder (last :: ivs)) (h : iv ∈ mergeIntervals last ivs) :
    iv.openStart = true ↔ ∃ x ∈ last :: ivs, x.fromTime = iv.fromTime ∧ x.openStart = true := by
  induction ivs generalizing last with
  | nil =>
      rw [mem_singleton.1 h]
      simp
  | cons x ivs ih =>
      obtain ⟨hx, hwf⟩ := forall_mem_cons.1 hwf
      obtain ⟨hfirst, htail⟩ := pairwise_cons.1 horder
      rw [mergeIntervals] at h
      split_ifs at h with htouch
      · rw [ih (wellFormed_absorb hlast) hwf (inOrder_absorb horder) h]
        rw [touches_iff] at htouch
        -- the absorbed interval counts only if it starts where the last one does
        have hhead : x.fromTime = iv.fromTime → x.fromTime = last.fromTime := by
          intro heq
          rcases from_of_mem_merge hwf h with hfrom | hlt
          · exact heq.trans hfrom
          · rw [stop_absorb, ← heq] at hlt
            exact absurd (htouch.trans (le_max_left _ _)) hlt.not_ge
        simp only [exists_mem_cons_iff, openStart_absorb, fromTime_absorb]
        constructor
        · rintro (⟨hfrom, hopen | ⟨hstart, hopen⟩⟩ | hrest)
          · exact .inl ⟨hfrom, hopen⟩
          · exact .inr (.inl ⟨hstart.trans hfrom, hopen⟩)
          · exact .inr (.inr hrest)
        · rintro (⟨hfrom, hopen⟩ | ⟨hfrom, hopen⟩ | hrest)
          · exact .inl ⟨hfrom, .inl hopen⟩
          · exact .inl ⟨(hhead hfrom).symm.trans hfrom, .inr ⟨hhead hfrom, hopen⟩⟩
          · exact .inr hrest
      · rw [touches_iff, not_le] at htouch
        have hlt : last.fromTime < x.fromTime :=
          WithTop.coe_lt_coe.1 ((wellFormed_iff.1 hlast).trans htouch)
        have hrest : ∀ y ∈ x :: ivs, last.fromTime < y.fromTime :=
          forall_mem_cons.2 ⟨hlt, fun y hy => hlt.trans_le ((pairwise_cons.1 htail).1 y hy)⟩
        rcases mem_cons.1 h with rfl | h
        · rw [exists_mem_cons_iff]
          refine ⟨fun hopen => .inl ⟨rfl, hopen⟩, ?_⟩
          rintro (⟨-, hopen⟩ | ⟨y, hy, hfrom, -⟩)
          · exact hopen
          · exact absurd hfrom (hrest y hy).ne'
        · have hne : last.fromTime ≠ iv.fromTime := by
            rcases from_of_mem_merge hwf h with hfrom | hstop
            · exact hfrom ▸ hlt.ne
            · have hxiv := WithTop.coe_lt_coe.1 ((wellFormed_iff.1 hx).trans hstop)
              exact (hlt.trans hxiv).ne
          rw [ih hx hwf htail h, exists_mem_cons_iff (a := last)]
          simp [hne]

end

/-! ## Normal forms -/

section

variable {iv : Interval} {ivs ivs' : List Interval}

lemma inOrder_sorted (ivs : List Interval) : InOrder (sortOn sortKey ivs) := by
  refine (sortOn_sorted sortKey ivs).imp fun {a b} h => ?_
  rcases (Prod.Lex.le_iff ..).1 h with hlt | ⟨heq, -⟩
  · exact hlt.le
  · exact heq.le

/-- What the loop is run on. -/
lemma normalizeIntervals_cases (hwf : ∀ x ∈ ivs, x.WellFormed) :
    (ivs = [] ∧ normalizeIntervals ivs = []) ∨ ∃ last rest,
      normalizeIntervals ivs = mergeIntervals last rest ∧ (last :: rest).Perm ivs ∧
        last.WellFormed ∧ (∀ x ∈ rest, x.WellFormed) ∧ InOrder (last :: rest) := by
  have hperm := perm_sortOn sortKey ivs
  have horder := inOrder_sorted ivs
  rw [normalizeIntervals]
  cases hsorted : sortOn sortKey ivs with
  | nil =>
      rw [hsorted] at hperm
      exact .inl ⟨hperm.nil_eq.symm, rfl⟩
  | cons last rest =>
      rw [hsorted] at hperm horder
      have hall := forall_mem_cons.1 fun x hx => hwf x (hperm.mem_iff.1 hx)
      exact .inr ⟨last, rest, rfl, hperm, hall.1, hall.2, horder⟩

lemma apart_normalize (hwf : ∀ x ∈ ivs, x.WellFormed) : Apart (normalizeIntervals ivs) := by
  rcases normalizeIntervals_cases hwf with ⟨-, hnil⟩ | ⟨last, rest, heq, -, hlast, hrest, -⟩
  · rw [hnil]
    exact .nil
  · rw [heq]
    exact apart_merge hlast hrest

lemma covers_normalize (hwf : ∀ x ∈ ivs, x.WellFormed) (t : Time) :
    (∃ a ∈ normalizeIntervals ivs, a.Has t) ↔ ∃ a ∈ ivs, a.Has t := by
  rcases normalizeIntervals_cases hwf with ⟨hivs, hnil⟩ | ⟨last, rest, heq, hperm, -, -, horder⟩
  · rw [hnil, hivs]
  · rw [heq, covers_merge horder]
    simp only [hperm.mem_iff]

lemma openStart_normalize (hwf : ∀ x ∈ ivs, x.WellFormed) (h : iv ∈ normalizeIntervals ivs) :
    iv.openStart = true ↔ ∃ x ∈ ivs, x.fromTime = iv.fromTime ∧ x.openStart = true := by
  rcases normalizeIntervals_cases hwf with ⟨-, hnil⟩ | ⟨last, rest, heq, hperm, hlast, hrest, horder⟩
  · rw [hnil] at h
    exact absurd h not_mem_nil
  · rw [heq] at h
    rw [openStart_merge hlast hrest horder h]
    simp only [hperm.mem_iff]

end

/-- Some interval contains the point. -/
def Covered (ivs : List Interval) (t : Time) : Prop :=
  ∃ a ∈ ivs, a.Has t

/-- Some interval with an open start contains the point. -/
def OpenAt (ivs : List Interval) (t : Time) : Prop :=
  ∃ a ∈ ivs, a.Has t ∧ a.openStart = true

section

variable {iv : Interval} {ivs ivs' as bs : List Interval} {t : Time}

lemma Interval.ext_stop {a b : Interval} (hfrom : a.fromTime = b.fromTime) (hstop : a.stop = b.stop)
    (hopen : a.openStart = b.openStart) : a = b := by
  rcases a with ⟨s, _ | e, o⟩ <;> rcases b with ⟨s', _ | e', o'⟩ <;> simp_all [stop]

/-- Separated intervals are determined by the points they cover and those with an open start. -/
lemma eq_of_covered (h : Apart ivs) (h' : Apart ivs') (hcovered : ∀ t, Covered ivs t ↔ Covered ivs' t)
    (hopen : ∀ t, OpenAt ivs t ↔ OpenAt ivs' t) : ivs = ivs' :=
  h.eq_of_covers h' (fun _ _ => ext_stop) hcovered hopen

lemma OpenAt.of_mem (hwf : ∀ x ∈ ivs, x.WellFormed) (hmem : ∀ x, x ∈ ivs ↔ x ∈ ivs')
    (h : OpenAt (normalizeIntervals ivs) t) : OpenAt (normalizeIntervals ivs') t := by
  have hwf' : ∀ x ∈ ivs', x.WellFormed := fun x hx => hwf x ((hmem x).2 hx)
  obtain ⟨a, ha, hat, hopen⟩ := h
  have hends := (apart_normalize hwf).ends_eq (apart_normalize hwf') fun t => by
    rw [covers_normalize hwf, covers_normalize hwf']
    simp only [hmem]
  have hin : (a.fromTime, a.stop) ∈ (normalizeIntervals ivs').map fun b => (b.fromTime, b.stop) :=
    hends ▸ mem_map.2 ⟨a, ha, rfl⟩
  obtain ⟨b, hb, heq⟩ := mem_map.1 hin
  obtain ⟨hfrom, hstop⟩ := Prod.mk.inj heq
  refine ⟨b, hb, ⟨hfrom ▸ hat.1, hstop ▸ hat.2⟩, (openStart_normalize hwf' hb).2 ?_⟩
  obtain ⟨x, hx, hxfrom, hxopen⟩ := (openStart_normalize hwf ha).1 hopen
  exact ⟨x, (hmem x).1 hx, hxfrom.trans hfrom.symm, hxopen⟩

/-- The normal form depends on which intervals there are only. -/
lemma normalizeIntervals_congr (hwf : ∀ x ∈ ivs, x.WellFormed) (hmem : ∀ x, x ∈ ivs ↔ x ∈ ivs') :
    normalizeIntervals ivs = normalizeIntervals ivs' := by
  have hwf' : ∀ x ∈ ivs', x.WellFormed := fun x hx => hwf x ((hmem x).2 hx)
  refine eq_of_covered (apart_normalize hwf) (apart_normalize hwf') (fun t => ?_) fun t =>
    ⟨.of_mem hwf hmem, .of_mem hwf' fun x => (hmem x).symm⟩
  rw [Covered, Covered, covers_normalize hwf, covers_normalize hwf']
  simp only [hmem]

lemma merge_of_apart (h : Apart (iv :: ivs)) : mergeIntervals iv ivs = iv :: ivs := by
  induction ivs generalizing iv with
  | nil => rfl
  | cons x ivs ih =>
      have htouch : ¬iv.touches x = true := by
        rw [touches_iff, not_le]
        exact h.stop_lt (mem_cons_self ..)
      rw [mergeIntervals, if_neg htouch, ih h.tail]

/-- Separated intervals are a normal form. -/
lemma normalizeIntervals_of_apart (h : Apart ivs) : normalizeIntervals ivs = ivs := by
  have hsorted : ivs.Pairwise fun a b => a.sortKey ≤ b.sortKey := by
    refine h.apart.imp_of_mem fun {a b} ha _ hab => (Prod.Lex.le_iff ..).2 (.inl ?_)
    exact WithTop.coe_lt_coe.1 ((h.proper a ha).trans hab)
  rw [normalizeIntervals, sortOn_of_sorted hsorted]
  cases ivs with
  | nil => rfl
  | cons iv ivs => exact merge_of_apart h

/-! ## Intersections -/

lemma mem_meet : iv ∈ meetIntervals as bs ↔
    ∃ a ∈ as, ∃ b ∈ bs, (a.meet b).WellFormed ∧ a.meet b = iv := by
  simp [meetIntervals, mem_filterMap, intersect_eq_some]

/-- Intersections of separated intervals are separated. -/
lemma apart_meet (has : Apart as) (hbs : Apart bs) : Apart (meetIntervals as bs) := by
  refine ⟨fun x hx => ?_, pairwise_flatMap.2 ⟨fun a _ => ?_, ?_⟩⟩
  · obtain ⟨a, -, b, -, hwf, rfl⟩ := mem_meet.1 hx
    exact wellFormed_iff.1 hwf
  · -- two intervals of the second list
    refine pairwise_filterMap.2 (hbs.apart.imp fun {b b'} hlt x hx x' hx' => ?_)
    obtain ⟨-, rfl⟩ := intersect_eq_some.1 hx
    obtain ⟨-, rfl⟩ := intersect_eq_some.1 hx'
    rw [stop_meet, fromTime_meet]
    exact (min_le_right _ _).trans_lt (hlt.trans_le (WithTop.coe_le_coe.2 (le_max_right _ _)))
  · -- two intervals of the first list
    refine has.apart.imp fun {a a'} hlt x hx x' hx' => ?_
    obtain ⟨b, -, hx⟩ := mem_filterMap.1 hx
    obtain ⟨b', -, hx'⟩ := mem_filterMap.1 hx'
    obtain ⟨-, rfl⟩ := intersect_eq_some.1 hx
    obtain ⟨-, rfl⟩ := intersect_eq_some.1 hx'
    rw [stop_meet, fromTime_meet]
    exact (min_le_left _ _).trans_lt (hlt.trans_le (WithTop.coe_le_coe.2 (le_max_left _ _)))

lemma covered_meet : Covered (meetIntervals as bs) t ↔ Covered as t ∧ Covered bs t := by
  constructor
  · rintro ⟨x, hx, hxt⟩
    obtain ⟨a, ha, b, hb, -, rfl⟩ := mem_meet.1 hx
    obtain ⟨hat, hbt⟩ := has_meet.1 hxt
    exact ⟨⟨a, ha, hat⟩, b, hb, hbt⟩
  · rintro ⟨⟨a, ha, hat⟩, b, hb, hbt⟩
    have hmeet := has_meet.2 ⟨hat, hbt⟩
    exact ⟨_, mem_meet.2 ⟨a, ha, b, hb, wellFormed_of_has hmeet, rfl⟩, hmeet⟩

lemma openAt_meet : OpenAt (meetIntervals as bs) t ↔ OpenAt as t ∧ OpenAt bs t := by
  constructor
  · rintro ⟨x, hx, hxt, hopen⟩
    obtain ⟨a, ha, b, hb, -, rfl⟩ := mem_meet.1 hx
    obtain ⟨hat, hbt⟩ := has_meet.1 hxt
    obtain ⟨haopen, hbopen⟩ := Bool.and_eq_true_iff.1 hopen
    exact ⟨⟨a, ha, hat, haopen⟩, b, hb, hbt, hbopen⟩
  · rintro ⟨⟨a, ha, hat, haopen⟩, b, hb, hbt, hbopen⟩
    have hmeet := has_meet.2 ⟨hat, hbt⟩
    exact ⟨_, mem_meet.2 ⟨a, ha, b, hb, wellFormed_of_has hmeet, rfl⟩, hmeet,
      Bool.and_eq_true_iff.2 ⟨haopen, hbopen⟩⟩

end

/-! ## Paths -/

/-- Every interval of the path has no end or one after its start. -/
def GrantPath.WellFormed (p : GrantPath) : Prop :=
  ∀ c ∈ p.components, ∀ iv ∈ c, iv.WellFormed

/-- The same path, its components and their intervals in any order. -/
structure GrantPath.Rearranges (p q : GrantPath) : Prop where
  key : p.key = q.key
  components : ∃ cs, p.components.Perm cs ∧ List.Forall₂ List.Perm cs q.components

/-- The same paths, everything in any order. -/
def PathsRearrange (paths paths' : List GrantPath) : Prop :=
  ∃ l, paths.Perm l ∧ List.Forall₂ GrantPath.Rearranges l paths'

section

variable {acc : List Interval} {cs : List (List Interval)} {p q : GrantPath}
  {paths paths' : List GrantPath}

/-- The loop of `PathIntervals` intersects the components. -/
lemma foldl_meet_spec (hacc : Apart acc) (hcs : ∀ c ∈ cs, ∀ iv ∈ c, iv.WellFormed) :
    let result := cs.foldl
      (fun acc comp => normalizeIntervals (meetIntervals acc (normalizeIntervals comp))) acc
    Apart result ∧ (∀ t, Covered result t ↔ Covered acc t ∧ ∀ c ∈ cs, Covered c t) ∧
      ∀ t, OpenAt result t ↔ OpenAt acc t ∧ ∀ c ∈ cs, OpenAt (normalizeIntervals c) t := by
  induction cs generalizing acc with
  | nil => exact ⟨hacc, by simp, by simp⟩
  | cons c cs ih =>
      obtain ⟨hc, hcs⟩ := forall_mem_cons.1 hcs
      have hmeet := apart_meet hacc (apart_normalize hc)
      obtain ⟨hapart, hcovered, hopen⟩ := ih hmeet hcs
      simp only [foldl_cons, normalizeIntervals_of_apart hmeet]
      refine ⟨hapart, fun t => ?_, fun t => ?_⟩
      · have hnormal : Covered (normalizeIntervals c) t ↔ Covered c t := covers_normalize hc t
        rw [hcovered, covered_meet, hnormal, forall_mem_cons, and_assoc]
      · rw [hopen, openAt_meet, forall_mem_cons, and_assoc]

/-- A path holds where all of its components do, with an open start where all of them have one. -/
lemma pathIntervals_spec (hp : p.WellFormed) : Apart (pathIntervals p) ∧
    (∀ t, Covered (pathIntervals p) t ↔ p.components ≠ [] ∧ ∀ c ∈ p.components, Covered c t) ∧
      ∀ t, OpenAt (pathIntervals p) t ↔
        p.components ≠ [] ∧ ∀ c ∈ p.components, OpenAt (normalizeIntervals c) t := by
  rw [GrantPath.WellFormed] at hp
  rw [pathIntervals]
  cases hcs : p.components with
  | nil => exact ⟨.nil, by simp [Covered], by simp [OpenAt]⟩
  | cons c cs =>
      rw [hcs] at hp
      obtain ⟨hc, hrest⟩ := forall_mem_cons.1 hp
      obtain ⟨hapart, hcovered, hopen⟩ := foldl_meet_spec (apart_normalize hc) hrest
      have hnormal : ∀ t, Covered (normalizeIntervals c) t ↔ Covered c t := covers_normalize hc
      refine ⟨hapart, fun t => ?_, fun t => ?_⟩
      · simp [hcovered, hnormal]
      · simp [hopen]

lemma wellFormed_of_apart {ivs : List Interval} (h : Apart ivs) : ∀ iv ∈ ivs, iv.WellFormed :=
  fun iv hiv => wellFormed_iff.2 (h.proper iv hiv)

namespace GrantPath.Rearranges

lemma exists_left (h : p.Rearranges q) {c : List Interval} (hc : c ∈ q.components) :
    ∃ d ∈ p.components, d.Perm c := by
  obtain ⟨cs, hperm, hrows⟩ := h.components
  obtain ⟨d, hd, hdc⟩ := exists_of_forall₂ hrows.flip hc
  exact ⟨d, hperm.mem_iff.2 hd, hdc⟩

lemma exists_right (h : p.Rearranges q) {c : List Interval} (hc : c ∈ p.components) :
    ∃ d ∈ q.components, c.Perm d := by
  obtain ⟨cs, hperm, hrows⟩ := h.components
  exact exists_of_forall₂ hrows (hperm.mem_iff.1 hc)

lemma wellFormed (h : p.Rearranges q) (hp : p.WellFormed) : q.WellFormed := by
  intro c hc iv hiv
  obtain ⟨d, hd, hperm⟩ := h.exists_left hc
  exact hp d hd iv (hperm.mem_iff.2 hiv)

lemma components_eq_nil (h : p.Rearranges q) : p.components = [] ↔ q.components = [] := by
  obtain ⟨cs, hperm, hrows⟩ := h.components
  rw [← length_eq_zero_iff, hperm.length_eq, hrows.length_eq, length_eq_zero_iff]

/-- What holds of every component does not depend on the order. -/
lemma forall_iff (h : p.Rearranges q) {P : List Interval → Prop}
    (hP : ∀ c ∈ p.components, ∀ d, c.Perm d → (P c ↔ P d)) :
    (∀ c ∈ p.components, P c) ↔ ∀ c ∈ q.components, P c := by
  constructor
  · intro hall c hc
    obtain ⟨d, hd, hperm⟩ := h.exists_left hc
    exact (hP d hd c hperm).1 (hall d hd)
  · intro hall c hc
    obtain ⟨d, hd, hperm⟩ := h.exists_right hc
    exact (hP c hc d hperm).2 (hall d hd)

lemma pathIntervals_eq (h : p.Rearranges q) (hp : p.WellFormed) :
    pathIntervals p = pathIntervals q := by
  obtain ⟨hapart, hcovered, hopen⟩ := pathIntervals_spec hp
  obtain ⟨hapart', hcovered', hopen'⟩ := pathIntervals_spec (h.wellFormed hp)
  refine eq_of_covered hapart hapart' (fun t => ?_) fun t => ?_
  · rw [hcovered, hcovered', Ne, Ne, h.components_eq_nil, h.forall_iff fun c _ d hperm => ?_]
    simp only [Covered, hperm.mem_iff]
  · rw [hopen, hopen', Ne, Ne, h.components_eq_nil, h.forall_iff fun c hc d hperm => ?_]
    rw [normalizeIntervals_congr (hp c hc) fun x => hperm.mem_iff]

end GrantPath.Rearranges

lemma wellFormed_paths (hwf : ∀ p ∈ paths, p.WellFormed) :
    ∀ iv ∈ paths.flatMap pathIntervals, iv.WellFormed := by
  intro iv hiv
  obtain ⟨p, hp, hiv⟩ := List.mem_flatMap.1 hiv
  exact wellFormed_of_apart (pathIntervals_spec (hwf p hp)).1 iv hiv

lemma covered_granted (hwf : ∀ p ∈ paths, p.WellFormed) (t : Time) :
    Covered (grantedIntervals paths) t ↔
      ∃ p ∈ paths, p.components ≠ [] ∧ ∀ c ∈ p.components, Covered c t := by
  have hnormal : Covered (grantedIntervals paths) t ↔ Covered (paths.flatMap pathIntervals) t :=
    covers_normalize (wellFormed_paths hwf) t
  rw [hnormal, Covered]
  constructor
  · rintro ⟨iv, hiv, ht⟩
    obtain ⟨p, hp, hiv⟩ := List.mem_flatMap.1 hiv
    exact ⟨p, hp, ((pathIntervals_spec (hwf p hp)).2.1 t).1 ⟨iv, hiv, ht⟩⟩
  · rintro ⟨p, hp, hall⟩
    obtain ⟨iv, hiv, ht⟩ := ((pathIntervals_spec (hwf p hp)).2.1 t).2 hall
    exact ⟨iv, List.mem_flatMap.2 ⟨p, hp, hiv⟩, ht⟩

lemma apart_granted (hwf : ∀ p ∈ paths, p.WellFormed) : Apart (grantedIntervals paths) :=
  apart_normalize (wellFormed_paths hwf)

lemma mem_pathIntervals_iff (hwf : ∀ p ∈ paths, p.WellFormed) (h : PathsRearrange paths paths')
    (iv : Interval) : iv ∈ paths.flatMap pathIntervals ↔ iv ∈ paths'.flatMap pathIntervals := by
  obtain ⟨l, hperm, hrows⟩ := h
  simp only [List.mem_flatMap]
  constructor
  · rintro ⟨p, hp, hiv⟩
    obtain ⟨q, hq, hpq⟩ := exists_of_forall₂ hrows (hperm.mem_iff.1 hp)
    exact ⟨q, hq, hpq.pathIntervals_eq (hwf p hp) ▸ hiv⟩
  · rintro ⟨q, hq, hiv⟩
    obtain ⟨p, hp, hpq⟩ := exists_of_forall₂ hrows.flip hq
    have hp := hperm.mem_iff.2 hp
    exact ⟨p, hp, hpq.pathIntervals_eq (hwf p hp) ▸ hiv⟩

lemma stop_lt_iff {a b : Interval} :
    a.stop < b.fromTime ↔ ∃ e, a.toTime = some e ∧ e < b.fromTime := by
  rcases a with ⟨s, _ | e, o⟩ <;> simp [stop]

/-- A service is granted where some path holds in all its components; the intervals come in order,
none touching the next; and they, with their open starts, do not depend on any order. -/
theorem grantedIntervals_algebra (hwf : ∀ p ∈ paths, p.WellFormed) :
    (∀ t, (∃ iv ∈ grantedIntervals paths, iv.contains t = true) ↔
      ∃ p ∈ paths, p.components ≠ [] ∧ ∀ c ∈ p.components, ∃ iv ∈ c, iv.contains t = true) ∧
    (∀ iv ∈ grantedIntervals paths, iv.WellFormed) ∧
    ((grantedIntervals paths).Pairwise fun a b => ∃ e, a.toTime = some e ∧ e < b.fromTime) ∧
    ∀ paths', PathsRearrange paths paths' → grantedIntervals paths' = grantedIntervals paths ∧
      ∀ t, currentGrant paths' t = currentGrant paths t := by
  have hapart := apart_granted hwf
  refine ⟨fun t => ?_, wellFormed_of_apart hapart, ?_, fun paths' h => ?_⟩
  · simp only [contains_iff]
    exact covered_granted hwf t
  · exact hapart.apart.imp fun h => stop_lt_iff.1 h
  · have heq : grantedIntervals paths' = grantedIntervals paths :=
      (normalizeIntervals_congr (wellFormed_paths hwf) (mem_pathIntervals_iff hwf h)).symm
    exact ⟨heq, fun t => by rw [currentGrant, currentGrant, heq]⟩

end

/-- A policy attached in two revisions, of a statement that was there before. -/
def twoRevisions : GrantPath :=
  ⟨"p", [[⟨0, some 5, true⟩, ⟨5, some 9, false⟩], [⟨3, none, true⟩]]⟩

/-- A component with two revisions, in either order. -/
theorem grantedIntervals_two_revisions :
    grantedIntervals [⟨"p", [[⟨3, none, true⟩], [⟨5, some 9, false⟩, ⟨0, some 5, true⟩]]⟩] =
      grantedIntervals [twoRevisions] := by
  have hwf : ∀ p ∈ [twoRevisions], p.WellFormed := by
    simp [twoRevisions, GrantPath.WellFormed, Interval.WellFormed]
  have hrows : twoRevisions.Rearranges
      ⟨"p", [[⟨3, none, true⟩], [⟨5, some 9, false⟩, ⟨0, some 5, true⟩]]⟩ :=
    ⟨rfl, [[⟨3, none, true⟩], [⟨0, some 5, true⟩, ⟨5, some 9, false⟩]], .swap ..,
      .cons (.refl _) (.cons (.swap ..) .nil)⟩
  exact ((grantedIntervals_algebra hwf).2.2.2 _ ⟨_, .refl _, .cons hrows .nil⟩).1

end AuthSec

import AuthSec.Findings.Lifecycle

/-!
# Planning the same revision again

Which rows and findings a plan writes, and that a plan which was carried out leaves nothing to plan
for the same evaluation.  `applyUpdates` is the effect of a plan on what the lifecycle reads of the
rows; `writeFindings` is the transaction.
-/

namespace AuthSec

open List

/-- What the lifecycle reads of a row after an update. -/
def FindingUpdate.storedAfter (u : FindingUpdate) (s : StoredFinding) : StoredFinding :=
  { s with
    status := u.status
    lastEvaluatedRev := u.lastEvaluatedRev
    exceptedUntil := if u.clearException then none else s.exceptedUntil }

/-- What the lifecycle reads of an inserted row. -/
def FindingUpdate.storedNew (u : FindingUpdate) (f : Finding) : StoredFinding where
  fingerprint := f.fingerprint
  kind := f.kind
  roleID := f.roleID
  detailKey := f.detailKey
  status := u.status
  lastEvaluatedRev := u.lastEvaluatedRev
  exceptedUntil := none

/-- The update that is planned for a row. -/
def updateFor (updates : List FindingUpdate) (s : StoredFinding) : Option FindingUpdate :=
  updates.find? fun u => !u.insert && u.fingerprint == s.fingerprint

/-- The rows after a plan was carried out. -/
def applyUpdates (updates : List FindingUpdate) (stored : List StoredFinding) :
    List StoredFinding :=
  stored.map (fun s => (updateFor updates s).elim s (·.storedAfter s)) ++
    updates.filterMap fun u => if u.insert then u.finding.map u.storedNew else none

namespace Evaluation

variable {ev : Evaluation} {posture : Posture} {stored : List StoredFinding}

/-- The finding holds. -/
def IsHeld (ev : Evaluation) (fp : String) : Prop :=
  ∃ f ∈ ev.findings, f.fingerprint = fp

variable {fp : String} {s : StoredFinding}

lemma isHeld_iff : ev.IsHeld fp ↔ ∃ f, ev.holds.get? fp = some f := by
  rw [← Option.isSome_iff_exists, holds, GoMap.get?_ofList_eq, Option.isSome_map,
    getLast?_isSome, ne_eq, filter_eq_nil_iff, IsHeld]
  simp

lemma undecided_iff :
    ev.undecided s = true ↔
      s.roleID ∈ ev.presentRoles ∧ ev.isUnknown s = true ∧ ¬ev.IsHeld s.fingerprint := by
  rw [isHeld_iff, ← Option.isSome_iff_exists, Option.not_isSome_iff_eq_none]
  simp only [undecided, Bool.and_eq_true, Option.isNone_iff_eq_none, decide_eq_true_eq]
  tauto

/-! ## Which rows are written -/

/-- A row with distinct fingerprints is written exactly when it has an update. -/
lemma mem_map_plan_of_stored (hnodup : (stored.map StoredFinding.fingerprint).Nodup)
    (hs : s ∈ stored) :
    s.fingerprint ∈ (planFindingUpdates ev stored posture).map FindingUpdate.fingerprint ↔
      s.lastEvaluatedRev < ev.rev ∧ ev.undecided s = false := by
  simp only [mem_map, mem_planFindingUpdates_iff]
  constructor
  · rintro ⟨u, ⟨fp, f, hnew, -, rfl⟩ | ⟨s', hs', hu⟩, heq⟩
    · exact absurd ⟨s, hs, heq.symm⟩ hnew
    · rw [ev.fingerprint_of_storedUpdate posture hu] at heq
      obtain rfl := inj_on_of_nodup_map hnodup hs' hs heq
      obtain ⟨hrev, hdecided, -⟩ := (ev.storedUpdate_eq_some posture).1 hu
      exact ⟨hrev, hdecided⟩
  · rintro ⟨hrev, hdecided⟩
    exact ⟨ev.decidedUpdate posture s, Or.inr ⟨s, hs,
      (ev.storedUpdate_eq_some posture).2 ⟨hrev, hdecided, rfl⟩⟩, rfl⟩

lemma mem_map_plan_of_held (hheld : ev.IsHeld fp) (hnew : fp ∉ stored.map StoredFinding.fingerprint) :
    fp ∈ (planFindingUpdates ev stored posture).map FindingUpdate.fingerprint := by
  obtain ⟨f, hf⟩ := isHeld_iff.1 hheld
  exact mem_map.2 ⟨_, (mem_planFindingUpdates_iff ev posture).2 (Or.inl ⟨fp, f, hnew, hf, rfl⟩),
    rfl⟩

/-! ## The rows afterwards -/

/-- A row that had an update is the one that the update leaves. -/
lemma lastEvaluatedRev_of_updateFor {u : FindingUpdate}
    (h : updateFor (planFindingUpdates ev stored posture) s = some u) :
    u.lastEvaluatedRev = ev.rev := by
  rcases (mem_planFindingUpdates_iff ev posture).1 (mem_of_find?_eq_some h) with
    ⟨fp, f, -, -, rfl⟩ | ⟨s', -, hu⟩
  · rfl
  · obtain ⟨-, -, rfl⟩ := (ev.storedUpdate_eq_some posture).1 hu
    rfl

lemma storedUpdate_of_updateFor (hs : s ∈ stored)
    (h : updateFor (planFindingUpdates ev stored posture) s = none) :
    ev.storedUpdate posture s = none := by
  refine Option.eq_none_iff_forall_ne_some.2 fun u hu => ?_
  have hmem := (mem_planFindingUpdates_iff ev posture).2 (Or.inr ⟨s, hs, hu⟩)
  refine find?_eq_none.1 h u hmem ?_
  obtain ⟨-, -, rfl⟩ := (ev.storedUpdate_eq_some posture).1 hu
  simp [decidedUpdate]

/-- The rows after a plan: those that were updated or inserted are of the revision, the others are
as they were, without an update. -/
lemma stored_of_mem_applyUpdates
    (h : s ∈ applyUpdates (planFindingUpdates ev stored posture) stored) :
    s.lastEvaluatedRev = ev.rev ∨ ev.storedUpdate posture s = none := by
  rcases mem_append.1 h with h | h
  · obtain ⟨s, hs, rfl⟩ := mem_map.1 h
    cases hu : updateFor (planFindingUpdates ev stored posture) s with
    | none => exact Or.inr (storedUpdate_of_updateFor hs hu)
    | some u => exact Or.inl (lastEvaluatedRev_of_updateFor hu)
  · obtain ⟨u, hu, hnew⟩ := mem_filterMap.1 h
    rcases (mem_planFindingUpdates_iff ev posture).1 hu with ⟨fp, f, -, -, rfl⟩ | ⟨s', -, hs'⟩
    · obtain rfl := Option.some.inj hnew
      exact Or.inl rfl
    · obtain ⟨-, -, rfl⟩ := (ev.storedUpdate_eq_some posture).1 hs'
      simp [decidedUpdate] at hnew

/-- Every finding that holds has a row after the plan. -/
lemma held_mem_applyUpdates (hheld : ev.IsHeld fp) :
    fp ∈ (applyUpdates (planFindingUpdates ev stored posture) stored).map
      StoredFinding.fingerprint := by
  rw [applyUpdates, map_append, mem_append]
  by_cases hstored : fp ∈ stored.map StoredFinding.fingerprint
  · obtain ⟨s, hs, rfl⟩ := mem_map.1 hstored
    refine Or.inl (mem_map.2 ⟨_, mem_map_of_mem hs, ?_⟩)
    cases updateFor (planFindingUpdates ev stored posture) s <;> rfl
  · obtain ⟨f, hf⟩ := isHeld_iff.1 hheld
    have hu := (mem_planFindingUpdates_iff ev posture).2 (Or.inl ⟨fp, f, hstored, hf, rfl⟩)
    refine Or.inr (mem_map.2 ⟨_, mem_filterMap.2 ⟨_, hu, rfl⟩, ?_⟩)
    exact ev.fingerprint_of_holds hf

/-- Nothing is planned for rows of which each is of the revision or without an update. -/
lemma planFindingUpdates_eq_nil
    (hheld : ∀ fp, ev.IsHeld fp → fp ∈ stored.map StoredFinding.fingerprint)
    (hstored : ∀ s ∈ stored, s.lastEvaluatedRev = ev.rev ∨ ev.storedUpdate posture s = none) :
    planFindingUpdates ev stored posture = [] := by
  refine eq_nil_iff_forall_not_mem.2 fun u hu => ?_
  rcases (mem_planFindingUpdates_iff ev posture).1 hu with ⟨fp, f, hnew, hf, -⟩ | ⟨s, hs, hsu⟩
  · exact hnew (hheld fp (isHeld_iff.2 ⟨f, hf⟩))
  · rcases hstored s hs with hrev | hnone
    · exact absurd hrev ((ev.storedUpdate_eq_some posture).1 hsu).1.ne
    · rw [hnone] at hsu
      cases hsu

/-- After the transaction, each row is of the revision or without an update. -/
lemma planFindingUpdates_of_written {t t' : FindingTable} (h : Written ev posture t t') :
    planFindingUpdates ev (storedFindings t') posture = [] := by
  refine eq_nil_iff_forall_not_mem.2 fun u hu => ?_
  rcases (mem_planFindingUpdates ev posture).1 hu with ⟨fp, f, hnone, hf, -⟩ | ⟨fp, r, hr, hru⟩
  · rw [(h.none_of_none hnone).2] at hf
    cases hf
  · obtain ⟨hrev, hdecided, -⟩ := (ev.storedUpdate_eq_some posture).1 hru
    rw [(h.undecided_of_lt hr hrev).2] at hdecided
    cases hdecided

end Evaluation

open Evaluation

/-- A plan writes each fingerprint at most once, and exactly once for each row that is older and
decided and for each finding that holds without a row.  Once it is carried out, the same evaluation
plans nothing. -/
theorem planFindingUpdates_once (ev : Evaluation) (posture : Posture) :
    (∀ stored updates, (stored.map StoredFinding.fingerprint).Nodup →
      updates = planFindingUpdates ev stored posture →
      (updates.map FindingUpdate.fingerprint).Nodup ∧
      (∀ s ∈ stored, ev.rev ≤ s.lastEvaluatedRev →
        s.fingerprint ∉ updates.map FindingUpdate.fingerprint) ∧
      (∀ s ∈ stored, s.roleID ∈ ev.presentRoles → ev.isUnknown s = true →
        ¬ev.IsHeld s.fingerprint → s.fingerprint ∉ updates.map FindingUpdate.fingerprint) ∧
      (∀ s ∈ stored, s.lastEvaluatedRev < ev.rev →
        ¬(s.roleID ∈ ev.presentRoles ∧ ev.isUnknown s = true ∧ ¬ev.IsHeld s.fingerprint) →
          (updates.map FindingUpdate.fingerprint).count s.fingerprint = 1) ∧
      (∀ f ∈ ev.findings, f.fingerprint ∉ stored.map StoredFinding.fingerprint →
        (updates.map FindingUpdate.fingerprint).count f.fingerprint = 1) ∧
      planFindingUpdates ev (applyUpdates updates stored) posture = []) ∧
    ∀ t, ∃ t', writeFindings ev posture t = .ok t' ∧
      planFindingUpdates ev (storedFindings t') posture = [] := by
  refine ⟨?_, fun t => ?_⟩
  · rintro stored _ hnodup rfl
    have honce := nodup_planFindingUpdates_of_nodup ev posture hnodup
    refine ⟨honce, fun s hs hrev hmem => ?_, fun s hs hpresent hunknown hheld hmem => ?_,
      fun s hs hrev hdecided => ?_, fun f hf hnew => ?_, ?_⟩
    · exact absurd ((mem_map_plan_of_stored hnodup hs).1 hmem).1 hrev.not_gt
    · have hdecided := ((mem_map_plan_of_stored hnodup hs).1 hmem).2
      rw [undecided_iff.2 ⟨hpresent, hunknown, hheld⟩] at hdecided
      cases hdecided
    · refine count_eq_one_of_mem honce ?_
      rw [← undecided_iff, Bool.not_eq_true] at hdecided
      exact (mem_map_plan_of_stored hnodup hs).2 ⟨hrev, hdecided⟩
    · exact count_eq_one_of_mem honce
        (mem_map_plan_of_held ⟨f, hf, rfl⟩ hnew)
    · exact planFindingUpdates_eq_nil
        (fun fp hheld => held_mem_applyUpdates hheld)
        fun s hs => stored_of_mem_applyUpdates hs
  · obtain ⟨t', ht', hwritten⟩ := exists_written ev posture t
    exact ⟨t', ht', planFindingUpdates_of_written hwritten⟩

/-- The third revision clears the grant and opens the shared role, each once, and then nothing. -/
theorem planFindingUpdates_once_read :
    ([openGrantRow.stored "grant"].map StoredFinding.fingerprint).Nodup ∧
      ((planFindingUpdates readEvaluation [openGrantRow.stored "grant"] fun _ => none).map
        FindingUpdate.fingerprint).count "grant" = 1 ∧
      ((planFindingUpdates readEvaluation [openGrantRow.stored "grant"] fun _ => none).map
        FindingUpdate.fingerprint).count "shared" = 1 ∧
      planFindingUpdates readEvaluation
        (applyUpdates (planFindingUpdates readEvaluation [openGrantRow.stored "grant"] fun _ => none)
          [openGrantRow.stored "grant"]) (fun _ => none) = [] := by
  obtain ⟨-, -, -, hrow, hheld, hagain⟩ := (planFindingUpdates_once readEvaluation fun _ => none).1
    [openGrantRow.stored "grant"] _ (nodup_singleton _) rfl
  refine ⟨nodup_singleton _, ?_, ?_, hagain⟩
  · refine hrow _ (mem_singleton.2 rfl) (by decide) ?_
    rintro ⟨-, hunknown, -⟩
    exact absurd hunknown (by decide +kernel)
  · exact hheld sharedRoleFinding (mem_singleton.2 rfl) (by decide)

end AuthSec

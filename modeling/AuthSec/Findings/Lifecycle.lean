import AuthSec.Go.Collections
import AuthSec.Go.Time
import AuthSec.Lib.Unicode

/-!
# The life of a finding

An evaluation of one published revision says which findings hold, which roles are present and
which conditions could not be evaluated.  `planFindingUpdates` decides from it, the stored
findings and the service posture which rows of `iga_gov_finding` to insert and which to update,
and `writeFindings` carries the plan out in one transaction.

`writeFindings_spec` says what a write leaves under each fingerprint.  From it follows what a
revision that comes late, after a newer one was written, can still change.
-/

namespace AuthSec

open List

/-! ## Findings -/

/-- What a finding is about. -/
inductive FindingKind
  | unusedService
  | broadGrant
  | sharedRole
  | missingOwner
  | missingReviewDate
  | activityNotRead
deriving DecidableEq

/-- The statuses of a finding; `opened` is the text `open`. -/
inductive FindingStatus
  | opened
  | underReview
  | excepted
  | mitigated
  | resolved
  | cleared
  | superseded
  | reopened
deriving DecidableEq

/-- The statuses that `idx_iga_gov_finding_open` lists. -/
def FindingStatus.isOpen : FindingStatus → Bool
  | .opened | .reopened | .underReview => true
  | _ => false

inductive FindingSeverity
  | high
  | medium
  | low
  | info
deriving DecidableEq

inductive FindingConfidence
  | qualified
  | ageUnverified
  | notApplicable
deriving DecidableEq

/-- The outcomes of a role and service in `iga_gov_service_posture`. -/
inductive PostureOutcome
  | pending
  | notRemoved
  | removed
  | excludedRoutesRemain
  | excludedRoutesUnknown
deriving DecidableEq

structure PostureKey where
  roleID : String
  service : String
deriving DecidableEq

/-- The service posture: `map[PostureKey]string`. -/
abbrev Posture := PostureKey → Option PostureOutcome

/-- A finding that holds at a revision. -/
structure Finding where
  fingerprint : String
  kind : FindingKind
  severity : FindingSeverity
  confidence : FindingConfidence
  roleID : String
  detailKey : String
  detail : Bytes
deriving DecidableEq

/-- Conditions of a role that could not be evaluated; an empty `detailKey` stands for all of a
kind. -/
structure ConditionScope where
  roleID : String
  kind : FindingKind
  detailKey : String
deriving DecidableEq

/-- What the evaluation of one revision found. -/
structure Evaluation where
  rev : ℤ
  evaluatedAt : Time
  findings : List Finding
  unknown : List ConditionScope
  presentRoles : List String

/-- What the lifecycle reads of a stored row. -/
structure StoredFinding where
  fingerprint : String
  kind : FindingKind
  roleID : String
  detailKey : String
  status : FindingStatus
  lastEvaluatedRev : ℤ
  exceptedUntil : Option Time

/-- One planned write. -/
structure FindingUpdate where
  fingerprint : String
  insert : Bool
  finding : Option Finding
  status : FindingStatus
  statusChanged : Bool
  clearException : Bool
  firstSeenRev : ℤ
  lastEvaluatedRev : ℤ
  hasResult : Bool

/-! ## The plan -/

/-- The findings that hold, by fingerprint. -/
def Evaluation.holds (ev : Evaluation) : GoMap Finding :=
  GoMap.ofList (ev.findings.map fun f => (f.fingerprint, f))

/-- `Evaluation.unknown`. -/
def Evaluation.isUnknown (ev : Evaluation) (s : StoredFinding) : Bool :=
  ev.unknown.any fun u =>
    u.roleID = s.roleID ∧ u.kind = s.kind ∧ (u.detailKey = "" ∨ u.detailKey = s.detailKey)

/-- The status that a posture implies, and whether it implies one. -/
def postureStatus (current : FindingStatus) : PostureOutcome → FindingStatus × Bool
  | .removed => (.resolved, true)
  | .excludedRoutesRemain | .excludedRoutesUnknown => (.mitigated, true)
  | .notRemoved =>
      if current = .resolved ∨ current = .mitigated then (.reopened, true) else (current, false)
  | .pending => (current, false)

/-- The status a finding is inserted with. -/
def insertStatus (posture : Posture) (f : Finding) : FindingStatus :=
  if f.kind = .unusedService then
    match posture ⟨f.roleID, f.detailKey⟩ with
    | some o => (postureStatus .opened o).1
    | none => .opened
  else .opened

/-- The finding does not hold, its role is there and its condition could not be evaluated. -/
def Evaluation.undecided (ev : Evaluation) (s : StoredFinding) : Bool :=
  (ev.holds.get? s.fingerprint).isNone && decide (s.roleID ∈ ev.presentRoles) && ev.isUnknown s

/-- The status from the condition alone. -/
def Evaluation.conditionStatus (ev : Evaluation) (s : StoredFinding) : FindingStatus :=
  if s.roleID ∉ ev.presentRoles then .superseded
  else if (ev.holds.get? s.fingerprint).isSome then
    match s.status with
    | .cleared | .superseded => .reopened
    | .excepted =>
        match s.exceptedUntil with
        | none => .opened
        | some limit => if ev.evaluatedAt < limit then .excepted else .opened
    | status => status
  else
    match s.status with
    | .opened | .reopened | .excepted => .cleared
    | status => status

/-- The status of a stored finding at the revision: the condition, then the posture. -/
def Evaluation.nextStatus (ev : Evaluation) (posture : Posture) (s : StoredFinding) :
    FindingStatus :=
  let next := ev.conditionStatus s
  if s.kind = .unusedService ∧ next ≠ .superseded ∧ next ≠ .excepted then
    match posture ⟨s.roleID, s.detailKey⟩ with
    | some o => if (postureStatus next o).2 then (postureStatus next o).1 else next
    | none => next
  else next

/-- The insert of a finding that has no row. -/
def Evaluation.insertUpdate (ev : Evaluation) (posture : Posture) (fp : String) (f : Finding) :
    FindingUpdate where
  fingerprint := fp
  insert := true
  finding := some f
  status := insertStatus posture f
  statusChanged := false
  clearException := false
  firstSeenRev := ev.rev
  lastEvaluatedRev := ev.rev
  hasResult := true

/-- The update of a stored finding whose condition was decided. -/
def Evaluation.decidedUpdate (ev : Evaluation) (posture : Posture) (s : StoredFinding) :
    FindingUpdate where
  fingerprint := s.fingerprint
  insert := false
  finding := ev.holds.get? s.fingerprint
  status := ev.nextStatus posture s
  statusChanged := ev.nextStatus posture s ≠ s.status
  clearException := s.status = .excepted ∧ ev.nextStatus posture s ≠ .excepted
  firstSeenRev := 0
  lastEvaluatedRev := ev.rev
  hasResult := (ev.holds.get? s.fingerprint).isSome

/-- The update of a stored finding: none where the row is as new, or its condition undecided. -/
def Evaluation.storedUpdate (ev : Evaluation) (posture : Posture) (s : StoredFinding) :
    Option FindingUpdate :=
  if ev.rev ≤ s.lastEvaluatedRev then none
  else if ev.undecided s then none
  else some (ev.decidedUpdate posture s)

/-- The inserts of the findings without a row, then the updates, by fingerprint. -/
def planFindingUpdates (ev : Evaluation) (stored : List StoredFinding) (posture : Posture) :
    List FindingUpdate :=
  let fresh := ev.holds.sortedPairs.filter fun e => e.1 ∉ stored.map StoredFinding.fingerprint
  sortOn FindingUpdate.fingerprint
    ((fresh.map fun e => ev.insertUpdate posture e.1 e.2) ++
      stored.filterMap (ev.storedUpdate posture))

/-! ## The table -/

/-- The columns of `iga_gov_finding` that evaluations write. -/
structure FindingColumns where
  kind : FindingKind
  severity : FindingSeverity
  confidence : FindingConfidence
  roleID : Option String
  detailKey : String
  detail : Bytes
  status : FindingStatus
  exceptedUntil : Option Time
  exceptionReason : String
  firstSeenRev : ℤ
  lastEvaluatedRev : ℤ
  firstSeenAt : Time
  lastEvaluatedAt : Time
  statusChangedAt : Time
deriving DecidableEq

/-- A row, which passes the two checks of the table. -/
structure FindingRow extends FindingColumns where
  exception_chk : status = .excepted ↔ exceptedUntil.isSome
  rev_order_chk : firstSeenRev ≤ lastEvaluatedRev
deriving DecidableEq

/-- The rows of a workspace, one for each fingerprint. -/
abbrev FindingTable := GoMap FindingRow

def FindingRow.stored (r : FindingRow) (fp : String) : StoredFinding where
  fingerprint := fp
  kind := r.kind
  roleID := r.roleID.getD ""
  detailKey := r.detailKey
  status := r.status
  lastEvaluatedRev := r.lastEvaluatedRev
  exceptedUntil := r.exceptedUntil

@[simp]
lemma FindingRow.stored_status (r : FindingRow) (fp : String) :
    (r.stored fp).status = r.status := rfl

/-- What `LockFindingsTx` reads, in the order of the fingerprints. -/
def storedFindings (t : FindingTable) : List StoredFinding :=
  t.sortedPairs.map fun e => e.2.stored e.1

inductive FindingWriteError
  | nilFinding (fingerprint : String)
  | duplicate (fingerprint : String)
  | unknownFinding (fingerprint : String)
  | notUpdated (fingerprint : String)
  | exceptionCheck (fingerprint : String)
  | revOrderCheck (fingerprint : String)
deriving DecidableEq

/-- The columns of an inserted row. -/
def FindingUpdate.insertColumns (u : FindingUpdate) (f : Finding) (evaluatedAt : Time) :
    FindingColumns where
  kind := f.kind
  severity := f.severity
  confidence := f.confidence
  roleID := if f.roleID = "" then none else some f.roleID
  detailKey := f.detailKey
  detail := f.detail
  status := u.status
  exceptedUntil := none
  exceptionReason := ""
  firstSeenRev := u.firstSeenRev
  lastEvaluatedRev := u.lastEvaluatedRev
  firstSeenAt := evaluatedAt
  lastEvaluatedAt := evaluatedAt
  statusChangedAt := evaluatedAt

/-- The columns that `UpdateFindingTx` sets. -/
def FindingUpdate.setColumns (u : FindingUpdate) (rev : ℤ) (evaluatedAt : Time)
    (c : FindingColumns) : FindingColumns :=
  { c with
    severity := (u.finding.map Finding.severity).getD c.severity
    confidence := (u.finding.map Finding.confidence).getD c.confidence
    detail := (u.finding.map Finding.detail).getD c.detail
    status := u.status
    exceptedUntil := if u.clearException then none else c.exceptedUntil
    exceptionReason := if u.clearException then "" else c.exceptionReason
    lastEvaluatedRev := rev
    lastEvaluatedAt := evaluatedAt
    statusChangedAt := if u.statusChanged then evaluatedAt else c.statusChangedAt }

/-- The checks of the table on the columns of a row. -/
def FindingColumns.check (fp : String) (c : FindingColumns) :
    Except FindingWriteError FindingRow :=
  if hexception : c.status = .excepted ↔ c.exceptedUntil.isSome then
    if hrev : c.firstSeenRev ≤ c.lastEvaluatedRev then
      .ok { c with exception_chk := hexception, rev_order_chk := hrev }
    else .error (.revOrderCheck fp)
  else .error (.exceptionCheck fp)

/-- One write of the loop.  The row to update was found among the locked ones, and is updated
only `WHERE last_evaluated_rev < rev`. -/
def writeUpdate (ev : Evaluation) (locked t : FindingTable) (u : FindingUpdate) :
    Except FindingWriteError FindingTable :=
  if u.insert then
    match u.finding with
    | none => .error (.nilFinding u.fingerprint)
    | some f => do
        require (t.get? f.fingerprint = none) (FindingWriteError.duplicate f.fingerprint)
        let row ← (u.insertColumns f ev.evaluatedAt).check f.fingerprint
        return t.insert f.fingerprint row
  else do
    require ((locked.get? u.fingerprint).isSome) (FindingWriteError.unknownFinding u.fingerprint)
    match t.get? u.fingerprint with
    | none => .error (.notUpdated u.fingerprint)
    | some r => do
        require (r.lastEvaluatedRev < ev.rev) (FindingWriteError.notUpdated u.fingerprint)
        let row ← (u.setColumns ev.rev ev.evaluatedAt r.toFindingColumns).check u.fingerprint
        return t.insert u.fingerprint row

/-- The finding upserts of `writeTx`. -/
def writeFindings (ev : Evaluation) (posture : Posture) (t : FindingTable) :
    Except FindingWriteError FindingTable :=
  (planFindingUpdates ev (storedFindings t) posture).foldlM (writeUpdate ev t) t

/-! ## What a plan holds -/

section

variable (ev : Evaluation) (posture : Posture) {fp : String} {s : StoredFinding}
  {u : FindingUpdate}

lemma Evaluation.fingerprint_of_holds {f : Finding} (h : ev.holds.get? fp = some f) :
    f.fingerprint = fp := by
  rw [holds, GoMap.get?_ofList_eq, Option.map_eq_some_iff] at h
  obtain ⟨e, he, rfl⟩ := h
  obtain ⟨hmem, hk⟩ := mem_filter.1 (mem_of_getLast? he)
  obtain ⟨g, -, rfl⟩ := mem_map.1 hmem
  exact of_decide_eq_true hk

lemma mem_storedFindings {t : FindingTable} :
    s ∈ storedFindings t ↔ ∃ fp r, t.get? fp = some r ∧ s = r.stored fp := by
  simp only [storedFindings, mem_map, Prod.exists, GoMap.mem_sortedPairs, eq_comm]

lemma map_fingerprint_storedFindings (t : FindingTable) :
    (storedFindings t).map StoredFinding.fingerprint = t.sortedPairs.map Prod.fst := by
  rw [storedFindings, List.map_map]
  rfl

lemma mem_map_fingerprint_storedFindings {t : FindingTable} :
    fp ∈ (storedFindings t).map StoredFinding.fingerprint ↔ (t.get? fp).isSome := by
  rw [map_fingerprint_storedFindings, mem_map, Option.isSome_iff_exists]
  constructor
  · rintro ⟨⟨_, r⟩, hmem, rfl⟩
    exact ⟨r, (t.mem_sortedPairs _ r).1 hmem⟩
  · rintro ⟨r, hr⟩
    exact ⟨(fp, r), (t.mem_sortedPairs fp r).2 hr, rfl⟩

lemma Evaluation.storedUpdate_eq_some :
    ev.storedUpdate posture s = some u ↔
      s.lastEvaluatedRev < ev.rev ∧ ev.undecided s = false ∧ ev.decidedUpdate posture s = u := by
  simp only [storedUpdate, Option.ite_none_left_eq_some, Option.some.injEq, not_le,
    Bool.not_eq_true]

lemma Evaluation.fingerprint_of_storedUpdate (h : ev.storedUpdate posture s = some u) :
    u.fingerprint = s.fingerprint := by
  obtain ⟨-, -, rfl⟩ := (ev.storedUpdate_eq_some posture).1 h
  rfl

/-- The writes of a plan: the findings without a row, and the rows with an update. -/
lemma mem_planFindingUpdates_iff {stored : List StoredFinding} :
    u ∈ planFindingUpdates ev stored posture ↔
      (∃ fp f, fp ∉ stored.map StoredFinding.fingerprint ∧ ev.holds.get? fp = some f ∧
        u = ev.insertUpdate posture fp f) ∨
      ∃ s ∈ stored, ev.storedUpdate posture s = some u := by
  rw [planFindingUpdates, mem_sortOn, mem_append, mem_map, mem_filterMap]
  simp only [mem_filter, decide_eq_true_eq, Prod.exists, GoMap.mem_sortedPairs]
  refine or_congr_left ⟨?_, ?_⟩
  · rintro ⟨fp, f, ⟨hf, hnone⟩, rfl⟩
    exact ⟨fp, f, hnone, hf, rfl⟩
  · rintro ⟨fp, f, hnone, hf, rfl⟩
    exact ⟨fp, f, ⟨hf, hnone⟩, rfl⟩

lemma mem_planFindingUpdates {t : FindingTable} :
    u ∈ planFindingUpdates ev (storedFindings t) posture ↔
      (∃ fp f, t.get? fp = none ∧ ev.holds.get? fp = some f ∧ u = ev.insertUpdate posture fp f) ∨
      ∃ fp r, t.get? fp = some r ∧ ev.storedUpdate posture (r.stored fp) = some u := by
  simp only [mem_planFindingUpdates_iff, mem_map_fingerprint_storedFindings,
    Option.not_isSome_iff_eq_none, mem_storedFindings]
  refine or_congr_right ⟨?_, ?_⟩
  · rintro ⟨_, ⟨fp, r, hr, rfl⟩, hu⟩
    exact ⟨fp, r, hr, hu⟩
  · rintro ⟨fp, r, hr, hu⟩
    exact ⟨_, ⟨fp, r, hr, rfl⟩, hu⟩

/-- A plan for rows with distinct fingerprints writes under each fingerprint once. -/
lemma nodup_planFindingUpdates_of_nodup {stored : List StoredFinding}
    (hstored : (stored.map StoredFinding.fingerprint).Nodup) :
    ((planFindingUpdates ev stored posture).map FindingUpdate.fingerprint).Nodup := by
  refine nodup_map_sortOn ?_
  rw [map_append, List.map_map]
  have hupdates : ((stored.filterMap (ev.storedUpdate posture)).map
      FindingUpdate.fingerprint).Sublist (stored.map StoredFinding.fingerprint) := by
    clear hstored
    induction stored with
    | nil => exact List.Sublist.refl _
    | cons s l ih =>
        rw [filterMap_cons]
        split
        · exact ih.cons _
        · rename_i u hu
          rw [map_cons, map_cons, ev.fingerprint_of_storedUpdate posture hu]
          exact ih.cons_cons _
  refine List.Nodup.append ?_ (hupdates.nodup hstored) ?_
  · exact ev.holds.nodup_sortedPairs.sublist (filter_sublist.map _)
  · intro fp hfresh hstored
    obtain ⟨e, he, rfl⟩ := mem_map.1 hfresh
    exact of_decide_eq_true (mem_filter.1 he).2 (hupdates.subset hstored)

lemma nodup_planFindingUpdates (t : FindingTable) :
    ((planFindingUpdates ev (storedFindings t) posture).map FindingUpdate.fingerprint).Nodup := by
  refine nodup_planFindingUpdates_of_nodup ev posture ?_
  rw [map_fingerprint_storedFindings]
  exact t.nodup_sortedPairs

/-! ## The checks of the table -/

lemma insertStatus_ne_excepted (f : Finding) : insertStatus posture f ≠ .excepted := by
  unfold insertStatus
  split_ifs
  · split
    · rename_i o _
      cases o <;> decide
    · decide
  · decide

lemma postureStatus_ne_excepted {current : FindingStatus} (h : current ≠ .excepted)
    (o : PostureOutcome) : (postureStatus current o).1 ≠ .excepted := by
  cases o with
  | notRemoved =>
      simp only [postureStatus]
      split_ifs
      · exact nofun
      · exact h
  | pending => exact h
  | removed | excludedRoutesRemain | excludedRoutesUnknown => exact nofun

/-- An evaluation never makes an exception. -/
lemma Evaluation.conditionStatus_ne_excepted (h : s.status ≠ .excepted) :
    ev.conditionStatus s ≠ .excepted := by
  unfold conditionStatus
  split_ifs <;> cases hs : s.status <;> simp_all

lemma Evaluation.nextStatus_ne_excepted (h : s.status ≠ .excepted) :
    ev.nextStatus posture s ≠ .excepted := by
  have hnext := ev.conditionStatus_ne_excepted h
  unfold nextStatus
  dsimp only
  split_ifs
  · split
    · rename_i o _
      split_ifs
      · exact postureStatus_ne_excepted hnext o
      · exact hnext
    · exact hnext
  · exact hnext

lemma FindingColumns.check_eq_ok {c : FindingColumns}
    (hexception : c.status = .excepted ↔ c.exceptedUntil.isSome)
    (hrev : c.firstSeenRev ≤ c.lastEvaluatedRev) :
    ∃ row, c.check fp = .ok row ∧ row.toFindingColumns = c := by
  rw [check, dif_pos hexception, dif_pos hrev]
  exact ⟨_, rfl, rfl⟩

lemma Evaluation.check_insertColumns (fp : String) (f : Finding) :
    ∃ row, ((ev.insertUpdate posture fp f).insertColumns f ev.evaluatedAt).check fp = .ok row ∧
      row.toFindingColumns = (ev.insertUpdate posture fp f).insertColumns f ev.evaluatedAt := by
  refine FindingColumns.check_eq_ok ?_ (le_refl ev.rev)
  exact iff_of_false (insertStatus_ne_excepted posture f) nofun

/-- The exception of a row goes when its status leaves `excepted`, and only then. -/
lemma Evaluation.check_setColumns (fp : String) {r : FindingRow}
    (hrev : r.lastEvaluatedRev < ev.rev) :
    let u := ev.decidedUpdate posture (r.stored fp)
    ∃ row, (u.setColumns ev.rev ev.evaluatedAt r.toFindingColumns).check fp = .ok row ∧
      row.toFindingColumns = u.setColumns ev.rev ev.evaluatedAt r.toFindingColumns := by
  have hkeep := ev.nextStatus_ne_excepted posture (s := r.stored fp)
  refine FindingColumns.check_eq_ok ?_ (r.rev_order_chk.trans hrev.le)
  simp only [FindingUpdate.setColumns, decidedUpdate]
  by_cases hstatus : r.status = .excepted
  · have huntil := r.exception_chk.1 hstatus
    by_cases hnext : ev.nextStatus posture (r.stored fp) = .excepted
    · simp [hnext, huntil]
    · simp [hnext, hstatus]
  · have huntil := mt r.exception_chk.2 hstatus
    refine iff_of_false (hkeep hstatus) ?_
    simp [hstatus, huntil]

/-! ## What a write leaves -/

/-- What an evaluation leaves under a fingerprint, by what was there. -/
def Evaluation.columnsAfter (fp : String) : Option FindingRow → Option FindingColumns
  | none =>
      (ev.holds.get? fp).map fun f => (ev.insertUpdate posture fp f).insertColumns f ev.evaluatedAt
  | some r =>
      some ((ev.storedUpdate posture (r.stored fp)).elim r.toFindingColumns fun u =>
        u.setColumns ev.rev ev.evaluatedAt r.toFindingColumns)

/-- A write of the plan succeeds on a table that still has the row it was planned for. -/
lemma writeUpdate_of_mem {t₀ t : FindingTable}
    (hu : u ∈ planFindingUpdates ev (storedFindings t₀) posture)
    (ht : t.get? u.fingerprint = t₀.get? u.fingerprint) :
    ∃ t', writeUpdate ev t₀ t u = .ok t' ∧
      (t'.get? u.fingerprint).map FindingRow.toFindingColumns =
        ev.columnsAfter posture u.fingerprint (t₀.get? u.fingerprint) ∧
      ∀ fp, fp ≠ u.fingerprint → t'.get? fp = t.get? fp := by
  rcases (mem_planFindingUpdates ev posture).1 hu with ⟨fp, f, hnone, hf, rfl⟩ | ⟨fp, r, hr, hplan⟩
  · obtain rfl := ev.fingerprint_of_holds hf
    obtain ⟨row, hrow, hcols⟩ := ev.check_insertColumns posture f.fingerprint f
    rw [Evaluation.insertUpdate] at ht
    refine ⟨t.insert f.fingerprint row, ?_, ?_, fun fp hfp => t.get?_insert_ne row hfp⟩
    · have hinsert : (ev.insertUpdate posture f.fingerprint f).insert = true := rfl
      rw [writeUpdate, if_pos hinsert]
      change (require (t.get? f.fingerprint = none) _ >>= _) = _
      rw [require, if_pos (ht.trans hnone), pure_eq_ok, ok_bind, hrow]
      rfl
    · change (GoMap.get? (t.insert f.fingerprint row) f.fingerprint).map _ =
        ev.columnsAfter posture f.fingerprint (t₀.get? f.fingerprint)
      rw [GoMap.get?_insert, hnone, Evaluation.columnsAfter, hf, Option.map_some, Option.map_some,
        hcols]
  · obtain ⟨hrev, -, rfl⟩ := (ev.storedUpdate_eq_some posture).1 hplan
    change t.get? fp = t₀.get? fp at ht
    change r.lastEvaluatedRev < ev.rev at hrev
    obtain ⟨row, hrow, hcols⟩ := ev.check_setColumns posture fp hrev
    refine ⟨t.insert fp row, ?_, ?_, fun fp hfp => t.get?_insert_ne row hfp⟩
    · have hinsert : (ev.decidedUpdate posture (r.stored fp)).insert ≠ true := nofun
      have hfp : (ev.decidedUpdate posture (r.stored fp)).fingerprint = fp := rfl
      rw [writeUpdate, if_neg hinsert, hfp, hr, require, if_pos Option.isSome_some, pure_eq_ok,
        ok_bind, ht, hr]
      dsimp only
      rw [require, if_pos hrev, pure_eq_ok, ok_bind, hrow]
      rfl
    · change (GoMap.get? (t.insert fp row) fp).map _ = ev.columnsAfter posture fp (t₀.get? fp)
      rw [GoMap.get?_insert, hr, Evaluation.columnsAfter, hplan, Option.map_some, hcols]
      rfl

/-- The upserts succeed, and leave under each fingerprint what its row and the evaluation say. -/
theorem writeFindings_spec (t : FindingTable) :
    ∃ t', writeFindings ev posture t = .ok t' ∧
      ∀ fp, (t'.get? fp).map FindingRow.toFindingColumns =
        ev.columnsAfter posture fp (t.get? fp) := by
  obtain ⟨t', ht', hplanned, hother⟩ := GoMap.foldlM_writes
    (P := fun u o => o.map FindingRow.toFindingColumns =
      ev.columnsAfter posture u.fingerprint (t.get? u.fingerprint))
    (nodup_planFindingUpdates ev posture t)
    fun u hu t₁ ht₁ => writeUpdate_of_mem ev posture hu ht₁
  refine ⟨t', ht', fun fp => ?_⟩
  by_cases hmem : fp ∈ (planFindingUpdates ev (storedFindings t) posture).map
      FindingUpdate.fingerprint
  · obtain ⟨u, hu, rfl⟩ := mem_map.1 hmem
    exact hplanned u hu
  · have hout : ∀ u ∈ planFindingUpdates ev (storedFindings t) posture, u.fingerprint ≠ fp :=
      fun u hu heq => hmem (mem_map.2 ⟨u, hu, heq⟩)
    rw [hother fp hmem]
    cases hr : t.get? fp with
    | none =>
        have hf : ev.holds.get? fp = none := by
          refine Option.eq_none_iff_forall_ne_some.2 fun f hf => ?_
          exact hout _ ((mem_planFindingUpdates ev posture).2 (Or.inl ⟨fp, f, hr, hf, rfl⟩)) rfl
        rw [Evaluation.columnsAfter, hf]
        rfl
    | some r =>
        have hu : ev.storedUpdate posture (r.stored fp) = none := by
          refine Option.eq_none_iff_forall_ne_some.2 fun u hu => ?_
          exact hout u ((mem_planFindingUpdates ev posture).2 (Or.inr ⟨fp, r, hr, hu⟩))
            (ev.fingerprint_of_storedUpdate posture hu)
        rw [Evaluation.columnsAfter, hu]
        rfl

/-- What a write leaves, in terms of the rows. -/
structure Written (t t' : FindingTable) : Prop where
  absent : ∀ {fp}, t.get? fp = none → ev.holds.get? fp = none → t'.get? fp = none
  inserted : ∀ {fp f}, t.get? fp = none → ev.holds.get? fp = some f →
    ∃ r, t'.get? fp = some r ∧ r.status = insertStatus posture f ∧ r.lastEvaluatedRev = ev.rev
  newer : ∀ {fp r}, t.get? fp = some r → ev.rev ≤ r.lastEvaluatedRev → t'.get? fp = some r
  undecided : ∀ {fp r}, t.get? fp = some r → ev.undecided (r.stored fp) → t'.get? fp = some r
  decided : ∀ {fp r}, t.get? fp = some r → r.lastEvaluatedRev < ev.rev →
    ev.undecided (r.stored fp) = false →
      ∃ r', t'.get? fp = some r' ∧ r'.status = ev.nextStatus posture (r.stored fp) ∧
        r'.lastEvaluatedRev = ev.rev

lemma FindingRow.ext_columns {r r' : FindingRow} (h : r.toFindingColumns = r'.toFindingColumns) :
    r = r' := by
  cases r
  cases r'
  cases h
  rfl

lemma exists_written (t : FindingTable) :
    ∃ t', writeFindings ev posture t = .ok t' ∧ Written ev posture t t' := by
  obtain ⟨t', ht', hspec⟩ := writeFindings_spec ev posture t
  have hkept : ∀ {fp r}, t.get? fp = some r → ev.storedUpdate posture (r.stored fp) = none →
      t'.get? fp = some r := by
    intro fp r hr hnone
    have h := hspec fp
    rw [hr, Evaluation.columnsAfter, hnone, Option.map_eq_some_iff] at h
    obtain ⟨r', hr', hcols⟩ := h
    rw [hr', FindingRow.ext_columns hcols]
  refine ⟨t', ht', ?_, ?_, ?_, ?_, ?_⟩
  · intro fp hnone hf
    have h := hspec fp
    rw [hnone, Evaluation.columnsAfter, hf] at h
    exact Option.map_eq_none_iff.1 h
  · intro fp f hnone hf
    have h := hspec fp
    rw [hnone, Evaluation.columnsAfter, hf, Option.map_some, Option.map_eq_some_iff] at h
    obtain ⟨r, hr, hcols⟩ := h
    exact ⟨r, hr, congrArg FindingColumns.status hcols,
      congrArg FindingColumns.lastEvaluatedRev hcols⟩
  · intro fp r hr hrev
    exact hkept hr (if_pos hrev)
  · intro fp r hr hundecided
    refine hkept hr ?_
    rw [Evaluation.storedUpdate, hundecided]
    exact ite_self _
  · intro fp r hr hrev hdecided
    have h := hspec fp
    rw [hr, Evaluation.columnsAfter,
      (ev.storedUpdate_eq_some posture).2 ⟨hrev, hdecided, rfl⟩, Option.map_eq_some_iff] at h
    obtain ⟨r', hr', hcols⟩ := h
    exact ⟨r', hr', congrArg FindingColumns.status hcols,
      congrArg FindingColumns.lastEvaluatedRev hcols⟩

end

/-! ## A revision that comes late -/

/-- There is a row under the fingerprint, in one of the open statuses. -/
def FindingTable.IsOpen (t : FindingTable) (fp : String) : Prop :=
  ∃ r, t.get? fp = some r ∧ r.status.isOpen

/-- Every finding of the first table has the same status in the second, and the open findings of
the two are the same. -/
structure SameFindings (t t' : FindingTable) : Prop where
  status : ∀ fp r, t.get? fp = some r → ∃ r', t'.get? fp = some r' ∧ r'.status = r.status
  isOpen : ∀ fp, t'.IsOpen fp ↔ t.IsOpen fp

/-- The late revision settles no row that the newer one left undecided to another status. -/
def LeavesUndecided (late newer : Evaluation) (posture : Posture) (t : FindingTable) : Prop :=
  ∀ fp r, t.get? fp = some r → r.lastEvaluatedRev < late.rev → newer.undecided (r.stored fp) →
    late.undecided (r.stored fp) = false → late.nextStatus posture (r.stored fp) = r.status

/-- The late revision opens no finding that the newer one saw no reason for. -/
def OpensNothing (late newer : Evaluation) (posture : Posture) (t : FindingTable) : Prop :=
  ∀ fp f, late.holds.get? fp = some f → t.get? fp = none → newer.holds.get? fp = none →
    (insertStatus posture f).isOpen = false

section

variable {late newer : Evaluation} {posture posture' : Posture} {t t₁ t₂ : FindingTable}
  {fp : String}

/-- A row older than the revision is one that the revision left undecided. -/
lemma Written.undecided_of_lt (h : Written newer posture t t₁) {r : FindingRow}
    (hr : t₁.get? fp = some r) (hold : r.lastEvaluatedRev < newer.rev) :
    t.get? fp = some r ∧ newer.undecided (r.stored fp) := by
  cases hr₀ : t.get? fp with
  | none =>
      cases hf : newer.holds.get? fp with
      | none => exact absurd (h.absent hr₀ hf) (by simp [hr])
      | some f =>
          obtain ⟨r', hr', -, hrev⟩ := h.inserted hr₀ hf
          obtain rfl := Option.some.inj (hr'.symm.trans hr)
          exact absurd hrev hold.ne
  | some r₀ =>
      cases hundecided : newer.undecided (r₀.stored fp) with
      | true =>
          obtain rfl := Option.some.inj ((h.undecided hr₀ hundecided).symm.trans hr)
          exact ⟨rfl, hundecided⟩
      | false =>
          by_cases hrev₀ : newer.rev ≤ r₀.lastEvaluatedRev
          · obtain rfl := Option.some.inj ((h.newer hr₀ hrev₀).symm.trans hr)
            exact absurd hold hrev₀.not_gt
          · obtain ⟨r', hr', -, hrev⟩ := h.decided hr₀ (not_le.1 hrev₀) hundecided
            obtain rfl := Option.some.inj (hr'.symm.trans hr)
            exact absurd hrev hold.ne

/-- A finding without a row after a revision had none before, and does not hold. -/
lemma Written.none_of_none (h : Written newer posture t t₁) (hnone : t₁.get? fp = none) :
    t.get? fp = none ∧ newer.holds.get? fp = none := by
  cases hr : t.get? fp with
  | none =>
      cases hf : newer.holds.get? fp with
      | none => exact ⟨rfl, rfl⟩
      | some f =>
          obtain ⟨r', hr', -, -⟩ := h.inserted hr hf
          exact absurd (hr'.symm.trans hnone) nofun
  | some r =>
      by_cases hrev : newer.rev ≤ r.lastEvaluatedRev
      · exact absurd ((h.newer hr hrev).symm.trans hnone) nofun
      · cases hundecided : newer.undecided (r.stored fp) with
        | true => exact absurd ((h.undecided hr hundecided).symm.trans hnone) nofun
        | false =>
            obtain ⟨r', hr', -, -⟩ := h.decided hr (not_le.1 hrev) hundecided
            exact absurd (hr'.symm.trans hnone) nofun

lemma FindingTable.isOpen_of_get? {r : FindingRow} (h : t.get? fp = some r) :
    t.IsOpen fp ↔ r.status.isOpen := by
  simp [IsOpen, h]

lemma FindingTable.not_isOpen_of_get? (h : t.get? fp = none) : ¬ t.IsOpen fp := by
  simp [IsOpen, h]

/-- Row by row, what makes the findings of two tables the same. -/
lemma SameFindings.of_rows
    (hsome : ∀ fp r, t₁.get? fp = some r → ∃ r', t₂.get? fp = some r' ∧ r'.status = r.status)
    (hnone : ∀ fp r', t₁.get? fp = none → t₂.get? fp = some r' → r'.status.isOpen = false) :
    SameFindings t₁ t₂ := by
  refine ⟨hsome, fun fp => ?_⟩
  cases hr : t₁.get? fp with
  | some r =>
      obtain ⟨r', hr', hstatus⟩ := hsome fp r hr
      rw [FindingTable.isOpen_of_get? hr, FindingTable.isOpen_of_get? hr', hstatus]
  | none =>
      refine iff_of_false ?_ (FindingTable.not_isOpen_of_get? hr)
      rintro ⟨r', hr', hopen⟩
      rw [hnone fp r' hr hr'] at hopen
      exact Bool.false_ne_true hopen

/-- After the newer revision, the late one keeps the findings exactly when it neither moves a row
left undecided nor opens a finding. -/
lemma Written.sameFindings_iff (hnewer : Written newer posture t t₁)
    (hlate : Written late posture' t₁ t₂) (hrev : late.rev < newer.rev) :
    SameFindings t₁ t₂ ↔
      LeavesUndecided late newer posture' t ∧ OpensNothing late newer posture' t := by
  constructor
  · intro hsame
    constructor
    · intro fp r hr hold hundecided hdecided
      have hr₁ := hnewer.undecided hr hundecided
      obtain ⟨r', hr', hstatus, -⟩ := hlate.decided hr₁ hold hdecided
      obtain ⟨r'', hr'', heq⟩ := hsame.status fp r hr₁
      obtain rfl := Option.some.inj (hr'.symm.trans hr'')
      rw [← hstatus, heq]
    · intro fp f hf hnone hnot
      have hr₁ := hnewer.absent hnone hnot
      obtain ⟨r, hr, hstatus, -⟩ := hlate.inserted hr₁ hf
      have hclosed := mt (hsame.isOpen fp).1 (FindingTable.not_isOpen_of_get? hr₁)
      rw [FindingTable.isOpen_of_get? hr, hstatus] at hclosed
      exact Bool.eq_false_iff.2 hclosed
  · rintro ⟨hleaves, hopens⟩
    refine SameFindings.of_rows (fun fp r₁ hr₁ => ?_) fun fp r₂ hr₁ hr₂ => ?_
    · by_cases hold : late.rev ≤ r₁.lastEvaluatedRev
      · exact ⟨r₁, hlate.newer hr₁ hold, rfl⟩
      obtain ⟨hr, hnewer'⟩ := hnewer.undecided_of_lt hr₁ ((not_le.1 hold).trans hrev)
      cases hundecided : late.undecided (r₁.stored fp) with
      | true => exact ⟨r₁, hlate.undecided hr₁ hundecided, rfl⟩
      | false =>
          obtain ⟨r', hr', hstatus, -⟩ := hlate.decided hr₁ (not_le.1 hold) hundecided
          exact ⟨r', hr', hstatus.trans (hleaves fp r₁ hr (not_le.1 hold) hnewer' hundecided)⟩
    · obtain ⟨hr, hnot⟩ := hnewer.none_of_none hr₁
      cases hf : late.holds.get? fp with
      | none => exact absurd ((hlate.absent hr₁ hf).symm.trans hr₂) nofun
      | some f =>
          obtain ⟨r', hr', hstatus, -⟩ := hlate.inserted hr₁ hf
          obtain rfl := Option.some.inj (hr'.symm.trans hr₂)
          rw [hstatus]
          exact hopens fp f hf hr hnot

end

/-- A revision written after a newer one.  Both writes succeed; a row evaluated at the late
revision or after it stays as it is, so every row that the newer revision wrote does; and the
findings are as after the newer revision alone exactly when the late one neither moves a row that
the newer one left undecided nor opens a finding that it did not see. -/
theorem late_revision_findings (late newer : Evaluation) (hrev : late.rev < newer.rev)
    (t : FindingTable) (posture posture' : Posture) :
    ∃ t₁ t₂, writeFindings newer posture t = .ok t₁ ∧ writeFindings late posture' t₁ = .ok t₂ ∧
      (∀ fp r, t₁.get? fp = some r → late.rev ≤ r.lastEvaluatedRev → t₂.get? fp = some r) ∧
      (SameFindings t₁ t₂ ↔
        LeavesUndecided late newer posture' t ∧ OpensNothing late newer posture' t) := by
  obtain ⟨t₁, ht₁, hnewer⟩ := exists_written newer posture t
  obtain ⟨t₂, ht₂, hlate⟩ := exists_written late posture' t₁
  exact ⟨t₁, t₂, ht₁, ht₂, fun fp r => hlate.newer, hnewer.sameFindings_iff hlate hrev⟩

/-! ### Two late revisions -/

/-- A broad grant of a role, open since the first revision. -/
def openGrantRow : FindingRow where
  kind := .broadGrant
  severity := .high
  confidence := .notApplicable
  roleID := some "AROA1"
  detailKey := ""
  detail := []
  status := .opened
  exceptedUntil := none
  exceptionReason := ""
  firstSeenRev := 1
  lastEvaluatedRev := 1
  firstSeenAt := 0
  lastEvaluatedAt := 0
  statusChangedAt := 0
  exception_chk := by decide
  rev_order_chk := by decide

def openGrantTable : FindingTable :=
  GoMap.ofList [("grant", openGrantRow)]

def sharedRoleFinding : Finding where
  fingerprint := "shared"
  kind := .sharedRole
  severity := .medium
  confidence := .notApplicable
  roleID := "AROA1"
  detailKey := ""
  detail := []

/-- The second revision: the grant is gone and the role is shared. -/
def secondEvaluation : Evaluation where
  rev := 2
  evaluatedAt := 2
  findings := [sharedRoleFinding]
  unknown := []
  presentRoles := ["AROA1"]

/-- The third revision: the grants of the role could not be read, and it is no longer shared. -/
def unreadEvaluation : Evaluation where
  rev := 3
  evaluatedAt := 3
  findings := []
  unknown := [⟨"AROA1", .broadGrant, ""⟩]
  presentRoles := ["AROA1"]

/-- The third revision when everything could be read and the role is still shared. -/
def readEvaluation : Evaluation where
  rev := 3
  evaluatedAt := 3
  findings := [sharedRoleFinding]
  unknown := []
  presentRoles := ["AROA1"]

lemma get?_openGrantTable (fp : String) :
    openGrantTable.get? fp = if fp = "grant" then some openGrantRow else none := by
  unfold openGrantTable GoMap.ofList
  split_ifs with hfp
  · subst hfp
    exact GoMap.get?_insert _ _ _
  · exact GoMap.get?_insert_ne _ _ hfp

/-- The second revision, written after the third, clears the row that the third left and opens
a finding that the third did not see. -/
theorem late_revision_moves_findings :
    secondEvaluation.rev < unreadEvaluation.rev ∧
      ∃ t₁ t₂, writeFindings unreadEvaluation (fun _ => none) openGrantTable = .ok t₁ ∧
        writeFindings secondEvaluation (fun _ => none) t₁ = .ok t₂ ∧
        (t₁.get? "grant").map (fun r => r.status) = some .opened ∧
        (t₂.get? "grant").map (fun r => r.status) = some .cleared ∧
        ¬ t₁.IsOpen "shared" ∧ t₂.IsOpen "shared" ∧ ¬ SameFindings t₁ t₂ := by
  obtain ⟨t₁, ht₁, hnewer⟩ := exists_written unreadEvaluation (fun _ => none) openGrantTable
  obtain ⟨t₂, ht₂, hlate⟩ := exists_written secondEvaluation (fun _ => none) t₁
  have hgrant₁ : t₁.get? "grant" = some openGrantRow :=
    hnewer.undecided (by rw [get?_openGrantTable, if_pos rfl]) (by decide +kernel)
  obtain ⟨r, hgrant₂, hstatus, -⟩ := hlate.decided hgrant₁ (by decide) (by decide +kernel)
  have hcleared : r.status = .cleared := hstatus.trans (by decide +kernel)
  have hshared₁ : t₁.get? "shared" = none :=
    hnewer.absent (by rw [get?_openGrantTable, if_neg (by decide)]) (by decide +kernel)
  obtain ⟨r', hshared₂, hopen, -⟩ := hlate.inserted (f := sharedRoleFinding) hshared₁
    (by decide +kernel)
  have hnot₁ := FindingTable.not_isOpen_of_get? hshared₁
  have hopen₂ : t₂.IsOpen "shared" := ⟨r', hshared₂, by rw [hopen]; decide⟩
  refine ⟨by decide, t₁, t₂, ht₁, ht₂, by rw [hgrant₁]; rfl, by rw [hgrant₂]; simp [hcleared],
    hnot₁, hopen₂, fun hsame => hnot₁ ((hsame.isOpen "shared").1 hopen₂)⟩

/-- The same late revision after a third one that read everything changes nothing. -/
theorem late_revision_findings_read :
    secondEvaluation.rev < readEvaluation.rev ∧
      ∃ t₁ t₂, writeFindings readEvaluation (fun _ => none) openGrantTable = .ok t₁ ∧
        writeFindings secondEvaluation (fun _ => none) t₁ = .ok t₂ ∧ SameFindings t₁ t₂ := by
  obtain ⟨t₁, t₂, ht₁, ht₂, -, hsame⟩ := late_revision_findings secondEvaluation readEvaluation
    (by decide) openGrantTable (fun _ => none) fun _ => none
  refine ⟨by decide, t₁, t₂, ht₁, ht₂, hsame.2 ⟨?_, ?_⟩⟩
  · intro fp r _ _ hundecided
    rw [Evaluation.undecided, Bool.and_eq_true] at hundecided
    exact absurd hundecided.2 Bool.false_ne_true
  · intro fp f hf _ hnot
    exact absurd (hf.symm.trans hnot) nofun

end AuthSec

import AuthSec.Evidence.Bundle
import AuthSec.Qualification.Qualify

/-!
# Observation

Before a removal is rolled out, the roles are observed until a fresh activity report is there.  A
report is complete up to the reporting lag before it was generated.  The window of a qualification
ends there, while the observation looks at attempts after the report was generated
(`evaluateObservation_gap`): an attempt made in between can be missed by both.
-/

namespace AuthSec

/-- `ObserveEvidenceRequiredAfter`. -/
def observeEvidenceRequiredAfter (observeUntil : Time) : Time :=
  observeUntil + reportingLag

structure ObservationTarget where
  roleID : String
  evidenceReportAt : Time
  reportGeneratedAt : Option Time
  lastAttempts : GoMap (Option Time)

structure AttemptDuringObservation where
  roleID : String
  service : String
  seenAt : Time
  deriving DecidableEq

/-- Whether an observation is over, and what it found. -/
structure ObservationResult where
  requiredAfter : Time
  complete : Bool
  backToDraft : List AttemptDuringObservation
  awaitingReport : List String
  needsRefresh : Bool
  deriving DecidableEq

namespace ObservationTarget

/-- The attempts after the report that the removal was proposed from. -/
def attempts (t : ObservationTarget) : List AttemptDuringObservation :=
  t.lastAttempts.sortedPairs.filterMap fun (svc, last) =>
    last.bind fun seen => if t.evidenceReportAt < seen then some ⟨t.roleID, svc, seen⟩ else none

/-- There is no report from the required time on. -/
def awaits (t : ObservationTarget) (requiredAfter : Time) : Bool :=
  t.reportGeneratedAt.all fun generated => decide (generated < requiredAfter)

end ObservationTarget

/-- `EvaluateObservation`. -/
def evaluateObservation (observeUntil now : Time) (targets : List ObservationTarget) :
    ObservationResult :=
  let requiredAfter := observeEvidenceRequiredAfter observeUntil
  let backToDraft := targets.flatMap ObservationTarget.attempts
  let awaitingReport :=
    sortOn id ((targets.filter (·.awaits requiredAfter)).map ObservationTarget.roleID)
  { requiredAfter
    complete := !decide (now < observeUntil) && awaitingReport.isEmpty && backToDraft.isEmpty
    backToDraft
    awaitingReport
    needsRefresh := !decide (now < observeUntil) && !awaitingReport.isEmpty }

/-! ## The targets of a rollout -/

/-- A stored row of a role's activity evidence. -/
structure ActivityEvidence where
  rev : ℤ
  identityAccountID : String
  service : String
  state : String
  reportGeneratedAt : Option Time
  lastAuthenticatedAt : Option Time
  deriving DecidableEq

/-- The control of a target. -/
structure RolloutTarget where
  roleID : String
  identityAccountID : String
  deriving DecidableEq

structure RolloutCtx where
  createdAt : Time
  evidenceRev : ℤ
  intent : RightSizeIntent
  targets : List RolloutTarget

/-- The collected rows of an account at a revision. -/
def collectedRows (rows : List ActivityEvidence) (rev : ℤ) (account : String) :
    List ActivityEvidence :=
  rows.filter fun e => e.rev == rev && e.identityAccountID == account &&
    e.state == evidenceCollected

/-- The services that the version removes from the target. -/
def RolloutCtx.removed (rc : RolloutCtx) (t : RolloutTarget) : List String :=
  (rc.intent.forSubject t.identityAccountID).remove.map RemoveEntry.service

/-- The target's report of the version's evidence, and its newest one at the revision. -/
def RolloutCtx.observationTarget (rc : RolloutCtx) (rows : List ActivityEvidence) (rev : ℤ)
    (t : RolloutTarget) : ObservationTarget :=
  let fresh := (collectedRows rows rev t.identityAccountID).filter (·.reportGeneratedAt.isSome)
  { roleID := t.roleID
    evidenceReportAt := ((collectedRows rows rc.evidenceRev t.identityAccountID).filterMap
      ActivityEvidence.reportGeneratedAt).max?.getD rc.createdAt
    reportGeneratedAt := (fresh.filterMap ActivityEvidence.reportGeneratedAt).max?
    lastAttempts := GoMap.ofList ((fresh.filter fun e => (rc.removed t).contains e.service).map
      fun e => (e.service, e.lastAuthenticatedAt)) }

/-- `observationTargets`. -/
def observationTargets (rc : RolloutCtx) (rows : List ActivityEvidence) (rev : ℤ) :
    List ObservationTarget :=
  rc.targets.map (rc.observationTarget rows rev)

/-! ## Reports and the gap between them -/

/-- A report with this last attempt lists attempts that were made, and all up to the reporting lag
before it was generated. -/
structure ReportLists (attempts : List Time) (generated : Time) (last : Option Time) : Prop where
  made : ∀ t, last = some t → t ∈ attempts
  complete : ∀ t ∈ attempts, t ≤ generated - reportingLag → ∃ u, last = some u ∧ t ≤ u

section

variable {observeUntil now : Time} {targets : List ObservationTarget} {t : ObservationTarget}

/-- Where an observation is complete, no target has an attempt after its evidence. -/
lemma le_evidence_of_complete (h : (evaluateObservation observeUntil now targets).complete = true)
    (ht : t ∈ targets) {svc : String} {u : Time} (hu : t.lastAttempts.get? svc = some (some u)) :
    u ≤ t.evidenceReportAt := by
  have hnone : targets.flatMap ObservationTarget.attempts = [] := by
    simp only [evaluateObservation, Bool.and_eq_true, List.isEmpty_iff] at h
    exact h.2
  by_contra hlt
  have hmem : (⟨t.roleID, svc, u⟩ : AttemptDuringObservation) ∈
      targets.flatMap ObservationTarget.attempts := by
    refine List.mem_flatMap.2 ⟨t, ht, List.mem_filterMap.2 ⟨(svc, some u), ?_, ?_⟩⟩
    · exact (GoMap.mem_sortedPairs _ _ _).2 hu
    · simp [not_le.1 hlt]
  rw [hnone] at hmem
  exact absurd hmem List.not_mem_nil

variable {inp : QualifyInput} {attempts : List Time} {last : Option Time}

/-- A complete observation after a qualification leaves out exactly the attempts made between the
end of the qualified window and the report: the service's last attempt is not after the window,
and then before its start, unless it lies there. -/
theorem evaluateObservation_gap
    (hfirst : ReportLists attempts inp.reportGeneratedAt inp.lastAuthenticatedAt)
    (hqualify : (qualify inp).outcome = .noAttempt) (ht : t ∈ targets)
    (hevidence : t.evidenceReportAt = inp.reportGeneratedAt)
    (hlast : t.lastAttempts.get? inp.service = some last)
    (hnewer : ∃ newer, t.reportGeneratedAt = some newer ∧ ReportLists attempts newer last)
    (hcomplete : (evaluateObservation observeUntil now targets).complete = true) :
    ((∀ u, last = some u → u ≤ inp.reportGeneratedAt - reportingLag) ↔
      ¬∃ u, last = some u ∧ inp.reportGeneratedAt - reportingLag < u ∧ u ≤ inp.reportGeneratedAt) ∧
    ∀ u, last = some u → u ≤ inp.reportGeneratedAt - reportingLag →
      u < (qualify inp).windowStart := by
  constructor
  · constructor
    · rintro h ⟨u, hu, hafter, -⟩
      exact absurd (h u hu) hafter.not_ge
    · intro h u hu
      by_contra hafter
      refine h ⟨u, hu, not_le.1 hafter, ?_⟩
      rw [← hevidence]
      exact le_evidence_of_complete hcomplete ht (hlast.trans (congrArg some hu))
  · intro u hu hbefore
    obtain ⟨newer, -, hlists⟩ := hnewer
    obtain ⟨v, hv, huv⟩ := hfirst.complete u (hlists.made u hu) hbefore
    exact huv.trans_lt ((verdict_noAttempt hqualify).2.2.1 v hv)

end

/-! ## Examples -/

/-- The removal of the queues of one role, observed from the revision 5 on. -/
def queueRollout : RolloutCtx where
  createdAt := 121 * day
  evidenceRev := 5
  intent :=
    { kind := intentRightSizeServices, subjects := [], retain := []
      remove := [{ service := "sqs", basis := "no_attempt", qualifiedDays := 90,
                   grantAgeBasis := grantAgeObservedSinceChange }]
      observationDays := 5, delivery := deliveryDirect, evidenceRev := 5 }
  targets := [⟨"AROAEXAMPLE", "account"⟩]

/-- The report that the removal was proposed from, and one ten days later. -/
def queueReports (last newer : Option Time) : List ActivityEvidence :=
  [⟨5, "account", "sqs", evidenceCollected, some (120 * day), last⟩,
    ⟨6, "account", "sqs", evidenceCollected, some (130 * day), newer⟩]

/-- The one attempt that was made is listed. -/
lemma reportLists_singleton (t generated : Time) : ReportLists [t] generated (some t) := by
  refine ⟨fun u hu => ?_, fun u hu _ => ⟨t, rfl, ?_⟩⟩
  · exact List.mem_singleton.2 (Option.some.inj hu).symm
  · exact (List.mem_singleton.1 hu).le

/-- The queues were used once, before the window. -/
def usedBefore : QualifyInput :=
  { unusedQueues with lastAuthenticatedAt := some (5 * day) }

/-- A service that was used before the window only. -/
theorem evaluateObservation_used_before :
    5 * day ≤ 120 * day - reportingLag ∧ 5 * day < (qualify usedBefore).windowStart := by
  let targets := observationTargets queueRollout (queueReports (some (5 * day)) (some (5 * day))) 6
  have hqualify : (qualify usedBefore).outcome = .noAttempt := by decide +kernel
  have hcomplete : (evaluateObservation (125 * day) (130 * day) targets).complete = true := by
    decide +kernel
  have hfirst : ReportLists [5 * day] usedBefore.reportGeneratedAt usedBefore.lastAuthenticatedAt :=
    reportLists_singleton _ _
  have hgap := evaluateObservation_gap hfirst hqualify (List.mem_singleton.2 rfl : _ ∈ targets)
    (by decide +kernel) (by decide +kernel) ⟨130 * day, by decide +kernel, reportLists_singleton _ _⟩
    hcomplete
  have hle := hgap.1.2 (by rintro ⟨u, hu, hafter, -⟩; cases hu; revert hafter; decide) _ rfl
  exact ⟨hle, hgap.2 _ rfl hle⟩

/-- An attempt an hour before the report, which does not list it yet, is in the newer report and
does not stop the observation. -/
theorem evaluateObservation_missed_attempt :
    ReportLists [120 * day - hour] unusedQueues.reportGeneratedAt unusedQueues.lastAuthenticatedAt ∧
      ReportLists [120 * day - hour] (130 * day) (some (120 * day - hour)) ∧
      (qualify unusedQueues).outcome = .noAttempt ∧
      ∃ t, observationTargets queueRollout (queueReports none (some (120 * day - hour))) 6 = [t] ∧
        t.evidenceReportAt = unusedQueues.reportGeneratedAt ∧
        t.reportGeneratedAt = some (130 * day) ∧
        t.lastAttempts.get? unusedQueues.service = some (some (120 * day - hour)) ∧
        (evaluateObservation (125 * day) (130 * day) [t]).complete = true ∧
        ¬120 * day - hour ≤ unusedQueues.reportGeneratedAt - reportingLag := by
  refine ⟨⟨fun t ht => ?_, fun t ht hbefore => ?_⟩, reportLists_singleton _ _, by decide +kernel,
    _, rfl, by decide +kernel, by decide +kernel, by decide +kernel, by decide +kernel, by decide⟩
  · cases ht
  · rw [List.mem_singleton.1 ht] at hbefore
    exact absurd hbefore (by decide)

end AuthSec

import AuthSec.Go.Collections
import AuthSec.Rollout.Coverage
import AuthSec.Rollout.Events

/-!
# Canary gates

The gates that a deployment passes before its rollout expands, and the restriction that its removed
services show, from events, declared validations and reports of owners.
-/

namespace AuthSec

/-! ## Input -/

inductive GateName where
  | artifactVerified
  | noUnexpectedFailures
  | requiredOperations
  | noProblemReports
  | windowElapsed
  deriving DecidableEq

inductive Outcome where
  | passed
  | failed
  | awaitingEvidence
  | notAvailable
  | notApplicable
  deriving DecidableEq

inductive Attribution where
  | notApplicable
  | boundary
  | causeUnknown
  | validation
  deriving DecidableEq

def reportProblem : String := "problem"
def reportWorking : String := "working"

/-- The reader looks back so far in each scan. -/
def maxTrailScanGap : ℤ := 48 * hour

structure HealthReport where
  kind : String
  service : String
  createdAt : Time
  deriving DecidableEq

structure RetainedService where
  service : String
  activeInQualifiedInterval : Bool
  dataEventsOnly : Bool
  deriving DecidableEq

/-- What the gates look at. -/
structure CanaryInput where
  roleID : String
  appliedAt : Time
  now : Time
  canaryHours : ℤ
  removesServices : Bool
  removed : List String
  retained : List RetainedService
  events : List TrailEvent
  validations : List Validation
  reports : List HealthReport
  trail : List (TrailRead Time)
  publishedAfterApply : Bool
  artifactOutcome : Outcome
  deriving DecidableEq

/-- What a gate says. -/
structure GateResult where
  gate : GateName
  outcome : Outcome
  reason : String := ""
  evidence : List String := []
  deriving DecidableEq

structure DimensionResult where
  outcome : Outcome
  attribution : Attribution
  reason : String := ""
  deriving DecidableEq

/-! ## Coverage of the window -/

namespace CanaryInput

variable (inp : CanaryInput)

/-- `time.Duration(CanaryHours) * time.Hour`, a product of `int64`s that wraps. -/
def length : ℤ :=
  (inp.canaryHours * hour).bmod (2 ^ 64)

def fullEnd : Time :=
  inp.appliedAt + inp.length

/-- `windowEnd`: the window's end as of now. -/
def windowEnd : Time :=
  if inp.now < inp.fullEnd then inp.now else inp.fullEnd

def elapsed : Bool :=
  !decide (inp.now < inp.fullEnd)

def covered : Bool × String :=
  trailCovers inp.trail inp.appliedAt inp.windowEnd

def inWindow (e : TrailEvent) : Bool :=
  e.principalID == inp.roleID && !decide (e.eventTime < inp.appliedAt) &&
    !decide (inp.windowEnd < e.eventTime)

end CanaryInput

/-! ## The gates -/

inductive DenialClass where
  | retainedService
  | removedService
  | otherService
  deriving DecidableEq

def DenialClass.text : DenialClass → String
  | retainedService => "denied_retained_service"
  | removedService => "denied_removed_service"
  | otherService => "denied_other_service"

/-- A denial that no declared item expects. -/
structure UnexpectedFailure where
  eventTime : Time
  action : String
  sessionName : String
  errorCode : String
  failureClass : DenialClass
  denialPolicyType : String
  deriving DecidableEq

namespace CanaryInput

variable (inp : CanaryInput)

/-- The results of all declared items. -/
def itemResults : List ItemResult :=
  (correlateValidations inp.validations inp.events).flatMap ValidationResult.items

def artifactGate : GateResult where
  gate := .artifactVerified
  outcome :=
    match inp.artifactOutcome with
    | .passed => .passed
    | .failed => .failed
    | _ => .awaitingEvidence

/-- A declared item expects the denial. -/
def exempt (e : TrailEvent) : Bool :=
  inp.validations.any fun v => v.items.any fun it => it.expected == expectDenied && belongs e v it

def classOf (svc : String) : DenialClass :=
  if inp.removed.contains svc then .removedService
  else if (inp.retained.map RetainedService.service).contains svc then .retainedService
  else .otherService

def unexpectedFailures : List UnexpectedFailure :=
  let failures := inp.events.filter fun e => inp.inWindow e && e.denied && !inp.exempt e
  sortOn UnexpectedFailure.eventTime (failures.map fun e =>
    { eventTime := e.eventTime, action := e.action, sessionName := e.sessionName
      errorCode := e.errorCode, failureClass := inp.classOf e.service
      denialPolicyType := e.denialPolicyType })

def failuresGate : GateResult :=
  match inp.unexpectedFailures with
  | f :: fs =>
    { gate := .noUnexpectedFailures, outcome := .failed, reason := f.failureClass.text
      evidence := (f :: fs).map fun f =>
        f.failureClass.text ++ " " ++ f.action ++ " by " ++ f.sessionName }
  | [] =>
    if !inp.covered.1 then
      { gate := .noUnexpectedFailures, outcome := .notAvailable, reason := inp.covered.2 }
    else { gate := .noUnexpectedFailures, outcome := .passed }

def contradictedAllowed : List String :=
  (inp.itemResults.filter fun ir =>
    ir.expected == expectAllowed && ir.result == .contradicted).map ItemResult.action

def allowedMatched (svc : String) : Bool :=
  inp.itemResults.any fun ir =>
    ir.expected == expectAllowed && ir.result == .matched &&
      toLower (actionNamespace ir.action) == svc

def working (svc : String) : Bool :=
  inp.reports.any fun r =>
    r.kind == reportWorking && !decide (r.createdAt < inp.appliedAt) && r.service == svc

def succeeded (svc : String) : Bool :=
  inp.events.any fun e => inp.inWindow e && e.errorCode == "" && e.service == svc

/-- There is success evidence for the service. -/
def evidenced (r : RetainedService) : Bool :=
  inp.allowedMatched r.service || inp.working r.service ||
    (!r.dataEventsOnly && inp.succeeded r.service)

def missing : List String :=
  sortOn id ((inp.retained.filter fun r =>
    r.activeInQualifiedInterval && !inp.evidenced r).map RetainedService.service)

def requiredGate : GateResult :=
  if inp.contradictedAllowed ≠ [] then
    { gate := .requiredOperations, outcome := .failed, reason := "allowed_validation_denied"
      evidence := inp.contradictedAllowed }
  else if inp.missing = [] then { gate := .requiredOperations, outcome := .passed }
  else if inp.elapsed then
    { gate := .requiredOperations, outcome := .notAvailable
      reason := "no_success_evidence_in_window", evidence := inp.missing }
  else
    { gate := .requiredOperations, outcome := .awaitingEvidence
      reason := "awaiting_success_evidence", evidence := inp.missing }

def reportsGate : GateResult :=
  let problems := inp.reports.filter fun r =>
    r.kind == reportProblem && !decide (r.createdAt < inp.appliedAt)
  if problems ≠ [] then
    { gate := .noProblemReports, outcome := .failed, reason := "problem_reported"
      evidence := problems.map HealthReport.service }
  else { gate := .noProblemReports, outcome := .passed }

def windowGate : GateResult :=
  if !inp.elapsed then
    { gate := .windowElapsed, outcome := .awaitingEvidence, reason := "canary_hours_not_elapsed" }
  else if !inp.covered.1 then
    { gate := .windowElapsed, outcome := .notAvailable, reason := inp.covered.2 }
  else if !inp.publishedAfterApply then
    { gate := .windowElapsed, outcome := .awaitingEvidence, reason := "no_publication_after_apply" }
  else { gate := .windowElapsed, outcome := .passed }

/-- The health of the application over the three gates that tell of it. -/
def applicationHealth : DimensionResult :=
  let outcomes := [inp.failuresGate, inp.requiredGate, inp.reportsGate].map GateResult.outcome
  { outcome :=
      if outcomes.contains .failed then .failed
      else if outcomes.all (· == .passed) then .passed
      else if outcomes.contains .notAvailable then .notAvailable
      else .awaitingEvidence
    attribution := .notApplicable }

end CanaryInput

namespace CanaryInput

lemma mem_itemResults {inp : CanaryInput} {ir : ItemResult} :
    ir ∈ inp.itemResults ↔
      ∃ v ∈ inp.validations, ∃ it ∈ v.items, correlateItem v inp.events it = ir := by
  simp [itemResults, correlateValidations, correlateValidation]

variable (inp : CanaryInput)

@[simp]
lemma gate_artifactGate : inp.artifactGate.gate = .artifactVerified := rfl

@[simp]
lemma gate_failuresGate : inp.failuresGate.gate = .noUnexpectedFailures := by
  rw [failuresGate]
  split
  · rfl
  · split_ifs <;> rfl

@[simp]
lemma gate_requiredGate : inp.requiredGate.gate = .requiredOperations := by
  rw [requiredGate]
  split_ifs <;> rfl

@[simp]
lemma gate_reportsGate : inp.reportsGate.gate = .noProblemReports := by
  simp only [reportsGate]
  split_ifs <;> rfl

@[simp]
lemma gate_windowGate : inp.windowGate.gate = .windowElapsed := by
  rw [windowGate]
  split_ifs <;> rfl

end CanaryInput

/-! ## Restriction -/

inductive RestrictionPosture where
  | notObserved
  | observed
  | contradicted
  deriving DecidableEq

namespace CanaryInput

variable (inp : CanaryInput)

/-- The results of the items that expect a denial of a service. -/
def deniedResults (isService : String → Bool) : List ItemResult :=
  inp.itemResults.filter fun ir =>
    ir.expected == expectDenied && isService (toLower (actionNamespace ir.action))

/-- The denials of a service after the change. -/
def denials (isService : String → Bool) : List TrailEvent :=
  inp.events.filter fun e => e.principalID == inp.roleID && !decide (e.eventTime < inp.appliedAt) &&
    e.denied && isService e.service

/-- `restriction`. -/
def restriction : DimensionResult :=
  let results := inp.deniedResults inp.removed.contains
  let denials := inp.denials inp.removed.contains
  if !inp.removesServices then { outcome := .notApplicable, attribution := .notApplicable }
  else if results.any (·.result == .contradicted) then
    { outcome := .failed, attribution := .validation, reason := "expected_denial_was_allowed" }
  else if results.any (fun ir => ir.result == .matched && ir.boundaryAttested) then
    { outcome := .passed, attribution := .validation }
  else if denials.any (·.denialPolicyType == denialPermissionsBoundary) then
    { outcome := .passed, attribution := .boundary }
  else if denials ≠ [] then
    { outcome := .awaitingEvidence, attribution := .causeUnknown
      reason := "denied_cause_not_attributed" }
  else { outcome := .awaitingEvidence, attribution := .notApplicable, reason := "not_observed" }

/-- `serviceRestriction`. -/
def serviceRestriction (svc : String) : RestrictionPosture :=
  let results := inp.deniedResults (· == svc)
  if results.any (·.result == .contradicted) then .contradicted
  else if results.any (fun ir => ir.result == .matched && ir.boundaryAttested) ||
      (inp.denials (· == svc)).any (·.denialPolicyType == denialPermissionsBoundary) then .observed
  else .notObserved

end CanaryInput

/-- What the gates say together. -/
structure CanaryResult where
  gates : List GateResult
  pass : Bool
  pause : Bool
  notAvailable : List GateName
  applicationHealth : DimensionResult
  restriction : DimensionResult
  serviceRestriction : List (String × RestrictionPosture)
  validations : List ValidationResult
  unexpectedFailures : List UnexpectedFailure
  deriving DecidableEq

/-- `EvaluateCanary`. -/
def evaluateCanary (inp : CanaryInput) : CanaryResult :=
  let gates := [inp.artifactGate, inp.failuresGate, inp.requiredGate, inp.reportsGate,
    inp.windowGate]
  { gates
    pass := gates.all (·.outcome == .passed)
    pause := gates.any (·.outcome == .failed)
    notAvailable := (gates.filter (·.outcome == .notAvailable)).map GateResult.gate
    applicationHealth := inp.applicationHealth
    restriction := inp.restriction
    serviceRestriction := (sortedUnique inp.removed).map fun s => (s, inp.serviceRestriction s)
    validations := correlateValidations inp.validations inp.events
    unexpectedFailures := inp.unexpectedFailures }

end AuthSec

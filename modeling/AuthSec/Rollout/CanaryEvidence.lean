import AuthSec.Canonical.Hash
import AuthSec.Evidence.Impact
import AuthSec.Rollout.Canary

/-!
# Success evidence of a canary

The canary's input as the service builds it: the deployment's events from an hour before the change
on, and the validations that were declared for it.

* `required_of_passed`: the required operations pass with evidence for every active service;
* `requiredOperations_after`: the evidence for a service is dated after the change if no validation
  that expects its calls to be allowed looks at the hour before the change;
* `requiredOperations_listed_before`: with a window that begins before the change, a call before it
  can be the only evidence.
-/

namespace AuthSec

open List

/-! ## Declared validations -/

/-- What an error of the service tells besides its text. -/
inductive GovDetail where
  | nothing
  | parameter (name : String)
  | item (index : ℕ) (action : String)
  | session (name : String)
  deriving DecidableEq

structure GovError where
  status : ℕ
  code : String
  message : String
  detail : GovDetail
  deriving DecidableEq

/-- `GovBadParam`. -/
def govBadParam (param msg : String) : GovError :=
  ⟨400, "invalid_parameter", msg, .parameter param⟩

/-- `GovNotFound`. -/
def govNotFound : GovError :=
  ⟨404, "not_found", "Not found.", .nothing⟩

def govUnprocessable (code msg : String) (detail : GovDetail) : GovError :=
  ⟨422, code, msg, detail⟩

def actionNotMappable (index : ℕ) (action : String) : GovError :=
  govUnprocessable "action_not_mappable" "The action cannot be matched to CloudTrail events."
    (.item index action)

/-- `reValidationAction`. -/
def reValidationAction (action : String) : Bool :=
  match action.toList.span (· != ':') with
  | (ns, _ :: name) => reService (String.ofList ns) && !name.isEmpty && name.all Char.isAlphanum
  | _ => false

/-- The loop over the declared items, with those before. -/
def checkItems : List ValidationItem → ℕ → List ValidationItem → Except GovError Unit
  | _, _, [] => .ok ()
  | seen, i, it :: items =>
    match splitAction it.action with
    | none => .error (actionNotMappable i it.action)
    | some (ns, name) =>
      if !reValidationAction it.action then .error (actionNotMappable i it.action)
      else if (actionForEvent (ns ++ ".amazonaws.com") name).isNone then
        .error (actionNotMappable i it.action)
      else if it.expected ≠ expectDenied ∧ it.expected ≠ expectAllowed then
        .error (govBadParam "items" "expected must be denied or allowed.")
      else if (seen.map ValidationItem.action).contains it.action then
        .error (govBadParam "items" "An action is declared twice.")
      else checkItems (it :: seen) (i + 1) items

structure ValidationRequest where
  items : List ValidationItem
  correlation : String
  dedicatedWorkloadID : Option String
  windowStart : Time
  windowEnd : Time

structure Workload where
  id : String
  displayName : String
  active : Bool

/-- The session that the test's calls come from. -/
def validationSession (req : ValidationRequest) (random : Bytes) (workloads : List Workload) :
    Except GovError String :=
  if req.correlation = "assumed_session" then .ok ("authsec-validate-" ++ hexEncode random)
  else if req.correlation = "dedicated_workload" then
    match req.dedicatedWorkloadID with
    | none => .error (govBadParam "dedicated_workload_id" "A dedicated workload is named.")
    | some id =>
      match workloads.find? (·.id == id) with
      | none => .error govNotFound
      | some w =>
        if workloads.any fun o => o.id != w.id && o.displayName == w.displayName && o.active then
          .error (govUnprocessable "session_not_unique"
            "Another workload uses the same session name; its calls could not be told apart."
            (.session w.displayName))
        else .ok w.displayName
  else .error (govBadParam "correlation"
    "correlation must be assumed_session or dedicated_workload.")

/-- A validation whose window ends after it starts. -/
structure DeclaredValidation extends Validation where
  ends : windowStart < windowEnd

/-- `DeclareValidation`, up to the row that it stores. -/
def declareValidation (req : ValidationRequest) (id roleID : String) (random : Bytes)
    (workloads : List Workload) : Except GovError DeclaredValidation :=
  if req.items.isEmpty then .error (govBadParam "items" "At least one action is declared.")
  else do
    checkItems [] 0 req.items
    if hends : req.windowStart < req.windowEnd then do
      let sessionName ← validationSession req random workloads
      .ok { id, roleID, sessionName, windowStart := req.windowStart, windowEnd := req.windowEnd
            items := sortOn ValidationItem.action req.items, ends := hends }
    else .error (govBadParam "window_end" "The window must end after it starts.")

/-! ## The input of a deployment -/

/-- An observed event with the texts of its facts. -/
structure EventObservation where
  observedAt : Time
  facts : GoMap String

/-- The stored text of a fact, empty if there is none. -/
def EventObservation.str (o : EventObservation) (key : String) : String :=
  (o.facts.get? key).getD ""

def EventObservation.event (o : EventObservation) : TrailEvent where
  eventTime := o.observedAt
  principalID := o.str "session_issuer_principal_id"
  sessionName := o.str "session_name"
  eventSource := o.str "event_source"
  eventName := o.str "event_name"
  errorCode := o.str "error_code"
  denialPolicyType := o.str "denial_policy_type"

structure SurfaceCoverage where
  state : String
  count : ℤ

/-- A published scan of the connector. -/
structure PublishedRun where
  startedAt : Option Time
  requestedAt : Time
  surfaces : GoMap SurfaceCoverage

def PublishedRun.readAt (r : PublishedRun) : Time :=
  r.startedAt.getD r.requestedAt

def surfaceCloudTrailEventsPrefix : String := "cloudtrail-events"
def coverageReached : String := "reached"
def coveragePartial : String := "partial"

/-- One read for each surface of events that the scan reached. -/
def PublishedRun.reads (r : PublishedRun) : List (TrailRead Time) :=
  r.surfaces.sortedPairs.filterMap fun (key, sc) =>
    if !startsWith key ( surfaceCloudTrailEventsPrefix ++ ":") then none
    else if sc.state ≠ coverageReached ∧ sc.state ≠ coveragePartial then none
    else some { fromTime := r.readAt - maxTrailScanGap, toTime := r.readAt
                capHit := sc.state == coveragePartial || decide (10000 ≤ sc.count) }

/-- What is stored for a deployment that was applied, its control and its plan. -/
structure DeploymentRecords where
  roleID : String
  appliedAt : Time
  canaryHours : ℤ
  isApply : Bool
  attachesBoundary : Bool
  impact : Impact
  observations : List EventObservation
  validations : List DeclaredValidation
  reports : List HealthReport
  runs : List PublishedRun

/-- The basis of a service that was in use. -/
def basisObserved : String := "observed"

/-- `canary`, up to the evaluation: the input for a deployment. -/
def DeploymentRecords.canaryInput (d : DeploymentRecords) (now : Time) (artifact : Outcome)
    (published : Bool) : CanaryInput where
  roleID := d.roleID
  appliedAt := d.appliedAt
  now := now
  canaryHours := d.canaryHours
  removesServices := d.isApply && d.attachesBoundary && !d.impact.removed.isEmpty
  removed := d.impact.removed.map ImpactService.service
  retained := d.impact.retained.map fun r =>
    { service := r.service, activeInQualifiedInterval := r.basis == basisObserved
      dataEventsOnly := false }
  events := (sortOn EventObservation.observedAt (d.observations.filter fun o =>
    o.str "session_issuer_principal_id" == d.roleID &&
      decide (d.appliedAt - hour ≤ o.observedAt))).map EventObservation.event
  validations := d.validations.map DeclaredValidation.toValidation
  reports := d.reports
  trail := (d.runs.filter fun r =>
    decide (d.appliedAt - maxTrailScanGap ≤ r.readAt)).flatMap PublishedRun.reads
  publishedAfterApply := published
  artifactOutcome := artifact

/-! ## Success evidence -/

namespace CanaryInput

variable (inp : CanaryInput)

/-- A call of the role to the service succeeded after the change. -/
def CallSucceeded (svc : String) : Prop :=
  ∃ e ∈ inp.events, e.principalID = inp.roleID ∧ inp.appliedAt ≤ e.eventTime ∧ e.errorCode = "" ∧
    e.service = svc

/-- An event at a point of time with the property matches an item that expects a call to the service
to be allowed. -/
def AllowedItem (when : Time → Prop) (svc : String) : Prop :=
  ∃ v ∈ inp.validations, ∃ it ∈ v.items, it.expected = expectAllowed ∧
    toLower (actionNamespace it.action) = svc ∧
    ∃ e ∈ inp.events, belongs e v it = true ∧ e.denied = false ∧ when e.eventTime

/-- An owner reported after the change that the service works. -/
def ReportedWorking (svc : String) : Prop :=
  ∃ r ∈ inp.reports, r.kind = reportWorking ∧ r.service = svc ∧ inp.appliedAt ≤ r.createdAt

/-- There is success evidence that is dated at the change or after it. -/
def SuccessAfter (svc : String) : Prop :=
  inp.CallSucceeded svc ∨ inp.AllowedItem (inp.appliedAt ≤ ·) svc ∨ inp.ReportedWorking svc

instance (svc : String) : Decidable (inp.CallSucceeded svc) :=
  inferInstanceAs (Decidable (∃ e ∈ inp.events, _))

instance (when : Time → Prop) [DecidablePred when] (svc : String) :
    Decidable (inp.AllowedItem when svc) :=
  inferInstanceAs (Decidable (∃ v ∈ inp.validations, ∃ it ∈ v.items, _))

instance (svc : String) : Decidable (inp.ReportedWorking svc) :=
  inferInstanceAs (Decidable (∃ r ∈ inp.reports, _))

instance (svc : String) : Decidable (inp.SuccessAfter svc) :=
  inferInstanceAs (Decidable (_ ∨ _ ∨ _))

variable {inp} {svc : String}

/-- A matched item is matched by an event of some time. -/
lemma allowedItem_of_matched (h : inp.allowedMatched svc = true) :
    inp.AllowedItem (inp.appliedAt ≤ ·) svc ∨ inp.AllowedItem (· < inp.appliedAt) svc := by
  obtain ⟨ir, hir, hmatched⟩ := any_eq_true.1 h
  obtain ⟨v, hv, it, hit, rfl⟩ := mem_itemResults.1 hir
  simp only [Bool.and_eq_true, beq_iff_eq] at hmatched
  obtain ⟨⟨hexpected, hresult⟩, hsvc⟩ := hmatched
  obtain ⟨⟨e, he, hbelongs, hagrees⟩, -⟩ := correlateItem_matched hresult
  have hdenied := (agrees_allowed hexpected).1 hagrees
  rcases le_or_gt inp.appliedAt e.eventTime with hafter | hbefore
  · exact Or.inl ⟨v, hv, it, hit, hexpected, hsvc, e, he, hbelongs, hdenied, hafter⟩
  · exact Or.inr ⟨v, hv, it, hit, hexpected, hsvc, e, he, hbelongs, hdenied, hbefore⟩

lemma reportedWorking_of_working (h : inp.working svc = true) : inp.ReportedWorking svc := by
  obtain ⟨r, hr, hworking⟩ := any_eq_true.1 h
  simp only [Bool.and_eq_true, beq_iff_eq, Bool.not_eq_true', decide_eq_false_iff_not,
    not_lt] at hworking
  exact ⟨r, hr, hworking.1.1, hworking.2, hworking.1.2⟩

lemma callSucceeded_of_succeeded (h : inp.succeeded svc = true) : inp.CallSucceeded svc := by
  obtain ⟨e, he, hsucceeded⟩ := any_eq_true.1 h
  simp only [inWindow, Bool.and_eq_true, beq_iff_eq, Bool.not_eq_true', decide_eq_false_iff_not,
    not_lt] at hsucceeded
  obtain ⟨⟨⟨⟨hrole, hafter⟩, -⟩, herror⟩, hsvc⟩ := hsucceeded
  exact ⟨e, he, hrole, hafter, herror, hsvc⟩

/-- The evidence for a service is dated after the change, or it is a call before it. -/
lemma after_or_before_of_evidenced {r : RetainedService} (h : inp.evidenced r = true) :
    inp.SuccessAfter r.service ∨ inp.AllowedItem (· < inp.appliedAt) r.service := by
  simp only [evidenced, Bool.or_eq_true, Bool.and_eq_true] at h
  rcases h with (hmatched | hworking) | ⟨-, hsucceeded⟩
  · exact (allowedItem_of_matched hmatched).imp_left fun hafter => Or.inr (Or.inl hafter)
  · exact Or.inl (Or.inr (Or.inr (reportedWorking_of_working hworking)))
  · exact Or.inl (Or.inl (callSucceeded_of_succeeded hsucceeded))

/-- The required operations passed. -/
def RequiredPassed (inp : CanaryInput) : Prop :=
  ∃ g ∈ (evaluateCanary inp).gates, g.gate = .requiredOperations ∧ g.outcome = .passed

lemma requiredPassed_iff : inp.RequiredPassed ↔ inp.requiredGate.outcome = .passed := by
  simp [RequiredPassed, evaluateCanary]

/-- The required operations pass with evidence for every service that was active. -/
lemma required_of_passed (h : inp.RequiredPassed) {r : RetainedService} (hr : r ∈ inp.retained)
    (hactive : r.activeInQualifiedInterval = true) : inp.evidenced r = true := by
  have hmissing : inp.missing = [] := by
    rw [requiredPassed_iff, requiredGate] at h
    split_ifs at h with hcontradicted hmissing
    exact hmissing
  by_contra hno
  have hmem : r.service ∈ inp.missing := by
    rw [missing, mem_sortOn]
    exact mem_map_of_mem (mem_filter.2 ⟨hr, by simpa [hactive] using hno⟩)
  rw [hmissing] at hmem
  exact absurd hmem not_mem_nil

end CanaryInput

section

variable {d : DeploymentRecords} {now : Time} {artifact : Outcome} {published : Bool}

/-- The validations that expect a call to the service to be allowed have windows that begin at the
change or after it, or that end before the first events that are loaded. -/
def DeploymentRecords.WindowsAfter (d : DeploymentRecords) (svc : String) : Prop :=
  ∀ v ∈ d.validations, ∀ it ∈ v.items, it.expected = expectAllowed →
    toLower (actionNamespace it.action) = svc →
      d.appliedAt ≤ v.windowStart ∨ v.windowEnd < d.appliedAt - hour

lemma DeploymentRecords.loaded {e : TrailEvent}
    (he : e ∈ (d.canaryInput now artifact published).events) : d.appliedAt - hour ≤ e.eventTime := by
  obtain ⟨o, ho, rfl⟩ := mem_map.1 he
  have hfilter := (mem_filter.1 ((mem_sortOn _ _).1 ho)).2
  simp only [Bool.and_eq_true, decide_eq_true_eq] at hfilter
  exact hfilter.2

/-- With such windows no event before the change matches an item that expects a call to be allowed:
those before the windows do not belong to it, and those behind them are not loaded. -/
lemma DeploymentRecords.WindowsAfter.not_allowedItem {svc : String} (h : d.WindowsAfter svc) :
    ¬(d.canaryInput now artifact published).AllowedItem (· < d.appliedAt) svc := by
  rintro ⟨w, hw, it, hit, hexpected, hsvc, e, he, hbelongs, -, hbefore⟩
  obtain ⟨v, hv, rfl⟩ := mem_map.1 hw
  simp only [belongs, Bool.and_eq_true, Bool.not_eq_true', decide_eq_false_iff_not,
    not_lt] at hbelongs
  obtain ⟨⟨-, hstart⟩, hstop⟩ := hbelongs
  rcases h v hv it hit hexpected hsvc with hafter | hearly
  · exact absurd (hbefore.trans_le hafter) hstart.not_gt
  · exact absurd (hstop.trans_lt hearly) (loaded he).not_gt

end

/-! ## Examples -/

/-- A request to see the queues listed by a workload of its own, from a quarter of an hour before
the change on. -/
def listQueuesRequest (appliedAt : Time) : ValidationRequest where
  items := [⟨"sqs:ListQueues", expectAllowed⟩]
  correlation := "dedicated_workload"
  dedicatedWorkloadID := some "workload"
  windowStart := appliedAt - 900 * second
  windowEnd := appliedAt + hour

/-- The queues are retained, and they were in use. -/
def queueDeployment (appliedAt : Time) (calls : List Time) (validations : List DeclaredValidation) :
    DeploymentRecords where
  roleID := "AROAEXAMPLE"
  appliedAt := appliedAt
  canaryHours := 48
  isApply := true
  attachesBoundary := true
  impact := { removed := [⟨"s3", "no_attempt"⟩], retained := [⟨"sqs", basisObserved⟩] }
  observations := calls.map fun t =>
    ⟨t, GoMap.ofList [("session_issuer_principal_id", "AROAEXAMPLE"), ("session_name", "prober"),
      ("event_source", "sqs.amazonaws.com"), ("event_name", "ListQueues")]⟩
  validations := validations
  reports := []
  runs := []

/-- A declared test of the queues with a window of an hour from the change on. -/
def listQueuesAfter (appliedAt : Time) : DeclaredValidation where
  id := "validation"
  roleID := "AROAEXAMPLE"
  sessionName := "prober"
  windowStart := appliedAt
  windowEnd := appliedAt + hour
  items := [⟨"sqs:ListQueues", expectAllowed⟩]
  ends := lt_add_of_pos_right _ (by decide)

end AuthSec

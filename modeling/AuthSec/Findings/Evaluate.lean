import AuthSec.Evidence.Bundle
import AuthSec.Findings.Lifecycle
import AuthSec.Findings.Snapshot

/-!
# The evaluation of a revision

`evaluate` judges every role of a snapshot on the evidence of its own connector's run: the activity
evidence of its services, the findings whose condition holds, the conditions that could not be
evaluated, and the routes.  A finding is identified by the hash of its kind, its role and a detail
key.
-/

namespace AuthSec

/-! ## Findings -/

def FindingKind.text : FindingKind → String
  | unusedService => "unused_service"
  | broadGrant => "broad_grant"
  | sharedRole => "shared_role"
  | missingOwner => "missing_owner"
  | missingReviewDate => "missing_review_date"
  | activityNotRead => "activity_not_read"

inductive FindingFamily where
  | governance
  | cloudAccess
  deriving DecidableEq

/-- `FindingFamily`. -/
def FindingKind.family : FindingKind → FindingFamily
  | missingOwner | missingReviewDate => .governance
  | _ => .cloudAccess

def QualConfidence.finding : QualConfidence → FindingConfidence
  | qualified => .qualified
  | ageUnverified => .ageUnverified
  | notApplicable => .notApplicable

/-- A finding of a role with the columns that the lifecycle does not read. -/
structure RoleFinding extends Finding where
  family : FindingFamily
  identityAccountID : String
  connectorID : String
  evidenceScanRunID : String
  deriving DecidableEq

/-- `unitSep`, as a character. -/
def unitSepChar : Char := '\x1f'

/-- `strings.ReplaceAll` of a single character. -/
def replaceChar (old : Char) (new : String) (s : String) : String :=
  String.ofList (s.toList.flatMap fun c => if c = old then new.toList else [c])

/-- `BroadGrantDetailKey`. -/
def broadGrantDetailKey (statementKey : String) : String :=
  if !containsAny statementKey ['%', unitSepChar] then statementKey
  else replaceChar unitSepChar "%1F" (replaceChar '%' "%25" statementKey)

/-- The text that a fingerprint hashes. -/
def fingerprintText (kind roleID detailKey : String) : String :=
  String.ofList (kind.toList ++ unitSepChar :: (roleID.toList ++ unitSepChar :: detailKey.toList))

section

variable [Sha256]

/-- `Fingerprint`. -/
def fingerprint (kind roleID detailKey : String) : Except GoErr String :=
  match [kind, roleID, detailKey].find? fun f => decide (unitSepChar ∈ f.toList) with
  | some f => .error (.msg ("igagov: fingerprint field " ++ quote f ++ " contains U+001F"))
  | none =>
    if kind = "" ∨ roleID = "" then
      .error (.msg "igagov: fingerprint needs a kind and a RoleId")
    else .ok (sha256Label (utf8 (fingerprintText kind roleID detailKey)))

/-- `newFinding`. -/
def newFinding (kind : FindingKind) (severity : FindingSeverity) (confidence : FindingConfidence)
    (r : RoleSnapshot) (detailKey runID : String) (detail : Json GoNum) :
    Except GoErr RoleFinding := do
  let fp ← fingerprint kind.text r.roleID detailKey
  let d ← canonField detail
  checkStorable d
  return { fingerprint := fp, kind, severity, confidence, roleID := r.roleID, detailKey, detail := d
           family := kind.family, identityAccountID := r.identityAccountID
           connectorID := r.connectorID
           evidenceScanRunID := if kind.family = .cloudAccess then runID else "" }

end

/-! ## What an evaluation gives -/

def RouteUsage.text : RouteUsage → String
  | noneObserved => "none_observed"
  | confirmRequired => "confirm_required"

def RouteState.text : RouteState → String
  | noneObserved => "none_observed"
  | bypassKnown => "bypass_known"
  | effectUnknown => "effect_unknown"
  | notAnalysed => "not_analysed"

/-- `RouteAnalysis.RemainingRoutes`. -/
def RouteAnalysis.remainingRoutes (ra : RouteAnalysis) : List Route :=
  ra.routes.filter (·.effect != RouteEffect.limited.text)

/-- A row of activity evidence. -/
structure ActivityRow where
  identityAccountID : String
  roleID : String
  service : String
  state : EvidenceState
  reason : String
  lastAuthenticatedAt : Option Time
  reportGeneratedAt : Option Time
  grantObservedSince : Option Time
  grantAgeBasis : String
  trackingFrom : Option Time
  scanRunID : String
  routeUsage : RouteUsage
  deriving DecidableEq

/-- A condition that cannot be decided. -/
structure UnknownCondition extends ConditionScope where
  reason : String
  deriving DecidableEq

structure RouteFacts where
  accountID : String
  roleID : String
  service : String
  routeUsage : RouteUsage
  routeState : RouteState
  routes : List Route
  scanRunID : String
  deriving DecidableEq

structure RoleAssessment where
  roleID : String
  qualification : Qualification
  deriving DecidableEq

structure SkippedRole where
  roleID : String
  reason : String
  deriving DecidableEq

/-- What the evaluation of a role, or a part of it, adds. -/
structure EvaluationPart where
  evidence : List ActivityRow := []
  findings : List RoleFinding := []
  unknown : List UnknownCondition := []
  routes : List RouteFacts := []
  assessments : List RoleAssessment := []

instance : Append EvaluationPart where
  append p q :=
    { evidence := p.evidence ++ q.evidence, findings := p.findings ++ q.findings
      unknown := p.unknown ++ q.unknown, routes := p.routes ++ q.routes
      assessments := p.assessments ++ q.assessments }

def EvaluationPart.concat : List EvaluationPart → EvaluationPart
  | [] => {}
  | p :: ps => p ++ concat ps

@[simp]
lemma EvaluationPart.findings_append (p q : EvaluationPart) :
    (p ++ q).findings = p.findings ++ q.findings := rfl

/-- `Evaluation`, with every field. -/
structure SnapshotEvaluation extends EvaluationPart where
  rev : ℤ
  evaluatedAt : Time
  presentRoles : List String
  skipped : List SkippedRole

/-! ## Details -/

/-- A nil slice is `null`. -/
def goSlice (l : List (Json GoNum)) : Json GoNum :=
  if l.isEmpty then .null else .arr l

def goTime (t : Time) : Json GoNum :=
  goPtr (ts (some t))

/-- `grantRef`. -/
def LiveStatement.grantRef (ls : LiveStatement) : Json GoNum :=
  .obj [("policy_key", .str ls.rev.policyKey), ("policy_arn", .str ls.assign.policyARN),
    ("statement_key", .str ls.rev.statementKey), ("statement_hash", .str ls.rev.hash)]

def unusedServiceDetail (q : Qualification) (ra : RouteAnalysis) (live : List LiveStatement) :
    Json GoNum :=
  let grants := live.filter fun ls => ls.rev.statement.grantsNamespace q.service
  .obj [("service", .str q.service), ("scope", .str "identity_policies"),
    ("qualified_days", goInt (.ofInt q.qualifiedDays)),
    ("requested_window_days", goInt (.ofInt q.requestedWindowDays)),
    ("window_start", goTime q.windowStart), ("coverage_start", goTime q.coverageStart),
    ("covered_until", goTime q.coveredUntil),
    ("report_generated_at", goTime q.reportGeneratedAt),
    ("last_authenticated_at", goPtr (ts q.lastAuthenticatedAt)),
    ("role_created_at", goTime q.roleFrom), ("tracking_from", goPtr (ts q.trackingFrom)),
    ("grant_age_basis", .str q.grantAgeBasis),
    ("verified_grant_from", goPtr (ts q.verifiedGrantFrom)),
    ("route_usage", .str ra.usage.text), ("route_state", .str ra.state.text),
    ("routes", .arr (ra.routes.map Route.toJson)),
    ("grants", goSlice (grants.map LiveStatement.grantRef))]

/-- `nilIfEmpty`. -/
def nilIfEmpty (s : String) : Option String :=
  if s = "" then none else some s

def consumersDetail (r : RoleSnapshot) : Json GoNum :=
  .arr (r.liveConsumers.map fun c => ImpactConsumer.toJson ⟨c.workloadID, c.relationship⟩)

/-! ## Services -/

section

variable [Sha256] (s : Snapshot) (r : RoleSnapshot)

def RoleSnapshot.ref : RoleRef where
  roleID := r.roleID
  arn := r.arn
  name := r.name
  accountID := r.accountID
  partition := r.partition

/-- What `Qualify` is given for a line of the report. -/
def Snapshot.qualifyInput (run : RunEvidence) (report : ActivityReport) (sa : ServiceActivity) :
    QualifyInput where
  service := sa.service
  reportGeneratedAt := report.generatedAt
  lastAuthenticatedAt := sa.lastAuthenticatedAt
  roleCreatedAt := r.createdAt
  trackingFrom := (trackingStart sa.service run.enabledRegions).toOption
  trackingReason :=
    match trackingStart sa.service run.enabledRegions with
    | .ok _ => ""
    | .error reason => reason
  requestedWindowDays := s.windowFor (s.workloadsOf r)
  paths := grantPathsFor r sa.service run.connectorFirstPublishedAt
  evaluatedAt := s.evaluatedAt

/-- The finding or the unknown condition that a qualification calls for. -/
def serviceVerdict (runID : String) (q : Qualification) (ra : RouteAnalysis)
    (live : List LiveStatement) : Except GoErr EvaluationPart :=
  match q.outcome with
  | .unreviewed => .ok { unknown := [⟨⟨r.roleID, .unusedService, q.service⟩, q.reason⟩] }
  | .noAttempt => do
      let f ← newFinding .unusedService .medium q.confidence.finding r q.service runID
        (unusedServiceDetail q ra live)
      return { findings := [f] }
  | _ => .ok {}

/-- The round of the loop over the report for a line. -/
def Snapshot.servicePart (runID : String) (run : RunEvidence) (report : ActivityReport)
    (sa : ServiceActivity) : Except GoErr EvaluationPart := do
  let q := qualify (s.qualifyInput r run report sa)
  let ra := analyzeRoutes sa.service r.ref run.resourcePolicy run.enabledRegions
  let verdict ← serviceVerdict r runID q ra (liveStatements r s.evaluatedAt)
  return { evidence := [{
             identityAccountID := r.identityAccountID, roleID := r.roleID, service := sa.service
             state := .collected, reason := q.reason
             lastAuthenticatedAt := sa.lastAuthenticatedAt
             reportGeneratedAt := some report.generatedAt
             grantObservedSince := q.verifiedGrantFrom, grantAgeBasis := q.grantAgeBasis
             trackingFrom := q.trackingFrom, scanRunID := runID, routeUsage := ra.usage }]
           assessments := [⟨r.roleID, q⟩]
           routes := [{ accountID := r.accountID, roleID := r.roleID, service := sa.service
                        routeUsage := ra.usage, routeState := ra.state
                        routes := ra.remainingRoutes, scanRunID := runID }] } ++ verdict

/-- The loop over the report, with the services that were seen. -/
def Snapshot.serviceParts (runID : String) (run : RunEvidence) (report : ActivityReport) :
    List String → List ServiceActivity → Except GoErr EvaluationPart
  | _, [] => .ok {}
  | seen, sa :: rest =>
    if seen.contains sa.service then
      .error (.msg ("igagov: role " ++ r.roleID ++ " report lists " ++ sa.service ++ " twice"))
    else do
      let part ← s.servicePart r runID run report sa
      let parts ← serviceParts runID run report (sa.service :: seen) rest
      return part ++ parts

/-- A role without activity facts: no conclusion, and a finding if a workload runs under it. -/
def Snapshot.notReadPart (reason runID : String) : Except GoErr EvaluationPart := do
  let granted := (liveStatements r s.evaluatedAt).flatMap fun ls =>
    ls.rev.statement.explicitNamespaces
  let evidence := (sortedUnique granted).map fun svc =>
    { identityAccountID := r.identityAccountID, roleID := r.roleID, service := svc
      state := EvidenceState.notCollected, reason, lastAuthenticatedAt := none
      reportGeneratedAt := none, grantObservedSince := none, grantAgeBasis := grantAgeUnknown
      trackingFrom := none, scanRunID := runID, routeUsage := .confirmRequired }
  let unknown := [⟨⟨r.roleID, .unusedService, ""⟩, reason⟩]
  if r.workloadIDs.isEmpty then return { evidence, unknown }
  else
    let f ← newFinding .activityNotRead .info .notApplicable r "" runID
      (.obj [("reason", .str reason), ("scan_run_id", goPtr (nilIfEmpty runID)),
        ("connector_id", goPtr (nilIfEmpty r.connectorID)), ("consumers", consumersDetail r)])
    return { evidence, unknown, findings := [f] }

/-- The activity evidence and the findings of unused services. -/
def Snapshot.activityPart : Except GoErr EvaluationPart :=
  match s.activityReading r with
  | .collected runID run report =>
      s.serviceParts r runID run report [] (sortOn ServiceActivity.service report.services)
  | .notCollected reason runID => s.notReadPart r reason runID

/-! ## Broad grants -/

/-- The services whose actions a statement grants all, and whether it grants all actions. -/
def Statement.serviceWildcards (st : Statement) : List String :=
  if st.resourceIsWildcard then
    st.action.filterMap fun p =>
      if allStars p then none
      else
        match splitAction p with
        | some (ns, act) => if allStars act then some (toLower ns) else none
        | none => none
  else []

/-- Why a statement is a broad grant. -/
def Statement.broadReasons (st : Statement) : List String :=
  (if st.resourceIsWildcard then
    (if st.isNotAction then ["not_action_on_all_resources"] else []) ++
      (st.action.filter allStars).map fun _ => "full_wildcard"
  else []) ++
    (if st.serviceWildcards.isEmpty then [] else ["service_wildcard"]) ++
    (if (escalationsGranted st).isEmpty then [] else ["escalation"])

def broadSeverity (reasons : List String) : FindingSeverity :=
  if reasons.any fun why => why == "full_wildcard" || why == "not_action_on_all_resources" ||
      why == "escalation" then .high
  else .medium

def LiveStatement.broadDetail (ls : LiveStatement) : Json GoNum :=
  let st := ls.rev.statement
  .obj [("policy_key", .str ls.rev.policyKey), ("policy_arn", .str ls.assign.policyARN),
    ("assignment_kind", .str ls.assign.kind.text), ("statement_key", .str ls.rev.statementKey),
    ("statement_hash", .str ls.rev.hash), ("sid", .str st.sid),
    ("reasons", strArray (sortedUnique st.broadReasons)),
    ("service_wildcards", strArray (sortedUnique st.serviceWildcards)),
    ("escalations", goSlice ((escalationsGranted st).map .str)),
    ("has_condition", .bool (!st.conditions.isEmpty))]

/-- The loop over the live statements, with the keys of those that made a finding. -/
def broadFindings (runID : String) :
    List String → List LiveStatement → Except GoErr (List RoleFinding)
  | _, [] => .ok []
  | seen, ls :: rest =>
    let st := ls.rev.statement
    let key := ls.rev.statementKey
    if st.effect ≠ .allow ∨ st.broadReasons = [] then broadFindings runID seen rest
    else if seen.contains key then
      .error (.msg ("igagov: role " ++ r.roleID ++ " has two live statements keyed " ++ quote key))
    else do
      let f ← newFinding .broadGrant (broadSeverity st.broadReasons) .notApplicable r
        (broadGrantDetailKey key) runID ls.broadDetail
      let fs ← broadFindings runID (key :: seen) rest
      return f :: fs

/-! ## Sharing and ownership -/

/-- The finding of a role that two workloads run under. -/
def sharedRoleFindings (runID : String) : Except GoErr (List RoleFinding) :=
  if r.workloadIDs.length < 2 then .ok []
  else do
    let f ← newFinding .sharedRole .medium .notApplicable r "" runID
      (.obj [("workload_count", goInt (.ofNat r.workloadIDs.length)),
        ("consumers", consumersDetail r)])
    return [f]

/-- The accountable owners of the role or of a workload that runs under it. -/
def Snapshot.accountable : List OwnerRecord :=
  s.owners.filter fun o =>
    o.role == .accountable &&
      ((o.objectKind == .identityAccount && o.identityAccountID == r.identityAccountID) ||
        (o.objectKind == .workload && r.workloadIDs.contains o.workloadID))

/-- The rules that ask for a review date of a consuming workload. -/
def Snapshot.reviewRules : List FindingRule :=
  s.rules.filter fun rule =>
    rule.enabled && rule.kind == .requireReviewDate && (s.workloadsOf r).any rule.scope.covers

/-- The owners who should have a review date and have none. -/
def Snapshot.withoutReviewDate : List OwnerRecord :=
  (s.accountable r).filter fun o =>
    (o.objectKind == .identityAccount ||
      (s.workloadsOf r).any fun w =>
        w.id == o.workloadID && (s.reviewRules r).any (·.scope.covers w)) &&
    o.reviewDueAt.isNone

/-- `reviewDate`. -/
def Snapshot.reviewDateFindings : Except GoErr (List RoleFinding) :=
  if (s.reviewRules r).isEmpty then .ok []
  else if (s.withoutReviewDate r).isEmpty then .ok []
  else do
    let f ← newFinding .missingReviewDate .low .notApplicable r "" ""
      (.obj [("rule_ids", strArray (sortedUnique ((s.reviewRules r).map FindingRule.id))),
        ("owner_ids_without_review_date",
          strArray (sortedUnique ((s.withoutReviewDate r).map OwnerRecord.id)))])
    return [f]

/-- The findings about the owners of a role that a workload runs under. -/
def Snapshot.ownerFindings : Except GoErr (List RoleFinding) :=
  if r.workloadIDs.isEmpty then .ok []
  else if (s.accountable r).isEmpty then do
    let tags := r.unmatchedOwnerTags ++
      (s.workloadsOf r).flatMap WorkloadSnapshot.unmatchedOwnerTags
    let f ← newFinding .missingOwner .medium .notApplicable r "" ""
      (.obj [("consumers", consumersDetail r),
        ("unmatched_owner_tags", strArray (sortedUnique tags))])
    return [f]
  else s.reviewDateFindings r

/-! ## Roles -/

/-- `evaluateRole`. -/
def Snapshot.evaluateRole : Except GoErr EvaluationPart := do
  let runID := (s.activityReading r).runID
  let activity ← s.activityPart r
  let broad ← broadFindings r runID [] (liveStatements r s.evaluatedAt)
  let shared ← sharedRoleFindings r runID
  let owner ← s.ownerFindings r
  return activity ++ { findings := broad ++ (shared ++ owner) }

/-- The findings of a part, in the order of their fingerprints, and its other rows by their keys. -/
def EvaluationPart.sorted (p : EvaluationPart) : EvaluationPart where
  evidence := sortOn (fun a : ActivityRow => toLex (a.identityAccountID, a.service)) p.evidence
  findings := sortOn (fun f : RoleFinding => f.fingerprint) p.findings
  unknown := sortOn (fun u : UnknownCondition => toLex (u.roleID, toLex (u.kind.text, u.detailKey)))
    p.unknown
  routes := sortOn (fun f : RouteFacts => toLex (f.roleID, f.service)) p.routes
  assessments := sortOn (fun a : RoleAssessment => toLex (a.roleID, a.qualification.service))
    p.assessments

/-- `Evaluate`. -/
def evaluate : Except GoErr SnapshotEvaluation := do
  validateSnapshot s
  let roles := sortOn RoleSnapshot.roleID s.roles
  let parts ← (roles.filter fun r => skipReason r = "").mapM s.evaluateRole
  let skipped : List SkippedRole :=
    (roles.filter fun r => skipReason r ≠ "").map fun r => ⟨r.roleID, skipReason r⟩
  return { (EvaluationPart.concat parts).sorted with
           rev := s.rev, evaluatedAt := s.evaluatedAt
           presentRoles := roles.map RoleSnapshot.roleID, skipped }

end

end AuthSec

import AuthSec.Canonical.Hash
import AuthSec.Findings.Catalogs
import AuthSec.Policy.Narrow
import AuthSec.Qualification.Qualify
import AuthSec.Routes

/-!
# The snapshot of a revision

What the evaluation of a revision reads: the manifest with the evidence of its runs, the roles with
their grant history, activity report and consumers, the workloads, the owners and the rules.
-/

namespace AuthSec

/-! ## Rows -/

/-- A connector run that the manifest names. -/
structure RunEvidence where
  runID : String
  connectorID : String
  accountID : String
  connectorFirstPublishedAt : Time
  enabledRegions : List String
  resourcePolicy : Option ResourcePolicyEvidence

/-- A validity interval of a graph row. -/
structure TimeRange where
  fromTime : Time
  toTime : Option Time
  deriving DecidableEq

inductive AssignmentKind where
  | attached
  | inlined
  | boundary
  deriving DecidableEq

def AssignmentKind.text : AssignmentKind → String
  | attached => "attached"
  | inlined => "inline"
  | boundary => "boundary"

/-- A policy's assignments to the role. -/
structure PolicyAssignment where
  policyKey : String
  policyARN : String
  kind : AssignmentKind
  intervals : List TimeRange
  deriving DecidableEq

/-- A revision of a statement in a policy. -/
structure StatementRevision where
  policyKey : String
  statementKey : String
  hash : String
  statement : Statement
  fromTime : Time
  toTime : Option Time

/-- A line of an activity report. -/
structure ServiceActivity where
  service : String
  lastAuthenticatedAt : Option Time
  deriving DecidableEq

inductive EvidenceState where
  | collected
  | notCollected
  deriving DecidableEq

/-- A role's activity report, with the run that generated it. -/
structure ActivityReport where
  scanRunID : String
  state : EvidenceState
  reason : String
  generatedAt : Time
  services : List ServiceActivity
  deriving DecidableEq

/-- A relationship of a workload to the role. -/
structure Consumer where
  workloadID : String
  relationship : String
  deriving DecidableEq

/-- A role with its policies. -/
structure RoleSnapshot where
  identityAccountID : String
  roleID : String
  arn : String
  name : String
  path : String
  accountID : String
  connectorID : String
  partitionKey : String
  partition : String
  createdAt : Time
  tags : GoMap String
  assignments : List PolicyAssignment
  statements : List StatementRevision
  activity : Option ActivityReport
  consumers : List Consumer
  unmatchedOwnerTags : List String

structure WorkloadSnapshot where
  id : String
  name : String := ""
  runtimeKind : String := ""
  stage : String := ""
  classification : String := ""
  unmatchedOwnerTags : List String := []
  deriving DecidableEq

inductive OwnerRole where
  | accountable
  | technical
  deriving DecidableEq

inductive OwnerObject where
  | workload
  | identityAccount
  deriving DecidableEq

structure OwnerRecord where
  id : String
  objectKind : OwnerObject
  workloadID : String
  identityAccountID : String
  userID : String
  role : OwnerRole
  reviewDueAt : Option Time
  deriving DecidableEq

/-- A choice of workloads by class; an empty list chooses all. -/
structure RuleScope where
  runtimeKinds : List String
  stages : List String
  classifications : List String
  deriving DecidableEq

/-- `RuleScope.matches`. -/
def RuleScope.covers (s : RuleScope) (w : WorkloadSnapshot) : Bool :=
  admits s.runtimeKinds w.runtimeKind && admits s.stages w.stage &&
    admits s.classifications w.classification
where
  admits (l : List String) (v : String) : Bool := l.isEmpty || l.contains v

inductive RuleKind where
  | requireReviewDate
  | unusedWindow
  deriving DecidableEq

/-- A rule of the workspace. -/
structure FindingRule where
  id : String
  kind : RuleKind
  enabled : Bool
  scope : RuleScope
  windowDays : ℤ
  deriving DecidableEq

/-- What an evaluation looks at. -/
structure Snapshot where
  rev : ℤ
  evaluatedAt : Time
  /-- the run of each partition -/
  manifest : GoMap String
  runs : GoMap RunEvidence
  roles : List RoleSnapshot
  workloads : List WorkloadSnapshot
  owners : List OwnerRecord
  rules : List FindingRule
  defaultWindowDays : ℤ

/-! ## Checks -/

/-- The roles of a snapshot have their ids, each once. -/
def checkRoles : List String → List RoleSnapshot → Except GoErr Unit
  | _, [] => .ok ()
  | seen, r :: roles =>
    if r.roleID = "" ∨ r.identityAccountID = "" then
      .error (.msg ("igagov: role " ++ quote r.arn ++ " lacks its RoleId or identity id"))
    else if seen.contains r.roleID then
      .error (.msg ("igagov: role " ++ r.roleID ++ " appears twice"))
    else checkRoles (r.roleID :: seen) roles

/-- The runs are filed under their ids, with the first publication of their connector. -/
def checkRun (e : String × RunEvidence) : Except GoErr Unit :=
  if e.2.runID ≠ e.1 then
    .error (.msg ("igagov: run " ++ e.2.runID ++ " is keyed as " ++ e.1))
  else if e.2.connectorFirstPublishedAt = zeroTime then
    .error (.msg ("igagov: run " ++ e.1 ++ " lacks its connector's first publication time"))
  else .ok ()

/-- `validateSnapshot`. -/
def validateSnapshot (s : Snapshot) : Except GoErr Unit := do
  if s.rev ≤ 0 then .error (.msg "igagov: snapshot revision must be positive")
  else if s.evaluatedAt = zeroTime then
    .error (.msg "igagov: snapshot needs the evaluation time")
  else do
    checkRoles [] s.roles
    s.runs.sortedPairs.forM checkRun

/-- `skipReason`: why no findings are made for a role. -/
def skipReason (r : RoleSnapshot) : String :=
  if startsWith r.path "/aws-service-role/" then "service_linked_role"
  else if startsWith r.path "/aws-reserved/" then "aws_reserved_role"
  else if r.tags.get? "ManagedBy" = some "AuthSec" then "authsec_managed_role"
  else ""

/-! ## Activity and grants of a role -/

/-- `activityState`: the report of a role and the run of its partition, or why there is none. -/
inductive ActivityReading where
  | collected (runID : String) (run : RunEvidence) (report : ActivityReport)
  | notCollected (reason runID : String)

def ActivityReading.runID : ActivityReading → String
  | collected runID _ _ => runID
  | notCollected _ runID => runID

def reportReading (runID : String) (run : RunEvidence) (a : ActivityReport) : ActivityReading :=
  if a.state ≠ .collected then
    .notCollected (if a.reason = "" then "report_not_collected" else a.reason) runID
  else if a.scanRunID ≠ runID then .notCollected "report_run_mismatch" runID
  else if a.generatedAt = zeroTime then .notCollected "report_time_missing" runID
  else .collected runID run a

def Snapshot.activityReading (s : Snapshot) (r : RoleSnapshot) : ActivityReading :=
  match s.manifest.get? r.partitionKey with
  | none => .notCollected "partition_not_in_manifest" ""
  | some runID =>
    if r.partitionKey = "" then .notCollected "partition_not_in_manifest" ""
    else
      match s.runs.get? runID, r.activity with
      | none, _ => .notCollected "run_evidence_missing" runID
      | some _, none => .notCollected "not_in_activity_sample" runID
      | some run, some a => reportReading runID run a

/-- `windowFor`: the longest window of the rules for a consumer, or the default. -/
def Snapshot.windowFor (s : Snapshot) (consumers : List WorkloadSnapshot) : ℤ :=
  let rules := s.rules.filter fun r =>
    r.enabled && r.kind == .unusedWindow && consumers.any r.scope.covers
  let best := rules.foldl (fun best r => if best < r.windowDays then r.windowDays else best) 0
  if 0 < best then clampWindowDays best else clampWindowDays s.defaultWindowDays

/-- A component of a grant path, open at its start if it was there from the beginning. -/
def grantInterval (observationStart fromTime : Time) (toTime : Option Time) : Interval :=
  ⟨fromTime, toTime, !decide (observationStart < fromTime)⟩

/-- `GrantPathsFor`. -/
def grantPathsFor (r : RoleSnapshot) (ns : String) (observationStart : Time) : List GrantPath :=
  let assigns := (sortOn PolicyAssignment.policyKey r.assignments).filter (·.kind != .boundary)
  assigns.flatMap fun a =>
    let assigned := a.intervals.map fun tr => grantInterval observationStart tr.fromTime tr.toTime
    let stmts := r.statements.filter (·.policyKey == a.policyKey)
    (sortedUnique (stmts.map StatementRevision.statementKey)).filterMap fun key =>
      let granted := (stmts.filter fun sr =>
        sr.statementKey == key && sr.statement.grantsNamespace ns).map fun sr =>
          grantInterval observationStart sr.fromTime sr.toTime
      if granted.isEmpty || assigned.isEmpty then none
      else some ⟨a.policyKey ++ "#" ++ key, [assigned, granted]⟩

def holdsAt (tr : TimeRange) (t : Time) : Bool :=
  !decide (t < tr.fromTime) && tr.toTime.all fun e => decide (t < e)

/-- A statement with its assignment. -/
structure LiveStatement where
  assign : PolicyAssignment
  rev : StatementRevision

/-- The key that live statements are sorted by. -/
def LiveStatement.sortKey (ls : LiveStatement) : String ×ₗ String :=
  toLex (ls.rev.policyKey, ls.rev.statementKey)

/-- `liveStatements`. -/
def liveStatements (r : RoleSnapshot) (t : Time) : List LiveStatement :=
  let live := GoMap.ofList ((r.assignments.filter fun a =>
    a.kind != .boundary && a.intervals.any (holdsAt · t)).map fun a => (a.policyKey, a))
  sortOn LiveStatement.sortKey (r.statements.filterMap fun sr =>
    match live.get? sr.policyKey with
    | none => none
    | some a => if holdsAt ⟨sr.fromTime, sr.toTime⟩ t then some ⟨a, sr⟩ else none)

/-! ## Consumers of a role -/

/-- `liveRelationship`. -/
def liveRelationship (rel : String) : Bool :=
  rel == "executes_as" || rel == "task_execution_role"

def Consumer.sortKey (c : Consumer) : String ×ₗ String :=
  toLex (c.workloadID, c.relationship)

/-- The relationships of workloads that run under the role, each once. -/
def RoleSnapshot.liveConsumers (r : RoleSnapshot) : List Consumer :=
  sortOn Consumer.sortKey (keepFirst (fun c => c.workloadID ++ "\x1f" ++ c.relationship)
    (r.consumers.filter fun c => liveRelationship c.relationship))

def RoleSnapshot.workloadIDs (r : RoleSnapshot) : List String :=
  sortedUnique (r.liveConsumers.map Consumer.workloadID)

/-- The consuming workloads, with nothing but their id where the snapshot has none. -/
def Snapshot.workloadsOf (s : Snapshot) (r : RoleSnapshot) : List WorkloadSnapshot :=
  let workloads := GoMap.ofList (s.workloads.map fun w => (w.id, w))
  r.workloadIDs.map fun id => (workloads.get? id).getD { id }

end AuthSec

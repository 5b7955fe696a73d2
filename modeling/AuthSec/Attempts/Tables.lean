import Mathlib.Algebra.Order.Ring.Int
import AuthSec.Go.Time
import AuthSec.Lib.Tables

/-!
# The tables of a rollout

The rows the write-ahead attempt log works on, with the constraints of the migrations: the attempts
with their transition trigger and the index that keeps one of them open, the deployments with what
they have done, and the jobs with their leases.  Columns that no step of the log reads or writes are
left out.
-/

namespace AuthSec

/-! ## Attempts -/

/-- `iga_gov_attempt.status`. -/
inductive AttemptStatus
  | prepared
  | dispatched
  | completed
  | unknown
  | abandoned
deriving DecidableEq

def attemptOutcomeOK : String := "ok"
def attemptOutcomeRetryable : String := "retryable"
def attemptOutcomeTerminal : String := "terminal"
def attemptOutcomeRecognisedDone : String := "recognised_done"
def attemptOutcomeNotNeeded : String := "not_needed"

def attemptOutcomes : List String :=
  [attemptOutcomeOK, attemptOutcomeRetryable, attemptOutcomeTerminal, attemptOutcomeRecognisedDone,
    attemptOutcomeNotNeeded]

def attemptResolvedApplied : String := "applied"
def attemptResolvedNotApplied : String := "not_applied"

/-- The part of an attempt that never changes. -/
structure PreparedRequest where
  deploymentID : String
  opSeq : ℤ
  attemptNo : ℤ
  leaseVersion : ℤ
  operation : String
  requestHash : String
  documentHash : Option String
deriving DecidableEq

/-- `IGAGovAttempt`: the write-ahead record of one mutation. -/
structure Attempt extends PreparedRequest where
  id : String
  workspaceID : String
  status : AttemptStatus
  preparedAt : Time
  signedAt : Option Time
  dispatchedAt : Option Time
  completedAt : Option Time
  requestID : String
  outcome : Option String
  errorCode : String
  errorMessage : String
  resolvedAs : Option String
  resolvedAt : Option Time
deriving DecidableEq

namespace Attempt

/-- Prepared, dispatched, or unknown and not yet resolved. -/
def isOpen (r : Attempt) : Bool :=
  r.status = .prepared || r.status = .dispatched || (r.status = .unknown && r.resolvedAs.isNone)

/-- `iga_gov_at_status_chk`. -/
def statusChk (r : Attempt) : Bool :=
  match r.status with
  | .prepared => r.signedAt.isNone && r.dispatchedAt.isNone && r.completedAt.isNone &&
      r.outcome.isNone
  | .abandoned => r.dispatchedAt.isNone && r.completedAt.isSome && r.outcome.isNone
  | .dispatched => r.signedAt.isSome && r.dispatchedAt.isSome && r.completedAt.isNone &&
      r.outcome.isNone
  | .completed => r.signedAt.isSome && r.dispatchedAt.isSome && r.completedAt.isSome &&
      r.outcome.isSome
  | .unknown => r.signedAt.isSome && r.dispatchedAt.isSome && r.outcome.isNone

/-- `iga_gov_at_resolved_chk`. -/
def resolvedChk (r : Attempt) : Bool :=
  (r.resolvedAs.isNone || r.status = .unknown) && r.resolvedAs.isNone == r.resolvedAt.isNone

/-- The checks of the columns and of the table. -/
def check (r : Attempt) : Bool :=
  0 ≤ r.opSeq && 1 ≤ r.attemptNo && r.outcome.all (attemptOutcomes.contains ·) &&
    r.resolvedAs.all ([attemptResolvedApplied, attemptResolvedNotApplied].contains ·) &&
    r.statusChk && r.resolvedChk

end Attempt

/-- The moves of `status` that the trigger allows. -/
def AttemptStatus.mayBecome : AttemptStatus → AttemptStatus → Bool
  | .prepared, .dispatched | .prepared, .abandoned => true
  | .dispatched, .completed | .dispatched, .unknown => true
  | _, _ => false

/-- `iga_gov_attempt_transition` before an update. -/
def attemptTransition (old new : Attempt) : Bool :=
  new.toPreparedRequest = old.toPreparedRequest && (new.status = old.status || old.status.mayBecome new.status) &&
    (old.resolvedAs.isNone || new.resolvedAs = old.resolvedAs)

def uqAttemptOpen : String := "uq_iga_gov_attempt_open"

/-- `iga_gov_attempt`. -/
def attemptSchema : Schema Attempt where
  insertable r := r.status = .prepared
  updatable := attemptTransition
  check := Attempt.check
  unique := [.on "iga_gov_attempt_pkey" fun r => some r.id,
    .on "iga_gov_attempt_deployment_id_op_seq_attempt_no_key" fun r =>
      some (r.deploymentID, r.opSeq, r.attemptNo),
    .on uqAttemptOpen fun r => if r.isOpen then some r.deploymentID else none]

/-! ## Deployments -/

/-- `iga_gov_deployment.state`. -/
inductive DeploymentState
  | queued
  | blocked
  | applying
  | outcomeUnknown
  | outcomeUnresolved
  | recovered
  | awaitingMerge
  | awaitingApply
  | appliedUnverified
  | verified
  | failed
  | drifted
  | superseded
  | undone
deriving DecidableEq

/-- An entry of `completed_ops`. -/
structure CompletedOp where
  opSeq : ℤ
  operation : String
  attemptID : Option String
  outcome : String
  basis : Option String
deriving DecidableEq

/-- Where a deployment stands. -/
structure Progress where
  state : DeploymentState
  stateReason : String
  outcomeUnknownOp : String
  settleAfter : Option Time
deriving DecidableEq

/-- A row of the deployments. -/
structure Deployment where
  id : String
  workspaceID : String
  progress : Progress
  completedOps : List CompletedOp
  attempts : ℤ
deriving DecidableEq

/-- `iga_gov_pd_unknown_chk`. -/
def Progress.unknownChk (p : Progress) : Bool :=
  !(p.state = .outcomeUnknown || p.state = .outcomeUnresolved || p.state = .recovered) ||
    p.settleAfter.isSome && p.outcomeUnknownOp ≠ ""

def deploymentSchema : Schema Deployment where
  insertable _ := true
  updatable _ _ := true
  check d := d.progress.unknownChk
  unique := [.on "iga_gov_deployment_pkey" fun d => some d.id]

/-! ## Jobs -/

/-- `iga_gov_job.status`. -/
inductive JobStatus
  | queued
  | running
  | complete
  | failed
  | abandoned
deriving DecidableEq

def govJobDeploy : String := "deploy"
def govJobResolveUnknown : String := "resolve_unknown"

/-- A row of the job queue. -/
structure Job where
  id : String
  workspaceID : String
  kind : String
  subjectID : Option String
  dedupeKey : String
  status : JobStatus
  runAfter : Time
  leaseOwner : String
  leaseExpiresAt : Option Time
  leaseVersion : ℤ
  attempts : ℤ
  maxAttempts : ℤ
  lastError : String
deriving DecidableEq

def Job.isOpen (j : Job) : Bool :=
  j.status = .queued || j.status = .running

def jobSchema : Schema Job where
  insertable _ := true
  updatable _ _ := true
  check _ := true
  unique := [.on "iga_gov_job_pkey" fun j => some j.id,
    .on "uq_iga_gov_job_open" fun j =>
      if j.isOpen then some (j.workspaceID, j.kind, j.dedupeKey) else none]

/-- `PolicyJobFence`: the job and the lease version a claim holds. -/
structure Fence where
  jobID : String
  owner : String
  version : ℤ
deriving DecidableEq

end AuthSec

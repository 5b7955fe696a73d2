import AuthSec.Attempts.Tables

/-!
# The steps of the attempt log

Each step of the write-ahead attempt log is the body of one transaction: a function of the database
that either fails, and then the database keeps what it had, or returns a result with the database to
commit.  The clock and new ids come from outside, as parameters.
-/

namespace AuthSec

/-- The errors of the attempt log. -/
inductive AttemptErr
  | message (text : String)
  /-- `ErrAttemptOpen`. -/
  | attemptOpen
  /-- `ErrAttemptState`, with the step it is about. -/
  | attemptState (step id : String)
  /-- `ErrPolicyJobLeaseLost`. -/
  | leaseLost (fence : Fence)
  /-- `ErrPolicyJobLeaseShort`: the lease that is left, and the lease that is needed. -/
  | leaseShort (left needed : ℤ)
  | violation (v : Violation)
  | foreignKey
  /-- The database did not confirm. -/
  | connection
  /-- `ErrDispatchRefused`, with the text of the refusal. -/
  | dispatchRefused (cause : String)
  | joined (first second : AttemptErr)
deriving DecidableEq

/-- What an event of the log records beside the attempt. -/
inductive EventExtra
  | none
  | outcome (outcome requestID errorCode : String)
  | unknown (reason : String) (settleAfter : Time) (deploymentState : Option DeploymentState)
  | reason (reason : String)
  | resolvedAs (resolvedAs : String)
deriving DecidableEq

structure AttemptEvent where
  event : String
  attempt : Attempt
  extra : EventExtra
deriving DecidableEq

/-- The tables that the workers share. -/
structure Database where
  attempts : List Attempt
  deployments : List Deployment
  jobs : List Job
  events : List AttemptEvent

namespace Database

variable (db : Database)

/-! ## Statements -/

/-- Inserts an attempt; the deployment it refers to must exist. -/
def insertAttempt (r : Attempt) : Except AttemptErr Database := do
  require (db.deployments.any fun d => d.workspaceID = r.workspaceID && d.id = r.deploymentID)
    AttemptErr.foreignKey
  let rows ← (attemptSchema.insert db.attempts r).mapError .violation
  return { db with attempts := rows }

def updateAttempts (which : Attempt → Bool) (set : Attempt → Attempt) :
    Except AttemptErr (ℕ × Database) := do
  let (rows, n) ← (attemptSchema.update db.attempts which set).mapError .violation
  return (n, { db with attempts := rows })

def updateDeployments (which : Deployment → Bool) (set : Deployment → Deployment) :
    Except AttemptErr (ℕ × Database) := do
  let (rows, n) ← (deploymentSchema.update db.deployments which set).mapError .violation
  return (n, { db with deployments := rows })

def updateJobs (which : Job → Bool) (set : Job → Job) : Except AttemptErr (ℕ × Database) := do
  let (rows, n) ← (jobSchema.update db.jobs which set).mapError .violation
  return (n, { db with jobs := rows })

/-- `event`. -/
def event (att : Attempt) (name : String) (extra : EventExtra) : Database :=
  { db with events := db.events ++ [⟨name, att, extra⟩] }

/-- `AssertOwnedTx`: the job still runs under the lease of the fence. -/
def assertOwned (f : Fence) : Except AttemptErr Unit :=
  match db.jobs.find? fun j => j.id = f.jobID with
  | none => .error (.leaseLost f)
  | some job =>
      if job.leaseOwner ≠ f.owner ∨ job.leaseVersion ≠ f.version ∨ job.status ≠ .running then
        .error (.leaseLost f)
      else .ok ()

end Database

/-- The body of a transaction. -/
abbrev Tx (α : Type) : Type := Database → Except AttemptErr (α × Database)

/-- `InTx`: the fence is proven before anything is done. -/
def inTx {α : Type} (f : Fence) (body : Tx α) : Tx α := fun db => do
  db.assertOwned f
  body db

/-! ## The attempt log -/

/-- `IGAGovAttemptLog`, as it is configured. -/
structure AttemptLog where
  margin : ℤ
  settleWindow : ℤ

def policyJobExternalMargin : ℤ := 60 * second
def defaultAttemptSettleWindow : ℤ := 15 * 60 * second

/-- `margin()`. -/
def AttemptLog.leastLease (l : AttemptLog) : ℤ :=
  if l.margin > 0 then l.margin else policyJobExternalMargin

/-- `settle()`. -/
def AttemptLog.settle (l : AttemptLog) : ℤ :=
  if l.settleWindow > 0 then l.settleWindow else defaultAttemptSettleWindow

structure AttemptRequest where
  workspaceID : String
  deploymentID : String
  opSeq : ℤ
  operation : String
  requestHash : String
  documentHash : String
deriving DecidableEq

/-- A definitive answer, classified by the caller. -/
structure AttemptAnswer where
  outcome : String
  requestID : String
  errorCode : String
  errorMessage : String
deriving DecidableEq

/-- As many characters as fit into a number of bytes. -/
def takeBytes : ℕ → List Char → List Char
  | _, [] => []
  | n, c :: cs => if c.utf8Size ≤ n then c :: takeBytes (n - c.utf8Size) cs else []

/-- `truncate`. -/
def truncate (s : String) (n : ℕ) : String :=
  if s.utf8ByteSize ≤ n then s else String.ofList (takeBytes n s.toList)

/-- One more than the highest number for the operation of the deployment. -/
def nextAttemptNo (rows : List Attempt) (req : AttemptRequest) : ℤ :=
  ((rows.filter fun r => r.workspaceID = req.workspaceID && r.deploymentID = req.deploymentID &&
    r.opSeq = req.opSeq).map (·.attemptNo)).foldl max 0 + 1

/-- The row `Prepare` creates. -/
def preparedAttempt (req : AttemptRequest) (version : ℤ) (id : String) (next : ℤ) (now : Time) :
    Attempt where
  id := id
  workspaceID := req.workspaceID
  deploymentID := req.deploymentID
  opSeq := req.opSeq
  attemptNo := next
  leaseVersion := version
  operation := req.operation
  requestHash := req.requestHash
  documentHash := if req.documentHash ≠ "" then some req.documentHash else none
  status := .prepared
  preparedAt := now
  signedAt := none
  dispatchedAt := none
  completedAt := none
  requestID := ""
  outcome := none
  errorCode := ""
  errorMessage := ""
  resolvedAs := none
  resolvedAt := none

/-- The violation of the index on open attempts has an error of its own. -/
def openViolation : AttemptErr → AttemptErr
  | .violation (.unique name) =>
      if name = uqAttemptOpen then .attemptOpen else .violation (.unique name)
  | e => e

/-- `Prepare`. -/
def prepareTx (req : AttemptRequest) (version : ℤ) (id : String) (now : Time) : Tx Attempt :=
  fun db => do
    let out := preparedAttempt req version id (nextAttemptNo db.attempts req) now
    let db ← (db.insertAttempt out).mapError openViolation
    let (_, db) ← db.updateDeployments
      (fun d => d.workspaceID = req.workspaceID && d.id = req.deploymentID)
      fun d => { d with attempts := d.attempts + 1 }
    return (out, db.event out "attempt.prepared" .none)

/-- The row a worker still has to move on: its own, in the status the step needs. -/
def ownRow (att : Attempt) (status : AttemptStatus) (version : ℤ) (r : Attempt) : Bool :=
  r.workspaceID = att.workspaceID && r.id = att.id && r.status = status &&
    r.leaseVersion = version

/-- What is left of the lease of a job, by its locked row. -/
def leaseLeft (db : Database) (f : Fence) (now : Time) : Option ℤ :=
  ((db.jobs.find? fun j => j.id = f.jobID).bind (·.leaseExpiresAt)).map (timeSub · now)

/-- `Dispatch`. -/
def dispatchTx (l : AttemptLog) (f : Fence) (att : Attempt) (now : Time) : Tx Attempt :=
  fun db => do
    let left := leaseLeft db f now
    require (left.any (l.leastLease ≤ ·)) (AttemptErr.leaseShort (left.getD 0) l.leastLease)
    let (n, db) ← db.updateAttempts (ownRow att .prepared f.version) fun r =>
      { r with status := .dispatched, signedAt := some now, dispatchedAt := some now }
    require (n = 1) (AttemptErr.attemptState "dispatch" att.id)
    let att := { att with status := .dispatched, signedAt := some now, dispatchedAt := some now }
    return (att, db.event att "attempt.dispatched" .none)

/-- `OpDone`: the outcome means that the operation is done. -/
def opDone (outcome : String) : Bool :=
  outcome = attemptOutcomeOK || outcome = attemptOutcomeRecognisedDone ||
    outcome = attemptOutcomeNotNeeded

/-- Adds an entry to the completed operations of a deployment. -/
def Database.appendOp (db : Database) (ws dep : String) (op : CompletedOp) :
    Except AttemptErr Database := do
  let (_, db) ← db.updateDeployments (fun d => d.workspaceID = ws && d.id = dep)
    fun d => { d with completedOps := d.completedOps ++ [op] }
  return db

/-- `Complete`, once the outcome is one of the table's. -/
def completeTx (version : ℤ) (att : Attempt) (ans : AttemptAnswer) (now : Time) : Tx Attempt :=
  fun db => do
    let (n, db) ← db.updateAttempts (ownRow att .dispatched version) fun r =>
      { r with status := .completed, completedAt := some now, outcome := some ans.outcome,
               requestID := ans.requestID, errorCode := ans.errorCode,
               errorMessage := truncate ans.errorMessage 2000 }
    require (n = 1) (AttemptErr.attemptState "complete" att.id)
    let db ← if opDone ans.outcome then
        db.appendOp att.workspaceID att.deploymentID
          { opSeq := att.opSeq, operation := att.operation, attemptID := some att.id,
            outcome := ans.outcome, basis := none }
      else pure db
    let att := { att with status := .completed, completedAt := some now,
                          outcome := some ans.outcome, requestID := ans.requestID,
                          errorCode := ans.errorCode }
    return (att, db.event att "attempt.completed"
      (.outcome ans.outcome ans.requestID ans.errorCode))

/-- `markUnknownTx`: with a lease version, only the worker that dispatched the attempt. -/
def markUnknownTx (l : AttemptLog) (att : Attempt) (leaseVersion : Option ℤ) (reason : String)
    (now : Time) : Tx (Attempt × Time) :=
  fun db => do
    let (n, db) ← db.updateAttempts
      (fun r => r.workspaceID = att.workspaceID && r.id = att.id && r.status = .dispatched &&
        leaseVersion.all (r.leaseVersion = ·))
      fun r => { r with status := .unknown }
    require (n = 1) (AttemptErr.attemptState "mark unknown" att.id)
    let settle := att.signedAt.getD now + l.settle
    let op := toString att.opSeq ++ ":" ++ att.operation
    let (moved, db) ← db.updateDeployments
      (fun d => d.workspaceID = att.workspaceID && d.id = att.deploymentID &&
        d.progress.state = .applying)
      fun d => { d with progress := { state := .outcomeUnknown, stateReason := truncate reason 500,
                                      outcomeUnknownOp := op, settleAfter := some settle } }
    -- A deployment that is no longer applying keeps its state; the event says where it was.
    let stateNow :=
      if moved ≠ 1 then
        (db.deployments.find? fun d =>
          d.workspaceID = att.workspaceID && d.id = att.deploymentID).map (·.progress.state)
      else none
    let att := { att with status := .unknown }
    return ((att, settle), db.event att "attempt.unknown" (.unknown reason settle stateNow))

/-- What `Recover` did. -/
inductive RecoveryAction
  | continue
  | reprepare
  | outcomeUnknown
  | hold
deriving DecidableEq

structure AttemptRecovery where
  action : RecoveryAction
  attempt : Option Attempt
  settleAfter : Option Time

/-- `RecoverTx`: the rule for a worker that finds the attempt of another. -/
def recoverTx (l : AttemptLog) (ws dep : String) (now : Time) : Tx AttemptRecovery := fun db =>
  match db.attempts.find? fun r => r.workspaceID = ws && r.deploymentID = dep && r.isOpen with
  | none => return (⟨.continue, none, none⟩, db)
  | some att =>
      match att.status with
      | .prepared => do
          let (_, db) ← db.updateAttempts (fun r => r.id = att.id && r.status = .prepared) fun r =>
            { r with status := .abandoned, completedAt := some now }
          let att := { att with status := .abandoned, completedAt := some now }
          return (⟨.reprepare, some att, none⟩, db.event att "attempt.abandoned"
            (.reason "prepared, never sent; found by a replacement worker"))
      | .dispatched => do
          let ((att, settle), db) ← markUnknownTx l att none
            "dispatched with no answer recorded; found by a replacement worker (never re-sent)"
            now db
          return (⟨.outcomeUnknown, some att, some settle⟩, db)
      | _ =>
          let settleAfter := (db.deployments.find? fun d =>
            d.workspaceID = ws && d.id = dep).bind (·.progress.settleAfter)
          return (⟨.hold, some att, settleAfter⟩, db)

/-- `ResolveUnknown`, once the resolution is one of the table's. -/
def resolveUnknownTx (att : Attempt) (resolvedAs : String) (now : Time) : Tx Attempt :=
  fun db => do
    let (n, db) ← db.updateAttempts
      (fun r => r.workspaceID = att.workspaceID && r.id = att.id && r.status = .unknown &&
        r.resolvedAs.isNone)
      fun r => { r with resolvedAs := some resolvedAs, resolvedAt := some now }
    require (n = 1) (AttemptErr.attemptState "resolve" att.id)
    let (moved, db) ← db.updateDeployments
      (fun d => d.workspaceID = att.workspaceID && d.id = att.deploymentID &&
        d.progress.state = .outcomeUnknown)
      fun d => { d with progress := { d.progress with
        state := .applying
        stateReason := "outcome of " ++ att.operation ++ " resolved: " ++ resolvedAs } }
    -- A resolution that moves no deployment is refused, with all it did.
    require (moved = 1) (AttemptErr.attemptState "resolve" att.id)
    let att := { att with resolvedAs := some resolvedAs, resolvedAt := some now }
    return (att, db.event att "attempt.resolved" (.resolvedAs resolvedAs))

/-- `abandonOwnReason`. -/
def abandonOwnTx (version : ℤ) (att : Attempt) (reason : String) (now : Time) : Tx Attempt :=
  fun db => do
    let (_, db) ← db.updateAttempts (ownRow att .prepared version) fun r =>
      { r with status := .abandoned, completedAt := some now }
    let att := { att with status := .abandoned, completedAt := some now }
    return (att, db.event att "attempt.abandoned" (.reason reason))

end AuthSec

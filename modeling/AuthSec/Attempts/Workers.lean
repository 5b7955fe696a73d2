import AuthSec.Attempts.Jobs
import AuthSec.Plans.Execution

/-!
# Workers, sweepers and operators

The programs that work on a deployment: the worker that claims its jobs and runs `ExecutePlan` or
resolves an unknown outcome, the sweeper that finds a deployment no job runs, the operator, and the
routes that create deployments and move their state.  What they read from outside (the
classification of the live state, the plan, the verdict on an unknown outcome) is anything.

`attemptSystem` is the set of all of them: any number of each may run at the same time.
-/

namespace AuthSec

/-! ## The executor -/

/-- What a run of `ExecutePlan` works on. -/
structure ExecRun where
  log : AttemptLog
  fence : Fence
  workspaceID : String
  deploymentID : String
  ops : List Op

/-- `errStop`: the run ends with its outcome set. -/
def errStop : AttemptErr := .message "stop"

/-- What the outside may stop a run with, at any point where it is asked. -/
def mayStop : Service Unit := do
  let stopped ← outside Bool
  require (stopped = false) errStop

/-- `loadCompleted`: the operations that are recorded as done. -/
def loadCompleted (ws dep : String) (db : Database) : Finset ℤ :=
  match db.deployments.find? fun d => d.workspaceID = ws && d.id = dep with
  | none => ∅
  | some d => ((d.completedOps.filter (opDone ·.outcome)).map (·.opSeq)).toFinset

/-- `appendCompleted`. -/
def appendCompleted (x : ExecRun) (op : CompletedOp) : Service Unit :=
  transaction (inTx x.fence fun db => do
    let db ← db.appendOp x.workspaceID x.deploymentID op
    return ((), db))

/-- The last attempt at an operation that was unknown and turned out to be applied. -/
def appliedAttempt (ws dep : String) (opSeq : ℤ) (db : Database) : Option Attempt :=
  (db.attempts.filter fun r => r.workspaceID = ws && r.deploymentID = dep && r.opSeq = opSeq &&
    r.status = .unknown && r.resolvedAs = some attemptResolvedApplied).foldl
      (fun best r => if best.any (r.attemptNo ≤ ·.attemptNo) then best else some r) none

/-- `attempt`: one request inside the lifecycle of an attempt. -/
def attemptOp (x : ExecRun) (k : ℕ) (op : Op) : Service Unit := do
  mayStop
  let (requestHash, documentHash) ← outside (String × String)
  let res ← executeChecked x.log x.fence
    { workspaceID := x.workspaceID, deploymentID := x.deploymentID, opSeq := k,
      operation := op.op.text, requestHash, documentHash }
  require (res.answer.any (opDone ·.outcome)) errStop

/-- `Recover`, and what it finds lets the run go on. -/
def recoverRun (x : ExecRun) : Service Unit := do
  let found ← recover x.log x.fence x.workspaceID x.deploymentID
  require (found.action = .continue ∨ found.action = .reprepare) errStop

def checkApplying (x : ExecRun) : Service Unit := do
  let state ← query fun db => (db.deployments.find? fun d =>
    d.workspaceID = x.workspaceID && d.id = x.deploymentID).map (·.progress.state)
  require (state = some .applying) errStop

/-- A value that is read from AWS, which may stop the run. -/
def readOutside (β : Type) : Service β := do
  mayStop
  outside β

/-- The run of a worker.  What the reads and the readback show is anything. -/
def ExecRun.planRun (x : ExecRun) : PlanRun Service Unit where
  ops := x.ops
  recover := recoverRun x
  checkDirect := mayStop
  checkApplying := checkApplying x
  discovery := mayStop
  loadCompleted := query (loadCompleted x.workspaceID x.deploymentID)
  nextOp := readOutside ℕ
  notVisible := throw errStop
  appliedAttempt j := do
    let att ← query (appliedAttempt x.workspaceID x.deploymentID j)
    return att.map (·.id)
  appendCompleted := appendCompleted x
  markIntended := mayStop
  enforcement := mayStop
  selectVersions := readOutside (List String)
  archive := mayStop
  request := mayStop
  attempt := attemptOp x
  readback := mayStop

/-! ## Handlers -/

/-- A change of where a deployment stands. -/
def moveTx (ws dep : String) (next : Progress) : Tx Unit := fun db => do
  let (n, db) ← db.updateDeployments (fun d => d.workspaceID = ws && d.id = dep)
    fun d => { d with progress := next }
  require (n = 1) (AttemptErr.message "the deployment moved meanwhile")
  return ((), db)

/-- A worker may move its deployment. -/
def mayMove (f : Fence) (ws dep : String) : Service Unit := do
  match ← outside (Option Progress) with
  | none => return ()
  | some next => transaction (inTx f (moveTx ws dep next))

/-- A worker may queue a job for its deployment. -/
def mayEnqueue (f : Fence) (ws dep kind : String) : Service Unit := do
  match ← outside (Option (String × Time)) with
  | none => return ()
  | some (id, runAfter) => transaction (inTx f (enqueueJobTx ws kind dep runAfter id))

/-- `applyOutcome`. -/
def applyOutcome (f : Fence) (ws dep : String) : Service Unit := do
  mayMove f ws dep
  let kind ← outside String
  mayEnqueue f ws dep kind

/-- `DeployHandler`: the deployment is started, its plan executed, and the outcome applied. -/
def deployHandler (l : AttemptLog) (f : Fence) (ws dep : String) : Service Unit := do
  mayMove f ws dep
  let plan ← outside (List Op)
  match ← ExceptT.lift (ExecRun.planRun ⟨l, f, ws, dep, plan⟩).executePlan.run with
  | .error e => if e = errStop then applyOutcome f ws dep else throw e
  | .ok () => applyOutcome f ws dep

/-- `OpenAttempt`. -/
def openAttempt (ws dep : String) (db : Database) : Option Attempt :=
  db.attempts.find? fun r => r.workspaceID = ws && r.deploymentID = dep && r.isOpen

/-- `ResolveUnknownHandler`; the verdict of the readings and the trail comes from outside. -/
def resolveUnknownHandler (f : Fence) (ws dep : String) : Service Unit := do
  match ← query (openAttempt ws dep) with
  | none =>
      mayMove f ws dep
      mayEnqueue f ws dep govJobDeploy
  | some att =>
      match ← outside (Option String) with
      | none => mayMove f ws dep
      | some verdict =>
          let _ ← resolveUnknown f att verdict
          mayEnqueue f ws dep govJobDeploy

/-- The handler of a job, by its kind. -/
def handle (l : AttemptLog) (f : Fence) (job : Job) : Service Unit :=
  match job.subjectID with
  | none => throw (.message "the job needs a deployment subject")
  | some dep =>
      if job.kind = govJobDeploy then deployHandler l f job.workspaceID dep
      else if job.kind = govJobResolveUnknown then resolveUnknownHandler f job.workspaceID dep
      else applyOutcome f job.workspaceID dep

/-- A worker: it claims a job, runs its handler and ends the job. -/
def worker (l : AttemptLog) (owner : String) (lease : ℤ) : Service Unit := do
  match ← claim owner lease with
  | none => return ()
  | some job =>
      match ← ExceptT.lift (handle l ⟨job.id, owner, job.leaseVersion⟩ job).run with
      | .error (.leaseLost _) => return ()
      | _ =>
          let how ← outside JobEnd
          endJob ⟨job.id, owner, job.leaseVersion⟩ how

/-! ## Sweepers and operators -/

/-- The replacement rule for a deployment that no job runs, and where it then goes: an open outcome
is resolved first. -/
def recoverStuckTx (l : AttemptLog) (ws dep : String) (now : Time) (next : Progress)
    (id : String) : Tx Unit := fun db => do
  let (found, db) ← recoverTx l ws dep now db
  let ((), db) ← moveTx ws dep next db
  if found.action = .outcomeUnknown ∨ found.action = .hold then
    enqueueJobTx ws govJobResolveUnknown dep now id db
  else return ((), db)

/-- `settleStuck`: a deployment in flight that has no open job is given one again, or moved once
its job has failed. -/
def settleStuckTx (l : AttemptLog) (ws dep : String) (now : Time) (next : Progress)
    (id kind : String) (jobFailed : Bool) : Tx Unit := fun db =>
  if (openJobs db ws dep).1 > 0 then return ((), db)
  else if !jobFailed then enqueueJobTx ws kind dep now id db
  else match db.deployments.find? fun d => d.workspaceID = ws && d.id = dep with
    | none => return ((), db)
    | some d =>
        match d.progress.state with
        | .queued | .outcomeUnknown => moveTx ws dep next db
        | .applying => recoverStuckTx l ws dep now next id db
        | _ => return ((), db)

def settleStuck (l : AttemptLog) (ws dep : String) : Service Unit := do
  let now ← outside Time
  let next ← outside Progress
  let id ← outside String
  let kind ← outside String
  let jobFailed ← outside Bool
  transaction (settleStuckTx l ws dep now next id kind jobFailed)

/-- The jobs of the deployment that wait are given up. -/
def abandonQueuedTx (ws dep reason : String) : Tx Unit := fun db => do
  let (_, db) ← db.updateJobs
    (fun j => j.workspaceID = ws && j.dedupeKey = "deployment:" ++ dep && j.status = .queued)
    fun j => { j with status := .abandoned, lastError := reason }
  return ((), db)

/-- `resolveApplying`: an operator declares an applying deployment stuck. -/
def resolveApplyingTx (l : AttemptLog) (ws dep reason : String) (now : Time) (next : Progress)
    (id : String) : Tx Unit := fun db => do
  require ((openJobs db ws dep).2 = 0) (AttemptErr.message "A job is running this deployment now")
  let ((), db) ← abandonQueuedTx ws dep reason db
  recoverStuckTx l ws dep now next id db

def resolveApplying (l : AttemptLog) (ws dep reason : String) : Service Unit := do
  let now ← outside Time
  let next ← outside Progress
  let id ← outside String
  transaction (resolveApplyingTx l ws dep reason now next id)

/-- A new deployment has done nothing yet. -/
def createDeploymentTx (ws id : String) (progress : Progress) : Tx Unit := fun db => do
  let rows ← (deploymentSchema.insert db.deployments
    { id, workspaceID := ws, progress, completedOps := [], attempts := 0 }).mapError .violation
  return ((), { db with deployments := rows })

/-! ## The system -/

/-- What may be started, at any time and any number of times. -/
inductive AttemptProgram
  | worker (l : AttemptLog) (owner : String) (lease : ℤ)
  | renew (f : Fence) (lease : ℤ)
  | failExhausted
  | settleStuck (l : AttemptLog) (ws dep : String)
  | resolveApplying (l : AttemptLog) (ws dep reason : String)
  | createDeployment (ws id : String) (progress : Progress)
  | moveDeployment (ws dep : String) (next : Progress)
  | enqueueJob (ws kind dep : String) (runAfter : Time) (id : String)

def AttemptProgram.service : AttemptProgram → Service Unit
  | .worker l owner lease => AuthSec.worker l owner lease
  | .renew f lease => AuthSec.renew f lease
  | .failExhausted => AuthSec.failExhausted
  | .settleStuck l ws dep => AuthSec.settleStuck l ws dep
  | .resolveApplying l ws dep reason => AuthSec.resolveApplying l ws dep reason
  | .createDeployment ws id progress => transaction (createDeploymentTx ws id progress)
  | .moveDeployment ws dep next => transaction (moveTx ws dep next)
  | .enqueueJob ws kind dep runAfter id => transaction (enqueueJobTx ws kind dep runAfter id)

/-- A thread that runs a program and drops its result. -/
def AttemptProgram.thread (p : AttemptProgram) : Proc World Unit := do
  let _ ← p.service.run
  return ()

def attemptSystem : Set (Proc World Unit) :=
  Set.range AttemptProgram.thread

/-- Nothing was recorded and nothing was sent yet. -/
def World.IsEmpty (w : World) : Prop :=
  w = ⟨⟨[], [], [], []⟩, [], []⟩

end AuthSec

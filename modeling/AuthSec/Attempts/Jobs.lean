import AuthSec.Attempts.Execute

/-!
# Jobs and leases

The life of a job: it is enqueued, claimed under a new lease version, renewed, and ended.  A claim
takes a queued job or one whose lease lapsed; every later change is fenced on the version of the
claim, and consults no clock.
-/

namespace AuthSec

/-- A job of a deployment that waits to be claimed. -/
def queuedJob (ws kind subject : String) (runAfter : Time) (id : String) : Job where
  id := id
  workspaceID := ws
  kind := kind
  subjectID := some subject
  dedupeKey := "deployment:" ++ subject
  status := .queued
  runAfter := runAfter
  leaseOwner := ""
  leaseExpiresAt := none
  leaseVersion := 0
  attempts := 0
  maxAttempts := 5
  lastError := ""

/-- `enqueueJobTx`: nothing is done when the job is open already. -/
def enqueueJobTx (ws kind subject : String) (runAfter : Time) (id : String) : Tx Unit := fun db =>
  match jobSchema.insert db.jobs (queuedJob ws kind subject runAfter id) with
  | .ok rows => .ok ((), { db with jobs := rows })
  | .error (.unique name) =>
      if name = "uq_iga_gov_job_open" then .ok ((), db) else .error (.violation (.unique name))
  | .error v => .error (.violation v)

/-- A job that `Claim` may take. -/
def claimable (now : Time) (j : Job) : Bool :=
  j.attempts < j.maxAttempts &&
    ((j.status = .queued && j.runAfter ≤ now) ||
      (j.status = .running && j.leaseExpiresAt.all (· ≤ now)))

/-- The row of a job once it is claimed. -/
def claimed (owner : String) (expires : Time) (j : Job) : Job :=
  { j with status := .running, leaseOwner := owner, leaseExpiresAt := some expires,
           leaseVersion := j.leaseVersion + 1, attempts := j.attempts + 1 }

/-- `Claim` of one job; which one it finds is left to the outside. -/
def claimTx (owner : String) (lease : ℤ) (now : Time) (id : String) : Tx (Option Job) := fun db => do
  let (_, db') ← db.updateJobs (fun j => j.id = id && claimable now j) (claimed owner (now + lease))
  let job := (db.jobs.find? fun j => j.id = id && claimable now j).map (claimed owner (now + lease))
  return (job, db')

def claim (owner : String) (lease : ℤ) : Service (Option Job) := do
  require (owner ≠ "") (AttemptErr.message "a claim needs an owner")
  require (0 < lease) (AttemptErr.message "a claim needs a positive lease")
  let id ← outside String
  let now ← outside Time
  transaction (claimTx owner lease now id)

/-- The job is still run under the lease of the fence. -/
def Fence.owns (f : Fence) (j : Job) : Bool :=
  j.id = f.jobID && j.leaseOwner = f.owner && j.leaseVersion = f.version && j.status = .running

/-- `fencedJob`. -/
def fencedJobTx (f : Fence) (set : Job → Job) : Tx Unit := fun db => do
  let (n, db) ← db.updateJobs f.owns set
  require (n ≠ 0) (AttemptErr.leaseLost f)
  return ((), db)

/-- `Renew`. -/
def renew (f : Fence) (lease : ℤ) : Service Unit := do
  let now ← outside Time
  transaction (fencedJobTx f fun j => { j with leaseExpiresAt := some (now + lease) })

/-- A job that is no longer run. -/
def released (status : JobStatus) (j : Job) : Job :=
  { j with status := status, leaseOwner := "", leaseExpiresAt := none }

/-- How a worker ends a job. -/
inductive JobEnd
  | complete
  | abandon (reason : String)
  | requeue (after : ℤ)
  | fail (reason : String) (retryAfter : ℤ)

/-- `CompleteTx`, `Abandon`, `Requeue` and `Fail`. -/
def JobEnd.set (now : Time) : JobEnd → Job → Job
  | .complete, j => released .complete j
  | .abandon reason, j => { released .abandoned j with lastError := reason }
  | .requeue after, j =>
      { released .queued j with attempts := max (j.attempts - 1) 0, runAfter := now + max after 0 }
  | .fail reason retryAfter, j =>
      if j.attempts < j.maxAttempts then
        { released .queued j with lastError := reason, runAfter := now + max retryAfter 0 }
      else { released .failed j with lastError := reason }

def endJob (f : Fence) (how : JobEnd) : Service Unit := do
  let now ← outside Time
  transaction (fencedJobTx f (how.set now))

/-- `FailExhaustedJobs`. -/
def failExhausted : Service Unit := do
  let now ← outside Time
  transaction fun db => do
    let (_, db) ← db.updateJobs
      (fun j => j.status = .running && j.attempts ≥ j.maxAttempts && j.leaseExpiresAt.all (· ≤ now))
      fun j => { released .failed j with lastError :=
        if j.lastError = "" then "lease expired with no attempts left"
        else j.lastError ++ " (lease expired with no attempts left)" }
    return ((), db)

/-- Open jobs of a deployment, and those that run. -/
def openJobs (db : Database) (ws dep : String) : ℕ × ℕ :=
  let jobs := db.jobs.filter fun j =>
    j.workspaceID = ws && j.dedupeKey = "deployment:" ++ dep && j.isOpen
  (jobs.length, jobs.countP fun j => j.status = .running)

end AuthSec

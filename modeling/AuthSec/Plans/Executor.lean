import AuthSec.Attempts.Execute
import AuthSec.Lib.Crashes
import AuthSec.Plans.Execution

/-!
# The executor of direct plans

The steps of `ExecutePlan` for one deployment (`Executor.planRun`): the read and its classification,
the request and its answer, and the readback, which reads twice.  The deploy job around the run moves
the state of the deployment.

The reads, the answers of AWS, the clock and the fate of every transaction come from outside; the
write-ahead log of an attempt is one step here (`Attempts` has it in full).  What happened is kept
in a log beside the row of the deployment.
-/

namespace AuthSec

/-! ## The deployment and what happened to it -/

/-- What a run does that lasts. -/
inductive DeployEvent where
  /-- a run of the deploy job begins -/
  | started
  /-- a discovery read, with what it showed -/
  | read (live : LiveRead)
  /-- a request for the operation is sent -/
  | dispatched (opSeq : ℕ)
  /-- an entry is added to `completed_ops` -/
  | recorded (entry : CompletedOp)
  /-- the deployment becomes `applied_unverified` -/
  | applied

/-- The row of the deployment, and its log. -/
structure DeployLog where
  state : DeploymentState
  completedOps : List CompletedOp
  events : List DeployEvent

namespace DeployLog

def note (s : DeployLog) (e : DeployEvent) : DeployLog :=
  { s with events := s.events ++ [e] }

def record (s : DeployLog) (entry : CompletedOp) : DeployLog :=
  { s with completedOps := s.completedOps ++ [entry], events := s.events ++ [.recorded entry] }

def setState (s : DeployLog) (next : DeploymentState) : DeployLog :=
  { s with state := next }

/-- `loadCompleted`: the operations that are recorded as done. -/
def done (s : DeployLog) : Finset ℤ :=
  ((s.completedOps.filter (opDone ·.outcome)).map (·.opSeq)).toFinset

end DeployLog

/-! ## Outcomes -/

inductive DeployResult where
  | applied
  | blocked
  | failed
  | outcomeUnknown
  | hold
  | retryLater
  | refused
  deriving DecidableEq

/-- `DeployOutcome`. -/
structure DeployOutcome where
  result : DeployResult
  reason : String := ""
  deriving DecidableEq

namespace DeployReason

def ineligible : String := "plan_ineligible"
def notDirect : String := "not_direct_delivery"
def notApplying : String := "deployment_not_applying"
def unknownPending : String := "outcome_unknown_pending"
def noAnswer : String := "dispatched_without_answer"
def readFailed : String := "discovery_read_failed"
def awaitConsistency : String := "awaiting_consistency"
def notVisible : String := "completed_op_not_visible"
def readbackNotSettled : String := "readback_not_settled"
def throttled : String := "throttled"
def retriesExhausted : String := "retries_exhausted"
def documentMissing : String := "document_not_archived"
def versionUnarchived : String := "version_document_not_archived"

end DeployReason

/-- How a run ends early. -/
inductive RunErr where
  /-- `errStop`, with the outcome that is set -/
  | stop (out : DeployOutcome)
  /-- a lost lease, or a database or a value that failed -/
  | fail

/-- A program on the deployment. -/
abbrev Run (α : Type) : Type 1 := ExceptT RunErr (Proc DeployLog) α

/-- The settings of `IGAGovAWSExecutor`, and the plan that it runs. -/
structure Executor where
  plan : Plan
  readbackRounds : ℕ
  maxOpAttempts : ℕ
  consistencyWindow : ℤ

namespace Executor

/-! ## Steps -/

/-- A value from outside. -/
def ask (β : Type) : Run β :=
  ExceptT.lift (Proc.anything DeployLog β)

def note (e : DeployEvent) : Run Unit :=
  ExceptT.lift (Proc.act fun s => some ((), s.note e))

/-- The row and the log as they are. -/
def look {α : Type} (f : DeployLog → α) : Run α :=
  ExceptT.lift (Proc.act fun s => some (f s, s))

def stop {α : Type} (result : DeployResult) (reason : String) : Run α :=
  throw (.stop ⟨result, reason⟩)

/-- A step outside of the deployment's row, which may fail. -/
def mayFail : Run Unit := do
  let failed ← ask Bool
  require (failed = false) RunErr.fail

/-- A step that may also stop the run as failed, with a reason. -/
def mayStop : Run Unit := do
  mayFail
  match ← ask (Option String) with
  | none => return ()
  | some reason => stop .failed reason

/-- A transaction on the row: committed, committed without confirmation, or rolled back. -/
def commit (change : DeployLog → DeployLog) : Run Unit := do
  let fate ← ask Fate
  ExceptT.lift (Proc.act fun s => some ((), if fate = .rollback then s else change s))
  require (fate = .commit) RunErr.fail

def enfCodeDiscoveryUnavailable : String := "discovery_unavailable"
def enfCodeUnavailable : String := "enforcement_unavailable"

/-- `accessStop`, with the code of an enforcement error. -/
def accessStop (code : String) : Run Unit :=
  if code = enfCodeDiscoveryUnavailable then stop .blocked code
  else if code = enfCodeUnavailable then stop .retryLater code
  else stop .failed code

/-- `discovery` and `enforcement`: access to AWS. -/
def access : Run Unit := do
  mayFail
  match ← ask (Option String) with
  | none => return ()
  | some code => accessStop code

/-- A value that is read from AWS under the lease. -/
def external (β : Type) : Run β := do
  mayFail
  match ← ask (Option β) with
  | none => stop .retryLater DeployReason.readFailed
  | some b => return b

/-- `read`. -/
def read : Run LiveRead := do
  let live ← external LiveRead
  note (.read live)
  return live

/-- A computed value, which ends the run where it is an error. -/
def ofExcept {α : Type} : Except GoErr α → Run α
  | .error _ => throw .fail
  | .ok a => return a

/-- `appendCompleted`. -/
def appendCompleted (entry : CompletedOp) : Run Unit :=
  commit (·.record entry)

/-- The reason of a classification as the outcome has it. -/
def reasonText (cl : Classification) : String :=
  cl.reason.elim "" ConflictReason.text

variable (x : Executor)

/-- `notVisible`: an operation that was completed and that a read does not show. -/
def notVisible {α : Type} : Run α := do
  mayFail
  let completedAt ← ask (Option Time)
  let now ← ask Time
  if completedAt.any fun t => decide (now - t < x.consistencyWindow) then
    stop .retryLater DeployReason.awaitConsistency
  else stop .blocked DeployReason.notVisible

/-! ## Attempts -/

/-- The answer of AWS to a request, and the read that follows an error. -/
structure Response where
  kind : ResponseKind
  errorCode : String
  live : LiveRead

def outcomeText : OpOutcomeKind → String
  | .ok => attemptOutcomeOK
  | .retryable => attemptOutcomeRetryable
  | .terminal => attemptOutcomeTerminal
  | .recognisedDone => attemptOutcomeRecognisedDone
  | .notNeeded => attemptOutcomeNotNeeded
  | .unknown => "unknown"

/-- `Complete`: an operation that is done is recorded. -/
def complete (k : ℕ) (op : Op) (out : OpOutcome) : Run Unit := do
  let id ← ask String
  commit fun s =>
    if opDone (outcomeText out.outcome) then
      s.record { opSeq := k, operation := op.op.text, attemptID := some id,
                 outcome := outcomeText out.outcome, basis := none }
    else s

/-- What the run makes of an answer. -/
def afterAnswer (out : OpOutcome) (errorCode : String) : Run Unit :=
  match out.outcome with
  | .ok | .recognisedDone | .notNeeded => return ()
  | .retryable => stop .retryLater DeployReason.throttled
  | _ =>
      let reason := if out.reason = "" then errorCode else out.reason
      if startsWith reason "blocked" then stop .blocked reason else stop .failed reason

section

variable [Sha256]

/-- `attempt`, once the request was sent. -/
def answered (k : ℕ) (op : Op) (resp : Response) : Run Unit := do
  let out := classifyOpResponse x.plan k resp.kind resp.errorCode resp.live
  if out.outcome = .unknown then
    commit (·.setState .outcomeUnknown)
    stop .outcomeUnknown DeployReason.noAnswer
  else
    complete k op out
    afterAnswer out resp.errorCode

/-- `attempt`: one request inside the lifecycle of an attempt. -/
def attempt (k : ℕ) (op : Op) : Run Unit := do
  mayFail
  let retryable ← ask ℕ
  require (retryable < x.maxOpAttempts) (RunErr.stop ⟨.failed, DeployReason.retriesExhausted⟩)
  -- the attempt is prepared and its binding is checked again
  mayFail
  match ← ask (Option String) with
  | some code => stop .blocked code
  | none =>
      mayFail
      note (.dispatched k)
      let resp ← ask Response
      x.answered k op resp

/-! ## Readback -/

/-- The hash of the artifact state that a read shows. -/
def stateHash (live : LiveRead) : Except GoErr String := do
  let st ← artifactState live
  statePreconditionHash st

/-- `readback`, with the rounds that are left. -/
def readback : ℕ → Run DeployOutcome
  | 0 => stop .retryLater DeployReason.readbackNotSettled
  | rounds + 1 => do
      mayFail
      let live₁ ← read
      let c₁ ← ofExcept (classify x.plan live₁)
      mayFail
      let live₂ ← read
      let c₂ ← ofExcept (classify x.plan live₂)
      if c₁.cls = .conflict then stop .blocked (reasonText c₁)
      else if c₂.cls = .conflict then stop .blocked (reasonText c₂)
      else if c₁.cls ≠ .after ∨ c₂.cls ≠ .after then readback rounds
      else
        let h₁ ← ofExcept (stateHash live₁)
        let h₂ ← ofExcept (stateHash live₂)
        if h₁ ≠ h₂ then readback rounds
        else
          -- `writeLedger`
          mayFail
          return { result := .applied }

/-! ## The run -/

/-- `classify`, and what `execute` makes of a conflict. -/
def nextOp : Run ℕ := do
  let live ← read
  let cl ← ofExcept (classify x.plan live)
  require (cl.cls ≠ .conflict) (RunErr.stop ⟨.blocked, reasonText cl⟩)
  -- a classification without a next operation is a conflict, or not of a direct plan
  ofExcept (cl.nextOp.elim (.error (.msg "index out of range [-1]")) .ok)

end

/-- `refuseDirect`: what is never run directly. -/
def refuseDirect (p : Plan) : Option String :=
  if p.kind = .split ∨ p.kind = .splitRevert then some DeployReason.notDirect
  else if p.delivery ≠ deliveryDirect then some DeployReason.notDirect
  else if p.eligibility = .iacOnly then some DeployReason.notDirect
  else if p.eligible = false then some DeployReason.ineligible
  else if p.facts = [] then some DeployReason.ineligible
  else none

/-- `Recover`: the attempt of a run that is gone. -/
def recover : Run Unit := do
  mayFail
  match ← ask RecoveryAction with
  | .outcomeUnknown =>
      commit (·.setState .outcomeUnknown)
      stop .outcomeUnknown DeployReason.noAnswer
  | .hold => stop .hold DeployReason.unknownPending
  | _ => return ()

/-- The plan is not run directly; from outside comes what the deployment and the requests have
against it. -/
def checkDirect : Run Unit := do
  mayFail
  match (← ask (Option String)).or (refuseDirect x.plan) with
  | some reason => stop .refused reason
  | none => return ()

def checkApplying : Run Unit := do
  let state ← look DeployLog.state
  require (state = .applying) (RunErr.stop ⟨.refused, DeployReason.notApplying⟩)

section

variable [Sha256]

/-- A run of the executor. -/
def planRun : PlanRun Run DeployOutcome where
  ops := x.plan.ops
  recover := recover
  checkDirect := x.checkDirect
  checkApplying := checkApplying
  discovery := access
  loadCompleted := do
    mayFail
    look DeployLog.done
  nextOp := x.nextOp
  notVisible := x.notVisible
  appliedAttempt _ := do
    mayFail
    ask (Option String)
  appendCompleted := appendCompleted
  markIntended := mayFail
  enforcement := access
  selectVersions := external (List String)
  archive := mayStop
  request := mayStop
  attempt := x.attempt
  readback := x.readback x.readbackRounds

/-- `finish`. -/
def finished : Run DeployOutcome := do
  match ← ExceptT.lift x.planRun.executePlan.run with
  | .error (.stop out) => return out
  | .error .fail => throw .fail
  | .ok out => return out

end

/-- `applied`: nothing happens if the deployment has moved meanwhile. -/
def markApplied (s : DeployLog) : DeployLog :=
  if s.state = .applying then (s.setState .appliedUnverified).note .applied else s

/-- `stop` of the service. -/
def markStopped (next : DeploymentState) (s : DeployLog) : DeployLog :=
  if s.state = .queued ∨ s.state = .applying then s.setState next else s

/-- `applyOutcome`. -/
def applyOutcome (out : DeployOutcome) : Run Unit :=
  match out.result with
  | .applied => commit markApplied
  | .blocked => commit (markStopped .blocked)
  | .failed => commit (markStopped .failed)
  | .outcomeUnknown | .hold => mayFail
  | .retryLater => return ()
  | .refused =>
      if out.reason = DeployReason.notApplying then return () else commit (markStopped .failed)

/-- `start`: a queued deployment begins, is blocked or waits. -/
def start : Run Unit := do
  mayFail
  match ← ask Bool with
  | true => commit fun s => if s.state = .queued then s.setState .applying else s
  | false => commit (markStopped .blocked)

def startQueued : Run Unit := do
  match ← look DeployLog.state with
  | .queued => start
  | _ => return ()

section

variable [Sha256]

/-- `DeployHandler` for a direct deployment. -/
def deployHandler : Run Unit := do
  note .started
  startQueued
  match ← look DeployLog.state with
  | .applying | .outcomeUnknown => do
      let out ← x.finished
      applyOutcome out
  | _ => return ()

/-- A run of the deploy job. -/
def deployJob : Proc DeployLog Unit := do
  let _ ← x.deployHandler.run
  return ()

end

/-- Other jobs and routes move the deployment, and do not make it applied. -/
def moveElsewhere (next : DeploymentState) : Proc DeployLog Unit :=
  Proc.act fun s => some ((), s.setState next)

/-- What may run on the deployment, one at a time. -/
def programs [Sha256] : Set (Proc DeployLog Unit) :=
  {p | p = x.deployJob ∨ ∃ next, next ≠ .appliedUnverified ∧ p = moveElsewhere next}

/-- A new deployment. -/
def isNew (s : DeployLog) : Prop :=
  s = ⟨.queued, [], []⟩

end Executor

end AuthSec

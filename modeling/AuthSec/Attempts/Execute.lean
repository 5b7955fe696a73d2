import AuthSec.Lib.Threads
import AuthSec.Attempts.Transactions

/-!
# Execution around the external call

`ExecuteChecked` as a thread: each transaction is one atomic action, and anything may happen between
two of them.  The external call runs in a thread of its own and answers on a channel; the timeout
and the cancelled context are choices of the outside, and so are the fate of a transaction, the
clock and new ids.
-/

namespace AuthSec

/-- What the call gives: an answer, or the text of the error when there is no definitive one. -/
abbrev Reply := Except String AttemptAnswer

/-- An external call that was made, with the lease version its caller runs under. -/
structure Sent where
  attempt : String
  version : ℤ
deriving DecidableEq

/-- What the threads share, and the calls that were made. -/
structure World where
  db : Database
  channels : List (Option Reply)
  sent : List Sent

/-- What becomes of a transaction whose body went through. -/
inductive Fate
  | commit
  /-- Committed, but the confirmation never came. -/
  | unconfirmed
  | rollback
deriving DecidableEq

/-- The end of a transaction: it leaves all it did, or nothing. -/
def finishTx {α : Type} (body : Tx α) (fate : Fate) (w : World) : Except AttemptErr α × World :=
  match body w.db, fate with
  | .error e, _ => (.error e, w)
  | .ok (a, db), .commit => (.ok a, { w with db := db })
  | .ok (_, db), .unconfirmed => (.error .connection, { w with db := db })
  | .ok _, .rollback => (.error .connection, w)

/-- A program of the service. -/
abbrev Service (α : Type) : Type 1 := ExceptT AttemptErr (Proc World) α

/-- A value from outside. -/
def outside (β : Type) : Service β :=
  ExceptT.lift (Proc.anything World β)

/-- `Transaction`. -/
def transaction {α : Type} (body : Tx α) : Service α := do
  let fate ← outside Fate
  ExceptT.mk (Proc.act fun w => some (finishTx body fate w))

/-- A read outside of a transaction, which may fail. -/
def query {α : Type} (read : Database → α) : Service α := do
  let failed ← outside Bool
  require (failed = false) AttemptErr.connection
  ExceptT.lift (Proc.act fun w => some (read w.db, w))

/-! ## Channels -/

def makeChan : Proc World ℕ :=
  Proc.act fun w => some (w.channels.length, { w with channels := w.channels ++ [none] })

/-- The channel has room for one reply, so that a late one never blocks. -/
def post (ch : ℕ) (rep : Reply) : Proc World Unit :=
  Proc.act fun w => some ((), { w with channels := w.channels.set ch (some rep) })

def receive (ch : ℕ) : Proc World Reply :=
  Proc.act fun w => (w.channels.getD ch none).map fun rep => (rep, w)

/-- The `select` of `ExecuteChecked`: the reply, or the end of the context. -/
def awaitReply (ch : ℕ) : Proc World Reply := do
  match ← Proc.anything World (Option String) with
  | some ended => return .error ("no answer before the client timeout or cancellation: " ++ ended)
  | none => receive ch

/-! ## Steps -/

/-- `Prepare`. -/
def prepare (f : Fence) (req : AttemptRequest) : Service Attempt := do
  require (req.operation ≠ "" ∧ req.requestHash ≠ "" ∧ 0 ≤ req.opSeq)
    (AttemptErr.message "an attempt needs an operation, a request hash and op_seq >= 0")
  let id ← outside String
  let now ← outside Time
  transaction (inTx f (prepareTx req f.version id now))

/-- `Dispatch`. -/
def dispatch (l : AttemptLog) (f : Fence) (att : Attempt) : Service Attempt := do
  let now ← outside Time
  transaction (inTx f (dispatchTx l f att now))

/-- `Complete`. -/
def complete (f : Fence) (att : Attempt) (ans : AttemptAnswer) : Service Attempt := do
  require (ans.outcome ∈ attemptOutcomes)
    (AttemptErr.message ("attempt outcome " ++ ans.outcome ++ " is not one of 051's"))
  let now ← outside Time
  transaction (inTx f (completeTx f.version att ans now))

/-- `MarkUnknown`. -/
def markUnknown (l : AttemptLog) (f : Fence) (att : Attempt) (reason : String) :
    Service (Attempt × Time) := do
  let now ← outside Time
  transaction (inTx f (markUnknownTx l att (some f.version) reason now))

/-- `Recover`. -/
def recover (l : AttemptLog) (f : Fence) (ws dep : String) : Service AttemptRecovery := do
  let now ← outside Time
  transaction (inTx f (recoverTx l ws dep now))

/-- `ResolveUnknown`. -/
def resolveUnknown (f : Fence) (att : Attempt) (resolvedAs : String) : Service Attempt := do
  require (resolvedAs = attemptResolvedApplied ∨ resolvedAs = attemptResolvedNotApplied)
    (AttemptErr.message ("resolved_as " ++ resolvedAs ++ " is not applied or not_applied"))
  let now ← outside Time
  transaction (inTx f (resolveUnknownTx att resolvedAs now))

/-- `abandonOwnReason`. -/
def abandonOwnReason (f : Fence) (att : Attempt) (reason : String) : Service Attempt := do
  let now ← outside Time
  transaction (inTx f (abandonOwnTx f.version att reason now))

def abandonOwn (f : Fence) (att : Attempt) : Service Attempt :=
  abandonOwnReason f att "lease margin short before dispatch; never sent"

/-! ## The whole lifecycle -/

/-- `AttemptResult`. -/
structure AttemptResult where
  attempt : Attempt
  answer : Option AttemptAnswer
  unknown : Bool
  settleAfter : Option Time
  callErr : Option String

/-- The thread that makes the external call. -/
def makeCall (f : Fence) (att : Attempt) (ch : ℕ) : Proc World Unit := do
  Proc.act fun w => some ((), { w with sent := w.sent ++ [⟨att.id, f.version⟩] })
  let rep ← Proc.anything World Reply
  post ch rep

/-- `ExecuteChecked` when the call gave no answer: the record must still be attempted. -/
def recordUnknown (l : AttemptLog) (f : Fence) (att : Attempt) (callErr : String) :
    Service AttemptResult := do
  match ← ExceptT.lift (markUnknown l f att callErr).run with
  | .error e => throw (.joined
      (.message ("no answer (" ++ callErr ++ "), and marking the attempt unknown failed")) e)
  | .ok (att, settle) => return ⟨att, none, true, some settle, some callErr⟩

/-- `ExecuteChecked` after the attempt was dispatched: the call, and what is recorded of it. -/
def callAndRecord (l : AttemptLog) (f : Fence) (att : Attempt) : Service AttemptResult := do
  let ch ← ExceptT.lift makeChan
  ExceptT.lift (Proc.spawn (makeCall f att ch))
  match ← ExceptT.lift (awaitReply ch) with
  | .ok ans =>
      let att ← complete f att ans
      return ⟨att, some ans, false, none, none⟩
  | .error callErr => recordUnknown l f att callErr

/-- `ExecuteChecked` when the check refuses: nothing was sent. -/
def refuseDispatch (f : Fence) (att : Attempt) (refusal : String) : Service AttemptResult := do
  match ← ExceptT.lift (abandonOwnReason f att ("refused before dispatch: " ++ refusal)).run with
  | .error e => throw (.joined (.message refusal) e)
  | .ok _ => throw (.dispatchRefused refusal)

/-- `ExecuteChecked` when the dispatch fails: a short lease gives the attempt up, nothing was
sent. -/
def dispatchFailed (f : Fence) (att : Attempt) : AttemptErr → Service AttemptResult
  | .leaseShort left needed => do
      match ← ExceptT.lift (abandonOwn f att).run with
      | .error e => throw (.joined (.leaseShort left needed) e)
      | .ok _ => throw (.leaseShort left needed)
  | e => throw e

/-- `ExecuteChecked`; the check before the dispatch answers with the text of its refusal. -/
def executeChecked (l : AttemptLog) (f : Fence) (req : AttemptRequest) : Service AttemptResult := do
  let att ← prepare f req
  match ← outside (Option String) with
  | some refusal => refuseDispatch f att refusal
  | none =>
      match ← ExceptT.lift (dispatch l f att).run with
      | .error e => dispatchFailed f att e
      | .ok att => callAndRecord l f att

end AuthSec

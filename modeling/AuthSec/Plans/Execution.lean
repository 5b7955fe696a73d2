import AuthSec.Attempts.Tables
import AuthSec.Lib.Threads
import AuthSec.Plans.Classify
import Mathlib.Data.Finset.Basic

/-!
# The loop of `ExecutePlan`

A run of a plan reads and classifies before each operation, records what the read shows done, never
sends an operation again that is recorded as done and that a read can show, and ends with a readback.

The loop is written over the steps that it takes (`PlanRun`), in whatever programs they are: with the
tables and the write-ahead log of the attempts in `Attempts`, where many workers run at the same
time, and with the reads and the answers of AWS in `Plans.Executor`, where the runs of one deployment
follow each other.

* `PlanRun.execute`: the loop;
* `PlanRun.Keeps.execute`: what every step keeps, for a cursor and the operations known to be done,
  the loop keeps.  It is one proof for both models, from the rules for sequences of their logics.
-/

namespace AuthSec

def opBasisLiveRead : String := "live_read"
def opBasisSelector : String := "selector"

/-- The steps of a run. -/
structure PlanRun (m : Type → Type 1) (Out : Type) where
  ops : List Op
  /-- `Recover`: the attempt of a run that is gone comes first -/
  recover : m Unit
  /-- `refuseDirect` -/
  checkDirect : m Unit
  /-- the deployment is still being applied -/
  checkApplying : m Unit
  discovery : m Unit
  /-- `loadCompleted`: the operations that are recorded as done -/
  loadCompleted : m (Finset ℤ)
  /-- `classify`: the first operation that a read does not show done -/
  nextOp : m ℕ
  notVisible : {α : Type} → m α
  /-- the last attempt at an operation that was unknown and turned out to be applied -/
  appliedAttempt : ℕ → m (Option String)
  appendCompleted : CompletedOp → m Unit
  markIntended : m Unit
  enforcement : m Unit
  /-- `ResolveVersionSelector` -/
  selectVersions : m (List String)
  /-- `archive`, for the document of a version -/
  archive : m Unit
  /-- `NewRequest`, and the document that it sends -/
  request : m Unit
  /-- `attempt`: one request inside the lifecycle of an attempt -/
  attempt : ℕ → Op → m Unit
  readback : m Out

/-- What `execute` does at an operation. -/
inductive OpStep
  | stop
  | skip
  | run

/-- An operation that is recorded as done is not sent again; a selector of versions is always
resolved anew. -/
def opStep (op : Op) (done : Bool) : OpStep :=
  if done then
    if opObservable op then .stop else if op.op ≠ .deletePolicyVersion then .skip else .run
  else .run

/-- Between what a read shows and the cursor there is an operation that a read can show. -/
def hidden (ops : List Op) (k cursor : ℕ) : Bool :=
  ((ops.take cursor).drop k).any opObservable

namespace PlanRun

variable {m : Type → Type 1} [Monad m] {Out : Type} (x : PlanRun m Out)

/-- One round of `recognise`: an operation that a read shows done is recorded, and not sent. -/
def recogniseOp (op : Op) (j : ℕ) : m Unit := do
  let attemptID ← x.appliedAttempt j
  x.appendCompleted
    { opSeq := j, operation := op.op.text, attemptID, outcome := attemptOutcomeRecognisedDone,
      basis := some opBasisLiveRead }

/-- `recognise`, over the operations with their positions. -/
def recognise : List (Op × ℕ) → Finset ℤ → m (Finset ℤ)
  | [], completed => return completed
  | (op, j) :: ops, completed => do
      if (j : ℤ) ∈ completed then recognise ops completed
      else
        x.recogniseOp op j
        recognise ops (insert (j : ℤ) completed)

/-- The loop of `runVersionDeletes`: each version is archived before it is deleted. -/
def deleteVersions (k : ℕ) (op : Op) : List String → m Unit
  | [] => return ()
  | _ :: versions => do
      x.archive
      x.attempt k op
      deleteVersions k op versions

/-- A selector that chose no version is recorded as not needed. -/
def recordNotNeeded (k : ℕ) (op : Op) : m Unit :=
  x.appendCompleted
    { opSeq := k, operation := op.op.text, attemptID := none, outcome := attemptOutcomeNotNeeded,
      basis := some opBasisSelector }

/-- `runVersionDeletes`. -/
def runVersionDeletes (k : ℕ) (op : Op) : m Unit := do
  let versions ← x.selectVersions
  if versions.isEmpty then x.recordNotNeeded k op else x.deleteVersions k op versions

/-- `runOp`. -/
def runOp (k : ℕ) (op : Op) : m Unit := do
  x.markIntended
  x.enforcement
  if op.op = .deletePolicyVersion then x.runVersionDeletes k op
  else
    x.request
    x.attempt k op

def checkVisible (k cursor : ℕ) : m Unit :=
  if hidden x.ops k cursor then x.notVisible else return ()

/-- `execute`: the cursor only grows, and the loop ends behind the last operation. -/
def execute (cursor : ℕ) (completed : Finset ℤ) : m Out := do
  let next ← x.nextOp
  x.checkVisible next cursor
  let k := max next cursor
  have _hk : cursor ≤ k := Nat.le_max_right next cursor
  let completed ← x.recognise (x.ops.zipIdx.take k) completed
  if h : k < x.ops.length then
    let op := x.ops.get ⟨k, h⟩
    match opStep op ((k : ℤ) ∈ completed) with
    | .stop => x.notVisible
    | .skip => execute (k + 1) completed
    | .run => do
        x.runOp k op
        execute (k + 1) (insert (k : ℤ) completed)
  else x.readback
termination_by x.ops.length - cursor
decreasing_by all_goals omega

/-- `ExecutePlan`. -/
def executePlan : m Out := do
  x.recover
  x.checkDirect
  x.checkApplying
  x.discovery
  let completed ← x.loadCompleted
  x.execute 0 completed

end PlanRun

/-! ## What the loop keeps -/

lemma opStep_eq_run {op : Op} {done : Bool} (h : opStep op done = .run) :
    opObservable op = false ∨ done = false := by
  unfold opStep at h
  split_ifs at h with hdone hobs
  · exact Or.inl (Bool.eq_false_iff.2 hobs)
  · exact Or.inr (Bool.eq_false_iff.2 hdone)

namespace PlanRun

variable {m : Type → Type 1} [Monad m] {Out σ : Type}

/-- Every step keeps `I c D`, which says that nothing at the cursor `c` or behind it was sent and that
`D` has all that is recorded as done.  An operation may be sent where no read shows it or where it is
not known to be done. -/
structure Keeps (x : PlanRun m Out) (L : ProgramLogic m σ) (I : ℕ → Finset ℤ → σ → Prop) :
    Prop where
  mono : ∀ {c c' D D' s}, c ≤ c' → D ⊆ D' → I c D s → I c' D' s
  nextOp : ∀ {c D s}, I c D s → L.Ensures x.nextOp s fun _ => I c D
  notVisible : ∀ {c D s α} {Q : α → σ → Prop}, I c D s → L.Ensures x.notVisible s Q
  recogniseOp : ∀ {c D s op} {j : ℕ}, (j : ℤ) ∉ D → I c D s →
    L.Ensures (x.recogniseOp op j) s fun _ => I c (insert (j : ℤ) D)
  recordNotNeeded : ∀ {c D s op} {k : ℕ}, I c D s →
    L.Ensures (x.recordNotNeeded k op) s fun _ => I c (insert (k : ℤ) D)
  markIntended : ∀ {c D s}, I c D s → L.Ensures x.markIntended s fun _ => I c D
  enforcement : ∀ {c D s}, I c D s → L.Ensures x.enforcement s fun _ => I c D
  selectVersions : ∀ {c D s}, I c D s → L.Ensures x.selectVersions s fun _ => I c D
  archive : ∀ {c D s}, I c D s → L.Ensures x.archive s fun _ => I c D
  request : ∀ {c D s}, I c D s → L.Ensures x.request s fun _ => I c D
  attempt : ∀ {D s op} {k : ℕ}, x.ops[k]? = some op → opObservable op = false ∨ (k : ℤ) ∉ D →
    I (k + 1) D s → L.Ensures (x.attempt k op) s fun _ => I (k + 1) (insert (k : ℤ) D)

namespace Keeps

variable {x : PlanRun m Out} {L : ProgramLogic m σ} {I : ℕ → Finset ℤ → σ → Prop}
  (h : x.Keeps L I) {c k : ℕ} {D : Finset ℤ} {s : σ} {op : Op}
include h

lemma recognise {ops : List (Op × ℕ)} (hs : I c D s) :
    L.Ensures (x.recognise ops D) s fun D' => I c D' := by
  induction ops generalizing D s with
  | nil => exact L.pure hs
  | cons o ops ih =>
      unfold PlanRun.recognise
      split_ifs with hj
      · exact ih hs
      · exact L.bind (h.recogniseOp hj hs) fun _ _ hs' => ih hs'

lemma deleteVersions {versions : List String} (hop : x.ops[k]? = some op)
    (hobs : opObservable op = false) (hs : I (k + 1) D s) :
    L.Ensures (x.deleteVersions k op versions) s fun _ => I (k + 1) (insert (k : ℤ) D) := by
  induction versions generalizing D s with
  | nil => exact L.pure (h.mono le_rfl (Finset.subset_insert _ _) hs)
  | cons v versions ih =>
      refine L.bind (h.archive hs) fun _ _ hs => ?_
      refine L.bind (h.attempt hop (Or.inl hobs) hs) fun _ _ hs => ?_
      rw [← Finset.insert_idem]
      exact ih hs

lemma runOp (hop : x.ops[k]? = some op) (hsend : opObservable op = false ∨ (k : ℤ) ∉ D)
    (hs : I (k + 1) D s) :
    L.Ensures (x.runOp k op) s fun _ => I (k + 1) (insert (k : ℤ) D) := by
  refine L.bind (h.markIntended hs) fun _ _ hs => L.bind (h.enforcement hs) fun _ _ hs => ?_
  split_ifs with hdelete
  · -- no read shows that versions were deleted
    refine L.bind (h.selectVersions hs) fun versions _ hs => ?_
    split_ifs
    · exact h.recordNotNeeded hs
    · exact h.deleteVersions hop (by simp [opObservable, opEffects, hdelete]) hs
  · exact L.bind (h.request hs) fun _ _ hs => h.attempt hop hsend hs

lemma checkVisible {cursor : ℕ} (hs : I c D s) :
    L.Ensures (x.checkVisible k cursor) s fun _ => I c D := by
  unfold PlanRun.checkVisible
  split_ifs
  · exact h.notVisible hs
  · exact L.pure hs

/-- What is sent comes behind what was sent, and is not recorded as done unless no read can show
it. -/
theorem execute {Q : Out → σ → Prop} (hend : ∀ {c D s}, I c D s → L.Ensures x.readback s Q)
    {cursor : ℕ} (hs : I cursor D s) : L.Ensures (x.execute cursor D) s Q := by
  -- on the operations from the cursor on
  induction hn : x.ops.length - cursor using Nat.strong_induction_on generalizing cursor D s with
  | _ n ih =>
      rw [PlanRun.execute]
      refine L.bind (h.nextOp hs) fun next _ hs => L.bind (h.checkVisible hs) fun _ _ hs => ?_
      refine L.bind (h.recognise hs) fun D _ hs => ?_
      have hk : cursor ≤ max next cursor := Nat.le_max_right next cursor
      have hs := h.mono (hk.trans (Nat.le_succ _)) subset_rfl hs
      split_ifs with hlt
      · have hop : x.ops[max next cursor]? = some (x.ops.get ⟨_, hlt⟩) :=
          List.getElem?_eq_getElem hlt
        dsimp only
        split
        · exact h.notVisible hs
        · exact ih _ (by omega) hs rfl
        · rename_i hrun
          have hsend := (opStep_eq_run hrun).imp_right of_decide_eq_false
          exact L.bind (h.runOp hop hsend hs) fun _ _ hs => ih _ (by omega) hs rfl
      · exact hend hs

end Keeps

end PlanRun

end AuthSec

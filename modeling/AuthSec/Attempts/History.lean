import AuthSec.Attempts.Transactions

/-!
# What becomes of a row

The trigger lets an attempt only move on: a prepared one is dispatched or abandoned, a dispatched
one is completed or unknown, and these stay what they are.  `Attempt.Becomes` is what that means for
a row over any number of updates; everything the log relies on about a row is kept by it.
-/

namespace AuthSec

/-! ## Attempts -/

/-- The statuses an attempt may still come to, at once or later. -/
def AttemptStatus.leadsTo : AttemptStatus → AttemptStatus → Bool
  | .prepared, _ => true
  | .dispatched, s => s = .dispatched || s = .completed || s = .unknown
  | s, s' => s = s'

lemma AttemptStatus.leadsTo_refl (s : AttemptStatus) : s.leadsTo s = true := by
  cases s <;> rfl

lemma AttemptStatus.leadsTo_trans {s s' s'' : AttemptStatus} (h : s.leadsTo s' = true)
    (h' : s'.leadsTo s'' = true) : s.leadsTo s'' = true := by
  revert h h'
  cases s <;> cases s' <;> cases s'' <;> decide

lemma AttemptStatus.leadsTo_of_mayBecome {s s' : AttemptStatus} (h : s.mayBecome s' = true) :
    s.leadsTo s' = true := by
  revert h
  cases s <;> cases s' <;> decide

namespace Attempt

/-- The row may be what became of the other one. -/
structure Becomes (r r' : Attempt) : Prop where
  id : r'.id = r.id
  workspaceID : r'.workspaceID = r.workspaceID
  request : r'.toPreparedRequest = r.toPreparedRequest
  status : r.status.leadsTo r'.status = true
  resolvedAs : ∀ as, r.resolvedAs = some as → r'.resolvedAs = some as

lemma Becomes.refl (r : Attempt) : r.Becomes r :=
  ⟨rfl, rfl, rfl, r.status.leadsTo_refl, fun _ h => h⟩

lemma Becomes.trans {r r' r'' : Attempt} (h : r.Becomes r') (h' : r'.Becomes r'') :
    r.Becomes r'' where
  id := h'.id.trans h.id
  workspaceID := h'.workspaceID.trans h.workspaceID
  request := h'.request.trans h.request
  status := AttemptStatus.leadsTo_trans h.status h'.status
  resolvedAs as has := h'.resolvedAs as (h.resolvedAs as has)

/-- The trigger, for an update that leaves the keys alone. -/
lemma becomes_of_transition {r r' : Attempt} (hid : r'.id = r.id)
    (hws : r'.workspaceID = r.workspaceID) (h : attemptTransition r r' = true) : r.Becomes r' := by
  simp only [attemptTransition, Bool.and_eq_true, Bool.or_eq_true, decide_eq_true_eq] at h
  obtain ⟨⟨hreq, hstatus⟩, hres⟩ := h
  refine ⟨hid, hws, hreq, ?_, fun as has => ?_⟩
  · rcases hstatus with hsame | hmay
    · rw [hsame]
      exact r.status.leadsTo_refl
    · exact AttemptStatus.leadsTo_of_mayBecome hmay
  · rcases hres with hnone | hsame
    · rw [has] at hnone
      exact absurd hnone (by simp)
    · rw [hsame, has]

/-- The row was committed as dispatched. -/
def WasDispatched (r : Attempt) : Prop :=
  r.status = .dispatched ∨ r.status = .completed ∨ r.status = .unknown

/-- Where an attempt ends. -/
def Ended (r : Attempt) : Prop :=
  r.status = .abandoned ∨ r.status = .completed ∨ r.status = .unknown

/-- The attempt was answered, or turned out to be applied. -/
def Settled (r : Attempt) : Prop :=
  r.status = .completed ∨ r.status = .unknown ∧ r.resolvedAs = some attemptResolvedApplied

instance (r : Attempt) : Decidable r.WasDispatched :=
  inferInstanceAs (Decidable (_ ∨ _ ∨ _))

instance (r : Attempt) : Decidable r.Ended :=
  inferInstanceAs (Decidable (_ ∨ _ ∨ _))

namespace Becomes

variable {r r' : Attempt} (h : r.Becomes r')

include h

lemma leaseVersion : r'.leaseVersion = r.leaseVersion := by rw [h.request]

lemma deploymentID : r'.deploymentID = r.deploymentID := by rw [h.request]

lemma opSeq : r'.opSeq = r.opSeq := by rw [h.request]

/-- An end is an end. -/
lemma status_eq (hend : r.Ended) : r'.status = r.status := by
  have hstatus := h.status
  rcases hend with hs | hs | hs <;> rw [hs] at hstatus ⊢ <;>
    simpa [AttemptStatus.leadsTo, eq_comm] using hstatus

lemma wasDispatched (hd : r.WasDispatched) : r'.WasDispatched := by
  have hstatus := h.status
  unfold WasDispatched
  rcases hd with hs | hs | hs <;> rw [hs] at hstatus <;>
    simp only [AttemptStatus.leadsTo, Bool.or_eq_true, decide_eq_true_eq] at hstatus <;> tauto

lemma settled (hs : r.Settled) : r'.Settled := by
  rcases hs with hcomp | ⟨hunk, happ⟩
  · exact .inl ((h.status_eq (.inr (.inl hcomp))).trans hcomp)
  · exact .inr ⟨(h.status_eq (.inr (.inr hunk))).trans hunk, h.resolvedAs _ happ⟩

end Becomes

end Attempt

end AuthSec

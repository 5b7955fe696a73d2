import AuthSec.Plans.Executor

/-!
# Finished operations are not sent again

What every run of the deploy job keeps, however stale its reads are and wherever it dies.  The log
of the deployment says what happened; `Executor.Fits` says of each event what it needs from those
before it, and `Executor.Sound` that all of them have it.

* `Executor.Triple`: what a step needs and leaves, with `Sound` throughout;
* `Executor.planRun_keeps`, `Executor.readback_triple`: the steps of the loop, and its end;
* `executor_runs`: the runs of a deployment.
-/

namespace AuthSec

open List

/-! ## The log -/

/-- The operation was sent in the run that is going on. -/
def InRun (events : List DeployEvent) (j : ℕ) : Prop :=
  ∃ pre mid, events = pre ++ .dispatched j :: mid ∧ .started ∉ mid

/-- Every event has what it needs from those before it. -/
def EachAfter {E : Type} (R : List E → E → Prop) (es : List E) : Prop :=
  ∀ pre e post, es = pre ++ e :: post → R pre e

lemma eachAfter_concat {E : Type} {R : List E → E → Prop} {es : List E} {e : E} :
    EachAfter R (es ++ [e]) ↔ EachAfter R es ∧ R es e := by
  constructor
  · intro h
    refine ⟨fun pre e' post hes => h pre e' (post ++ [e]) (by simp [hes]), h es e [] rfl⟩
  · rintro ⟨h, he⟩ pre e' post hes
    rcases eq_nil_or_concat post with rfl | ⟨post, e'', rfl⟩
    · obtain ⟨rfl, heq⟩ := append_inj' hes rfl
      rw [← singleton_inj.1 heq]
      exact he
    · have hes' : es ++ [e] = (pre ++ e' :: post) ++ [e''] := by simpa using hes
      exact h pre e' post (append_inj' hes' rfl).1

lemma inRun_concat {events : List DeployEvent} {e : DeployEvent} {j : ℕ} :
    InRun (events ++ [e]) j ↔ e = .dispatched j ∨ (e ≠ .started ∧ InRun events j) := by
  constructor
  · rintro ⟨pre, mid, hes, hmid⟩
    rcases eq_nil_or_concat mid with rfl | ⟨mid, e', rfl⟩
    · obtain ⟨-, heq⟩ := append_inj' hes rfl
      exact Or.inl (singleton_inj.1 heq)
    · have hes' : events ++ [e] = (pre ++ .dispatched j :: mid) ++ [e'] := by simpa using hes
      obtain ⟨hevents, heq⟩ := append_inj' hes' rfl
      rw [concat_eq_append, mem_append, not_or, mem_singleton] at hmid
      rw [singleton_inj.1 heq]
      exact Or.inr ⟨fun h => hmid.2 h.symm, pre, mid, hevents, hmid.1⟩
  · rintro (rfl | ⟨he, pre, mid, rfl, hmid⟩)
    · exact ⟨events, [], rfl, not_mem_nil⟩
    · refine ⟨pre, mid ++ [e], by simp, ?_⟩
      rw [mem_append, not_or, mem_singleton]
      exact ⟨hmid, fun h => he h.symm⟩

/-- The entry that an event adds to `completed_ops`. -/
def DeployEvent.entry : DeployEvent → Option CompletedOp
  | .recorded entry => some entry
  | _ => none

namespace Executor

variable (x : Executor) [Sha256]

/-- Two reads in a row that show the state after the plan, with one artifact state. -/
def ReadBack (events : List DeployEvent) : Prop :=
  ∃ pre live₁ live₂ c₁ c₂ hash, events = pre ++ [.read live₁, .read live₂] ∧
    classify x.plan live₁ = .ok c₁ ∧ c₁.cls = .after ∧
    classify x.plan live₂ = .ok c₂ ∧ c₂.cls = .after ∧
    stateHash live₁ = .ok hash ∧ stateHash live₂ = .ok hash

/-- What an event needs from those before it. -/
def Fits (pre : List DeployEvent) : DeployEvent → Prop
  | .dispatched k =>
      (∀ o, x.plan.ops[k]? = some o → opObservable o → ∀ entry, .recorded entry ∈ pre →
        opDone entry.outcome → entry.opSeq ≠ (k : ℤ)) ∧ ∀ j, InRun pre j → j ≤ k
  | .applied => x.ReadBack pre
  | _ => True

/-- What holds of the deployment in every run. -/
structure Sound (s : DeployLog) : Prop where
  fits : EachAfter x.Fits s.events
  recorded : s.completedOps = s.events.filterMap DeployEvent.entry
  applied : s.state = .appliedUnverified → .applied ∈ s.events

variable {x} {s : DeployLog}

lemma Sound.note (h : x.Sound s) {e : DeployEvent} (he : x.Fits s.events e)
    (hentry : e.entry = none) : x.Sound (s.note e) where
  fits := eachAfter_concat.2 ⟨h.fits, he⟩
  recorded := by simp [DeployLog.note, h.recorded, hentry]
  applied hstate := mem_append_left _ (h.applied hstate)

lemma Sound.record (h : x.Sound s) (entry : CompletedOp) : x.Sound (s.record entry) where
  fits := eachAfter_concat.2 ⟨h.fits, trivial⟩
  recorded := by simp [DeployLog.record, h.recorded, DeployEvent.entry]
  applied hstate := mem_append_left _ (h.applied hstate)

lemma Sound.setState (h : x.Sound s) {next : DeploymentState} (hnext : next ≠ .appliedUnverified) :
    x.Sound (s.setState next) :=
  ⟨h.fits, h.recorded, fun hstate => absurd hstate hnext⟩

end Executor

/-! ## Where a run stands -/

namespace Executor

/-- Where a run stands: what it has sent lies before `c`, and `D` has all that is recorded done. -/
structure At (c : ℕ) (D : Finset ℤ) (s : DeployLog) : Prop where
  behind : ∀ j, InRun s.events j → j < c
  known : s.done ⊆ D

section

variable {c k : ℕ} {D : Finset ℤ} {s : DeployLog}

lemma At.mono {c' : ℕ} {D' : Finset ℤ} (h : At c D s) (hc : c ≤ c') (hD : D ⊆ D') : At c' D' s :=
  ⟨fun j hj => (h.behind j hj).trans_le hc, h.known.trans hD⟩

lemma At.noteRead (h : At c D s) (live : LiveRead) : At c D (s.note (.read live)) := by
  refine ⟨fun j hj => ?_, h.known⟩
  rcases inRun_concat.1 hj with hj | hj
  · cases hj
  · exact h.behind j hj.2

lemma At.dispatch (h : At (k + 1) D s) : At (k + 1) D (s.note (.dispatched k)) := by
  refine ⟨fun j hj => ?_, h.known⟩
  rcases inRun_concat.1 hj with hj | hj
  · cases hj
    exact Nat.lt_succ_self k
  · exact h.behind j hj.2

lemma At.record (h : At c D s) (entry : CompletedOp) :
    At c (insert entry.opSeq D) (s.record entry) := by
  constructor
  · intro j hj
    rcases inRun_concat.1 hj with hj | hj
    · cases hj
    · exact h.behind j hj.2
  · intro i hi
    simp only [DeployLog.done, DeployLog.record, mem_toFinset, mem_map, mem_filter,
      mem_append, mem_singleton] at hi
    obtain ⟨e, ⟨he | rfl, hdone⟩, rfl⟩ := hi
    · refine Finset.mem_insert_of_mem (h.known ?_)
      simp only [DeployLog.done, mem_toFinset, mem_map, mem_filter]
      exact ⟨e, ⟨he, hdone⟩, rfl⟩
    · exact Finset.mem_insert_self _ _

end

/-! ## Triples -/

end Executor

/-- The run did not stop as applied. -/
def RunErr.Unapplied : RunErr → Prop
  | .stop out => out.result ≠ .applied
  | .fail => True

namespace Executor

variable [Sha256]

/-- From a sound deployment with `P` the program keeps it sound, and ends with `Q` or unapplied. -/
def Triple (x : Executor) {α : Type} (P : DeployLog → Prop) (p : Run α)
    (Q : α → DeployLog → Prop) : Prop :=
  ∀ s, x.Sound s → P s → Tries x.Sound p s (fun a s' => x.Sound s' ∧ Q a s')
    fun e s' => x.Sound s' ∧ e.Unapplied

namespace Triple

variable {x : Executor} {α β : Type} {P : DeployLog → Prop} {Q : α → DeployLog → Prop}

lemma pure {a : α} (h : ∀ s, P s → Q a s) : x.Triple P (Pure.pure a) Q :=
  fun s hs hP => Tries.pure ⟨hs, h s hP⟩

lemma throw {e : RunErr} (h : e.Unapplied) : x.Triple P (throw e : Run α) Q :=
  fun _ hs _ => Tries.throw ⟨hs, h⟩

lemma stop {result : DeployResult} {reason : String} (h : result ≠ .applied) :
    x.Triple P (Executor.stop result reason : Run α) Q :=
  throw h

lemma bind {R : β → DeployLog → Prop} {p : Run α} {f : α → Run β} (hp : x.Triple P p Q)
    (hf : ∀ a, x.Triple (Q a) (f a) R) : x.Triple P (p >>= f) R :=
  fun s hs hP => Tries.bind (hp s hs hP) fun a s' h => hf a s' h.1 h.2

lemma mono {P' : DeployLog → Prop} {Q' : α → DeployLog → Prop} {p : Run α} (h : x.Triple P p Q)
    (hP : ∀ s, P' s → P s) (hQ : ∀ a s, Q a s → Q' a s) : x.Triple P' p Q' :=
  fun s hs hP' => (h s hs (hP s hP')).mono (fun a s' ha => ⟨ha.1, hQ a s' ha.2⟩) fun _ _ he => he

lemma ask : x.Triple P (Executor.ask β) fun _ => P :=
  fun _ hs hP => Tries.lift (Proc.safe_anything fun _ => ⟨hs, hP⟩)

lemma look {f : DeployLog → β} : x.Triple P (Executor.look f) fun b s => P s ∧ b = f s := by
  refine fun s hs hP => Tries.lift (Proc.safe_act ?_)
  rintro b s' ⟨⟩
  exact ⟨hs, hs, hP, rfl⟩

lemma require {c : Prop} [Decidable c] {e : RunErr} (he : e.Unapplied) :
    x.Triple P (AuthSec.require c e) fun _ => P := by
  unfold AuthSec.require
  split_ifs
  · exact pure fun _ h => h
  · exact throw he

/-- An event that fits. -/
lemma note {e : DeployEvent} {R : DeployLog → Prop} (hentry : e.entry = none)
    (h : ∀ s, x.Sound s → P s → x.Fits s.events e ∧ R (s.note e)) :
    x.Triple P (Executor.note e) fun _ => R := by
  refine fun s hs hP => Tries.lift (Proc.safe_act ?_)
  rintro _ s' ⟨⟩
  obtain ⟨he, hR⟩ := h s hs hP
  exact ⟨hs.note he hentry, hs.note he hentry, hR⟩

/-- A transaction leaves all it did or nothing. -/
lemma commit {change : DeployLog → DeployLog} {R : DeployLog → Prop}
    (h : ∀ s, x.Sound s → P s → x.Sound (change s) ∧ R (change s)) :
    x.Triple P (Executor.commit change) fun _ => R := by
  intro s hs hP
  refine Tries.bind (Q := fun _ s' => s = s') (Tries.lift (Proc.safe_anything fun _ => rfl)) ?_
  rintro fate _ rfl
  obtain ⟨hs', hR⟩ := h s hs hP
  cases fate with
  | rollback =>
      refine Tries.bind (Q := fun _ s' => s = s') (Tries.lift (Proc.safe_act ?_)) ?_
      · rintro _ s' ⟨⟩
        exact ⟨hs, rfl⟩
      · rintro _ _ rfl
        exact Tries.throw ⟨hs, trivial⟩
  | unconfirmed =>
      refine Tries.bind (Q := fun _ s' => change s = s') (Tries.lift (Proc.safe_act ?_)) ?_
      · rintro _ s' ⟨⟩
        exact ⟨hs', rfl⟩
      · rintro _ _ rfl
        exact Tries.throw ⟨hs', trivial⟩
  | commit =>
      refine Tries.bind (Q := fun _ s' => change s = s') (Tries.lift (Proc.safe_act ?_)) ?_
      · rintro _ s' ⟨⟩
        exact ⟨hs', rfl⟩
      · rintro _ _ rfl
        exact Tries.pure ⟨hs', hR⟩

end Triple

section

variable {x : Executor} {α β : Type} {P : DeployLog → Prop} {Q : α → DeployLog → Prop}

/-! ### Steps that leave the deployment alone -/

lemma mayFail_triple : x.Triple P mayFail fun _ => P :=
  .bind .ask fun _ => .require (e := .fail) trivial

lemma mayStop_triple : x.Triple P mayStop fun _ => P := by
  refine .bind mayFail_triple fun _ => .bind .ask fun reason => ?_
  cases reason with
  | none => exact .pure fun _ h => h
  | some reason => exact .stop nofun

lemma access_triple : x.Triple P access fun _ => P := by
  refine .bind mayFail_triple fun _ => .bind .ask fun code => ?_
  cases code with
  | none => exact .pure fun _ h => h
  | some code =>
      simp only [accessStop]
      split_ifs <;> exact .stop nofun

lemma external_triple : x.Triple P (external β) fun _ => P := by
  refine .bind mayFail_triple fun _ => .bind .ask fun b => ?_
  cases b with
  | none => exact .stop nofun
  | some b => exact .pure fun _ h => h

lemma ofExcept_triple {r : Except GoErr β} :
    x.Triple P (ofExcept r) fun b s => P s ∧ r = .ok b := by
  cases r with
  | error e => exact .throw trivial
  | ok b => exact .pure fun _ h => ⟨h, rfl⟩

lemma notVisible_triple : x.Triple P (x.notVisible : Run α) Q := by
  refine .bind mayFail_triple fun _ => .bind .ask fun completedAt => .bind .ask fun now => ?_
  split_ifs <;> exact .stop nofun

/-- A read is added to the log. -/
lemma read_triple {R : LiveRead → DeployLog → Prop}
    (h : ∀ live s, P s → R live (s.note (.read live))) : x.Triple P read R :=
  .bind external_triple fun live =>
    .bind (.note rfl fun s _ hP => ⟨trivial, h live s hP⟩) fun _ => .pure fun _ hP => hP

end

/-! ## A run -/

section

variable {x : Executor} {c k : ℕ} {D : Finset ℤ} {s : DeployLog} {op : Op}

/-- An operation may be sent if no read shows it, or if it is not known to be done. -/
lemma At.fits (h : At (k + 1) D s) (hs : x.Sound s) (hop : x.plan.ops[k]? = some op)
    (hsend : opObservable op = false ∨ (k : ℤ) ∉ D) : x.Fits s.events (.dispatched k) := by
  refine ⟨fun o ho hobs entry hentry hdone hk => ?_, fun j hj => Nat.lt_succ_iff.1 (h.behind j hj)⟩
  obtain rfl : op = o := Option.some.inj (hop.symm.trans ho)
  have hnot : (k : ℤ) ∉ D := hsend.resolve_left (by simp [hobs])
  refine hnot (h.known ?_)
  simp only [DeployLog.done, mem_toFinset, mem_map, mem_filter]
  refine ⟨entry, ⟨?_, hdone⟩, hk⟩
  rw [hs.recorded]
  exact mem_filterMap.2 ⟨_, hentry, rfl⟩

lemma appendCompleted_triple {entry : CompletedOp} : x.Triple (At c D) (appendCompleted entry)
    fun _ => At c (insert entry.opSeq D) :=
  .commit fun _ hs h => ⟨hs.record entry, h.record entry⟩

lemma recogniseOp_triple {j : ℕ} : x.Triple (At c D) (x.planRun.recogniseOp op j)
    fun _ => At c (insert (j : ℤ) D) :=
  .bind (.bind mayFail_triple fun _ => .ask) fun _ => appendCompleted_triple

lemma complete_triple {out : OpOutcome} :
    x.Triple (At c D) (complete k op out) fun _ => At c (insert (k : ℤ) D) := by
  refine .bind .ask fun id => .commit fun s hs h => ?_
  split_ifs
  · exact ⟨hs.record _, At.record h ⟨k, _, _, _, _⟩⟩
  · exact ⟨hs, h.mono le_rfl (Finset.subset_insert _ _)⟩

lemma afterAnswer_triple {P : DeployLog → Prop} {out : OpOutcome} {errorCode : String} :
    x.Triple P (afterAnswer out errorCode) fun _ => P := by
  unfold afterAnswer
  split
  · exact .pure fun _ h => h
  · exact .pure fun _ h => h
  · exact .pure fun _ h => h
  · exact .stop nofun
  · dsimp only
    split_ifs <;> exact .stop nofun

lemma answered_triple {resp : Response} :
    x.Triple (At c D) (x.answered k op resp) fun _ => At c (insert (k : ℤ) D) := by
  unfold answered
  dsimp only
  split_ifs
  · exact .bind (.commit (R := fun _ => True) fun s hs _ => ⟨hs.setState nofun, trivial⟩)
      fun _ => .stop nofun
  · exact .bind complete_triple fun _ => afterAnswer_triple

/-- One request. -/
lemma attempt_triple (hop : x.plan.ops[k]? = some op)
    (hsend : opObservable op = false ∨ (k : ℤ) ∉ D) :
    x.Triple (At (k + 1) D) (x.attempt k op) fun _ => At (k + 1) (insert (k : ℤ) D) := by
  refine .bind mayFail_triple fun _ => .bind .ask fun retryable => ?_
  refine .bind (.require (e := .stop _) nofun) fun _ => ?_
  refine .bind mayFail_triple fun _ => .bind .ask fun refusal => ?_
  cases refusal with
  | some code => exact .stop nofun
  | none =>
      refine .bind mayFail_triple fun _ => ?_
      refine .bind (.note rfl fun s hs h => ⟨h.fits hs hop hsend, h.dispatch⟩) fun _ => ?_
      exact .bind .ask fun resp => answered_triple

/-- The readback ends the run as applied only after two reads that agree. -/
theorem readback_triple {P : DeployLog → Prop} (rounds : ℕ) :
    x.Triple P (x.readback rounds) fun _ s => x.ReadBack s.events := by
  induction rounds generalizing P with
  | zero => exact .stop nofun
  | succ rounds ih =>
      refine .bind mayFail_triple fun _ => ?_
      refine .bind (read_triple (R := fun live₁ s => ∃ pre, s.events = pre ++ [.read live₁])
        fun live s _ => ⟨s.events, rfl⟩) fun live₁ => ?_
      refine .bind ofExcept_triple fun c₁ => .bind mayFail_triple fun _ => ?_
      refine .bind (read_triple (R := fun live₂ s => (∃ pre, s.events =
        pre ++ [.read live₁, .read live₂]) ∧ classify x.plan live₁ = .ok c₁) ?_) fun live₂ => ?_
      · rintro live s ⟨⟨pre, hpre⟩, hc₁⟩
        exact ⟨⟨pre, by simp [DeployLog.note, hpre]⟩, hc₁⟩
      refine .bind ofExcept_triple fun c₂ => ?_
      split_ifs with hconflict₁ hconflict₂ hafter
      · exact .stop nofun
      · exact .stop nofun
      · exact ih
      · refine .bind ofExcept_triple fun h₁ => .bind ofExcept_triple fun h₂ => ?_
        split_ifs with hhash
        · exact ih
        · refine .bind mayFail_triple fun _ => .pure ?_
          rintro s ⟨⟨⟨⟨⟨pre, hpre⟩, hc₁⟩, hc₂⟩, hh₁⟩, hh₂⟩
          obtain ⟨ha₁, ha₂⟩ := not_or.1 hafter
          exact ⟨pre, live₁, live₂, c₁, c₂, h₁, hpre, hc₁, not_not.1 ha₁, hc₂, not_not.1 ha₂,
            hh₁, not_not.1 hhash ▸ hh₂⟩

lemma nextOp_triple : x.Triple (At c D) x.nextOp fun _ => At c D := by
  refine .bind (read_triple fun live s h => h.noteRead live) fun live => ?_
  refine .bind (ofExcept_triple.mono (fun _ h => h) fun _ _ h => h.1) fun cl => ?_
  refine .bind (.require (e := .stop _) nofun) fun _ => ?_
  exact ofExcept_triple.mono (fun _ h => h) fun _ _ h => h.1

/-- Every step of a run keeps where the run stands. -/
theorem planRun_keeps (x : Executor) :
    x.planRun.Keeps (Tries.logic x.Sound fun e s => x.Sound s ∧ e.Unapplied)
      fun c D s => x.Sound s ∧ At c D s where
  mono hc hD h := ⟨h.1, h.2.mono hc hD⟩
  nextOp h := nextOp_triple _ h.1 h.2
  notVisible h := (notVisible_triple (P := fun _ => True) _ h.1 trivial).mono (fun _ _ h => h.2)
    fun _ _ h => h
  recogniseOp _ h := recogniseOp_triple _ h.1 h.2
  recordNotNeeded h := appendCompleted_triple _ h.1 h.2
  markIntended h := mayFail_triple _ h.1 h.2
  enforcement h := access_triple _ h.1 h.2
  selectVersions h := external_triple _ h.1 h.2
  archive h := mayStop_triple _ h.1 h.2
  request h := mayStop_triple _ h.1 h.2
  attempt hop hsend h := attempt_triple hop hsend _ h.1 h.2

/-- A run that comes to its end has read the state after the plan twice. -/
theorem execute_triple {cursor : ℕ} :
    x.Triple (At cursor D) (x.planRun.execute cursor D) fun _ s => x.ReadBack s.events := by
  intro s hs h
  refine x.planRun_keeps.execute (fun hend => ?_) ⟨hs, h⟩
  exact readback_triple _ _ hend.1 hend.2

/-! ## The deploy job -/

lemma recover_triple {P : DeployLog → Prop} : x.Triple P recover fun _ => P := by
  refine .bind mayFail_triple fun _ => .bind .ask fun action => ?_
  cases action with
  | outcomeUnknown =>
      exact .bind (.commit (R := fun _ => True) fun s hs _ => ⟨hs.setState nofun, trivial⟩)
        fun _ => .stop nofun
  | hold => exact .stop nofun
  | «continue» | reprepare => exact .pure fun _ h => h

lemma checkDirect_triple {P : DeployLog → Prop} : x.Triple P x.checkDirect fun _ => P := by
  refine .bind mayFail_triple fun _ => .bind .ask fun refusal => ?_
  split
  · exact .stop nofun
  · exact .pure fun _ h => h

lemma checkApplying_triple {P : DeployLog → Prop} : x.Triple P checkApplying fun _ => P :=
  .bind (Triple.look.mono (fun _ h => h) fun _ _ h => h.1) fun _ => .require (e := .stop _) nofun

lemma executePlan_triple : x.Triple (fun s => ∀ j, ¬ InRun s.events j) x.planRun.executePlan
    fun _ s => x.ReadBack s.events := by
  refine .bind recover_triple fun _ => .bind checkDirect_triple fun _ => ?_
  refine .bind checkApplying_triple fun _ => .bind access_triple fun _ => ?_
  refine .bind (.bind mayFail_triple fun _ => .look) fun completed =>
    execute_triple.mono ?_ fun _ _ h => h
  rintro s ⟨hnone, rfl⟩
  exact ⟨fun j hj => absurd hj (hnone j), subset_rfl⟩

/-- The outcome of a run: applied only after the readback. -/
lemma finished_triple : x.Triple (fun s => ∀ j, ¬ InRun s.events j) x.finished
    fun out s => out.result = .applied → x.ReadBack s.events := by
  intro s hs hP
  have hplan := executePlan_triple s hs hP
  refine Tries.bind (Q := fun r s' => x.Sound s' ∧ ∀ out, r = .error (.stop out) ∨ r = .ok out →
    out.result = .applied → x.ReadBack s'.events) (Tries.lift (Proc.Safe.mono ?_ hplan)) ?_
  · rintro (e | out) s' ⟨hs', h⟩
    · refine ⟨hs', ?_⟩
      rintro out (⟨⟨⟩⟩ | ⟨⟨⟩⟩) happlied
      exact absurd happlied h
    · refine ⟨hs', ?_⟩
      rintro out' (⟨⟨⟩⟩ | ⟨⟨⟩⟩) -
      exact h
  · rintro ((out | _) | out) s' ⟨hs', h⟩
    · exact Tries.pure ⟨hs', h out (Or.inl rfl)⟩
    · exact Tries.throw ⟨hs', trivial⟩
    · exact Tries.pure ⟨hs', h out (Or.inr rfl)⟩

lemma Sound.markStopped (hs : x.Sound s) {next : DeploymentState}
    (hnext : next ≠ .appliedUnverified) : x.Sound (markStopped next s) := by
  unfold Executor.markStopped
  split_ifs
  · exact hs.setState hnext
  · exact hs

lemma markStopped_triple {P : DeployLog → Prop} {next : DeploymentState}
    (hnext : next ≠ .appliedUnverified) :
    x.Triple P (commit (markStopped next)) fun _ _ => True :=
  .commit fun _ hs _ => ⟨hs.markStopped hnext, trivial⟩

lemma applyOutcome_triple {out : DeployOutcome} :
    x.Triple (fun s => out.result = .applied → x.ReadBack s.events) (applyOutcome out)
      fun _ _ => True := by
  unfold applyOutcome
  split
  · rename_i happlied
    refine .commit fun s hs h => ⟨?_, trivial⟩
    unfold markApplied
    split_ifs
    · refine ⟨eachAfter_concat.2 ⟨hs.fits, h happlied⟩, ?_, ?_⟩
      · simp [DeployLog.note, DeployLog.setState, hs.recorded, DeployEvent.entry]
      · exact fun _ => mem_append_right _ (mem_singleton_self _)
    · exact hs
  · exact markStopped_triple nofun
  · exact markStopped_triple nofun
  · exact mayFail_triple.mono (fun _ h => h) fun _ _ _ => trivial
  · exact mayFail_triple.mono (fun _ h => h) fun _ _ _ => trivial
  · exact .pure fun _ _ => trivial
  · split_ifs
    · exact .pure fun _ _ => trivial
    · exact markStopped_triple nofun

lemma start_triple : x.Triple (fun s => ∀ j, ¬ InRun s.events j) start
    fun _ s => ∀ j, ¬ InRun s.events j := by
  refine .bind mayFail_triple fun _ => .bind .ask fun ready => ?_
  cases ready with
  | true =>
      refine .commit fun s hs h => ?_
      split_ifs
      · exact ⟨hs.setState nofun, h⟩
      · exact ⟨hs, h⟩
  | false =>
      refine .commit fun s hs h => ⟨hs.markStopped nofun, ?_⟩
      unfold markStopped
      split_ifs
      · exact h
      · exact h

lemma startQueued_triple : x.Triple (fun s => ∀ j, ¬ InRun s.events j) startQueued
    fun _ s => ∀ j, ¬ InRun s.events j := by
  refine .bind (Triple.look.mono (fun _ h => h) fun _ _ h => h.1) fun state => ?_
  cases state with
  | queued => exact start_triple
  | _ => exact .pure fun _ h => h

/-- A run starts with nothing sent. -/
theorem deployHandler_triple : x.Triple (fun _ => True) x.deployHandler fun _ _ => True := by
  refine .bind (.note (R := fun s => ∀ j, ¬ InRun s.events j) rfl fun s _ _ => ⟨trivial, ?_⟩)
    fun _ => .bind startQueued_triple fun _ => ?_
  · intro j hj
    rcases inRun_concat.1 hj with hj | hj
    · cases hj
    · exact hj.1 rfl
  refine .bind (Triple.look.mono (fun _ h => h) fun _ _ h => h.1) fun state => ?_
  cases state with
  | applying | outcomeUnknown => exact .bind finished_triple fun _ => applyOutcome_triple
  | _ => exact .pure fun _ _ => trivial

/-- What every program keeps. -/
lemma programs_safe {p : Proc DeployLog Unit} (hp : p ∈ x.programs) (hs : x.Sound s) :
    p.Safe x.Sound s fun _ _ => True := by
  rcases hp with rfl | ⟨next, hnext, rfl⟩
  · exact Proc.safe_bind (Proc.Safe.mono (fun _ _ _ => trivial) (deployHandler_triple s hs trivial))
  · refine Proc.safe_act ?_
    rintro _ s' ⟨⟩
    exact ⟨hs.setState hnext, trivial⟩

lemma Sound.of_isNew (h : isNew s) : x.Sound s := by
  subst h
  exact ⟨fun pre e post hes => by simp at hes, rfl, nofun⟩

end

end Executor

/-! ## A run from start to end -/

namespace Executor

/-- The boundary is taken off a role. -/
def boundaryOff : Op :=
  { op := .deleteRolePermissionsBoundary, roleName := "app" }

/-- A plan that takes the boundary off a role. -/
def detachPlan : Plan where
  controlID := "c-1"
  kind := .removeControl
  delivery := deliveryDirect
  basisReadAt := 0
  bundleHash := ""
  evidenceRev := 0
  resourcePolicyScanRunID := none
  gapRefs := []
  ops := [boundaryOff]
  facts := [factRole "AROA1", factBoundary "arn:old" valueNone]

def detach : Executor where
  plan := detachPlan
  readbackRounds := 3
  maxOpAttempts := 3
  consistencyWindow := 0

/-- A read of the role with this boundary. -/
def detachRead (boundaryARN : String) : LiveRead where
  readAt := 0
  role := some { roleID := "AROA1", arn := "arn:role", name := "app", path := "/",
                 accountID := "111122223333", boundaryARN }
  policies := ∅

section Ends

open Proc (ends_bind_ok)

variable {s : DeployLog}

lemma ends_read (live : LiveRead) : read.run.Ends s (.ok live) (s.note (.read live)) :=
  ⟨false, some live, _, _, rfl, rfl, rfl⟩

lemma ends_ofExcept {α : Type} {r : Except GoErr α} {a : α} (h : r = .ok a) :
    (ofExcept r).run.Ends s (.ok a) s := by
  subst h
  exact ⟨rfl, rfl⟩

lemma ends_require {c : Prop} [Decidable c] {e : RunErr} (h : c) :
    (require c e : Run Unit).run.Ends s (.ok ()) s := by
  rw [require, if_pos h]
  exact ⟨rfl, rfl⟩

variable [Sha256]

lemma classify_detachRead_old : ∃ c, classify detachPlan (detachRead "arn:old") = .ok c ∧
    c.cls = .before ∧ c.nextOp = some 0 :=
  ⟨_, rfl, by decide +kernel, by decide +kernel⟩

lemma classify_detachRead_none : ∃ c, classify detachPlan (detachRead "") = .ok c ∧
    c.cls = .after ∧ c.nextOp = some 1 :=
  ⟨_, rfl, by decide +kernel, by decide +kernel⟩

/-- The request is sent, and its answer recorded. -/
lemma ends_runOp : ∃ entry, (detach.planRun.runOp 0 boundaryOff).run.Ends s (.ok ())
    ((s.note (.dispatched 0)).record entry) :=
  ⟨⟨0, _, some "a-1", _, none⟩, false, false, none, false, none, false, 0, false, none, false,
    _, _, rfl, ⟨.ok, "", detachRead ""⟩, "a-1", .commit, _, _, rfl, rfl, rfl⟩

/-- Two reads of the role without a boundary. -/
lemma ends_readback : (detach.readback 3).run.Ends s (.ok { result := .applied })
    ((s.note (.read (detachRead ""))).note (.read (detachRead ""))) := by
  obtain ⟨c, hc, hafter, -⟩ := classify_detachRead_none
  obtain ⟨hash, hhash⟩ : ∃ hash, stateHash (detachRead "") = .ok hash := ⟨_, rfl⟩
  rw [readback]
  refine ends_bind_ok (a := ()) ⟨false, rfl, rfl⟩ ?_
  refine ends_bind_ok (ends_read _) (ends_bind_ok (ends_ofExcept hc) ?_)
  refine ends_bind_ok (a := ()) ⟨false, rfl, rfl⟩ ?_
  refine ends_bind_ok (ends_read _) (ends_bind_ok (ends_ofExcept hc) ?_)
  simp only [hafter, reduceCtorEq, if_false, ne_eq, not_true_eq_false, or_self]
  refine ends_bind_ok (ends_ofExcept hhash) (ends_bind_ok (ends_ofExcept hhash) ?_)
  simp only [not_true_eq_false, if_false]
  exact ⟨false, rfl, rfl⟩

lemma ends_nextOp {live : LiveRead} {c : Classification} {k : ℕ}
    (hc : classify detachPlan live = .ok c) (hcls : c.cls ≠ .conflict) (hnext : c.nextOp = some k) :
    detach.nextOp.run.Ends s (.ok k) (s.note (.read live)) := by
  refine ends_bind_ok (ends_read live) (ends_bind_ok (ends_ofExcept hc) ?_)
  refine ends_bind_ok (ends_require hcls) (ends_ofExcept ?_)
  rw [hnext]
  rfl

lemma ends_execute_one : (detach.planRun.execute 1 {0}).run.Ends s (.ok { result := .applied })
    (((s.note (.read (detachRead ""))).note (.read (detachRead ""))).note
      (.read (detachRead ""))) := by
  obtain ⟨c, hc, hafter, hnext⟩ := classify_detachRead_none
  rw [PlanRun.execute]
  refine ends_bind_ok (ends_nextOp hc (by simp [hafter]) hnext) ?_
  refine ends_bind_ok (a := ()) ⟨rfl, rfl⟩ ?_
  exact ends_bind_ok (a := {0}) ⟨rfl, rfl⟩ ends_readback

lemma ends_execute_zero : ∃ entry, (detach.planRun.execute 0 ∅).run.Ends s (.ok { result := .applied })
    ((((((s.note (.read (detachRead "arn:old"))).note (.dispatched 0)).record entry).note
      (.read (detachRead ""))).note (.read (detachRead ""))).note (.read (detachRead ""))) := by
  obtain ⟨c, hc, hbefore, hnext⟩ := classify_detachRead_old
  obtain ⟨entry, hop⟩ := ends_runOp
  refine ⟨entry, ?_⟩
  rw [PlanRun.execute]
  refine ends_bind_ok (ends_nextOp hc (by simp [hbefore]) hnext) ?_
  refine ends_bind_ok (a := ()) ⟨rfl, rfl⟩ ?_
  refine ends_bind_ok (a := ∅) ⟨rfl, rfl⟩ ?_
  exact ends_bind_ok hop ends_execute_one

lemma ends_finished {s' : DeployLog} {out : DeployOutcome}
    (h : (detach.planRun.execute 0 ∅).run.Ends ⟨.applying, [], [.started]⟩ (.ok out) s') :
    detach.finished.run.Ends ⟨.applying, [], [.started]⟩ (.ok out) s' := by
  have hplan : detach.planRun.executePlan.run.Ends ⟨.applying, [], [.started]⟩ (.ok out) s' := by
    refine ends_bind_ok (a := ()) ⟨false, .continue, rfl, rfl⟩ ?_
    refine ends_bind_ok (a := ()) ⟨false, none, rfl, rfl⟩ ?_
    refine ends_bind_ok (a := ()) ⟨_, _, rfl, rfl, rfl⟩ ?_
    refine ends_bind_ok (a := ()) ⟨false, none, rfl, rfl⟩ ?_
    exact ends_bind_ok (a := ∅) ⟨false, _, _, rfl, rfl, rfl⟩ h
  refine ends_bind_ok (a := .ok out) (Proc.ends_bind hplan ⟨rfl, rfl⟩) ?_
  exact ⟨rfl, rfl⟩

lemma ends_deployJob {s' : DeployLog} (h : detach.finished.run.Ends ⟨.applying, [], [.started]⟩
    (.ok { result := .applied }) s') :
    detach.deployJob.Ends ⟨.queued, [], []⟩ () (markApplied s') := by
  refine Proc.ends_bind (a := .ok ()) ?_ ⟨rfl, rfl⟩
  refine ends_bind_ok (a := ()) ⟨_, _, rfl, rfl, rfl⟩ ?_
  refine ends_bind_ok (a := ()) ⟨_, _, rfl, false, true, .commit, _, _, rfl, rfl, rfl⟩ ?_
  refine ends_bind_ok (a := .applying) ⟨_, _, rfl, rfl, rfl⟩ ?_
  exact ends_bind_ok h ⟨.commit, _, _, rfl, rfl, rfl⟩

/-- From a new deployment to an applied one. -/
lemma exists_run_applied : ∃ s pre, Runs detach.programs isNew s ∧ .dispatched 0 ∈ pre ∧
    s.events = pre ++ [.applied] := by
  obtain ⟨entry, hexecute⟩ := ends_execute_zero
  have hjob := ends_deployJob (ends_finished hexecute)
  refine ⟨_, _, .run (.init rfl) (Or.inl rfl) hjob.passes, ?_, rfl⟩
  simp [DeployLog.note, DeployLog.record, DeployLog.setState]

end Ends

end Executor

/-- In every sequence of runs, with crashes anywhere and whatever the reads show: `completed_ops`
has what was recorded; no operation that a read can show is sent once it is recorded as done; a run
sends its operations in order; and the deployment is applied only after two reads in a row that
classify as after and have one artifact state. -/
theorem executor_runs [Sha256] (x : Executor) {s : DeployLog}
    (h : Runs x.programs Executor.isNew s) :
    s.completedOps = s.events.filterMap DeployEvent.entry ∧
    (∀ pre (k : ℕ) post o (entry : CompletedOp), s.events = pre ++ .dispatched k :: post →
      x.plan.ops[k]? = some o → opObservable o → .recorded entry ∈ pre → opDone entry.outcome →
      entry.opSeq ≠ k) ∧
    (∀ pre j mid k post, s.events = pre ++ .dispatched j :: (mid ++ .dispatched k :: post) →
      .started ∉ mid → j ≤ k) ∧
    (s.state = .appliedUnverified → .applied ∈ s.events) ∧
    ∀ pre post, s.events = pre ++ .applied :: post → x.ReadBack pre := by
  have hsound : x.Sound s :=
    h.invariant (fun p hp s hs => Executor.programs_safe hp hs) fun s hs => .of_isNew hs
  refine ⟨hsound.recorded, ?_, ?_, hsound.applied, fun pre post hes => hsound.fits _ _ _ hes⟩
  · intro pre k post o entry hes hop hobs hentry hdone
    exact (hsound.fits _ _ _ hes).1 o hop hobs entry hentry hdone
  · intro pre j mid k post hes hmid
    have hfits := hsound.fits (pre ++ .dispatched j :: mid) (.dispatched k) post (by simp [hes])
    exact hfits.2 j ⟨pre, mid, rfl, hmid⟩

/-- The boundary of a role is taken off and the deployment becomes applied. -/
theorem executor_runs_detach :
    let _ : Sha256 := ⟨fun _ => []⟩
    ∃ s pre, Runs Executor.detach.programs Executor.isNew s ∧ .dispatched 0 ∈ pre ∧
      s.events = pre ++ [.applied] ∧ Executor.detach.ReadBack pre := by
  intro sha
  obtain ⟨s, pre, hruns, hsent, hes⟩ := Executor.exists_run_applied
  exact ⟨s, pre, hruns, hsent, hes, (executor_runs _ hruns).2.2.2.2 pre [] hes⟩

end AuthSec

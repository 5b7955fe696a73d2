import AuthSec.Attempts.Rules

/-!
# Every program keeps the invariant

Most programs of the log are passive.  Those that are not are the worker's: it claims a job and so
owns its lease, reads under the lease what its deployment has done, gets the right to call with each
dispatch and gives it to the thread that makes the call, and records what was answered.

* `executeChecked_serves`: the lifecycle of one attempt;
* `planRun_keeps`: the steps of a run over the operations of a plan;
* `thread_keeps`: every program, from nothing.
-/

namespace AuthSec

open List

/-! ## Passive programs -/

section Passive

variable {l : AttemptLog} {f : Fence} {ws dep reason : String} {att : Attempt}

lemma markUnknown_passive : Passive (markUnknown l f att reason) :=
  .bind .outside fun _ => .inTx fun _ _ _ => markUnknownTx_quiet

lemma recover_passive : Passive (recover l f ws dep) :=
  .bind .outside fun _ => .inTx fun _ _ _ => recoverTx_quiet

lemma resolveUnknown_passive {resolvedAs : String} : Passive (resolveUnknown f att resolvedAs) :=
  .bind .require fun _ => .bind .outside fun _ => .inTx fun _ _ _ => resolveUnknownTx_quiet

lemma abandonOwnReason_passive : Passive (abandonOwnReason f att reason) :=
  .bind .outside fun _ => .inTx fun _ _ _ => abandonOwnTx_quiet

lemma mayStop_passive : Passive mayStop :=
  .bind .outside fun _ => .require

lemma mayMove_passive : Passive (mayMove f ws dep) := by
  refine .bind .outside fun next => ?_
  cases next with
  | none => exact .pure ()
  | some next => exact .inTx fun _ _ _ => moveTx_quiet

lemma mayEnqueue_passive {kind : String} : Passive (mayEnqueue f ws dep kind) := by
  refine .bind .outside fun job => ?_
  cases job with
  | none => exact .pure ()
  | some job => exact .inTx fun _ _ _ => enqueueJobTx_quiet

lemma applyOutcome_passive : Passive (applyOutcome f ws dep) :=
  .bind mayMove_passive fun _ => .bind .outside fun _ => mayEnqueue_passive

lemma resolveUnknownHandler_passive : Passive (resolveUnknownHandler f ws dep) := by
  refine .bind .query fun att => ?_
  cases att with
  | none => exact .bind mayMove_passive fun _ => mayEnqueue_passive
  | some att =>
      refine .bind .outside fun verdict => ?_
      cases verdict with
      | none => exact mayMove_passive
      | some verdict => exact .bind resolveUnknown_passive fun _ => mayEnqueue_passive

lemma renew_passive {lease : ℤ} : Passive (renew f lease) :=
  .bind .outside fun _ => .transaction fun _ _ _ h =>
    fencedJobTx_quiet h (fun _ => ⟨rfl, rfl, rfl, rfl, rfl, le_refl _⟩) fun _ _ _ ho => ho

lemma endJob_passive {how : JobEnd} : Passive (endJob f how) :=
  .bind .outside fun _ => .transaction fun _ _ _ h =>
    fencedJobTx_quiet h how.set_keeps fun f' j _ ho =>
      absurd ho (by simp [how.not_owns_set f' j])

lemma failExhausted_passive : Passive failExhausted := by
  refine .bind .outside fun now => .transaction fun db db' _ h => ?_
  obtain ⟨⟨n, db₁⟩, hupd, h⟩ := bind_eq_ok.1 h
  obtain ⟨-, rfl⟩ := ok_pair_inj h
  exact .updateJobs hupd (fun _ => ⟨rfl, rfl, rfl, rfl, rfl, le_refl _⟩)
    fun f j _ ho => absurd ho (by simp [Fence.owns, released])

lemma settleStuck_passive : Passive (settleStuck l ws dep) :=
  .bind .outside fun _ => .bind .outside fun _ => .bind .outside fun _ => .bind .outside fun _ =>
    .bind .outside fun _ => .transaction fun _ _ _ => settleStuckTx_quiet

lemma resolveApplying_passive : Passive (resolveApplying l ws dep reason) :=
  .bind .outside fun _ => .bind .outside fun _ => .bind .outside fun _ =>
    .transaction fun _ _ _ => resolveApplyingTx_quiet

end Passive

/-! ## One attempt -/

/-- The attempts speak of the same request. -/
structure Attempt.Same (r r' : Attempt) : Prop where
  id : r'.id = r.id
  workspaceID : r'.workspaceID = r.workspaceID
  request : r'.toPreparedRequest = r.toPreparedRequest

/-- What the thread owns shows what the deployment has done, up to the operations in `completed`. -/
def Sees (f : Fence) (ws dep : String) (completed : Finset ℤ) (T : Multiset Token) : Prop :=
  ∃ seen ⊆ completed, ∃ U, T = .view f ws dep seen ::ₘ U

section Attempt

variable {l : AttemptLog} {f : Fence} {ws dep : String} {completed : Finset ℤ}
  {T : Multiset Token}

lemma Sees.mono {completed' : Finset ℤ} (h : Sees f ws dep completed T)
    (hsub : completed ⊆ completed') : Sees f ws dep completed' T := by
  obtain ⟨seen, hseen, U, rfl⟩ := h
  exact ⟨seen, hseen.trans hsub, U, rfl⟩

lemma Sees.cons {t : Token} (h : Sees f ws dep completed T) : Sees f ws dep completed (t ::ₘ T) := by
  obtain ⟨seen, hseen, U, rfl⟩ := h
  exact ⟨seen, hseen, t ::ₘ U, Multiset.cons_swap _ _ _⟩

variable {db db' : Database} {att att' att₀ : Attempt} {req : AttemptRequest} {now : Time}
  {version : ℤ} {ans : AttemptAnswer}

lemma insertAttempt_eq_ok {r : Attempt} (h : db.insertAttempt r = .ok db') :
    db' = { db with attempts := db.attempts ++ [r] } := by
  unfold Database.insertAttempt at h
  obtain ⟨-, -, h⟩ := bind_eq_ok.1 h
  obtain ⟨rows, hrows, h⟩ := bind_eq_ok.1 h
  rw [mapError_eq_ok] at hrows
  obtain ⟨-, -, -, rfl⟩ := Schema.insert_eq_ok.1 hrows
  exact (Except.ok.inj h).symm

lemma prepareTx_mem {id : String} (h : prepareTx req version id now db = .ok (att, db')) :
    att ∈ db'.attempts ∧ att.workspaceID = req.workspaceID ∧
      att.deploymentID = req.deploymentID ∧ att.opSeq = req.opSeq := by
  obtain ⟨db₁, hins, h⟩ := bind_eq_ok.1 h
  obtain ⟨⟨n, db₂⟩, hupd, h⟩ := bind_eq_ok.1 h
  obtain ⟨rfl, rfl⟩ := ok_pair_inj h
  rw [mapError_eq_ok] at hins
  obtain ⟨rows, -, rfl⟩ := Database.updateDeployments_eq_ok hupd
  rw [insertAttempt_eq_ok hins]
  exact ⟨mem_append_right _ (mem_singleton_self _), rfl, rfl, rfl⟩

/-- The row that was prepared is remembered. -/
lemma prepare_serves :
    Serves (prepare f req) T fun att T' => T' = .row att ::ₘ T ∧
      att.workspaceID = req.workspaceID ∧ att.deploymentID = req.deploymentID ∧
      att.opSeq = req.opSeq := by
  refine Passive.require.before fun _ => ?_
  refine Passive.outside.before fun id => ?_
  refine Passive.outside.before fun now => ?_
  refine serves_transaction fun db db' sent F att hI hbody => ?_
  obtain ⟨-, hprep⟩ := inTx_eq_ok hbody
  obtain ⟨hmem, hfields⟩ := prepareTx_mem hprep
  have hq := prepareTx_quiet hprep
  refine ⟨.row att ::ₘ T, ?_, hq.attempts, rfl, hfields⟩
  rw [Multiset.cons_add]
  exact (hI.quiet hq).remember hmem

/-- An update of one row finds the row it updates. -/
lemma exists_updated {which : Attempt → Bool} {set : Attempt → Attempt} {n : ℕ}
    (h : db.updateAttempts which set = .ok (n, db')) (hone : n = 1) :
    ∃ r ∈ db.attempts, which r = true ∧ set r ∈ db'.attempts := by
  obtain ⟨rows, hrows, rfl⟩ := Database.updateAttempts_eq_ok h
  obtain ⟨-, -, -, rfl, rfl⟩ := Schema.update_eq_ok.1 hrows
  obtain ⟨r, hr, hw⟩ := countP_pos_iff.1 (hone ▸ Nat.one_pos)
  exact ⟨r, hr, hw, Schema.mem_updated.2 ⟨r, hr, if_pos hw⟩⟩

lemma ownRow_eq_true {r : Attempt} {status : AttemptStatus} (h : ownRow att status version r = true) :
    r.id = att.id ∧ r.status = status ∧ r.leaseVersion = version := by
  simp only [ownRow, Bool.and_eq_true, decide_eq_true_eq] at h
  exact ⟨h.1.1.2, h.1.2, h.2⟩

lemma dispatchTx_eq_ok (h : dispatchTx l f att now db = .ok (att', db')) :
    att.Same att' ∧ (∃ r ∈ db.attempts, r.id = att.id ∧ r.status = .prepared) ∧
      db'.HasDispatched att.id f.version := by
  obtain ⟨-, -, h⟩ := bind_eq_ok.1 h
  obtain ⟨⟨n, db₁⟩, hupd, h⟩ := bind_eq_ok.1 h
  obtain ⟨_, hn, h⟩ := bind_eq_ok.1 h
  obtain ⟨rfl, rfl⟩ := ok_pair_inj h
  obtain ⟨r, hr, hown, hr'⟩ := exists_updated hupd (require_eq_ok.1 hn)
  obtain ⟨hid, hprep, hver⟩ := ownRow_eq_true hown
  exact ⟨⟨rfl, rfl, rfl⟩, ⟨r, hr, hid, hprep⟩, _, hr', hid, hver, .inl rfl⟩

/-- The dispatch gives the right to call. -/
lemma dispatch_serves :
    Serves (dispatch l f att) T fun att' T' => T' = .call att'.id f.version ::ₘ T ∧
      att.Same att' := by
  refine Passive.outside.before fun now => ?_
  refine serves_transaction fun db db' sent F att' hI hbody => ?_
  obtain ⟨-, hdis⟩ := inTx_eq_ok hbody
  have hq := dispatchTx_quiet hdis
  obtain ⟨hsame, ⟨r, hr, hid, hprep⟩, hd⟩ := dispatchTx_eq_ok hdis
  refine ⟨.call att'.id f.version ::ₘ T, ?_, hq.attempts, rfl, hsame⟩
  rw [Multiset.cons_add, hsame.id, ← hid]
  rw [← hid] at hd
  exact hI.dispatched hq hr hprep hd

/-- The row of an attempt that is answered was dispatched, and is completed then. -/
lemma completeTx_eq_ok (h : completeTx version att ans now db = .ok (att', db')) :
    ∃ db₁ db₂, (∃ r ∈ db.attempts, r.id = att.id ∧ r.status = .dispatched) ∧
      (∃ r ∈ db₁.attempts, r.id = att.id ∧ r.status = .completed) ∧ Quiet db db₁ ∧
      db₁.deployments = db.deployments ∧ db₁.jobs = db.jobs ∧ Quiet db₂ db' ∧
      (db₂ = db₁ ∨ opDone ans.outcome = true ∧ db₁.appendOp att.workspaceID att.deploymentID
        ⟨att.opSeq, att.operation, some att.id, ans.outcome, none⟩ = .ok db₂) := by
  obtain ⟨⟨n, db₁⟩, hupd, h⟩ := bind_eq_ok.1 h
  obtain ⟨_, hn, h⟩ := bind_eq_ok.1 h
  have hq := Quiet.updateAttempts hupd fun _ => ⟨rfl, rfl⟩
  obtain ⟨r, hr, hown, hr'⟩ := exists_updated hupd (require_eq_ok.1 hn)
  obtain ⟨hid, hdis, -⟩ := ownRow_eq_true hown
  obtain ⟨rows, -, rfl⟩ := Database.updateAttempts_eq_ok hupd
  dsimp only at h
  split_ifs at h with hdone
  · obtain ⟨db₂, happ, h⟩ := bind_eq_ok.1 h
    obtain ⟨-, rfl⟩ := ok_pair_inj h
    exact ⟨_, db₂, ⟨r, hr, hid, hdis⟩, ⟨_, hr', hid, rfl⟩, hq, rfl, rfl, .event _ _ _,
      .inr ⟨hdone, happ⟩⟩
  · obtain ⟨-, rfl⟩ := ok_pair_inj h
    exact ⟨_, _, ⟨r, hr, hid, hdis⟩, ⟨_, hr', hid, rfl⟩, hq, rfl, rfl, .event _ _ _, .inl rfl⟩

/-- The answer of an attempt is recorded once: its row is dispatched only until then. -/
lemma record_answer {sent : List Sent} (hI : Holds db sent (.view f ws dep completed ::ₘ T))
    (ho : db.Owned f) (hrow : .row att₀ ∈ T) (hsame : att₀.Same att) (hws : att.workspaceID = ws)
    (hdep : att.deploymentID = dep) (h : completeTx f.version att ans now db = .ok (att', db')) :
    ∃ seen ⊆ insert att.opSeq completed, Holds db' sent (.view f ws dep seen ::ₘ T) := by
  obtain ⟨db₁, db₂, ⟨r, hr, hid, hdis⟩, ⟨r₁, hr₁, hid₁, hcomp⟩, hq, hdeps, hjobs, hq', happ⟩ :=
    completeTx_eq_ok h
  rcases happ with rfl | ⟨hdone, happ⟩
  · exact ⟨completed, Finset.subset_insert _ _, (hI.quiet hq).quiet hq'⟩
  · have hI₁ := hI.quiet hq
    rw [hws, hdep] at happ
    refine ⟨_, subset_refl _, Holds.quiet (hI₁.record ?_ ?_ happ) hq'⟩
    · obtain ⟨j, hj, hown⟩ := ho
      exact ⟨j, hjobs ▸ hj, hown⟩
    · rintro a ⟨⟩ d hd hdws hdid
      refine ⟨⟨hdone, r₁, hr₁, hid₁, ?_⟩, fun op' hop' ha => ?_⟩
      · obtain ⟨r₂, hr₂, hbec⟩ := hI₁.means _ (Multiset.mem_cons_of_mem hrow)
        obtain rfl := Holds.row_unique hI₁.valid hr₁ hr₂ (hid₁.trans (hsame.id.trans hbec.id.symm))
        have hreq := hbec.request.trans hsame.request.symm
        refine ⟨?_, ?_, .inl hcomp⟩
        · rw [hreq, hdep, hdid]
        · rw [hreq]
      · obtain ⟨-, r₂, hr₂, hid₂, -, -, hset⟩ := (hI.recorded d (hdeps ▸ hd)).backed op' hop' _ ha
        obtain rfl := Holds.row_unique hI.valid hr hr₂ (hid.trans hid₂.symm)
        rw [Attempt.Settled, hdis] at hset
        simp at hset

lemma complete_serves (hT : Sees f ws dep completed T) (hrow : .row att₀ ∈ T)
    (hsame : att₀.Same att) (hws : att.workspaceID = ws) (hdep : att.deploymentID = dep) :
    Serves (complete f att ans) T fun _ T' => Sees f ws dep (insert att.opSeq completed) T' := by
  refine Passive.require.before fun _ => ?_
  refine Passive.outside.before fun now => ?_
  refine serves_transaction fun db db' sent F att' hI hbody => ?_
  obtain ⟨ho, hcomp⟩ := inTx_eq_ok hbody
  obtain ⟨seen, hseen, U, rfl⟩ := hT
  have hrowU : Token.row att₀ ∈ U + F := by
    rcases Multiset.mem_cons.1 hrow with heq | hmem
    · exact absurd heq (by simp)
    · exact Multiset.mem_add.2 (.inl hmem)
  rw [Multiset.cons_add] at hI
  obtain ⟨seen', hseen', hI'⟩ := record_answer hI ho hrowU hsame hws hdep hcomp
  refine ⟨.view f ws dep seen' ::ₘ U, ?_, ?_, seen', ?_, U, rfl⟩
  · rwa [Multiset.cons_add]
  · obtain ⟨db₁, db₂, -, -, hq, -, -, hq', happ⟩ := completeTx_eq_ok hcomp
    refine hq.attempts.trans (fun _ _ _ => Attempt.Becomes.trans) ?_
    rcases happ with rfl | ⟨-, happ⟩
    · exact hq'.attempts
    · have hsame := (Holds.appendOp_eq_ok (hq.valid hI.valid) happ).2.1
      rw [hsame] at hq'
      exact hq'.attempts
  · exact hseen'.trans (Finset.insert_subset_insert _ hseen)

/-- The thread that makes the call uses up the right to make it. -/
lemma makeCall_keeps {ch : ℕ} :
    (makeCall f att ch).Keeps Inv Advance {.call att.id f.version} fun _ _ => True := by
  refine Proc.keeps_bind (Proc.keeps_act ?_)
  rintro w F u w' hI hact
  obtain ⟨-, rfl⟩ := Prod.mk.inj (Option.some.inj hact)
  obtain ⟨hfirst, hdis⟩ := Holds.call_allowed hI
  refine ⟨0, ?_, ⟨.refl Attempt.Becomes.refl, .inr ⟨⟨att.id, f.version⟩, rfl, rfl, hfirst, hdis⟩⟩, ?_⟩
  · rw [zero_add]
    exact Holds.send hI
  · refine Proc.keeps_bind (Proc.keeps_anything fun rep => ?_)
    refine Proc.Keeps.mono (fun _ _ _ => trivial) (keeps_silent ?_)
    rintro w _ w' hact
    obtain ⟨-, rfl⟩ := Prod.mk.inj (Option.some.inj hact)
    exact ⟨rfl, rfl⟩

lemma makeChan_keeps : makeChan.Keeps Inv Advance T fun _ T' => T' = T := by
  refine keeps_silent ?_
  rintro w _ w' hact
  obtain ⟨-, rfl⟩ := Prod.mk.inj (Option.some.inj hact)
  exact ⟨rfl, rfl⟩

lemma awaitReply_keeps {ch : ℕ} : (awaitReply ch).Keeps Inv Advance T fun _ T' => T' = T := by
  refine Proc.keeps_bind (Proc.keeps_anything fun ended => ?_)
  cases ended with
  | some ended => exact Proc.keeps_pure rfl
  | none =>
      refine keeps_silent ?_
      rintro w _ w' hact
      obtain ⟨rep, -, hrep⟩ := Option.map_eq_some_iff.1 hact
      obtain ⟨-, rfl⟩ := Prod.mk.inj hrep
      exact ⟨rfl, rfl⟩

lemma recordUnknown_passive {callErr : String} : Passive (recordUnknown l f att callErr) := by
  refine fun T => Attempting.bind (serves_run (markUnknown_passive T)) ?_
  rintro (e | ⟨att, settle⟩) T' hT'
  · exact Attempting.throw
  · exact Attempting.pure (hT' _ rfl)

lemma callAndRecord_serves (hT : Sees f ws dep completed T) (hrow : .row att₀ ∈ T)
    (hsame : att₀.Same att) (hws : att.workspaceID = ws) (hdep : att.deploymentID = dep) :
    Serves (callAndRecord l f att) (.call att.id f.version ::ₘ T) fun _ T' =>
      Sees f ws dep (insert att.opSeq completed) T' := by
  refine Attempting.bind (Attempting.lift makeChan_keeps) ?_
  rintro ch _ rfl
  refine Attempting.bind (Attempting.lift (Proc.keeps_spawn makeCall_keeps)) ?_
  rintro _ T rfl
  refine Attempting.bind (Attempting.lift awaitReply_keeps) ?_
  rintro (callErr | ans) T rfl
  · refine (recordUnknown_passive T).mono ?_
    rintro _ T rfl
    exact hT.mono (Finset.subset_insert _ _)
  · refine Attempting.bind (complete_serves hT hrow hsame hws hdep) ?_
    exact fun _ _ hT' => Attempting.pure hT'

lemma refuseDispatch_serves {refusal : String} {Q : AttemptResult → Multiset Token → Prop} :
    Serves (refuseDispatch f att refusal) T Q := by
  refine Attempting.bind (serves_run (abandonOwnReason_passive T)) ?_
  rintro (e | att) T' -
  · exact Attempting.throw
  · exact Attempting.throw

lemma dispatchFailed_serves {e : AttemptErr} {Q : AttemptResult → Multiset Token → Prop} :
    Serves (dispatchFailed f att e) T Q := by
  unfold dispatchFailed
  split
  · refine Attempting.bind (serves_run (abandonOwnReason_passive T)) ?_
    rintro (e | att) T' -
    · exact Attempting.throw
    · exact Attempting.throw
  · exact Attempting.throw

/-- The lifecycle of an attempt, by the owner of a view of its deployment. -/
theorem executeChecked_serves (hT : Sees f ws dep completed T) (hws : req.workspaceID = ws)
    (hdep : req.deploymentID = dep) :
    Serves (executeChecked l f req) T fun _ T' =>
      Sees f ws dep (insert req.opSeq completed) T' := by
  refine Attempting.bind prepare_serves ?_
  rintro att _ ⟨rfl, hattws, hattdep, hattop⟩
  refine Attempting.bind (Passive.outside _) ?_
  rintro (_ | refusal) _ rfl
  · refine Attempting.bind (serves_run dispatch_serves) ?_
    rintro (e | att') T' hT'
    · exact dispatchFailed_serves
    · obtain ⟨rfl, hsame⟩ := hT' att' rfl
      have hop : att'.opSeq = req.opSeq := by rw [hsame.request, hattop]
      rw [← hop]
      refine callAndRecord_serves hT.cons (Multiset.mem_cons_self _ _) hsame ?_ ?_
      · rw [hsame.workspaceID, hattws, hws]
      · rw [hsame.request, hattdep, hdep]
  · exact refuseDispatch_serves

end Attempt

/-! ## A run over a plan -/

section Run

variable {x : ExecRun} {completed : Finset ℤ} {T : Multiset Token}

/-- The thread sees what the deployment of the run has done. -/
def ExecRun.Sees (x : ExecRun) (completed : Finset ℤ) (T : Multiset Token) : Prop :=
  AuthSec.Sees x.fence x.workspaceID x.deploymentID completed T

lemma foldl_best_mem {α : Type} (keep : Option α → α → Prop) [∀ o a, Decidable (keep o a)]
    (as : List α) (best : Option α) (a : α)
    (h : as.foldl (fun best r => if keep best r then best else some r) best = some a) :
    best = some a ∨ a ∈ as := by
  induction as generalizing best with
  | nil => exact .inl h
  | cons r as ih =>
      rcases ih _ h with hbest | hmem
      · dsimp only at hbest
        split_ifs at hbest with hkeep
        · exact .inl hbest
        · exact .inr (mem_cons.2 (.inl (Option.some.inj hbest).symm))
      · exact .inr (mem_cons_of_mem _ hmem)

lemma appliedAttempt_eq_some {ws dep : String} {opSeq : ℤ} {db : Database} {att : Attempt}
    (h : appliedAttempt ws dep opSeq db = some att) :
    att ∈ db.attempts ∧ att.deploymentID = dep ∧ att.opSeq = opSeq ∧ att.Settled := by
  rcases foldl_best_mem _ _ _ _ h with hnone | hmem
  · exact absurd hnone (by simp)
  · obtain ⟨hmem, hw⟩ := mem_filter.1 hmem
    simp only [Bool.and_eq_true, decide_eq_true_eq] at hw
    exact ⟨hmem, hw.1.1.1.2, hw.1.1.2, .inr ⟨hw.1.2, hw.2⟩⟩

/-- An entry is added for no attempt, or for one that a settled row backs and that is not among the
operations seen. -/
lemma appendCompleted_serves {op : CompletedOp} (hT : x.Sees completed T)
    (hatt : ∀ a, op.attemptID = some a → opDone op.outcome = true ∧ op.opSeq ∉ completed ∧
      ∃ r, .row r ∈ T ∧ r.id = a ∧ r.deploymentID = x.deploymentID ∧ r.opSeq = op.opSeq ∧
        r.Settled) :
    Serves (appendCompleted x op) T fun _ T' => x.Sees (insert op.opSeq completed) T' := by
  refine serves_transaction fun db db' sent F u hI hbody => ?_
  obtain ⟨ho, hbody⟩ := inTx_eq_ok hbody
  obtain ⟨db₁, happ, hret⟩ := bind_eq_ok.1 hbody
  obtain ⟨-, rfl⟩ := ok_pair_inj hret
  obtain ⟨seen, hseen, U, rfl⟩ := hT
  rw [Multiset.cons_add] at hI
  refine ⟨.view x.fence x.workspaceID x.deploymentID (insert op.opSeq seen) ::ₘ U, ?_, ?_,
    insert op.opSeq seen, Finset.insert_subset_insert _ hseen, U, rfl⟩
  · rw [Multiset.cons_add]
    refine hI.record ho (fun a ha d hd hws hid => ?_) happ
    obtain ⟨hdone, hnot, r, hr, hra, hrdep, hrop, hset⟩ := hatt a ha
    have hrT : Token.row r ∈ .view x.fence x.workspaceID x.deploymentID seen ::ₘ (U + F) := by
      rw [← Multiset.cons_add]
      exact Multiset.mem_add.2 (.inl hr)
    obtain ⟨r', hr', hbec⟩ := hI.means _ hrT
    refine ⟨⟨hdone, r', hr', hbec.id.trans hra, ?_, hbec.opSeq.trans hrop, hbec.settled hset⟩,
      fun op' hop' ha' => ?_⟩
    · rw [hbec.deploymentID, hrdep, hid]
    -- an entry for the attempt would be one for its operation, which the view does not show
    · obtain ⟨hdone', r₂, hr₂, hid₂, -, hop₂, -⟩ := (hI.recorded d hd).backed op' hop' a ha'
      obtain rfl := Holds.row_unique hI.valid hr' hr₂ ((hbec.id.trans hra).trans hid₂.symm)
      have hmem := (hI.means _ (Multiset.mem_cons_self _ _)).2 ho d hd hws hid op' hop' hdone'
      rw [← hop₂, hbec.opSeq, hrop] at hmem
      exact absurd (hseen hmem) hnot
  · rw [(Holds.appendOp_eq_ok hI.valid happ).2.1]
    exact .refl Attempt.Becomes.refl

lemma recogniseOp_serves {op : Op} {j : ℕ} (hj : (j : ℤ) ∉ completed) (hT : x.Sees completed T) :
    Serves (x.planRun.recogniseOp op j) T fun _ => x.Sees (insert (j : ℤ) completed) := by
  refine Attempting.bind (Q := fun a T' => x.Sees completed T' ∧ ∀ id, a = some id → ∃ r,
    .row r ∈ T' ∧ r.id = id ∧ r.deploymentID = x.deploymentID ∧ r.opSeq = (j : ℤ) ∧ r.Settled) ?_ ?_
  · refine Attempting.bind (serves_query fun db sent F hI => ?_) fun _ _ hQ => Attempting.pure hQ
    cases hatt : appliedAttempt x.workspaceID x.deploymentID j db with
    | none => exact ⟨T, hI, hT, nofun⟩
    | some att =>
        obtain ⟨hmem, hfields⟩ := appliedAttempt_eq_some hatt
        refine ⟨.row att ::ₘ T, ?_, hT.cons, ?_⟩
        · rw [Multiset.cons_add]
          exact hI.remember hmem
        · rintro _ ⟨⟩
          exact ⟨att, Multiset.mem_cons_self _ _, rfl, hfields⟩
  · rintro a T ⟨hT, hatt⟩
    exact appendCompleted_serves hT fun id hid => ⟨rfl, hj, hatt id hid⟩

lemma attemptOp_serves {k : ℕ} {op : Op} (hT : x.Sees completed T) :
    Serves (attemptOp x k op) T fun _ => x.Sees (insert (k : ℤ) completed) := by
  refine mayStop_passive.before fun _ => Passive.outside.before fun hashes => ?_
  refine Attempting.bind (executeChecked_serves hT rfl rfl) fun res T' hT' => ?_
  exact serves_require fun _ => hT'

lemma readOutside_passive {β : Type} : Passive (readOutside β) :=
  .bind mayStop_passive fun _ => .outside

/-- A run sends nothing it sees done, and records all it does. -/
theorem planRun_keeps (x : ExecRun) :
    x.planRun.Keeps (Attempting.logic Inv Advance AttemptErr) fun _ => x.Sees where
  mono _ hD hT := hT.mono hD
  nextOp hT := readOutside_passive.keeps hT
  notVisible _ := Attempting.throw
  recogniseOp hj hT := recogniseOp_serves hj hT
  recordNotNeeded hT := appendCompleted_serves hT nofun
  markIntended hT := mayStop_passive.keeps hT
  enforcement hT := mayStop_passive.keeps hT
  selectVersions hT := readOutside_passive.keeps hT
  archive hT := mayStop_passive.keeps hT
  request hT := mayStop_passive.keeps hT
  attempt _ _ hT := attemptOp_serves hT

/-- The lease is traded for a view at the read of what the deployment has done. -/
lemma executePlan_serves :
    Serves x.planRun.executePlan {.lease x.fence govJobDeploy x.workspaceID (some x.deploymentID)}
      fun _ _ => True := by
  have hrecover : Passive (recoverRun x) := .bind recover_passive fun _ => .require
  have happlying : Passive (checkApplying x) := .bind .query fun _ => .require
  refine hrecover.before fun _ => mayStop_passive.before fun _ => ?_
  refine happlying.before fun _ => mayStop_passive.before fun _ => ?_
  refine Attempting.bind (Q := x.Sees) (serves_query fun db sent F hI => ?_) fun completed T' hT' => ?_
  · exact ⟨_, Holds.look hI, _, subset_refl _, 0, rfl⟩
  · exact (planRun_keeps x).execute (fun _ => mayStop_passive.keeps trivial) hT'

end Run

/-! ## The worker -/

section Worker

variable {l : AttemptLog} {f : Fence} {ws dep : String}

lemma deployHandler_serves :
    Serves (deployHandler l f ws dep) {.lease f govJobDeploy ws (some dep)} fun _ _ => True := by
  refine mayMove_passive.before fun _ => ?_
  refine Passive.outside.before fun plan => ?_
  refine Passive.after (executePlan_serves (x := ⟨l, f, ws, dep, plan⟩)) ?_
  rintro (e | ⟨⟨⟩⟩)
  · dsimp only
    split_ifs
    · exact applyOutcome_passive
    · exact .throw _
  · exact applyOutcome_passive

lemma handle_serves {job : Job} :
    Serves (handle l f job) {.lease f job.kind job.workspaceID job.subjectID} fun _ _ => True := by
  unfold handle
  cases hsub : job.subjectID with
  | none => exact Attempting.throw
  | some dep =>
      dsimp only
      split_ifs with hdeploy hresolve
      · rw [hdeploy]
        exact deployHandler_serves
      · exact (resolveUnknownHandler_passive _).mono fun _ _ _ => trivial
      · exact (applyOutcome_passive _).mono fun _ _ _ => trivial

variable {owner : String} {lease : ℤ}

/-- A claim that finds no job changes nothing. -/
lemma claimTx_none {db db' : Database} {id : String} {now : Time}
    (h : claimTx owner lease now id db = .ok (none, db')) : db' = db := by
  obtain ⟨⟨n, db₁⟩, hupd, hret⟩ := bind_eq_ok.1 h
  obtain ⟨hjob, rfl⟩ := ok_pair_inj hret
  rw [Option.map_eq_none_iff, find?_eq_none] at hjob
  obtain ⟨rows, hrows, rfl⟩ := Database.updateJobs_eq_ok hupd
  obtain ⟨-, -, -, rfl, -⟩ := Schema.update_eq_ok.1 hrows
  have hsame : Schema.updated db.jobs (fun j => j.id = id && claimable now j)
      (claimed owner (now + lease)) = db.jobs :=
    (map_congr_left fun j hj => if_neg (hjob j hj)).trans (map_id' _)
  rw [hsame]

lemma claim_serves :
    Serves (claim owner lease) 0 fun job T' => ∀ j, job = some j →
      T' = {.lease ⟨j.id, owner, j.leaseVersion⟩ j.kind j.workspaceID j.subjectID} := by
  refine Passive.require.before fun _ => ?_
  refine Passive.require.before fun _ => ?_
  refine Passive.outside.before fun id => ?_
  refine Passive.outside.before fun now => ?_
  refine serves_transaction fun db db' sent F job hI hclaim => ?_
  rw [zero_add] at hI
  cases job with
  | none =>
      obtain rfl := claimTx_none hclaim
      exact ⟨0, by rwa [zero_add], .refl Attempt.Becomes.refl, fun j hj => by simp at hj⟩
  | some job =>
      obtain ⟨-, -, -, -, -, -, -, hdb⟩ := Holds.claimTx_some hI.valid hclaim
      refine ⟨{.lease ⟨job.id, owner, job.leaseVersion⟩ job.kind job.workspaceID job.subjectID},
        hI.claimed hclaim, ?_, ?_⟩
      · rw [hdb]
        exact .refl Attempt.Becomes.refl
      · rintro j ⟨⟩
        rfl

/-- A worker needs no tokens to start with. -/
theorem worker_serves : Serves (worker l owner lease) 0 fun _ _ => True := by
  refine Attempting.bind claim_serves ?_
  rintro (_ | job) T hT
  · exact Attempting.pure trivial
  · obtain rfl := hT job rfl
    refine Passive.after handle_serves fun r => ?_
    split
    · exact .pure ()
    · exact .bind .outside fun _ => endJob_passive

end Worker

/-- Every program keeps the invariant, from nothing. -/
theorem thread_keeps {t : Proc World Unit} (ht : t ∈ attemptSystem) :
    t.Keeps Inv Advance 0 fun _ _ => True := by
  obtain ⟨p, rfl⟩ := ht
  have hserves : Serves p.service 0 fun _ _ => True := by
    have hpassive : ∀ {q : Service Unit}, Passive q → Serves q 0 fun _ _ => True :=
      fun hq => (hq 0).mono fun _ _ _ => trivial
    cases p with
    | worker l owner lease => exact worker_serves
    | renew f lease => exact hpassive renew_passive
    | failExhausted => exact hpassive failExhausted_passive
    | settleStuck l ws dep => exact hpassive settleStuck_passive
    | resolveApplying l ws dep reason => exact hpassive resolveApplying_passive
    | createDeployment ws id progress =>
        exact hpassive (.transaction fun _ _ _ => createDeploymentTx_quiet)
    | moveDeployment ws dep next => exact hpassive (.transaction fun _ _ _ => moveTx_quiet)
    | enqueueJob ws kind dep runAfter id =>
        exact hpassive (.transaction fun _ _ _ => enqueueJobTx_quiet)
  exact Proc.keeps_bind (Proc.Keeps.mono (fun _ _ _ => trivial) hserves)

end AuthSec

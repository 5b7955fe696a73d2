import AuthSec.Attempts.History
import AuthSec.Attempts.Workers

/-!
# Quiet transactions

A transaction is quiet when it only lets attempts move on, records no operation as done, and gives
nobody a lease.  Every statement the log is made of is quiet, except the one that records an
operation and the one that claims a job; quiet statements compose.
-/

namespace AuthSec

open List

/-- The job is one of a deployment, and its key says which. -/
def Job.HasSubject (j : Job) : Prop :=
  ∃ dep, j.subjectID = some dep ∧ j.dedupeKey = "deployment:" ++ dep

/-- What an update of a job leaves as it was; its lease version only grows. -/
structure Job.Keeps (j j' : Job) : Prop where
  id : j'.id = j.id
  workspaceID : j'.workspaceID = j.workspaceID
  kind : j'.kind = j.kind
  subjectID : j'.subjectID = j.subjectID
  dedupeKey : j'.dedupeKey = j.dedupeKey
  leaseVersion : j.leaseVersion ≤ j'.leaseVersion

lemma Job.Keeps.refl (j : Job) : j.Keeps j :=
  ⟨rfl, rfl, rfl, rfl, rfl, le_refl _⟩

lemma Job.Keeps.trans {j j' j'' : Job} (h : j.Keeps j') (h' : j'.Keeps j'') : j.Keeps j'' :=
  ⟨h'.id.trans h.id, h'.workspaceID.trans h.workspaceID, h'.kind.trans h.kind,
    h'.subjectID.trans h.subjectID, h'.dedupeKey.trans h.dedupeKey,
    h.leaseVersion.trans h'.leaseVersion⟩

lemma Job.Keeps.hasSubject {j j' : Job} (h : j.Keeps j') (hs : j.HasSubject) : j'.HasSubject := by
  obtain ⟨dep, hsub, hkey⟩ := hs
  exact ⟨dep, h.subjectID.trans hsub, h.dedupeKey.trans hkey⟩

/-- The constraints of the three tables hold. -/
structure Database.Valid (db : Database) : Prop where
  attempts : attemptSchema.Valid db.attempts
  deployments : deploymentSchema.Valid db.deployments
  jobs : jobSchema.Valid db.jobs
  subjects : ∀ j ∈ db.jobs, j.HasSubject

/-- The fence still holds. -/
def Database.Owned (db : Database) (f : Fence) : Prop :=
  ∃ j ∈ db.jobs, f.owns j = true

/-- The deployment has done what one of the old table had done; a new one has done nothing. -/
def Database.HasDone (db : Database) (d : Deployment) : Prop :=
  d.completedOps = [] ∨
    ∃ d₀ ∈ db.deployments, d₀.id = d.id ∧ d₀.workspaceID = d.workspaceID ∧
      d₀.completedOps = d.completedOps

/-- What a transaction without calls leaves alone. -/
structure Quiet (db db' : Database) : Prop where
  valid : db.Valid → db'.Valid
  attempts : Follows Attempt.Becomes db.attempts db'.attempts
  ops : ∀ d ∈ db'.deployments, db.HasDone d
  jobs : Follows Job.Keeps db.jobs db'.jobs
  owned : ∀ f, db'.Owned f → db.Owned f

namespace Quiet

variable {db db' db'' : Database}

lemma hasDone_self {d : Deployment} (h : d ∈ db.deployments) : db.HasDone d :=
  .inr ⟨d, h, rfl, rfl, rfl⟩

lemma refl (db : Database) : Quiet db db where
  valid h := h
  attempts := .refl Attempt.Becomes.refl
  ops _ := hasDone_self
  jobs := .refl Job.Keeps.refl
  owned _ h := h

lemma trans (h : Quiet db db') (h' : Quiet db' db'') : Quiet db db'' where
  valid hv := h'.valid (h.valid hv)
  attempts := h.attempts.trans (fun _ _ _ => Attempt.Becomes.trans) h'.attempts
  ops d hd := by
    rcases h'.ops d hd with hnil | ⟨d', hd', hid, hws, hops⟩
    · exact .inl hnil
    · rcases h.ops d' hd' with hnil | ⟨d₀, hd₀, hid₀, hws₀, hops₀⟩
      · exact .inl (hops ▸ hnil)
      · exact .inr ⟨d₀, hd₀, hid₀.trans hid, hws₀.trans hws, hops₀.trans hops⟩
  jobs := h.jobs.trans (fun _ _ _ => Job.Keeps.trans) h'.jobs
  owned f ho := h.owned f (h'.owned f ho)

/-! ## Statements -/

lemma event (att : Attempt) (name : String) (extra : EventExtra) :
    Quiet db (db.event att name extra) where
  valid h := ⟨h.attempts, h.deployments, h.jobs, h.subjects⟩
  attempts := .refl Attempt.Becomes.refl
  ops _ := hasDone_self
  jobs := .refl Job.Keeps.refl
  owned _ h := h

/-- A statement on the attempts alone. -/
lemma ofAttempts {rows : List Attempt} (hvalid : attemptSchema.Valid db.attempts →
    attemptSchema.Valid rows) (hrows : Follows Attempt.Becomes db.attempts rows) :
    Quiet db { db with attempts := rows } where
  valid h := ⟨hvalid h.attempts, h.deployments, h.jobs, h.subjects⟩
  attempts := hrows
  ops _ := hasDone_self
  jobs := .refl Job.Keeps.refl
  owned _ h := h

lemma insertAttempt {r : Attempt} (h : db.insertAttempt r = .ok db') : Quiet db db' := by
  unfold Database.insertAttempt at h
  obtain ⟨-, -, h⟩ := bind_eq_ok.1 h
  obtain ⟨rows, hrows, h⟩ := bind_eq_ok.1 h
  rw [mapError_eq_ok] at hrows
  obtain rfl := Except.ok.inj h
  exact ofAttempts (fun hv => hv.insert hrows) (.insert Attempt.Becomes.refl hrows)

end Quiet

section Statements

variable {db db' : Database} {n : ℕ}

lemma Database.updateAttempts_eq_ok {which : Attempt → Bool} {set : Attempt → Attempt}
    (h : db.updateAttempts which set = .ok (n, db')) :
    ∃ rows, attemptSchema.update db.attempts which set = .ok (rows, n) ∧
      db' = { db with attempts := rows } := by
  obtain ⟨⟨rows, n'⟩, hrows, h⟩ := bind_eq_ok.1 h
  rw [mapError_eq_ok] at hrows
  obtain ⟨rfl, rfl⟩ := ok_pair_inj h
  exact ⟨rows, hrows, rfl⟩

lemma Database.updateDeployments_eq_ok {which : Deployment → Bool} {set : Deployment → Deployment}
    (h : db.updateDeployments which set = .ok (n, db')) :
    ∃ rows, deploymentSchema.update db.deployments which set = .ok (rows, n) ∧
      db' = { db with deployments := rows } := by
  obtain ⟨⟨rows, n'⟩, hrows, h⟩ := bind_eq_ok.1 h
  rw [mapError_eq_ok] at hrows
  obtain ⟨rfl, rfl⟩ := ok_pair_inj h
  exact ⟨rows, hrows, rfl⟩

lemma Database.updateJobs_eq_ok {which : Job → Bool} {set : Job → Job}
    (h : db.updateJobs which set = .ok (n, db')) :
    ∃ rows, jobSchema.update db.jobs which set = .ok (rows, n) ∧
      db' = { db with jobs := rows } := by
  obtain ⟨⟨rows, n'⟩, hrows, h⟩ := bind_eq_ok.1 h
  rw [mapError_eq_ok] at hrows
  obtain ⟨rfl, rfl⟩ := ok_pair_inj h
  exact ⟨rows, hrows, rfl⟩

namespace Quiet

lemma updateAttempts {which : Attempt → Bool} {set : Attempt → Attempt}
    (h : db.updateAttempts which set = .ok (n, db'))
    (hset : ∀ r, (set r).id = r.id ∧ (set r).workspaceID = r.workspaceID) : Quiet db db' := by
  obtain ⟨rows, hrows, rfl⟩ := Database.updateAttempts_eq_ok h
  refine ofAttempts (fun hv => hv.update hrows) ?_
  obtain ⟨htrig, -, -, rfl, -⟩ := Schema.update_eq_ok.1 hrows
  exact .updated Attempt.Becomes.refl fun r hr hw =>
    Attempt.becomes_of_transition (hset r).1 (hset r).2 (htrig r hr hw)

/-- A statement on the deployments that leaves what they have done. -/
lemma ofDeployments {rows : List Deployment} (hvalid : deploymentSchema.Valid db.deployments →
    deploymentSchema.Valid rows) (hops : ∀ d ∈ rows, db.HasDone d) :
    Quiet db { db with deployments := rows } where
  valid h := ⟨h.attempts, hvalid h.deployments, h.jobs, h.subjects⟩
  attempts := .refl Attempt.Becomes.refl
  ops := hops
  jobs := .refl Job.Keeps.refl
  owned _ h := h

lemma updateDeployments {which : Deployment → Bool} {set : Deployment → Deployment}
    (h : db.updateDeployments which set = .ok (n, db'))
    (hset : ∀ d, (set d).id = d.id ∧ (set d).workspaceID = d.workspaceID ∧
      (set d).completedOps = d.completedOps) : Quiet db db' := by
  obtain ⟨rows, hrows, rfl⟩ := Database.updateDeployments_eq_ok h
  refine ofDeployments (fun hv => hv.update hrows) fun d hd => ?_
  obtain ⟨-, -, -, rfl, -⟩ := Schema.update_eq_ok.1 hrows
  obtain ⟨d₀, hd₀, rfl⟩ := Schema.mem_updated.1 hd
  cases which d₀ with
  | false => exact hasDone_self hd₀
  | true => exact .inr ⟨d₀, hd₀, (hset d₀).1.symm, (hset d₀).2.1.symm, (hset d₀).2.2.symm⟩

/-- A statement on the jobs that gives nobody a lease. -/
lemma ofJobs {rows : List Job} (hvalid : jobSchema.Valid db.jobs → jobSchema.Valid rows)
    (hsub : (∀ j ∈ db.jobs, j.HasSubject) → ∀ j ∈ rows, j.HasSubject)
    (hjobs : Follows Job.Keeps db.jobs rows)
    (howned : ∀ f j, j ∈ rows → f.owns j = true → db.Owned f) :
    Quiet db { db with jobs := rows } where
  valid h := ⟨h.attempts, h.deployments, hvalid h.jobs, hsub h.subjects⟩
  attempts := .refl Attempt.Becomes.refl
  ops _ := hasDone_self
  jobs := hjobs
  owned f h := by
    obtain ⟨j, hj, ho⟩ := h
    exact howned f j hj ho

lemma updateJobs {which : Job → Bool} {set : Job → Job}
    (h : db.updateJobs which set = .ok (n, db')) (hset : ∀ j : Job, j.Keeps (set j))
    (howned : ∀ (f : Fence) j, which j = true → f.owns (set j) = true → f.owns j = true) :
    Quiet db db' := by
  obtain ⟨rows, hrows, rfl⟩ := Database.updateJobs_eq_ok h
  have hvalid := fun hv : jobSchema.Valid db.jobs => hv.update hrows
  obtain ⟨-, -, -, rfl, -⟩ := Schema.update_eq_ok.1 hrows
  refine ofJobs hvalid (fun hsub j hj => ?_) (.updated Job.Keeps.refl fun j _ _ => hset j)
    fun f j hj ho => ?_
  · obtain ⟨j₀, hj₀, rfl⟩ := Schema.mem_updated.1 hj
    cases which j₀ with
    | false => exact hsub j₀ hj₀
    | true => exact (hset j₀).hasSubject (hsub j₀ hj₀)
  · obtain ⟨j₀, hj₀, rfl⟩ := Schema.mem_updated.1 hj
    cases hw : which j₀ with
    | false => exact ⟨j₀, hj₀, by simpa [hw] using ho⟩
    | true => exact ⟨j₀, hj₀, howned f j₀ hw (by simpa [hw] using ho)⟩

end Quiet

end Statements

/-! ## The steps of the log -/

section Steps

variable {db db' : Database} {now : Time}

lemma inTx_eq_ok {α : Type} {f : Fence} {body : Tx α} {a : α}
    (h : inTx f body db = .ok (a, db')) : db.Owned f ∧ body db = .ok (a, db') := by
  obtain ⟨_, howned, h⟩ := bind_eq_ok.1 h
  refine ⟨?_, h⟩
  unfold Database.assertOwned at howned
  cases hfind : db.jobs.find? fun j => j.id = f.jobID with
  | none => simp [hfind] at howned
  | some job =>
      have hid := find?_some hfind
      refine ⟨job, mem_of_find?_eq_some hfind, ?_⟩
      simp only [hfind] at howned
      split_ifs at howned with hlost
      simp only [not_or, not_not] at hlost
      simp only [decide_eq_true_eq] at hid
      simp [Fence.owns, hid, hlost]

variable {id reason dep ws : String} {att att' : Attempt} {l : AttemptLog} {u : Unit}
  {next : Progress}

lemma prepareTx_quiet {req : AttemptRequest} {version : ℤ}
    (h : prepareTx req version id now db = .ok (att, db')) : Quiet db db' := by
  obtain ⟨db₁, hins, h⟩ := bind_eq_ok.1 h
  obtain ⟨⟨n, db₂⟩, hupd, h⟩ := bind_eq_ok.1 h
  obtain ⟨-, rfl⟩ := ok_pair_inj h
  rw [mapError_eq_ok] at hins
  exact (Quiet.insertAttempt hins).trans
    ((Quiet.updateDeployments hupd fun _ => ⟨rfl, rfl, rfl⟩).trans (.event _ _ _))

lemma dispatchTx_quiet {f : Fence} (h : dispatchTx l f att now db = .ok (att', db')) :
    Quiet db db' := by
  obtain ⟨-, -, h⟩ := bind_eq_ok.1 h
  obtain ⟨⟨n, db₁⟩, hupd, h⟩ := bind_eq_ok.1 h
  obtain ⟨-, -, h⟩ := bind_eq_ok.1 h
  obtain ⟨-, rfl⟩ := ok_pair_inj h
  exact (Quiet.updateAttempts hupd fun _ => ⟨rfl, rfl⟩).trans (.event _ _ _)

lemma markUnknownTx_quiet {version : Option ℤ} {out : Attempt × Time}
    (h : markUnknownTx l att version reason now db = .ok (out, db')) : Quiet db db' := by
  obtain ⟨⟨n, db₁⟩, hupd, h⟩ := bind_eq_ok.1 h
  obtain ⟨-, -, h⟩ := bind_eq_ok.1 h
  obtain ⟨⟨moved, db₂⟩, hmove, h⟩ := bind_eq_ok.1 h
  obtain ⟨-, rfl⟩ := ok_pair_inj h
  exact (Quiet.updateAttempts hupd fun _ => ⟨rfl, rfl⟩).trans
    ((Quiet.updateDeployments hmove fun _ => ⟨rfl, rfl, rfl⟩).trans (.event _ _ _))

lemma recoverTx_quiet {out : AttemptRecovery} (h : recoverTx l ws dep now db = .ok (out, db')) :
    Quiet db db' := by
  unfold recoverTx at h
  split at h
  · obtain ⟨-, rfl⟩ := ok_pair_inj h
    exact .refl db
  · split at h
    · obtain ⟨⟨n, db₁⟩, hupd, h⟩ := bind_eq_ok.1 h
      obtain ⟨-, rfl⟩ := ok_pair_inj h
      exact (Quiet.updateAttempts hupd fun _ => ⟨rfl, rfl⟩).trans (.event _ _ _)
    · obtain ⟨⟨⟨att, settle⟩, db₁⟩, hmark, h⟩ := bind_eq_ok.1 h
      obtain ⟨-, rfl⟩ := ok_pair_inj h
      exact markUnknownTx_quiet hmark
    · obtain ⟨-, rfl⟩ := ok_pair_inj h
      exact .refl db

lemma resolveUnknownTx_quiet {resolvedAs : String}
    (h : resolveUnknownTx att resolvedAs now db = .ok (att', db')) : Quiet db db' := by
  obtain ⟨⟨n, db₁⟩, hupd, h⟩ := bind_eq_ok.1 h
  obtain ⟨-, -, h⟩ := bind_eq_ok.1 h
  obtain ⟨⟨moved, db₂⟩, hmove, h⟩ := bind_eq_ok.1 h
  obtain ⟨-, -, h⟩ := bind_eq_ok.1 h
  obtain ⟨-, rfl⟩ := ok_pair_inj h
  exact (Quiet.updateAttempts hupd fun _ => ⟨rfl, rfl⟩).trans
    ((Quiet.updateDeployments hmove fun _ => ⟨rfl, rfl, rfl⟩).trans (.event _ _ _))

lemma abandonOwnTx_quiet {version : ℤ}
    (h : abandonOwnTx version att reason now db = .ok (att', db')) : Quiet db db' := by
  obtain ⟨⟨n, db₁⟩, hupd, h⟩ := bind_eq_ok.1 h
  obtain ⟨-, rfl⟩ := ok_pair_inj h
  exact (Quiet.updateAttempts hupd fun _ => ⟨rfl, rfl⟩).trans (.event _ _ _)

/-! ## Jobs and moves -/

lemma enqueueJobTx_quiet {kind : String} {runAfter : Time}
    (h : enqueueJobTx ws kind dep runAfter id db = .ok (u, db')) : Quiet db db' := by
  unfold enqueueJobTx at h
  split at h
  next rows hins =>
      obtain ⟨-, rfl⟩ := ok_pair_inj h
      refine .ofJobs (fun hv => hv.insert hins) (fun hsub j hj => ?_)
        (.insert Job.Keeps.refl hins) fun f j hj ho => ?_
      · obtain ⟨-, -, -, rfl⟩ := Schema.insert_eq_ok.1 hins
        rcases mem_append.1 hj with hj | hj
        · exact hsub j hj
        · obtain rfl := mem_singleton.1 hj
          exact ⟨dep, rfl, rfl⟩
      · obtain ⟨-, -, -, rfl⟩ := Schema.insert_eq_ok.1 hins
        rcases mem_append.1 hj with hj | hj
        · exact ⟨j, hj, ho⟩
        · obtain rfl := mem_singleton.1 hj
          simp [Fence.owns, queuedJob] at ho
  next name hins =>
      split_ifs at h
      obtain ⟨-, rfl⟩ := ok_pair_inj h
      exact .refl db
  · exact absurd h (by simp)

/-- A change of a job that is fenced, or that ends it. -/
lemma fencedJobTx_quiet {f : Fence} {set : Job → Job} (h : fencedJobTx f set db = .ok (u, db'))
    (hset : ∀ j : Job, j.Keeps (set j))
    (howned : ∀ (f' : Fence) j, f.owns j = true → f'.owns (set j) = true → f'.owns j = true) :
    Quiet db db' := by
  obtain ⟨⟨n, db₁⟩, hupd, h⟩ := bind_eq_ok.1 h
  obtain ⟨-, -, h⟩ := bind_eq_ok.1 h
  obtain ⟨-, rfl⟩ := ok_pair_inj h
  exact .updateJobs hupd hset howned

lemma JobEnd.set_keeps (how : JobEnd) (j : Job) : j.Keeps (how.set now j) := by
  cases how with
  | complete => exact ⟨rfl, rfl, rfl, rfl, rfl, le_refl _⟩
  | abandon reason => exact ⟨rfl, rfl, rfl, rfl, rfl, le_refl _⟩
  | requeue after => exact ⟨rfl, rfl, rfl, rfl, rfl, le_refl _⟩
  | fail reason retryAfter =>
      simp only [JobEnd.set]
      split_ifs
      · exact ⟨rfl, rfl, rfl, rfl, rfl, le_refl _⟩
      · exact ⟨rfl, rfl, rfl, rfl, rfl, le_refl _⟩

/-- A job that has been ended is nobody's. -/
lemma JobEnd.not_owns_set (how : JobEnd) (f : Fence) (j : Job) :
    f.owns (how.set now j) = false := by
  cases how with
  | complete => simp [Fence.owns, JobEnd.set, released]
  | abandon reason => simp [Fence.owns, JobEnd.set, released]
  | requeue after => simp [Fence.owns, JobEnd.set, released]
  | fail reason retryAfter =>
      simp only [JobEnd.set]
      split_ifs
      · simp [Fence.owns, released]
      · simp [Fence.owns, released]

lemma moveTx_quiet (h : moveTx ws dep next db = .ok (u, db')) : Quiet db db' := by
  obtain ⟨⟨n, db₁⟩, hupd, h⟩ := bind_eq_ok.1 h
  obtain ⟨-, -, h⟩ := bind_eq_ok.1 h
  obtain ⟨-, rfl⟩ := ok_pair_inj h
  exact .updateDeployments hupd fun _ => ⟨rfl, rfl, rfl⟩

lemma createDeploymentTx_quiet {progress : Progress}
    (h : createDeploymentTx ws id progress db = .ok (u, db')) : Quiet db db' := by
  obtain ⟨rows, hins, h⟩ := bind_eq_ok.1 h
  rw [mapError_eq_ok] at hins
  obtain ⟨-, rfl⟩ := ok_pair_inj h
  refine .ofDeployments (fun hv => hv.insert hins) fun d hd => ?_
  obtain ⟨-, -, -, rfl⟩ := Schema.insert_eq_ok.1 hins
  rcases mem_append.1 hd with hd | hd
  · exact Quiet.hasDone_self hd
  · obtain rfl := mem_singleton.1 hd
    exact .inl rfl

/-! ## Sweepers and operators -/

lemma recoverStuckTx_quiet (h : recoverStuckTx l ws dep now next id db = .ok (u, db')) :
    Quiet db db' := by
  obtain ⟨⟨found, db₁⟩, hrec, h⟩ := bind_eq_ok.1 h
  obtain ⟨⟨⟨⟩, db₂⟩, hmove, h⟩ := bind_eq_ok.1 h
  refine (recoverTx_quiet hrec).trans ((moveTx_quiet hmove).trans ?_)
  dsimp only at h
  split_ifs at h
  · exact enqueueJobTx_quiet h
  · obtain ⟨-, rfl⟩ := ok_pair_inj h
    exact .refl _

lemma settleStuckTx_quiet {kind : String} {jobFailed : Bool}
    (h : settleStuckTx l ws dep now next id kind jobFailed db = .ok (u, db')) : Quiet db db' := by
  have hsame : ∀ {db'}, (pure ((), db) : Except AttemptErr (Unit × Database)) = .ok (u, db') →
      Quiet db db' := by
    rintro db' h
    obtain ⟨-, rfl⟩ := ok_pair_inj h
    exact .refl db
  unfold settleStuckTx at h
  split_ifs at h
  · exact hsame h
  · exact enqueueJobTx_quiet h
  · split at h
    · exact hsame h
    · split at h
      · exact moveTx_quiet h
      · exact moveTx_quiet h
      · exact recoverStuckTx_quiet h
      · exact hsame h

lemma abandonQueuedTx_quiet (h : abandonQueuedTx ws dep reason db = .ok (u, db')) :
    Quiet db db' := by
  obtain ⟨⟨n, db₁⟩, hupd, h⟩ := bind_eq_ok.1 h
  obtain ⟨-, rfl⟩ := ok_pair_inj h
  exact .updateJobs hupd (fun _ => ⟨rfl, rfl, rfl, rfl, rfl, le_refl _⟩)
    fun f j _ ho => absurd ho (by simp [Fence.owns])

lemma resolveApplyingTx_quiet (h : resolveApplyingTx l ws dep reason now next id db = .ok (u, db')) :
    Quiet db db' := by
  obtain ⟨-, -, h⟩ := bind_eq_ok.1 h
  obtain ⟨⟨⟨⟩, db₁⟩, hab, h⟩ := bind_eq_ok.1 h
  exact (abandonQueuedTx_quiet hab).trans (recoverStuckTx_quiet h)

end Steps

end AuthSec

import AuthSec.Attempts.Quiet

/-!
# What the threads of the log own

A worker that dispatched an attempt owns the right to make its call; a worker that claimed a job
owns the lease, and with it, once it has read them, the operations its deployment has done: nobody
else can add to them while the lease holds.  `Holds` is the invariant over the tables, the calls
that were made and all that is owned.

* `Holds.quiet`: a quiet transaction keeps it;
* `Holds.dispatched`, `Holds.send`: the right to call comes with the dispatch, and the call ends it;
* `Holds.claimed`, `Holds.look`: a claim gives a lease, and a read under it a view;
* `Holds.record`: an operation is recorded by the owner of the view.
-/

namespace AuthSec

open List

/-- What a thread can own. -/
inductive Token
  /-- The right to make the call of an attempt. -/
  | call (attempt : String) (version : ℤ)
  /-- A claim, with the job it is of. -/
  | lease (f : Fence) (kind ws : String) (subject : Option String)
  /-- A claim of a deploy job that has read what its deployment has done. -/
  | view (f : Fence) (ws dep : String) (completed : Finset ℤ)
  /-- A row that was in the table once. -/
  | row (r : Attempt)

namespace Token

def callID : Token → Option String
  | .call a _ => some a
  | _ => none

/-- The job and the lease version of a claim. -/
def key : Token → Option (String × ℤ)
  | .lease f _ _ _ => some (f.jobID, f.version)
  | .view f _ _ _ => some (f.jobID, f.version)
  | _ => none

variable (T : Multiset Token)

lemma filterMap_callID_call (a : String) (v : ℤ) :
    (call a v ::ₘ T).filterMap callID = a ::ₘ T.filterMap callID :=
  Multiset.filterMap_cons_some callID _ _ rfl

lemma filterMap_key_lease (f : Fence) (kind ws : String) (subject : Option String) :
    (lease f kind ws subject ::ₘ T).filterMap key = (f.jobID, f.version) ::ₘ T.filterMap key :=
  Multiset.filterMap_cons_some key _ _ rfl

lemma filterMap_key_view (f : Fence) (ws dep : String) (completed : Finset ℤ) :
    (view f ws dep completed ::ₘ T).filterMap key = (f.jobID, f.version) ::ₘ T.filterMap key :=
  Multiset.filterMap_cons_some key _ _ rfl

end Token

namespace Database

variable (db : Database)

/-- The row of the attempt was committed as dispatched, under the lease version. -/
def HasDispatched (a : String) (v : ℤ) : Prop :=
  ∃ r ∈ db.attempts, r.id = a ∧ r.leaseVersion = v ∧ r.WasDispatched

/-- The job of the fence, which has been claimed at its version. -/
def HasClaimed (f : Fence) (kind ws : String) (subject : Option String) : Prop :=
  ∃ j ∈ db.jobs, j.id = f.jobID ∧ f.version ≤ j.leaseVersion ∧ j.kind = kind ∧
    j.workspaceID = ws ∧ j.subjectID = subject

/-- Every operation the deployment has done is among these. -/
def DoneWithin (ws dep : String) (completed : Finset ℤ) : Prop :=
  ∀ d ∈ db.deployments, d.workspaceID = ws → d.id = dep →
    ∀ op ∈ d.completedOps, opDone op.outcome = true → op.opSeq ∈ completed

/-- The entry stands for the attempt: one of its operation that was settled. -/
def Backs (d : Deployment) (op : CompletedOp) (a : String) : Prop :=
  opDone op.outcome = true ∧
    ∃ r ∈ db.attempts, r.id = a ∧ r.deploymentID = d.id ∧ r.opSeq = op.opSeq ∧ r.Settled

/-- No attempt has two entries, and each one is backed by its attempt. -/
structure Recorded (d : Deployment) : Prop where
  nodup : (d.completedOps.filterMap (·.attemptID)).Nodup
  backed : ∀ op ∈ d.completedOps, ∀ a, op.attemptID = some a → db.Backs d op a

end Database

/-- What the tables say when somebody owns the token. -/
def Token.Means (db : Database) : Token → Prop
  | .call a v => db.HasDispatched a v
  | .lease f kind ws subject => db.HasClaimed f kind ws subject
  | .view f ws dep completed =>
      db.HasClaimed f govJobDeploy ws (some dep) ∧ (db.Owned f → db.DoneWithin ws dep completed)
  | .row r => ∃ r' ∈ db.attempts, r.Becomes r'

/-- The tables, the calls and the tokens agree. -/
structure Holds (db : Database) (sent : List Sent) (T : Multiset Token) : Prop where
  valid : db.Valid
  calls : (Multiset.ofList (sent.map (·.attempt)) + T.filterMap Token.callID).Nodup
  sent : ∀ c ∈ sent, db.HasDispatched c.attempt c.version
  keys : (T.filterMap Token.key).Nodup
  means : ∀ t ∈ T, t.Means db
  recorded : ∀ d ∈ db.deployments, db.Recorded d

variable {ws : String} {f : Fence}

lemma Database.HasClaimed.follows {db db' : Database} {kind : String} {subject : Option String}
    (h : db.HasClaimed f kind ws subject) (hjobs : Follows Job.Keeps db.jobs db'.jobs) :
    db'.HasClaimed f kind ws subject := by
  obtain ⟨j, hj, hid, hv, hkind, hws, hsub⟩ := h
  obtain ⟨j', hj', hk⟩ := hjobs j hj
  exact ⟨j', hj', hk.id.trans hid, hv.trans hk.leaseVersion, hk.kind.trans hkind,
    hk.workspaceID.trans hws, hk.subjectID.trans hsub⟩

/-! ## Quiet transactions -/

section Quiet

variable {db db' : Database} (h : Quiet db db')

include h

lemma Quiet.hasDispatched {a : String} {v : ℤ} (hd : db.HasDispatched a v) :
    db'.HasDispatched a v := by
  obtain ⟨r, hr, hid, hv, hwas⟩ := hd
  obtain ⟨r', hr', hbec⟩ := h.attempts r hr
  exact ⟨r', hr', hbec.id.trans hid, hbec.leaseVersion.trans hv, hbec.wasDispatched hwas⟩

lemma Quiet.hasClaimed {kind : String} {subject : Option String}
    (hc : db.HasClaimed f kind ws subject) : db'.HasClaimed f kind ws subject :=
  hc.follows h.jobs

lemma Quiet.doneWithin {dep : String} {completed : Finset ℤ} (hd : db.DoneWithin ws dep completed) :
    db'.DoneWithin ws dep completed := by
  intro d hd' hws hid op hop hdone
  rcases h.ops d hd' with hnil | ⟨d₀, hd₀, hid₀, hws₀, hops₀⟩
  · rw [hnil] at hop
    exact absurd hop not_mem_nil
  · exact hd d₀ hd₀ (hws₀.trans hws) (hid₀.trans hid) op (hops₀ ▸ hop) hdone

lemma Quiet.backs {d d₀ : Deployment} {op : CompletedOp} {a : String} (hid : d₀.id = d.id)
    (hb : db.Backs d₀ op a) : db'.Backs d op a := by
  obtain ⟨hdone, r, hr, hra, hdep, hop, hset⟩ := hb
  obtain ⟨r', hr', hbec⟩ := h.attempts r hr
  exact ⟨hdone, r', hr', hbec.id.trans hra, (hbec.deploymentID.trans hdep).trans hid,
    hbec.opSeq.trans hop, hbec.settled hset⟩

lemma Quiet.recorded {d : Deployment} (hd : d ∈ db'.deployments)
    (hr : ∀ d ∈ db.deployments, db.Recorded d) : db'.Recorded d := by
  rcases h.ops d hd with hnil | ⟨d₀, hd₀, hid₀, hws₀, hops₀⟩
  · exact ⟨by simp [hnil], fun op hop => absurd hop (by simp [hnil])⟩
  · obtain ⟨hnd, hback⟩ := hr d₀ hd₀
    rw [hops₀] at hnd
    exact ⟨hnd, fun op hop a ha => h.backs hid₀ (hback op (hops₀ ▸ hop) a ha)⟩

lemma Quiet.means {t : Token} (ht : t.Means db) : t.Means db' := by
  cases t with
  | call a v => exact h.hasDispatched ht
  | lease f kind ws subject => exact h.hasClaimed ht
  | view f ws dep completed =>
      exact ⟨h.hasClaimed ht.1, fun ho => h.doneWithin (ht.2 (h.owned f ho))⟩
  | row r =>
      obtain ⟨r', hr', hbec⟩ := ht
      obtain ⟨r'', hr'', hbec'⟩ := h.attempts r' hr'
      exact ⟨r'', hr'', hbec.trans hbec'⟩

end Quiet

namespace Holds

variable {db db' : Database} {sent : List Sent} {T : Multiset Token}

lemma quiet (h : Holds db sent T) (hq : Quiet db db') : Holds db' sent T where
  valid := hq.valid h.valid
  calls := h.calls
  sent c hc := hq.hasDispatched (h.sent c hc)
  keys := h.keys
  means t ht := hq.means (h.means t ht)
  recorded _ hd := hq.recorded hd h.recorded

variable {r : Attempt} {dep : String}

/-- A row in the table may be remembered. -/
lemma remember (h : Holds db sent T) (hr : r ∈ db.attempts) :
    Holds db sent (.row r ::ₘ T) where
  valid := h.valid
  calls := by rw [Multiset.filterMap_cons_none _ _ rfl]; exact h.calls
  sent := h.sent
  keys := by rw [Multiset.filterMap_cons_none _ _ rfl]; exact h.keys
  means t ht := by
    rcases Multiset.mem_cons.1 ht with rfl | ht
    · exact ⟨r, hr, .refl r⟩
    · exact h.means t ht
  recorded := h.recorded

/-! ## The right to call -/

/-- Rows of the same id are the same row. -/
lemma row_unique (h : db.Valid) {r' : Attempt} (hr : r ∈ db.attempts) (hr' : r' ∈ db.attempts)
    (hid : r.id = r'.id) : r = r' :=
  h.attempts.eq_of_clash mem_cons_self hr hr'
    (UniqueIndex.clash_on rfl (congrArg some hid.symm))

/-- Nobody has, or had, the right to call an attempt that is only prepared. -/
lemma not_mem_calls (h : Holds db sent T) (hr : r ∈ db.attempts) (hprep : r.status = .prepared) :
    r.id ∉ Multiset.ofList (sent.map (·.attempt)) + T.filterMap Token.callID := by
  have hnot : ∀ v, ¬ db.HasDispatched r.id v := by
    rintro v ⟨r', hr', hid, -, hwas⟩
    rw [row_unique h.valid hr' hr hid, Attempt.WasDispatched, hprep] at hwas
    simp at hwas
  intro hmem
  rcases Multiset.mem_add.1 hmem with hsent | hcall
  · obtain ⟨c, hc, hid⟩ := mem_map.1 (Multiset.mem_coe.1 hsent)
    exact hnot c.version (hid ▸ h.sent c hc)
  · obtain ⟨t, ht, hid⟩ := (Multiset.mem_filterMap _ _).1 hcall
    cases t with
    | call a v =>
        obtain rfl := Option.some.inj hid
        exact hnot v (h.means _ ht)
    | lease f kind ws subject => simp [Token.callID] at hid
    | view f ws dep completed => simp [Token.callID] at hid
    | row r' => simp [Token.callID] at hid

/-- The commit that dispatches a prepared attempt gives the right to call it. -/
lemma dispatched (h : Holds db sent T) (hq : Quiet db db') {v : ℤ} (hr : r ∈ db.attempts)
    (hprep : r.status = .prepared) (hd : db'.HasDispatched r.id v) :
    Holds db' sent (.call r.id v ::ₘ T) where
  valid := hq.valid h.valid
  calls := by
    rw [Token.filterMap_callID_call, Multiset.add_cons]
    exact Multiset.nodup_cons.2 ⟨h.not_mem_calls hr hprep, h.calls⟩
  sent c hc := hq.hasDispatched (h.sent c hc)
  keys := by rw [Multiset.filterMap_cons_none _ _ rfl]; exact h.keys
  means t ht := by
    rcases Multiset.mem_cons.1 ht with rfl | ht
    · exact hd
    · exact hq.means (h.means t ht)
  recorded _ hd := hq.recorded hd h.recorded

/-- The call was not made before, and its row is committed as dispatched. -/
lemma call_allowed {a : String} {v : ℤ} (h : Holds db sent (.call a v ::ₘ T)) :
    (∀ c ∈ sent, c.attempt ≠ a) ∧ db.HasDispatched a v := by
  refine ⟨fun c hc hca => ?_, h.means _ (Multiset.mem_cons_self _ _)⟩
  have hcalls := h.calls
  rw [Token.filterMap_callID_call, Multiset.add_cons] at hcalls
  exact (Multiset.nodup_cons.1 hcalls).1 (Multiset.mem_add.2
    (.inl (Multiset.mem_coe.2 (mem_map.2 ⟨c, hc, hca⟩))))

/-- The call ends the right to make it. -/
lemma send {a : String} {v : ℤ} (h : Holds db sent (.call a v ::ₘ T)) :
    Holds db (sent ++ [⟨a, v⟩]) T where
  valid := h.valid
  calls := by
    have hcalls := h.calls
    rw [Token.filterMap_callID_call, Multiset.add_cons] at hcalls
    rw [map_append, ← Multiset.coe_add, add_right_comm]
    rwa [map_singleton, Multiset.coe_singleton, add_comm, Multiset.singleton_add]
  sent c hc := by
    rcases mem_append.1 hc with hc | hc
    · exact h.sent c hc
    · obtain rfl := mem_singleton.1 hc
      exact h.call_allowed.2
  keys := by
    have hkeys := h.keys
    rwa [Multiset.filterMap_cons_none _ _ rfl] at hkeys
  means t ht := h.means t (Multiset.mem_cons_of_mem ht)
  recorded := h.recorded

/-! ## Leases and views -/

lemma job_unique (h : db.Valid) {j j' : Job} (hj : j ∈ db.jobs) (hj' : j' ∈ db.jobs)
    (hid : j.id = j'.id) : j = j' :=
  h.jobs.eq_of_clash mem_cons_self hj hj'
    (UniqueIndex.clash_on rfl (congrArg some hid.symm))

lemma deployment_unique (h : db.Valid) {d d' : Deployment} (hd : d ∈ db.deployments)
    (hd' : d' ∈ db.deployments) (hid : d.id = d'.id) : d = d' :=
  h.deployments.eq_of_clash mem_cons_self hd hd'
    (UniqueIndex.clash_on rfl (congrArg some hid.symm))

/-- A lease may be traded for a view of what its deployment has done by now. -/
lemma look (h : Holds db sent (.lease f govJobDeploy ws (some dep) ::ₘ T)) :
    Holds db sent (.view f ws dep (loadCompleted ws dep db) ::ₘ T) where
  valid := h.valid
  calls := by
    have hcalls := h.calls
    rw [Multiset.filterMap_cons_none _ _ rfl] at hcalls ⊢
    exact hcalls
  sent := h.sent
  keys := by
    rw [Token.filterMap_key_view, ← Token.filterMap_key_lease]
    exact h.keys
  means t ht := by
    rcases Multiset.mem_cons.1 ht with rfl | ht
    · refine ⟨h.means _ (Multiset.mem_cons_self _ _), fun _ d hd hws hid op hop hdone => ?_⟩
      have hfind : db.deployments.find? (fun d => d.workspaceID = ws && d.id = dep) = some d :=
        find?_eq_some_of_unique hd (by simp [hws, hid]) fun d' hd' hw =>
          deployment_unique h.valid hd' hd (by simp_all)
      rw [loadCompleted, hfind]
      exact mem_toFinset.2 (mem_map.2 ⟨op, mem_filter.2 ⟨hop, hdone⟩, rfl⟩)
    · exact h.means t (Multiset.mem_cons_of_mem ht)
  recorded := h.recorded

/-- A deploy job that runs has the key of its deployment in the index on open jobs. -/
lemma deploy_key (h : db.Valid) (hc : db.HasClaimed f govJobDeploy ws (some dep)) (ho : db.Owned f) :
    ∃ j ∈ db.jobs, j.id = f.jobID ∧ j.leaseVersion = f.version ∧ j.isOpen = true ∧
      (j.workspaceID, j.kind, j.dedupeKey) = (ws, govJobDeploy, "deployment:" ++ dep) := by
  obtain ⟨j₀, hj₀, hid₀, -, hkind, hws, hsub⟩ := hc
  obtain ⟨j, hj, hown⟩ := ho
  simp only [Fence.owns, Bool.and_eq_true, decide_eq_true_eq] at hown
  obtain ⟨⟨⟨hid, -⟩, hver⟩, hrun⟩ := hown
  obtain rfl := job_unique h hj hj₀ (hid.trans hid₀.symm)
  obtain ⟨dep', hsub', hdedupe⟩ := h.subjects j hj
  obtain rfl := Option.some.inj (hsub.symm.trans hsub')
  exact ⟨j, hj, hid, hver, by simp [Job.isOpen, hrun], by rw [hws, hkind, hdedupe]⟩

/-- Two running deploy jobs of one deployment are the same job. -/
lemma deploy_unique (h : db.Valid) {f' : Fence} (hc : db.HasClaimed f govJobDeploy ws (some dep))
    (hc' : db.HasClaimed f' govJobDeploy ws (some dep)) (ho : db.Owned f) (ho' : db.Owned f') :
    (f.jobID, f.version) = (f'.jobID, f'.version) := by
  obtain ⟨j, hj, hid, hver, hopen, hkey⟩ := deploy_key h hc ho
  obtain ⟨j', hj', hid', hver', hopen', hkey'⟩ := deploy_key h hc' ho'
  have hsame : j = j' := h.jobs.eq_of_clash (mem_cons_of_mem _ mem_cons_self) hj hj'
    (UniqueIndex.clash_on ((if_pos hopen).trans (congrArg some hkey))
      ((if_pos hopen').trans (congrArg some hkey')))
  subst hsame
  rw [← hid, ← hid', ← hver, ← hver']

/-- A claim was made at a version that its job has reached. -/
lemma claimed_of_key {t : Token} (ht : t.Means db) {k : String × ℤ} (hk : t.key = some k) :
    ∃ j ∈ db.jobs, j.id = k.1 ∧ k.2 ≤ j.leaseVersion := by
  cases t with
  | call a v => simp [Token.key] at hk
  | lease f kind ws subject =>
      obtain rfl := Option.some.inj hk
      obtain ⟨j, hj, hid, hv, -⟩ := ht
      exact ⟨j, hj, hid, hv⟩
  | view f ws dep completed =>
      obtain rfl := Option.some.inj hk
      obtain ⟨⟨j, hj, hid, hv, -⟩, -⟩ := ht
      exact ⟨j, hj, hid, hv⟩
  | row r => simp [Token.key] at hk

/-- A claim changes the row of one job, and nothing else. -/
lemma claimTx_some (h : db.Valid) {owner id : String} {lease : ℤ} {now : Time} {job : Job}
    (hclaim : claimTx owner lease now id db = .ok (some job, db')) :
    ∃ j ∈ db.jobs, job = AuthSec.claimed owner (now + lease) j ∧ job ∈ db'.jobs ∧
      (∀ j' ∈ db'.jobs, j' ∈ db.jobs ∨ j' = job) ∧ Follows Job.Keeps db.jobs db'.jobs ∧
      jobSchema.Valid db'.jobs ∧ db' = { db with jobs := db'.jobs } := by
  obtain ⟨⟨n, db₁⟩, hupd, hret⟩ := bind_eq_ok.1 hclaim
  obtain ⟨hjob, rfl⟩ := ok_pair_inj hret
  obtain ⟨j, hfind, rfl⟩ := Option.map_eq_some_iff.1 hjob
  obtain ⟨rows, hrows, rfl⟩ := Database.updateJobs_eq_ok hupd
  have hvalid := h.jobs.update hrows
  obtain ⟨-, -, -, rfl, -⟩ := Schema.update_eq_ok.1 hrows
  have hj := mem_of_find?_eq_some hfind
  have hw := find?_some hfind
  refine ⟨j, hj, rfl, Schema.mem_updated.2 ⟨j, hj, if_pos hw⟩, fun j' hj' => ?_,
    .updated Job.Keeps.refl fun j _ _ =>
      ⟨rfl, rfl, rfl, rfl, rfl, le_add_of_nonneg_right zero_le_one⟩, hvalid, rfl⟩
  obtain ⟨j₀, hj₀, rfl⟩ := Schema.mem_updated.1 hj'
  split_ifs with hw₀
  · refine .inr (congrArg _ (job_unique h hj₀ hj ?_))
    simp only [Bool.and_eq_true, decide_eq_true_eq] at hw hw₀
    exact hw₀.1.trans hw.1.symm
  · exact .inl hj₀

/-- A claim takes one job to a version that nobody holds. -/
lemma claimed (h : Holds db sent T) {owner id : String} {lease : ℤ} {now : Time} {job : Job}
    (hclaim : claimTx owner lease now id db = .ok (some job, db')) :
    Holds db' sent
      (.lease ⟨job.id, owner, job.leaseVersion⟩ job.kind job.workspaceID job.subjectID ::ₘ T) := by
  obtain ⟨j, hj, rfl, hmem, hnew, hfollows, hvalid, hdb⟩ := claimTx_some h.valid hclaim
  have hfresh : ∀ t ∈ T, ∀ k, t.key = some k → k ≠ (j.id, j.leaseVersion + 1) := by
    rintro t ht k hk rfl
    obtain ⟨j₀, hj₀, hid, hv⟩ := claimed_of_key (h.means t ht) hk
    rw [job_unique h.valid hj₀ hj hid] at hv
    exact absurd hv (by omega)
  rw [hdb] at hmem hnew hfollows hvalid ⊢
  refine ⟨⟨h.valid.attempts, h.valid.deployments, hvalid, fun j' hj' => ?_⟩, ?_, h.sent, ?_, ?_,
    fun d hd => ⟨(h.recorded d hd).nodup, (h.recorded d hd).backed⟩⟩
  · rcases hnew j' hj' with hold | rfl
    · exact h.valid.subjects j' hold
    · exact h.valid.subjects j hj
  · rw [Multiset.filterMap_cons_none _ _ rfl]
    exact h.calls
  · rw [Token.filterMap_key_lease]
    refine Multiset.nodup_cons.2 ⟨fun hkey => ?_, h.keys⟩
    obtain ⟨t, ht, hk⟩ := (Multiset.mem_filterMap _ _).1 hkey
    exact hfresh t ht _ hk rfl
  · intro t ht
    rcases Multiset.mem_cons.1 ht with rfl | ht
    · exact ⟨_, hmem, rfl, le_refl _, rfl, rfl, rfl⟩
    · have hmeans := h.means t ht
      cases t with
      | call a v => exact hmeans
      | lease f kind ws subject => exact Database.HasClaimed.follows hmeans hfollows
      | view f ws dep completed =>
          refine ⟨hmeans.1.follows hfollows, fun ho => ?_⟩
          obtain ⟨j', hj', hown⟩ := ho
          rcases hnew j' hj' with hold | rfl
          · exact hmeans.2 ⟨j', hold, hown⟩
          · simp only [Fence.owns, Bool.and_eq_true, decide_eq_true_eq] at hown
            exact absurd (Prod.ext hown.1.1.1.symm hown.1.2.symm) (hfresh _ ht _ rfl)
      | row r => exact hmeans

/-- Recording an operation changes one deployment, and nothing else. -/
lemma appendOp_eq_ok {op : CompletedOp} (h : db.Valid) (happ : db.appendOp ws dep op = .ok db') :
    (∀ d' ∈ db'.deployments, ∃ d ∈ db.deployments,
      (d.workspaceID = ws ∧ d.id = dep ∧ d' = { d with completedOps := d.completedOps ++ [op] }) ∨
        ((d.workspaceID = ws → d.id ≠ dep) ∧ d' = d)) ∧
      db' = { db with deployments := db'.deployments } ∧ db'.Valid := by
  obtain ⟨⟨n, db₁⟩, hupd, hret⟩ := bind_eq_ok.1 happ
  obtain rfl := Except.ok.inj hret
  obtain ⟨rows, hrows, rfl⟩ := Database.updateDeployments_eq_ok hupd
  refine ⟨fun d' hd' => ?_, rfl,
    ⟨h.attempts, h.deployments.update hrows, h.jobs, h.subjects⟩⟩
  obtain ⟨-, -, -, rfl, -⟩ := Schema.update_eq_ok.1 hrows
  obtain ⟨d, hd, rfl⟩ := Schema.mem_updated.1 hd'
  refine ⟨d, hd, ?_⟩
  split_ifs with hw
  · simp only [Bool.and_eq_true, decide_eq_true_eq] at hw
    exact .inl ⟨hw.1, hw.2, rfl⟩
  · simp only [Bool.and_eq_true, decide_eq_true_eq, not_and] at hw
    exact .inr ⟨hw, rfl⟩

/-- The owner of the view records an operation: nobody else has a view of the deployment under a
lease that holds. -/
lemma record {completed : Finset ℤ} {op : CompletedOp}
    (h : Holds db sent (.view f ws dep completed ::ₘ T)) (ho : db.Owned f)
    (hnew : ∀ a, op.attemptID = some a → ∀ d ∈ db.deployments, d.workspaceID = ws → d.id = dep →
      db.Backs d op a ∧ ∀ op' ∈ d.completedOps, op'.attemptID ≠ some a)
    (happ : db.appendOp ws dep op = .ok db') :
    Holds db' sent (.view f ws dep (insert op.opSeq completed) ::ₘ T) := by
  obtain ⟨hdeps, hdb, hvalid⟩ := appendOp_eq_ok h.valid happ
  obtain ⟨hclaim, hview⟩ := h.means _ (Multiset.mem_cons_self _ _)
  have hkeys := h.keys
  have hcalls := h.calls
  rw [Token.filterMap_key_view] at hkeys
  rw [Multiset.filterMap_cons_none _ _ rfl] at hcalls
  rw [hdb] at hdeps hvalid ⊢
  refine ⟨hvalid, ?_, h.sent, ?_, ?_, fun d' hd' => ?_⟩
  · rwa [Multiset.filterMap_cons_none _ _ rfl]
  · rwa [Token.filterMap_key_view]
  · intro t hmem
    rcases Multiset.mem_cons.1 hmem with rfl | ht
    · refine ⟨hclaim, fun _ d' hd' hws hid op' hop' hdone => ?_⟩
      obtain ⟨d, hd, ⟨hws₀, hid₀, rfl⟩ | ⟨hne, rfl⟩⟩ := hdeps d' hd'
      · rcases mem_append.1 hop' with hop' | hop'
        · exact Finset.mem_insert_of_mem (hview ho d hd hws₀ hid₀ op' hop' hdone)
        · obtain rfl := mem_singleton.1 hop'
          exact Finset.mem_insert_self _ _
      · exact absurd hid (hne hws)
    · have hmeans := h.means t (Multiset.mem_cons_of_mem ht)
      cases t with
      | call a v => exact hmeans
      | lease f' kind ws' subject => exact hmeans
      | view f' ws' dep' completed' =>
          refine ⟨hmeans.1, fun ho' d' hd' hws hid op' hop' hdone => ?_⟩
          obtain ⟨d, hd, ⟨rfl, rfl, rfl⟩ | ⟨-, rfl⟩⟩ := hdeps d' hd'
          -- two views of this deployment would be two claims of one job at one version
          · obtain rfl := hws
            obtain rfl := hid
            have hkey := deploy_unique h.valid hclaim hmeans.1 ho ho'
            refine absurd ?_ (Multiset.nodup_cons.1 hkeys).1
            exact (Multiset.mem_filterMap _ _).2 ⟨_, ht, congrArg some hkey.symm⟩
          · exact hmeans.2 ho' d' hd hws hid op' hop' hdone
      | row r => exact hmeans
  · obtain ⟨d, hd, ⟨hws, hid, rfl⟩ | ⟨-, rfl⟩⟩ := hdeps d' hd'
    · refine ⟨?_, fun op' hop' a ha => ?_⟩
      · rw [filterMap_append, nodup_append]
        refine ⟨(h.recorded d hd).nodup, ?_, ?_⟩
        · cases hatt : op.attemptID <;> simp [hatt]
        · intro a ha b hb hab
          obtain ⟨op', hop', hopa⟩ := mem_filterMap.1 ha
          have hb' : op.attemptID = some b := by simpa using hb
          exact (hnew b hb' d hd hws hid).2 op' hop' (hab ▸ hopa)
      · rcases mem_append.1 hop' with hop' | hop'
        · exact (h.recorded d hd).backed op' hop' a ha
        · obtain rfl := mem_singleton.1 hop'
          exact (hnew a ha d hd hws hid).1
    · exact ⟨(h.recorded d' hd).nodup, (h.recorded d' hd).backed⟩

end Holds

end AuthSec

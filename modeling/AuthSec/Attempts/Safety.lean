import AuthSec.Attempts.Programs

/-!
# One write in flight, each sent at most once

What the invariant says in every pool the system gets to, whatever its workers, sweepers and
operators do at the same time and wherever they die: the index keeps one attempt of a deployment
open, the right to call is given once, and an attempt that has ended stays as it ended.

`recoverTx_ends`: whatever was left behind, the replacement rule ends every attempt of a deployment.
-/

namespace AuthSec

open List

/-! ## One open attempt -/

section Open

variable {db : Database} {r : Attempt}

/-- Two open attempts of one deployment break the index. -/
lemma clash_of_isOpen {r' : Attempt} (hopen : r.isOpen = true) (hopen' : r'.isOpen = true)
    (hdep : r.deploymentID = r'.deploymentID) :
    (UniqueIndex.on uqAttemptOpen
      fun r : Attempt => if r.isOpen then some r.deploymentID else none).clash r r' = true :=
  UniqueIndex.clash_on (if_pos hopen) ((if_pos hopen').trans (congrArg some hdep.symm))

lemma uqAttemptOpen_mem : UniqueIndex.on uqAttemptOpen
    (fun r : Attempt => if r.isOpen then some r.deploymentID else none) ∈ attemptSchema.unique :=
  mem_cons_of_mem _ (mem_cons_of_mem _ mem_cons_self)

lemma open_unique (h : db.Valid) {r' : Attempt} (hr : r ∈ db.attempts) (hr' : r' ∈ db.attempts)
    (hopen : r.isOpen = true) (hopen' : r'.isOpen = true) (hdep : r.deploymentID = r'.deploymentID) :
    r = r' :=
  h.attempts.eq_of_clash uqAttemptOpen_mem hr hr' (clash_of_isOpen hopen hopen' hdep)

lemma countP_isOpen_le_one (h : db.Valid) (dep : String) :
    db.attempts.countP (fun r => r.deploymentID = dep && r.isOpen) ≤ 1 := by
  refine h.attempts.countP_le_one uqAttemptOpen_mem fun r r' hr hr' => ?_
  simp only [Bool.and_eq_true, decide_eq_true_eq] at hr hr'
  exact clash_of_isOpen hr.2 hr'.2 (hr.1.trans hr'.1.symm)

lemma Attempt.ended_of_not_isOpen (h : r.isOpen = false) : r.Ended := by
  unfold Attempt.isOpen at h
  unfold Attempt.Ended
  cases hs : r.status <;> simp [hs] at h ⊢

/-- An attempt that was dispatched and is not open any more was completed or resolved. -/
lemma Attempt.resolved_of_not_isOpen (h : r.isOpen = false) (hd : r.WasDispatched) :
    r.status = .completed ∨ r.resolvedAs.isSome = true := by
  unfold Attempt.isOpen at h
  rcases hd with hs | hs | hs
  · simp [hs] at h
  · exact .inl hs
  · right
    cases hres : r.resolvedAs with
    | none => simp [hs, hres] at h
    | some as => rfl

end Open

/-! ## The replacement rule -/

section Recover

variable {db : Database} {l : AttemptLog} {ws dep : String} {now : Time} {r att : Attempt}
  {which : Attempt → Bool}

/-- An update of attempts that moves them on and opens none goes through. -/
lemma updateAttempts_ok (h : db.Valid) (set : Attempt → Attempt)
    (hset : ∀ r, (set r).id = r.id ∧ (set r).toPreparedRequest = r.toPreparedRequest)
    (hopen : ∀ r, which r = true → (set r).isOpen = true → r.isOpen = true)
    (htrig : ∀ r ∈ db.attempts, which r = true → attemptTransition r (set r) = true)
    (hchk : ∀ r ∈ db.attempts, which r = true → (set r).check = true) :
    db.updateAttempts which set = .ok (db.attempts.countP which,
      { db with attempts := Schema.updated db.attempts which set }) := by
  unfold Database.updateAttempts
  rw [h.attempts.update_ok htrig hchk ?_]
  · rfl
  · intro u hu r r' hfree
    simp only [attemptSchema, mem_cons, not_mem_nil, or_false] at hu
    rcases hu with rfl | rfl | rfl
    · refine UniqueIndex.clash_on_map (g := fun r => if which r then set r else r) (fun r => .inl ?_)
        hfree
      split_ifs
      · rw [(hset r).1]
      · rfl
    · refine UniqueIndex.clash_on_map (g := fun r => if which r then set r else r) (fun r => .inl ?_)
        hfree
      split_ifs
      · rw [(hset r).2]
      · rfl
    · refine UniqueIndex.clash_on_map (g := fun r => if which r then set r else r) (fun r => ?_) hfree
      split_ifs with hw ho ho'
      · exact .inl (by rw [(hset r).2])
      · exact absurd (hopen r hw ho) ho'
      · exact .inr rfl
      · exact .inr rfl
      · exact .inl rfl
      · exact .inl rfl

lemma attemptTransition_of_mayBecome {r' : Attempt}
    (hreq : r'.toPreparedRequest = r.toPreparedRequest) (hres : r'.resolvedAs = r.resolvedAs)
    (hmay : r.status.mayBecome r'.status = true) : attemptTransition r r' = true := by
  simp [attemptTransition, hreq, hres, hmay]

/-- The checks on a row that its status has no part in. -/
lemma check_eq_true : r.check = true ↔
    (0 ≤ r.opSeq ∧ 1 ≤ r.attemptNo ∧ r.outcome.all (attemptOutcomes.contains ·) = true ∧
      r.resolvedAs.all ([attemptResolvedApplied, attemptResolvedNotApplied].contains ·) = true ∧
      (r.resolvedAs.isNone == r.resolvedAt.isNone) = true) ∧
    r.statusChk = true ∧ (r.resolvedAs.isNone = true ∨ r.status = .unknown) := by
  simp only [Attempt.check, Attempt.resolvedChk, Bool.and_eq_true, Bool.or_eq_true,
    decide_eq_true_eq]
  tauto

/-- Abandoning a prepared attempt passes the checks. -/
lemma check_abandoned (hchk : r.check = true) (hs : r.status = .prepared) :
    ({ r with status := .abandoned, completedAt := some now } : Attempt).check = true := by
  rw [check_eq_true] at hchk ⊢
  obtain ⟨hrow, hstatus, hres⟩ := hchk
  simp only [Attempt.statusChk, hs, Bool.and_eq_true] at hstatus ⊢
  refine ⟨hrow, ⟨⟨hstatus.1.1.2, rfl⟩, hstatus.2⟩, ?_⟩
  simpa [hs] using hres

/-- So does giving up the answer of a dispatched one. -/
lemma check_unknown (hchk : r.check = true) (hs : r.status = .dispatched) :
    ({ r with status := .unknown } : Attempt).check = true := by
  rw [check_eq_true] at hchk ⊢
  obtain ⟨hrow, hstatus, -⟩ := hchk
  simp only [Attempt.statusChk, hs, Bool.and_eq_true] at hstatus ⊢
  exact ⟨hrow, ⟨hstatus.1.1, hstatus.2⟩, .inr trivial⟩

/-- An update by the id of a row that is there affects one row. -/
lemma countP_eq_one (h : db.Valid) (hmem : att ∈ db.attempts) (hatt : which att = true)
    (hid : ∀ r, which r = true → r.id = att.id) : db.attempts.countP which = 1 := by
  refine le_antisymm ?_ (countP_pos_iff.2 ⟨att, hmem, hatt⟩)
  exact h.attempts.countP_le_one mem_cons_self fun r r' hr hr' =>
    UniqueIndex.clash_on rfl (congrArg some ((hid r' hr').trans (hid r hr).symm))

lemma updateDeployments_ok (h : db.Valid) {which : Deployment → Bool}
    {set : Deployment → Deployment} (hset : ∀ d, (set d).id = d.id)
    (hchk : ∀ d, (set d).progress.unknownChk = true) :
    db.updateDeployments which set = .ok (db.deployments.countP which,
      { db with deployments := Schema.updated db.deployments which set }) := by
  unfold Database.updateDeployments
  rw [h.deployments.update_ok (fun _ _ _ => rfl) (fun d _ _ => hchk d) ?_]
  · rfl
  · intro u hu d d' hfree
    obtain rfl := mem_singleton.1 hu
    refine UniqueIndex.clash_on_map (g := fun d => if which d then set d else d) (fun d => .inl ?_)
      hfree
    split_ifs
    · rw [hset d]
    · rfl

/-- What the update of one attempt leaves. -/
lemma mem_updated_cases (hatt : which att = true) {set : Attempt → Attempt} {r' : Attempt}
    (hr' : r' ∈ Schema.updated db.attempts which set) :
    (r' ∈ db.attempts ∧ r' ≠ att) ∨ ∃ r, r' = set r := by
  obtain ⟨r, hr, rfl⟩ := Schema.mem_updated.1 hr'
  split_ifs with hw
  · exact .inr ⟨r, rfl⟩
  · exact .inl ⟨hr, fun heq => hw (heq ▸ hatt)⟩

/-- An unknown outcome names its operation. -/
lemma unknownChk_of_op (opSeq : ℤ) (operation reason : String) (settle : Time) :
    (Progress.mk .outcomeUnknown reason (toString opSeq ++ ":" ++ operation)
      (some settle)).unknownChk = true := by
  simp [Progress.unknownChk]

lemma markUnknownTx_ok (h : db.Valid) (l : AttemptLog) (now : Time) (hmem : att ∈ db.attempts)
    (hs : att.status = .dispatched) (reason : String) :
    ∃ out db', markUnknownTx l att none reason now db = .ok (out, db') ∧
      ∀ r ∈ db'.attempts, (r ∈ db.attempts ∧ r ≠ att) ∨ r.status = .unknown := by
  have hown : ∀ r : Attempt, (decide (r.workspaceID = att.workspaceID) && decide (r.id = att.id) &&
      decide (r.status = .dispatched) && (none : Option ℤ).all (r.leaseVersion = ·)) = true →
      r.id = att.id ∧ r.status = .dispatched := by
    intro r hr
    simp only [Bool.and_eq_true, decide_eq_true_eq] at hr
    exact ⟨hr.1.1.2, hr.1.2⟩
  have hatt : (decide (att.workspaceID = att.workspaceID) && decide (att.id = att.id) &&
      decide (att.status = .dispatched) && (none : Option ℤ).all (att.leaseVersion = ·)) = true := by
    simp [hs]
  have hupd := updateAttempts_ok h (fun r => { r with status := .unknown })
    (fun _ => ⟨rfl, rfl⟩) (fun r hr _ => by simp [Attempt.isOpen, (hown r hr).2])
    (fun r _ hr => attemptTransition_of_mayBecome rfl rfl (by rw [(hown r hr).2]; rfl))
    (fun r hmem hr => check_unknown (h.attempts.checked r hmem) (hown r hr).2)
  have hvalid := (Quiet.updateAttempts hupd fun _ => ⟨rfl, rfl⟩).valid h
  rw [countP_eq_one h hmem hatt fun r hr => (hown r hr).1] at hupd
  unfold markUnknownTx
  rw [hupd]
  dsimp only [bind, Except.bind]
  rw [(require_eq_ok (u := ())).2 rfl]
  dsimp only
  rw [updateDeployments_ok hvalid ?_ fun d => unknownChk_of_op _ _ _ _]
  · refine ⟨_, _, rfl, fun r hr => ?_⟩
    rcases mem_updated_cases hatt hr with hold | ⟨r₀, rfl⟩
    · exact .inl hold
    · exact .inr rfl
  · exact fun _ => rfl

/-- The rule ends every attempt of the deployment: a prepared one is abandoned, and the answer of a
dispatched one given up. -/
theorem recoverTx_ends (h : db.Valid) (l : AttemptLog) (ws dep : String) (now : Time) :
    ∃ out db', recoverTx l ws dep now db = .ok (out, db') ∧
      ∀ r ∈ db'.attempts, r.workspaceID = ws → r.deploymentID = dep → r.Ended := by
  unfold recoverTx
  cases hfind : db.attempts.find? fun r =>
      r.workspaceID = ws && r.deploymentID = dep && r.isOpen with
  | none =>
      refine ⟨_, db, rfl, fun r hr hws hdep => Attempt.ended_of_not_isOpen ?_⟩
      have hnot := find?_eq_none.1 hfind r hr
      simpa [hws, hdep] using hnot
  | some att =>
      have hmem := mem_of_find?_eq_some hfind
      have hw := find?_some hfind
      simp only [Bool.and_eq_true, decide_eq_true_eq] at hw
      obtain ⟨⟨hattws, hattdep⟩, hattopen⟩ := hw
      -- whatever else is there has ended already
      have hrest : ∀ r ∈ db.attempts, r.deploymentID = dep → r ≠ att → r.Ended := by
        intro r hr hdep hne
        cases hopen : r.isOpen with
        | true =>
            exact absurd (open_unique h hr hmem hopen hattopen (hdep.trans hattdep.symm)) hne
        | false => exact Attempt.ended_of_not_isOpen hopen
      dsimp only
      split
      next hs =>
          have hown : ∀ r : Attempt, (decide (r.id = att.id) && decide (r.status = .prepared)) =
              true → r.status = .prepared := by simp
          have hupd := updateAttempts_ok h
            (fun r => { r with status := .abandoned, completedAt := some now })
            (fun _ => ⟨rfl, rfl⟩) (fun r hr _ => by simp [Attempt.isOpen, hown r hr])
            (fun r _ hr => attemptTransition_of_mayBecome rfl rfl (by rw [hown r hr]; rfl))
            (fun r hmem hr => check_abandoned (h.attempts.checked r hmem) (hown r hr))
          rw [hupd]
          refine ⟨_, _, rfl, fun r hr hws hdep => ?_⟩
          have hatt : (decide (att.id = att.id) && decide (att.status = .prepared)) = true := by
            simp [hs]
          rcases mem_updated_cases hatt hr with ⟨hold, hne⟩ | ⟨r₀, rfl⟩
          · exact hrest r hold hdep hne
          · exact .inl rfl
      next hs =>
          obtain ⟨out, db', hmark, hrows⟩ := markUnknownTx_ok h l now hmem hs
            "dispatched with no answer recorded; found by a replacement worker (never re-sent)"
          rw [hmark]
          refine ⟨_, _, rfl, fun r hr hws hdep => ?_⟩
          rcases hrows r hr with ⟨hold, hne⟩ | hunk
          · exact hrest r hold hdep hne
          · exact .inr (.inr hunk)
      next hprep hdis =>
          refine ⟨_, db, rfl, fun r hr hws hdep => ?_⟩
          by_cases heq : r = att
          · subst heq
            unfold Attempt.Ended
            cases hs : r.status <;> simp_all
          · exact hrest r hr hdep heq

end Recover

/-! ## A run -/

section Run

variable {w' : World}

lemma Reachable.service {w : World} {rest : Multiset (Proc World Unit)} {p : AttemptProgram}
    {r : Except AttemptErr Unit} (h : Reachable attemptSystem World.IsEmpty ⟨w, rest⟩)
    (he : p.service.run.Ends w r w') : Reachable attemptSystem World.IsEmpty ⟨w', rest⟩ :=
  ((h.step (.start ⟨p, rfl⟩)).ends he).step (.crash _)

lemma endJob_rollback (f : Fence) (how : JobEnd) (w : World) :
    ∃ r, (endJob f how).run.Ends w r w := by
  refine ⟨_, 0, .rollback, _, _, rfl, rfl, ?_⟩
  cases fencedJobTx f (how.set 0) w.db <;> rfl

/-- A deployment that is being applied, its job, and the job once it is claimed. -/
def applying : Deployment := ⟨"dep", "ws", ⟨.applying, "", "", none⟩, [], 0⟩
def deployJob : Job := queuedJob "ws" govJobDeploy "dep" 0 "job"
def runningJob : Job := claimed "worker" (300 * second) deployJob

/-- The boundary is put on a role. -/
def boundaryOn : Op :=
  { op := .putRolePermissionsBoundary, roleName := "app" }

/-- A plan of one operation. -/
def boundaryRun : ExecRun where
  log := ⟨0, 0⟩
  fence := ⟨"job", "worker", 1⟩
  workspaceID := "ws"
  deploymentID := "dep"
  ops := [boundaryOn]

/-- The attempt is prepared, dispatched, called and completed. -/
lemma boundaryRun_runOp : ∃ w, (boundaryRun.planRun.runOp 0 boundaryOn).run.Ends
    ⟨⟨[], [applying], [runningJob], []⟩, [], []⟩ (.ok ()) w ∧ w.sent = [⟨"att", 1⟩] :=
  ⟨_, ⟨false, false, false, false, ⟨"hash", ""⟩, "att", 0, .commit, _, _, rfl, none, 0, .commit, _, _, rfl,
    _, _, rfl, _, ⟨_, _, rfl, .ok ⟨attemptOutcomeOK, "", "", ""⟩, _, _, rfl, rfl, rfl⟩,
    none, _, _, rfl, 0, .commit, _, _, rfl, rfl, rfl⟩, rfl⟩

lemma boundaryRun_execute {w : World}
    (h : (boundaryRun.planRun.runOp 0 boundaryOn).run.Ends w (.ok ()) w') :
    (boundaryRun.planRun.execute 0 ∅).run.Ends w (.ok ()) w' := by
  have hlast : (boundaryRun.planRun.execute 1 {0}).run.Ends w' (.ok ()) w' := by
    rw [PlanRun.execute]
    exact ⟨false, 1, false, rfl, rfl⟩
  rw [PlanRun.execute]
  refine Proc.ends_bind_ok (a := 0) ⟨false, 0, rfl, rfl⟩ ?_
  refine Proc.ends_bind_ok (a := ()) ⟨rfl, rfl⟩ ?_
  refine Proc.ends_bind_ok (a := ∅) ⟨rfl, rfl⟩ ?_
  exact Proc.ends_bind_ok h hlast

lemma boundaryRun_deploy (h : (boundaryRun.planRun.execute 0 ∅).run.Ends
      ⟨⟨[], [applying], [runningJob], []⟩, [], []⟩ (.ok ()) w') :
    (deployHandler ⟨0, 0⟩ boundaryRun.fence "ws" "dep").run.Ends
      ⟨⟨[], [applying], [runningJob], []⟩, [], []⟩ (.ok ()) w' := by
  have hplan : boundaryRun.planRun.executePlan.run.Ends
      ⟨⟨[], [applying], [runningJob], []⟩, [], []⟩ (.ok ()) w' := by
    refine Proc.ends_bind_ok (a := ()) ⟨0, .commit, _, _, rfl, rfl, rfl⟩ ?_
    refine Proc.ends_bind_ok (a := ()) ⟨false, rfl, rfl⟩ ?_
    refine Proc.ends_bind_ok (a := ()) ⟨false, _, _, rfl, rfl, rfl⟩ ?_
    refine Proc.ends_bind_ok (a := ()) ⟨false, rfl, rfl⟩ ?_
    exact Proc.ends_bind_ok (a := ∅) ⟨false, _, _, rfl, rfl, rfl⟩ h
  refine Proc.ends_bind_ok (a := ()) ⟨none, rfl, rfl⟩ ?_
  refine Proc.ends_bind_ok (a := boundaryRun.ops) ⟨boundaryRun.ops, rfl, rfl⟩ ?_
  refine Proc.ends_bind_ok (a := .ok ()) (Proc.ends_bind hplan ⟨rfl, rfl⟩) ?_
  exact ⟨none, "", none, rfl, rfl⟩

/-- A worker that claims the job makes one call. -/
lemma exists_reachable_sent :
    ∃ w, Reachable attemptSystem World.IsEmpty ⟨w, 0⟩ ∧ w.sent = [⟨"att", 1⟩] := by
  obtain ⟨w, hop, hsent⟩ := boundaryRun_runOp
  have hdeploy := boundaryRun_deploy (boundaryRun_execute hop)
  obtain ⟨r, hend⟩ := endJob_rollback boundaryRun.fence .complete w
  have hcreate : Reachable attemptSystem World.IsEmpty ⟨⟨⟨[], [applying], [], []⟩, [], []⟩, 0⟩ :=
    Reachable.service (p := .createDeployment "ws" "dep" applying.progress) (r := .ok ())
      (.init rfl) ⟨.commit, _, _, rfl, rfl, rfl⟩
  have hqueue :
      Reachable attemptSystem World.IsEmpty ⟨⟨⟨[], [applying], [deployJob], []⟩, [], []⟩, 0⟩ :=
    hcreate.service (p := .enqueueJob "ws" govJobDeploy "dep" 0 "job") (r := .ok ())
      ⟨.commit, _, _, rfl, rfl, rfl⟩
  refine ⟨w, hqueue.service (p := .worker ⟨0, 0⟩ "worker" (300 * second)) (r := r) ?_, hsent⟩
  refine Proc.ends_bind_ok (a := some runningJob) ⟨"job", 0, .commit, _, _, rfl, rfl, rfl⟩ ?_
  refine Proc.ends_bind_ok (a := .ok ()) (Proc.ends_bind hdeploy ⟨rfl, rfl⟩) ?_
  exact Proc.ends_bind_ok (a := JobEnd.complete) ⟨JobEnd.complete, rfl, rfl⟩ hend

end Run

/-! ## Every interleaving -/

/-- What holds of the tables and of the calls that were made, at any time. -/
structure World.Safe (w : World) : Prop where
  /-- At most one attempt of a deployment is prepared, dispatched, or unknown and not resolved. -/
  one_open : ∀ dep, w.db.attempts.countP (fun r => r.deploymentID = dep && r.isOpen) ≤ 1
  sent_once : (w.sent.map (·.attempt)).Nodup
  /-- An attempt is dispatched only after every one that was dispatched before is completed or
  resolved. -/
  settled_first : ∀ r ∈ w.db.attempts, r.status = .prepared ∨ r.status = .dispatched →
    ∀ o ∈ w.db.attempts, o.deploymentID = r.deploymentID → o ≠ r → o.WasDispatched →
      o.status = .completed ∨ o.resolvedAs.isSome = true
  abandoned_not_sent : ∀ r ∈ w.db.attempts, r.status = .abandoned →
    ∀ c ∈ w.sent, c.attempt ≠ r.id
  one_entry : ∀ d ∈ w.db.deployments, ∀ a, d.completedOps.countP (·.attemptID = some a) ≤ 1

lemma Inv.of_isEmpty {w : World} (h : w.IsEmpty) : Inv w 0 := by
  obtain rfl := h
  refine ⟨⟨⟨?_, ?_⟩, ⟨?_, ?_⟩, ⟨?_, ?_⟩, ?_⟩, ?_, ?_, ?_, ?_, ?_⟩ <;> simp

/-- Entries that name distinct attempts name each at most once. -/
lemma Database.Recorded.countP_le_one {db : Database} {d : Deployment} (h : db.Recorded d)
    (a : String) : d.completedOps.countP (·.attemptID = some a) ≤ 1 := by
  have hcount := nodup_iff_count_le_one.1 h.nodup a
  rw [List.count, countP_filterMap] at hcount
  refine le_trans (le_of_eq (countP_congr fun op _ => ?_)) hcount
  cases op.attemptID <;> simp

lemma Inv.safe {w : World} {T : Multiset Token} (h : Inv w T) : w.Safe where
  one_open := countP_isOpen_le_one h.valid
  sent_once := Multiset.coe_nodup.1 (Multiset.nodup_of_le (Multiset.le_add_right _ _) h.calls)
  settled_first r hr hstatus o ho hdep hne hwas := by
    have hopen : r.isOpen = true := by
      rcases hstatus with hs | hs <;> simp [Attempt.isOpen, hs]
    refine Attempt.resolved_of_not_isOpen (Bool.eq_false_iff.2 fun hopen' => ?_) hwas
    exact hne (open_unique h.valid ho hr hopen' hopen hdep)
  abandoned_not_sent r hr hs c hc heq := by
    obtain ⟨r', hr', hid, -, hwas⟩ := h.sent c hc
    obtain rfl := Holds.row_unique h.valid hr' hr (hid.trans heq)
    rw [Attempt.WasDispatched, hs] at hwas
    simp at hwas
  one_entry d hd a := (h.recorded d hd).countP_le_one a

/-- In every interleaving of workers, sweepers and operators, with crashes, lost leases, timeouts
and cancelled contexts anywhere: the tables and the calls are safe; a call is made only of an
attempt that nobody called and that is committed as dispatched under the lease version of its
caller; an attempt that has ended stays as it ended; and the replacement rule ends whatever was left
behind. -/
theorem one_write_in_flight {p : Pool World} (h : Reachable attemptSystem World.IsEmpty p) :
    p.shared.Safe ∧
      (∀ p', Step attemptSystem p p' → p'.shared.sent = p.shared.sent ∨
        ∃ c, p'.shared.sent = p.shared.sent ++ [c] ∧
          (∀ c' ∈ p.shared.sent, c'.attempt ≠ c.attempt) ∧
          p.shared.db.HasDispatched c.attempt c.version) ∧
      (∀ p', Relation.ReflTransGen (Step attemptSystem) p p' → ∀ r ∈ p.shared.db.attempts,
        ∃ r' ∈ p'.shared.db.attempts, r'.id = r.id ∧ (r.Ended → r'.status = r.status)) ∧
      ∀ l ws dep now, ∃ out db', recoverTx l ws dep now p.shared.db = .ok (out, db') ∧
        ∀ r ∈ db'.attempts, r.workspaceID = ws → r.deploymentID = dep → r.Ended := by
  obtain ⟨T, hI⟩ := h.exists_tokens (fun _ => thread_keeps) fun _ => Inv.of_isEmpty
  refine ⟨hI.safe, fun p' hstep => ?_, fun p' hrun => ?_, recoverTx_ends hI.valid⟩
  · rcases h.move (fun _ => thread_keeps) (fun _ => Inv.of_isEmpty) hstep with hsame | hadv
    · exact .inl (congrArg World.sent hsame)
    · rcases hadv.sent with hsame | ⟨c, hc, -, hfirst, hdis⟩
      · exact .inl hsame
      · exact .inr ⟨c, hc, hfirst, hdis⟩
  · intro r hr
    have hrows := h.moves (R := fun w w' => Follows Attempt.Becomes w.db.attempts w'.db.attempts)
      (fun _ => thread_keeps) (fun _ => Inv.of_isEmpty) (fun _ => .refl Attempt.Becomes.refl)
      (fun _ _ _ hrows hadv => hrows.trans (fun _ _ _ => Attempt.Becomes.trans) hadv.rows) hrun
    obtain ⟨r', hr', hbec⟩ := hrows r hr
    exact ⟨r', hr', hbec.id, hbec.status_eq⟩

/-- A worker that calls AWS once and ends. -/
theorem one_write_in_flight_after_call :
    ∃ w, Reachable attemptSystem World.IsEmpty ⟨w, 0⟩ ∧ w.sent = [⟨"att", 1⟩] ∧ w.Safe := by
  obtain ⟨w, hreach, hsent⟩ := exists_reachable_sent
  exact ⟨w, hreach, hsent, (one_write_in_flight hreach).1⟩

end AuthSec

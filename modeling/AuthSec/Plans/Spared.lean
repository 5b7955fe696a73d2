import AuthSec.Plans.Progress

/-!
# Policies that others use

A compiled plan writes no policy that anyone but the role of its control uses, and a plan that
AuthSec runs itself writes AuthSec's own policies only (`writes_spared`).
-/

namespace AuthSec

/-- The operations that write a policy. -/
def policyKinds : List OpKind :=
  [.createPolicy, .createPolicyVersion, .deletePolicyVersion, .tagPolicy, .deletePolicy]

/-- The read shows no other user of the policy than the role. -/
def LiveRead.Unused (live : LiveRead) (arn roleID : String) : Prop :=
  ∀ pol, live.policies.get? arn = some (some pol) → otherUsers pol.attachmentSet roleID = []

/-- The plan writes a policy only if the read shows no other user of it than the role, and directly
only if it is AuthSec's. -/
def Plan.Spares (p : Plan) (live : LiveRead) (roleID : String) : Prop :=
  ∀ o ∈ p.ops, o.op ∈ policyKinds →
    live.Unused o.policyARN roleID ∧ (p.delivery = deliveryDirect → isAuthSecPath o.policyARN)

section

variable {p : Plan} {kind : PlanKind} {delivery arn roleID : String} {facts : List Fact}
  {ops : List Op} {live : LiveRead}

/-- A plan that writes one policy. -/
lemma Plan.Is.spares (h : p.Is kind delivery facts ops)
    (harn : ∀ o ∈ ops, o.op ∈ policyKinds → o.policyARN = arn) (hunused : live.Unused arn roleID)
    (hpath : delivery = deliveryDirect → isAuthSecPath arn) :
    p.Spares live roleID := by
  intro o ho hkind
  rw [h.ops] at ho
  rw [harn o ho hkind, h.delivery]
  exact ⟨hunused, hpath⟩

lemma LiveRead.unused_of_free (h : ∀ pol, live.policies.get? arn ≠ some (some pol)) :
    live.Unused arn roleID :=
  fun pol hpol => absurd hpol (h pol)

lemma LiveRead.unused_of_read {pol : LivePolicy} (hpol : live.policies.get? arn = some (some pol))
    (hothers : otherUsers pol.attachmentSet roleID = []) : live.Unused arn roleID := by
  intro pol' hpol'
  rw [hpol] at hpol'
  cases hpol'
  exact hothers

lemma policyARN_newVersionOps {ctl : ControlRef} {hash : String} {versions : ℤ} :
    ∀ o ∈ newVersionOps ctl arn hash versions, o.policyARN = arn := by
  unfold newVersionOps
  split_ifs <;> simp [pruneOp]

end

lemma isAuthSecPath_of_parts (front name : String) :
    isAuthSecPath (front ++ ":policy" ++ authSecPolicyPath ++ name) = true := by
  simp only [isAuthSecPath, contains, decide_eq_true_eq]
  exact ⟨front.toList, name.toList, by simp⟩

lemma otherUsers_normalEntities (set : List AttachedEntity) (roleID : String) :
    otherUsers (normalEntities set) roleID = [] ↔ otherUsers set roleID = [] := by
  simp only [otherUsers, normalEntities, ← List.length_eq_zero_iff, length_sortOn,
    ((perm_sortOn AttachedEntity.sortKey set).filter _).length_eq]

section

variable [Sha256]

/-- The plans that the compilers return, with the read and the role that they are compiled for. -/
inductive CompiledFrom : LiveRead → String → Plan → Prop
  | apply {inp : TargetInput} {plans : TargetPlans} (h : compileTarget inp = .ok plans) :
      CompiledFrom inp.live inp.control.roleID plans.apply
  | undo {inp : TargetInput} {plans : TargetPlans} {u : Plan} (h : compileTarget inp = .ok plans)
      (hu : plans.undo = some u) : CompiledFrom inp.live inp.control.roleID u
  | recovery {inp : RecoveryInput} {p : Plan} (h : compileRoleOnlyRecovery inp = .ok p) :
      CompiledFrom inp.live inp.control.roleID p
  | removal {inp : RemoveControlInput} {p : Plan} (h : compileRemoveControl inp = .ok p) :
      CompiledFrom inp.live inp.control.roleID p

lemma ApplyCtx.Compiled.spares {c : ApplyCtx} {a u : Plan} (h : c.Compiled a u) (hready : c.Ready) :
    a.Spares c.inp.live c.inp.control.roleID ∧ u.Spares c.inp.live c.inp.control.roleID := by
  rw [← hready.roleID]
  cases h with
  | none hboundary hdoc hfree hproof ha hu =>
      have hunused : c.inp.live.Unused c.newARN c.role.roleID :=
        LiveRead.unused_of_free (newARN_free hfree)
      have hpath := isAuthSecPath_of_parts
        ("arn:" ++ c.role.partitionOr ++ ":iam::" ++ c.role.accountID)
        (authSecBoundaryName c.role.roleID)
      exact ⟨ha.spares (by simp [noneOps, policyKinds]) hunused fun _ => hpath,
        hu.spares (by simp [deletePolicyOps, policyKinds]) hunused fun _ => hpath⟩
  | authsec hcur hpath hdoc howner hothers ha hu =>
      have hunused := LiveRead.unused_of_read hcur.policy (hcur.others.symm.trans hothers)
      have hnamed : ∀ {same : Prop} [Decidable same] {hash : String} {versions : ℤ}, ∀ o ∈ (if same
          then [] else newVersionOps c.inp.control c.role.boundaryARN hash versions),
          o.policyARN = c.role.boundaryARN := by
        intro same _ hash versions o ho
        split_ifs at ho
        · cases ho
        · exact policyARN_newVersionOps o ho
      exact ⟨ha.spares (fun o ho _ => hnamed o ho) hunused fun _ => hpath,
        hu.spares (fun o ho _ => hnamed o ho) hunused fun _ => hpath⟩
  | exclusive hcur hpath hdelivery hothers hdoc ha hu =>
      have hunused := LiveRead.unused_of_read hcur.policy (hcur.others.symm.trans hothers)
      exact ⟨ha.spares (by split_ifs <;> simp [newDocumentOp]) hunused (absurd · hdelivery),
        hu.spares (by split_ifs <;> simp [newDocumentOp]) hunused (absurd · hdelivery)⟩
  | @shared cur _ _ hcur hpath hdelivery hothers hdoc hfree ha hu =>
      split_ifs at ha hu with hn
      · have hunused : c.inp.live.Unused (c.copyARN cur) c.role.roleID :=
          LiveRead.unused_of_free (LiveRead.free_of_hasPolicy (refuseIf_eq_nil.1 (hfree hn)))
        exact ⟨ha.spares (by simp [copyOps, policyKinds]) hunused (absurd · hdelivery),
          hu.spares (by simp [deletePolicyOps, policyKinds]) hunused (absurd · hdelivery)⟩
      · exact ⟨by simp [Plan.Spares, ha.ops], by simp [Plan.Spares, hu.ops]⟩

/-- A removal writes the boundary of the role, and only if nobody else uses it. -/
lemma RemoveCtx.Case.named {c : RemoveCtx} {facts : List Fact} {ops : List Op}
    (h : c.Case facts ops) :
    ∀ o ∈ ops, o.op ∈ policyKinds → o.policyARN = c.cur ∧ c.others = [] := by
  have hleft : ∀ o ∈ c.leftOps, o.policyARN = c.cur ∧ c.others = [] := by
    unfold leftOps
    split_ifs with hothers <;> simp [deletePolicyOps, hothers]
  cases h with
  | detach => simpa [policyKinds] using fun o ho _ => hleft o ho
  | restore _ _ hothers =>
      intro o ho _
      refine ⟨?_, hothers⟩
      unfold restoreOps at ho
      split_ifs at ho
      · cases ho
      · exact policyARN_newVersionOps o ho
      · rw [List.mem_singleton.1 ho]
  | repoint => simpa [policyKinds] using fun o ho _ => hleft o ho

/-- No eligible plan writes a policy that another principal uses, and AuthSec itself writes no
policy but its own. -/
theorem writes_spared {live : LiveRead} {roleID : String} {p : Plan}
    (h : CompiledFrom live roleID p) (he : p.eligible) : p.Spares live roleID := by
  cases h with
  | apply h =>
      obtain ⟨c, rfl, hready, u, -, hcompiled⟩ := compileTarget_compiled h he
      exact (hcompiled.spares hready).1
  | undo h hu =>
      obtain ⟨c, rfl, hready, u, hu', hcompiled⟩ := compileTarget_compiled h (eligible_of_undo h hu)
      obtain rfl := Option.some.inj (hu.symm.trans hu')
      exact (hcompiled.spares hready).2
  | recovery h =>
      obtain ⟨c, pol, facts, ops, rfl, hready, hcase, his, -⟩ :=
        compileRoleOnlyRecovery_compiled h he
      cases hcase with
      | detach => simp [Plan.Spares, his.ops, policyKinds]
      | newPolicy hdoc hfree =>
          exact his.spares (by simp [RecoveryCtx.newPolicyOps, policyKinds])
            (LiveRead.unused_of_free (LiveRead.free_of_hasPolicy hfree))
            fun _ => isAuthSecPath_of_parts _ _
      | repoint => simp [Plan.Spares, his.ops, policyKinds]
  | removal h =>
      obtain ⟨c, facts, ops, rfl, hready, hcase, his, hinside⟩ := compileRemoveControl_compiled h he
      intro o ho hkind
      rw [his.ops] at ho
      obtain ⟨harn, hothers⟩ := hcase.named o ho hkind
      rw [harn, his.delivery, ← hready.roleID]
      refine ⟨LiveRead.unused_of_read hready.policy ?_, fun hdirect => ?_⟩
      · rw [← otherUsers_normalEntities, ← hready.others, hothers]
      · simpa [Op.outside, harn, hready.arn] using hinside hdirect o ho

end

/-- The plan for a first boundary touches no policy that the customer has. -/
theorem writes_spared_first :
    let _ : Sha256 := ⟨fun _ => []⟩
    ∃ plans, compileTarget firstTarget = .ok plans ∧
      plans.apply.Spares firstTarget.live firstControl.roleID := by
  intro sha
  obtain ⟨plans, h, he, -⟩ := firstTarget_compiled
  exact ⟨plans, h, writes_spared (.apply h) he⟩

end AuthSec

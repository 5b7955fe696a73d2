import AuthSec.Plans.Built

/-!
# What recoveries and removals leave

Inversions of `compileRoleOnlyRecovery` and `compileRemoveControl`: the facts and the operations of
an eligible plan, case by case, and what the read says of the policies that they name.
-/

namespace AuthSec

/-- A boundary that a recovery does not refuse. -/
lemma recoveryRefusals_eq_nil {st undone : ArtifactStateFacts} {others : List AttachedEntity}
    (h : recoveryRefusals st undone others = []) : undone.boundaryARN.getD "" ≠ "" ∧
      st.boundaryARN.getD "" = undone.boundaryARN.getD "" ∧
      st.boundaryDocumentHash.getD "" = undone.boundaryDocumentHash.getD "" ∧ others ≠ [] := by
  simp only [recoveryRefusals, List.append_eq_nil_iff, refuseIf_eq_nil] at h
  obtain ⟨hsame, hothers⟩ := h
  simp only [Bool.or_eq_false_iff, decide_eq_false_iff_not, bne_eq_false_iff_eq] at hsame
  exact ⟨hsame.1.1, hsame.1.2, hsame.2, by simpa using hothers⟩

lemma outsideRefusals_eq_nil {p : Plan} (h : outsideRefusals p = [])
    (hdirect : p.delivery = deliveryDirect) : ∀ o ∈ p.ops, o.outside = false := by
  rw [outsideRefusals, if_pos hdirect, List.map_eq_nil_iff, List.filter_eq_nil_iff] at h
  exact fun o ho => Bool.eq_false_iff.2 (h o ho)

section

variable [Sha256]

/-- The artifact state of a read: no boundary, or the boundary with its document and its users. -/
lemma artifactState_eq_ok {live : LiveRead} {st : ArtifactStateFacts}
    (h : artifactState live = .ok st) : ∃ role, live.role = some role ∧
      ((role.boundaryARN = "" ∧ st = ⟨role.roleID, none, none, []⟩) ∨
      ∃ p hash, role.boundaryARN ≠ "" ∧ live.policies.get? role.boundaryARN = some (some p) ∧
        documentHash p.defaultDocument = .ok hash ∧
        st = ⟨role.roleID, some role.boundaryARN, some hash, normalEntities p.attachmentSet⟩) := by
  unfold artifactState at h
  cases hrole : live.role with
  | none =>
      rw [hrole] at h
      cases h
  | some role =>
      rw [hrole] at h
      refine ⟨role, rfl, ?_⟩
      dsimp only at h
      split_ifs at h with hb
      · cases h
        exact Or.inl ⟨hb, rfl⟩
      · obtain ⟨p, hp, h⟩ := bind_eq_ok.1 h
        cases p with
        | none => cases h
        | some p =>
            simp only [boundaryState] at h
            split at h
            · cases h
            · rename_i hash hhash
              cases h
              exact Or.inr ⟨p, hash, hb, LiveRead.policy_eq_ok.1 hp, hhash, rfl⟩

lemma parts_statePrecondition {p q : Plan} {st : ArtifactStateFacts}
    (h : statePrecondition p st = .ok q) : q.parts = p.parts := by
  obtain ⟨pc, -, h⟩ := bind_eq_ok.1 h
  obtain ⟨ph, -, h⟩ := bind_eq_ok.1 h
  cases h
  rfl

/-! ## Recoveries -/

/-- What the builders of a recovery are given: the role still has the installed policy as its
boundary, with the document that the apply left, and others use it too. -/
structure RecoveryCtx.Ready (c : RecoveryCtx) (pol : LivePolicy) : Prop where
  control : c.inp.control.validate = .ok ()
  role : c.inp.live.role = some c.role
  roleID : c.role.roleID = c.inp.control.roleID
  installed : c.installed ≠ ""
  boundary : c.role.boundaryARN = c.installed
  policy : c.inp.live.policies.get? c.installed = some (some pol)
  docHash : documentHash pol.defaultDocument = .ok c.docHash
  others : c.others = otherUsers (normalEntities pol.attachmentSet) c.role.roleID
  shared : c.others ≠ []

/-- The facts and the operations of a recovery, by what the undo would restore. -/
inductive RecoveryCtx.Case (c : RecoveryCtx) : List Fact → List Op → Prop
  | detach (hundo : c.inp.undo.desiredAttachment = .absent) :
      c.Case (factRole c.role.roleID :: factBoundary c.installed valueNone :: c.installedFacts)
        [{ op := .deleteRolePermissionsBoundary, roleName := c.role.name }]
  | newPolicy {eh : String} (hdoc : documentHash c.inp.earlierDocument = .ok eh)
      (hfree : c.inp.live.hasPolicy c.newARN = false) :
      c.Case (c.newPolicyFacts eh) (c.newPolicyOps eh)
  | repoint {shared sh : String} {sp : LivePolicy}
      (hundo : c.inp.undo.desiredBoundaryARN = some shared)
      (hshared : c.inp.live.policies.get? shared = some (some sp))
      (hdoc : documentHash sp.defaultDocument = .ok sh) :
      c.Case (c.repointFacts shared sh (otherUsers sp.attachmentSet c.role.roleID))
        [{ op := .putRolePermissionsBoundary, roleName := c.role.name, policyARN := shared }]

/-- What the builder of a recovery leaves, or a refusal. -/
lemma RecoveryCtx.build_eq_ok {c : RecoveryCtx} {p p' : Plan} (h : c.build p = .ok p') :
    p'.refusals ≠ [] ∨ c.Case p'.facts p'.ops ∧
      p'.parts = { p.parts with facts := p'.facts, ops := p'.ops } := by
  simp only [build] at h
  split_ifs at h with habsent hauthsec
  · cases h
    exact Or.inr ⟨.detach habsent, rfl⟩
  · obtain ⟨⟨⟩, -, h⟩ := bind_eq_ok.1 h
    obtain ⟨⟨p₁, eh⟩, hp₁, h⟩ := bind_eq_ok.1 h
    obtain ⟨⟨⟩, -, h⟩ := bind_eq_ok.1 h
    cases h
    obtain ⟨hparts, hdoc⟩ := Plan.parts_archiveText hp₁
    simp only [Plan.parts, PlanParts.mk.injEq] at hparts
    cases hfree : c.inp.live.hasPolicy c.newARN with
    | true => exact Or.inl (by simp [Plan.refuse, refuseIf])
    | false =>
        exact Or.inr ⟨.newPolicy hdoc hfree, by simp [Plan.parts, Plan.refuse, refuseIf, hparts]⟩
  · split at h
    · rename_i replaced shared hreplaced hshared
      obtain ⟨sp, hsp, h⟩ := bind_eq_ok.1 h
      cases sp with
      | none =>
          cases h
          exact Or.inl (by simp [Plan.refuse])
      | some sp =>
          obtain ⟨⟨p₁, sh⟩, hp₁, h⟩ := bind_eq_ok.1 h
          cases h
          obtain ⟨hparts, hdoc⟩ := Plan.parts_archiveText hp₁
          simp only [Plan.parts, PlanParts.mk.injEq] at hparts
          exact Or.inr ⟨.repoint hshared (LiveRead.policy_eq_ok.1 hsp) hdoc,
            by simp [Plan.parts, hparts]⟩
    · cases h
      exact Or.inl (by simp [Plan.refuse])

/-- An eligible recovery: what was read, and the facts and operations of its case. -/
theorem compileRoleOnlyRecovery_compiled {inp : RecoveryInput} {q : Plan}
    (h : compileRoleOnlyRecovery inp = .ok q) (he : q.eligible) :
    ∃ (c : RecoveryCtx) (pol : LivePolicy) (facts : List Fact) (ops : List Op),
      c.inp = inp ∧ c.Ready pol ∧ c.Case facts ops ∧ q.Is .undo inp.undo.delivery facts ops ∧
      (inp.undo.delivery = deliveryDirect → ∀ o ∈ ops, o.outside = false) := by
  obtain ⟨⟨⟩, hcontrol, h⟩ := bind_eq_ok.1 h
  obtain ⟨⟨⟩, -, h⟩ := bind_eq_ok.1 h
  obtain ⟨⟨⟩, -, h⟩ := bind_eq_ok.1 h
  obtain ⟨undone, -, h⟩ := bind_eq_ok.1 h
  cases hrole : checkIncarnation inp.live inp.control.roleID with
  | error rs =>
      rw [hrole] at h
      obtain ⟨p, hp, h⟩ := bind_eq_ok.1 h
      have hr := (Plan.kept_of_eligible h he).refusals
      have hparts := congrArg PlanParts.refusals (parts_statePrecondition hp)
      exact absurd (hparts.symm.trans hr) (checkIncarnation_ne_nil hrole)
  | ok role =>
      rw [hrole] at h
      obtain ⟨hlive, hid⟩ := checkIncarnation_eq_ok hrole
      obtain ⟨st, hst, h⟩ := bind_eq_ok.1 h
      obtain ⟨p₁, hp₁, h⟩ := bind_eq_ok.1 h
      obtain ⟨p₂, hp₂, h⟩ := bind_eq_ok.1 h
      have hkept := Plan.kept_of_eligible h he
      have hr : p₂.refusals ++ outsideRefusals p₂ = [] := hkept.refusals
      obtain ⟨hr, houtside⟩ := List.append_eq_nil_iff.1 hr
      have hparts₁ := parts_statePrecondition hp₁
      rcases RecoveryCtx.build_eq_ok hp₂ with hne | ⟨hcase, hparts₂⟩
      · exact absurd hr hne
      have hrefusals := (congrArg PlanParts.refusals hparts₂).symm.trans hr
      obtain ⟨-, hlast⟩ := List.append_eq_nil_iff.1 hrefusals
      obtain ⟨hinstalled, hsame, hhash, hothers⟩ := recoveryRefusals_eq_nil hlast
      have hdelivery : p₂.delivery = inp.undo.delivery :=
        (congrArg PlanParts.delivery hparts₂).trans (congrArg PlanParts.delivery hparts₁)
      have hkind : p₂.kind = .undo :=
        (congrArg PlanParts.kind hparts₂).trans (congrArg PlanParts.kind hparts₁)
      obtain ⟨r, hr', ⟨-, rfl⟩ | ⟨pol, hash, hb, hpol, hdoc, rfl⟩⟩ := artifactState_eq_ok hst
      · exact absurd hsame.symm hinstalled
      · obtain rfl : role = r := Option.some.inj (hlive.symm.trans hr')
        simp only [Option.getD_some] at hsame hhash
        have hready : RecoveryCtx.Ready ⟨inp, role, _, _, _⟩ pol :=
          ⟨hcontrol, hlive, hid, hinstalled, hsame, hsame ▸ hpol, hhash ▸ hdoc, rfl, hothers⟩
        exact ⟨_, pol, _, _, rfl, hready, hcase, hkept.is ⟨rfl, rfl, hdelivery, hkind⟩,
          fun hdirect => outsideRefusals_eq_nil houtside (hdelivery.trans hdirect)⟩

/-! ## Removals -/

/-- What the builders of a removal are given: the role's boundary is the policy and the document
that AuthSec last deployed. -/
structure RemoveCtx.Ready (c : RemoveCtx) : Prop where
  control : c.inp.control.validate = .ok ()
  role : c.inp.live.role = some c.role
  roleID : c.role.roleID = c.inp.control.roleID
  arn : c.cur ≠ ""
  boundary : c.role.boundaryARN = c.cur
  policy : c.inp.live.policies.get? c.cur = some (some c.curPol)
  hash : documentHash c.curPol.defaultDocument = .ok c.curHash
  others : c.others = otherUsers (normalEntities c.curPol.attachmentSet) c.role.roleID
  deployed : c.inp.lastDeployed = ⟨c.cur, c.curHash⟩

/-- The facts of the boundary that the role leaves: deleted unless others use it. -/
def RemoveCtx.leftFacts (c : RemoveCtx) : List Fact :=
  if c.others = [] then c.deletedFacts else c.retainedFacts

def RemoveCtx.leftOps (c : RemoveCtx) : List Op :=
  if c.others = [] then deletePolicyOps c.cur else []

/-- The facts and the operations of a removal, by the boundary that the role had before. -/
inductive RemoveCtx.Case (c : RemoveCtx) : List Fact → List Op → Prop
  | detach (hbaseline : c.inp.baseline.boundaryARN = none) :
      c.Case ([factRole c.role.roleID, factBoundary c.cur valueNone] ++ c.leftFacts)
        (c.detachOp :: c.leftOps)
  | restore {bh : String} (hbaseline : c.inp.baseline.boundaryARN = some c.cur)
      (hdoc : documentHash c.inp.baseline.document = .ok bh) (hothers : c.others = []) :
      c.Case (c.restoreFacts bh) (c.restoreOps bh)
  | repoint {b bh : String} {bp : LivePolicy} {users : List AttachedEntity}
      (hbaseline : c.inp.baseline.boundaryARN = some b) (hne : b ≠ c.cur)
      (hpolicy : c.inp.live.policies.get? b = some (some bp))
      (hdoc : documentHash bp.defaultDocument = .ok bh)
      (husers : users = otherUsers bp.attachmentSet c.role.roleID) :
      c.Case ([factRole c.role.roleID, factBoundary c.cur b, factPolicyDoc b bh bh,
          factPolicyUsers b users users] ++ c.leftFacts)
        ({ op := .putRolePermissionsBoundary, roleName := c.role.name, policyARN := b } :: c.leftOps)

/-- What the builder of a removal leaves, or a refusal. -/
lemma RemoveCtx.build_eq_ok {c : RemoveCtx} {p p' : Plan} {text : Option Bytes}
    (h : c.build p = .ok (p', text)) :
    p'.refusals ≠ [] ∨ c.Case p'.facts p'.ops ∧
      p'.parts = { p.parts with facts := p'.facts, ops := p'.ops } := by
  unfold build at h
  cases hbaseline : c.inp.baseline.boundaryARN with
  | none =>
      rw [hbaseline] at h
      cases h
      have hcase := Case.detach (c := c) hbaseline
      simp only [detach, leftFacts, leftOps] at hcase ⊢
      split_ifs at hcase ⊢ <;> exact Or.inr ⟨hcase, rfl⟩
  | some b =>
      rw [hbaseline] at h
      dsimp only at h
      split_ifs at h with hb
      · subst hb
        obtain ⟨⟨p₁, bh⟩, hp₁, h⟩ := bind_eq_ok.1 h
        obtain ⟨⟨⟩, -, h⟩ := bind_eq_ok.1 h
        cases h
        obtain ⟨hparts, hdoc⟩ := Plan.parts_archiveText hp₁
        simp only [Plan.parts, PlanParts.mk.injEq] at hparts
        by_cases hothers : c.others = []
        · exact Or.inr ⟨.restore hbaseline hdoc hothers,
            by simp [Plan.parts, Plan.refuse, refuseIf, hparts, hothers]⟩
        · exact Or.inl (by simp [Plan.refuse, refuseIf, hothers])
      · obtain ⟨bp, hbp, h⟩ := bind_eq_ok.1 h
        cases bp with
        | none =>
            cases h
            exact Or.inl (by simp [Plan.refuse])
        | some bp =>
            obtain ⟨⟨p₁, bh⟩, hp₁, h⟩ := bind_eq_ok.1 h
            obtain ⟨hparts, hdoc⟩ := Plan.parts_archiveText hp₁
            have hcase := Case.repoint hbaseline hb (LiveRead.policy_eq_ok.1 hbp) hdoc rfl
            simp only [Plan.parts, PlanParts.mk.injEq] at hparts
            simp only [leftFacts, leftOps] at hcase
            dsimp only at h
            split_ifs at h hcase with hothers <;> cases h <;>
              exact Or.inr ⟨hcase, by simp [Plan.parts, hparts]⟩

/-- The last step of a removal keeps the facts and the operations, and refuses a direct plan that
names a policy that is not AuthSec's. -/
lemma RemoveCtx.finish_eq_ok {c : RemoveCtx} {p q : Plan} {text : Option Bytes}
    (h : c.finish p text = .ok q) (he : q.eligible) :
    p.refusals = [] ∧ q.Is p.kind p.delivery p.facts p.ops ∧
      (p.delivery = deliveryDirect → ∀ o ∈ p.ops, o.outside = false) := by
  obtain ⟨ch, -, h⟩ := bind_eq_ok.1 h
  have hkept := Plan.kept_of_eligible h he
  have hr : p.refusals ++ (outsideRefusals p).take 1 = [] := hkept.refusals
  obtain ⟨hr, houtside⟩ := List.append_eq_nil_iff.1 hr
  refine ⟨hr, hkept.is ⟨rfl, rfl, rfl, rfl⟩, outsideRefusals_eq_nil ?_⟩
  simpa using houtside

/-- An eligible removal: what was read, and the facts and operations of its case. -/
theorem compileRemoveControl_compiled {inp : RemoveControlInput} {q : Plan}
    (h : compileRemoveControl inp = .ok q) (he : q.eligible) :
    ∃ (c : RemoveCtx) (facts : List Fact) (ops : List Op),
      c.inp = inp ∧ c.Ready ∧ c.Case facts ops ∧ q.Is .removeControl inp.delivery facts ops ∧
      (inp.delivery = deliveryDirect → ∀ o ∈ ops, o.outside = false) := by
  obtain ⟨⟨⟩, hcontrol, h⟩ := bind_eq_ok.1 h
  obtain ⟨⟨⟩, -, h⟩ := bind_eq_ok.1 h
  obtain ⟨⟨⟩, -, h⟩ := bind_eq_ok.1 h
  obtain ⟨⟨⟩, -, h⟩ := bind_eq_ok.1 h
  cases hrole : checkIncarnation inp.live inp.control.roleID with
  | error rs =>
      rw [hrole] at h
      obtain ⟨p, hp, h⟩ := bind_eq_ok.1 h
      have hr := (Plan.kept_of_eligible h he).refusals
      have hparts := congrArg PlanParts.refusals (parts_statePrecondition hp)
      exact absurd (hparts.symm.trans hr) (checkIncarnation_ne_nil hrole)
  | ok role =>
      rw [hrole] at h
      obtain ⟨hlive, hid⟩ := checkIncarnation_eq_ok hrole
      obtain ⟨st, hst, h⟩ := bind_eq_ok.1 h
      obtain ⟨r, hr', ⟨-, rfl⟩ | ⟨pol, hash, hb, hpol, hdoc, rfl⟩⟩ := artifactState_eq_ok hst
      · cases h
      obtain rfl : role = r := Option.some.inj (hlive.symm.trans hr')
      obtain ⟨p₁, hp₁, h⟩ := bind_eq_ok.1 h
      obtain ⟨curPol, hcur, h⟩ := bind_eq_ok.1 h
      obtain rfl : some pol = curPol :=
        Option.some.inj (hpol.symm.trans (LiveRead.policy_eq_ok.1 hcur))
      obtain ⟨⟨p₂, hash'⟩, hp₂, h⟩ := bind_eq_ok.1 h
      obtain ⟨⟨p₃, text⟩, hp₃, h⟩ := bind_eq_ok.1 h
      obtain ⟨hr, his, houtside⟩ := RemoveCtx.finish_eq_ok h he
      rcases RemoveCtx.build_eq_ok hp₃ with hne | ⟨hcase, hparts₃⟩
      · exact absurd hr hne
      have hparts₁ := parts_statePrecondition hp₁
      have hparts₂ := (Plan.parts_archiveText hp₂).1
      have hdelivery : p₃.delivery = inp.delivery :=
        (congrArg PlanParts.delivery hparts₃).trans
          ((congrArg PlanParts.delivery hparts₂).trans (congrArg PlanParts.delivery hparts₁))
      have hkind : p₃.kind = .removeControl :=
        (congrArg PlanParts.kind hparts₃).trans
          ((congrArg PlanParts.kind hparts₂).trans (congrArg PlanParts.kind hparts₁))
      have hrefusals := (congrArg PlanParts.refusals hparts₃).symm.trans hr
      obtain ⟨-, hlast⟩ := List.append_eq_nil_iff.1 hrefusals
      rw [refuseIf_eq_nil, Bool.or_eq_false_iff, bne_eq_false_iff_eq, bne_eq_false_iff_eq] at hlast
      refine ⟨_, _, _, rfl, ?_, hcase, hkind ▸ hdelivery ▸ his, hdelivery ▸ houtside⟩
      exact ⟨hcontrol, hlive, hid, hb, rfl, hpol, hdoc, rfl, by rw [hlast.1, hlast.2]⟩

end

end AuthSec

import AuthSec.Plans.Restored

/-!
# Direct plans

The plans that AuthSec runs itself.  `Compiled` are the plans that the compilers return; a split is
never direct, so its compiler has no constructor here.  Every operation of a direct plan fits the
facts of the plan: it moves facts that the plan has, and moves them to their value after the plan.
-/

namespace AuthSec

open List

section

variable [Sha256]

/-- The plans that the compilers return. -/
inductive Compiled : Plan → Prop
  | apply {inp : TargetInput} {plans : TargetPlans} (h : compileTarget inp = .ok plans) :
      Compiled plans.apply
  | undo {inp : TargetInput} {plans : TargetPlans} {u : Plan} (h : compileTarget inp = .ok plans)
      (hu : plans.undo = some u) : Compiled u
  | recovery {inp : RecoveryInput} {p : Plan} (h : compileRoleOnlyRecovery inp = .ok p) :
      Compiled p
  | removal {inp : RemoveControlInput} {p : Plan} (h : compileRemoveControl inp = .ok p) :
      Compiled p

/-- A plan that the executor may run. -/
structure DirectPlan (p : Plan) : Prop where
  compiled : Compiled p
  eligible : p.eligible
  delivery : p.delivery = deliveryDirect

end

/-! ## Owners -/

lemma ControlRef.str_createTags (c : ControlRef) :
    c.createTags.str tagManagedBy = tagManagedByValue ∧
      c.createTags.str tagWorkspace = c.workspaceRef ∧ c.createTags.str tagControl = c.id := by
  refine ⟨?_, ?_, ?_⟩ <;>
    simp [GoMap.str, createTags, GoMap.get?_ofList_eq, tagManagedBy, tagWorkspace, tagControl,
      tagPolicy, tagChange]

lemma ControlRef.ownerValue_createTags (c : ControlRef) :
    AuthSec.ownerValue c.createTags = c.ownerValue := by
  obtain ⟨hmanaged, hworkspace, hcontrol⟩ := c.str_createTags
  rw [AuthSec.ownerValue, if_neg (not_not.2 hmanaged), hworkspace, hcontrol, ownerValue]

lemma ControlRef.workspaceRef_ne {c : ControlRef} (h : c.validate = .ok ()) :
    c.workspaceRef ≠ "" := by
  have hvalid := require_eq_ok.1 h
  tauto

/-! ## Operations that fit -/

/-- The facts have one about this subject, and every such fact ends with this value. -/
structure EndsWith (facts : List Fact) (kind : FactKind) (subject value : String) : Prop where
  found : ∃ f ∈ facts, f.kind = kind ∧ f.subject = subject
  value : ∀ f ∈ facts, f.kind = kind → f.subject = subject → f.after = value

lemma endsWith_cons {f : Fact} {facts : List Fact} {kind : FactKind} {subject value : String} :
    EndsWith (f :: facts) kind subject value ↔
      if f.kind = kind ∧ f.subject = subject then
        f.after = value ∧ ∀ g ∈ facts, g.kind = kind → g.subject = subject → g.after = value
      else EndsWith facts kind subject value := by
  split_ifs with hf
  · refine ⟨fun h => ?_, fun h => ⟨⟨f, mem_cons_self, hf⟩, ?_⟩⟩
    · simpa [hf] using h.value
    · simpa [hf] using h
  · constructor
    · rintro ⟨⟨g, hg, hgf⟩, hvalue⟩
      rcases mem_cons.1 hg with rfl | hg
      · exact absurd hgf hf
      · exact ⟨⟨g, hg, hgf⟩, fun g hg => hvalue g (mem_cons_of_mem f hg)⟩
    · rintro ⟨⟨g, hg, hgf⟩, hvalue⟩
      refine ⟨⟨g, mem_cons_of_mem f hg, hgf⟩, forall_mem_cons.2 ⟨?_, hvalue⟩⟩
      exact fun hkind hsubject => absurd ⟨hkind, hsubject⟩ hf

section

variable {o : Op} {facts : List Fact}

/-- An operation whose effect no read shows. -/
lemma Op.fits_of_unobservable (h : opEffects o = []) (hop : o.op ≠ .createPolicy)
    (hrole : o.roleARN = "") : o.Fits facts := by
  refine ⟨fun f _ hf => ?_, fun k hk => ?_, fun hcreate => absurd hcreate hop, hrole⟩
  · rw [Moves, h] at hf
    exact absurd hf not_mem_nil
  · rw [h] at hk
    exact absurd hk not_mem_nil

lemma Op.fits_put (hop : o.op = .putRolePermissionsBoundary) (hrole : o.roleARN = "")
    (h : EndsWith facts .roleBoundary "" o.policyARN) : o.Fits facts := by
  refine ⟨fun f hf hmoves => ?_, ?_, by simp [hop], hrole⟩
  · simp only [moves_iff, hop] at hmoves
    rw [written, hop, h.value f hf hmoves.2.1 hmoves.2.2]
  · simpa [opEffects, hop, hrole, Fact.key_eq_iff] using h.found

lemma Op.fits_delete (hop : o.op = .deleteRolePermissionsBoundary) (hrole : o.roleARN = "")
    (h : EndsWith facts .roleBoundary "" valueNone) : o.Fits facts := by
  refine ⟨fun f hf hmoves => ?_, ?_, by simp [hop], hrole⟩
  · simp only [moves_iff, hop] at hmoves
    rw [written, hop, h.value f hf hmoves.2.1 hmoves.2.2]
  · simpa [opEffects, hop, hrole, Fact.key_eq_iff] using h.found

lemma Op.fits_create (hop : o.op = .createPolicy) {ctl : ControlRef}
    (hcontrol : ctl.validate = .ok ()) (htags : o.tags = ctl.createTags) (hrole : o.roleARN = "")
    (hdoc : EndsWith facts .policyDocument o.policyARN o.documentHash)
    (howner : EndsWith facts .policyOwner o.policyARN ctl.ownerValue) : o.Fits facts := by
  obtain ⟨hmanaged, hworkspace, -⟩ := ctl.str_createTags
  refine ⟨fun f hf hmoves => ?_, ?_, fun _ => ?_, hrole⟩
  · simp only [moves_iff, hop] at hmoves
    obtain ⟨hkind | hkind, hsubject⟩ := hmoves
    · rw [written, hop, hkind, hdoc.value f hf hkind hsubject]
    · rw [written, hop, hkind, howner.value f hf hkind hsubject, htags, ctl.ownerValue_createTags]
  · simpa [opEffects, hop, Fact.key_eq_iff] using ⟨hdoc.found, howner.found⟩
  · rw [htags, hworkspace]
    exact ⟨hmanaged, ControlRef.workspaceRef_ne hcontrol⟩

/-- A new version gives the policy its document. -/
lemma newVersionOps_fit {ctl : ControlRef} {arn hash : String} {versions : ℤ}
    (h : EndsWith facts .policyDocument arn hash) :
    ∀ o ∈ newVersionOps ctl arn hash versions, o.Fits facts := by
  have hversion : Op.Fits
      { op := .createPolicyVersion, policyARN := arn, documentHash := hash, setAsDefault := true }
      facts := by
    refine ⟨fun f hf hmoves => ?_, ?_, nofun, rfl⟩
    · simp only [Op.moves_iff] at hmoves
      exact (h.value f hf hmoves.1 hmoves.2).symm
    · simpa [opEffects, Fact.key_eq_iff] using h.found
  intro o ho
  simp only [newVersionOps, mem_append, mem_cons, not_mem_nil, or_false] at ho
  rcases ho with ho | rfl | rfl
  · split_ifs at ho
    · rw [mem_singleton] at ho
      subst ho
      exact Op.fits_of_unobservable rfl nofun rfl
    · exact absurd ho not_mem_nil
  · exact hversion
  · exact Op.fits_of_unobservable rfl nofun rfl

/-- A deletion leaves neither the document nor the owner. -/
lemma deletePolicyOps_fit {arn : String} (hdoc : EndsWith facts .policyDocument arn valueAbsent)
    (howner : EndsWith facts .policyOwner arn valueAbsent) :
    ∀ o ∈ deletePolicyOps arn, o.Fits facts := by
  intro o ho
  simp only [deletePolicyOps, mem_cons, not_mem_nil, or_false] at ho
  rcases ho with rfl | rfl
  · exact Op.fits_of_unobservable rfl nofun rfl
  · refine ⟨fun f hf hmoves => ?_, ?_, nofun, rfl⟩
    · simp only [Op.moves_iff] at hmoves
      obtain ⟨hkind | hkind, hsubject⟩ := hmoves
      · exact (hdoc.value f hf hkind hsubject).symm
      · exact (howner.value f hf hkind hsubject).symm
    · simpa [opEffects, Fact.key_eq_iff] using ⟨hdoc.found, howner.found⟩

end

/-! ## The cases -/

section

variable {c : ApplyCtx}

lemma ApplyCtx.noneOps_fit (hcontrol : c.inp.control.validate = .ok ()) (h : String) :
    ∀ o ∈ c.noneOps h, o.Fits (c.noneFacts h) := by
  intro o ho
  simp only [noneOps, mem_cons, not_mem_nil, or_false] at ho
  rcases ho with rfl | rfl
  · exact Op.fits_create rfl hcontrol rfl rfl (by simp [endsWith_cons, noneFacts, roleFacts])
      (by simp [endsWith_cons, noneFacts, roleFacts])
  · exact Op.fits_put rfl rfl (by simp [endsWith_cons, noneFacts, roleFacts])

lemma ApplyCtx.noneUndoOps_fit (h : String) :
    ∀ o ∈ c.deleteBoundaryOp :: deletePolicyOps c.newARN, o.Fits (c.noneUndoFacts h) := by
  rw [forall_mem_cons]
  refine ⟨Op.fits_delete rfl rfl (by simp [endsWith_cons, noneUndoFacts, roleFacts]), ?_⟩
  exact deletePolicyOps_fit (by simp [endsWith_cons, noneUndoFacts, roleFacts])
    (by simp [endsWith_cons, noneUndoFacts, roleFacts])

lemma ApplyCtx.versionOps_fit {withDefinition : Bool} {others : List AttachedEntity}
    {before hash : String} {versions : ℤ} :
    ∀ o ∈ newVersionOps c.inp.control c.role.boundaryARN hash versions,
      o.Fits (c.versionFacts withDefinition others before hash) :=
  newVersionOps_fit (by cases withDefinition <;> simp [endsWith_cons, versionFacts, roleFacts])

end

/-- The facts about the boundary that the role leaves say nothing about the role. -/
lemma RemoveCtx.kind_leftFacts {c : RemoveCtx} : ∀ f ∈ c.leftFacts, f.kind ≠ .roleBoundary := by
  simp only [leftFacts, deletedFacts, retainedFacts, ownerFacts]
  split_ifs <;> simp

section

variable [Sha256]

lemma ApplyCtx.Compiled.delivery {c : ApplyCtx} {a u : Plan} (h : c.Compiled a u) :
    a.delivery = c.inp.intent.delivery ∧ u.delivery = c.inp.intent.delivery := by
  cases h with
  | none _ _ _ _ ha hu => exact ⟨ha.delivery, hu.delivery⟩
  | authsec _ _ _ _ _ ha hu => exact ⟨ha.delivery, hu.delivery⟩
  | exclusive _ _ _ _ _ ha hu => exact ⟨ha.delivery, hu.delivery⟩
  | shared _ _ _ _ _ _ ha hu => exact ⟨ha.delivery, hu.delivery⟩

/-- Direct apply and undo plans. -/
lemma ApplyCtx.Compiled.fits {c : ApplyCtx} {a u : Plan} (h : c.Compiled a u) (hready : c.Ready)
    (hdirect : c.inp.intent.delivery = deliveryDirect) :
    (∀ o ∈ a.ops, o.Fits a.facts) ∧ ∀ o ∈ u.ops, o.Fits u.facts := by
  obtain ⟨⟨⟩, hcontrol, -⟩ := bind_eq_ok.1 hready.check
  cases h with
  | none _ _ _ _ ha hu =>
      exact ⟨ha.fits (noneOps_fit hcontrol _), hu.fits (noneUndoOps_fit _)⟩
  | authsec _ _ _ _ _ ha hu =>
      refine ⟨ha.fits ?_, hu.fits ?_⟩
      · split_ifs
        · simp
        · exact versionOps_fit
      · split_ifs
        · simp
        · exact versionOps_fit
  | exclusive _ _ hdelivery => exact absurd hdirect hdelivery
  | shared _ _ hdelivery => exact absurd hdirect hdelivery

/-- Recoveries. -/
lemma RecoveryCtx.Case.fits {c : RecoveryCtx} {pol : LivePolicy} {facts : List Fact}
    {ops : List Op} (h : c.Case facts ops) (hready : c.Ready pol) : ∀ o ∈ ops, o.Fits facts := by
  cases h with
  | detach _ =>
      rw [forall_mem_singleton]
      exact Op.fits_delete rfl rfl (by simp [endsWith_cons, installedFacts])
  | newPolicy hdoc hfree =>
      have hne : c.installed ≠ c.newARN := by
        intro h
        rw [← h, LiveRead.hasPolicy, hready.policy] at hfree
        cases hfree
      intro o ho
      simp only [newPolicyOps, mem_cons, not_mem_nil, or_false] at ho
      rcases ho with rfl | rfl
      · exact Op.fits_create rfl hready.control rfl rfl
          (by simp [endsWith_cons, newPolicyFacts, installedFacts, hne])
          (by simp [endsWith_cons, newPolicyFacts, installedFacts, hne])
      · exact Op.fits_put rfl rfl (by simp [endsWith_cons, newPolicyFacts, installedFacts])
  | repoint _ _ _ =>
      rw [forall_mem_singleton]
      exact Op.fits_put rfl rfl (by simp [endsWith_cons, repointFacts])

/-- The policy that a removal deletes is AuthSec's if it names no policy outside. -/
lemma RemoveCtx.leftOps_fit {c : RemoveCtx} (hready : c.Ready) {base : List Fact}
    (hinside : ∀ o ∈ c.leftOps, o.outside = false)
    (hbase : ∀ f ∈ base, f.kind = .policyDocument ∨ f.kind = .policyOwner → f.subject ≠ c.cur) :
    ∀ o ∈ c.leftOps, o.Fits (base ++ c.leftFacts) := by
  unfold leftOps leftFacts at *
  split_ifs with hothers
  · rw [if_pos hothers] at hinside
    have hpath : isAuthSecPath c.cur := by
      have hdelete := hinside { op := .deletePolicy, policyARN := c.cur } (by simp [deletePolicyOps])
      simpa [Op.outside, hready.arn] using hdelete
    have hends : ∀ kind, kind = .policyDocument ∨ kind = .policyOwner →
        EndsWith (base ++ c.deletedFacts) kind c.cur valueAbsent := by
      intro kind hkind
      have hleft : EndsWith c.deletedFacts kind c.cur valueAbsent := by
        rcases hkind with rfl | rfl <;> simp [endsWith_cons, deletedFacts, ownerFacts, hpath]
      obtain ⟨⟨f, hf, hfound⟩, hvalue⟩ := hleft
      refine ⟨⟨f, mem_append_right base hf, hfound⟩, fun g hg hgk hgs => ?_⟩
      rcases mem_append.1 hg with hg | hg
      · exact absurd hgs (hbase g hg (hgk ▸ hkind))
      · exact hvalue g hg hgk hgs
    exact deletePolicyOps_fit (hends _ (Or.inl rfl)) (hends _ (Or.inr rfl))
  · simp

/-- Removals that name no policy outside AuthSec's. -/
lemma RemoveCtx.Case.fits {c : RemoveCtx} {facts : List Fact} {ops : List Op}
    (h : c.Case facts ops) (hready : c.Ready) (hinside : ∀ o ∈ ops, o.outside = false) :
    ∀ o ∈ ops, o.Fits facts := by
  cases h with
  | detach _ =>
      rw [forall_mem_cons] at hinside ⊢
      refine ⟨Op.fits_delete rfl rfl ?_, leftOps_fit hready hinside.2 (by simp)⟩
      simpa [endsWith_cons] using fun f hf hkind => absurd hkind (kind_leftFacts f hf)
  | restore _ _ _ =>
      unfold restoreOps at hinside ⊢
      split_ifs at hinside ⊢ with hsame hpath
      · simp
      · exact newVersionOps_fit (by simp [endsWith_cons, restoreFacts, ownerFacts, hpath])
      · simp [Op.outside, hready.arn, hpath] at hinside
  | repoint _ hne _ _ _ =>
      rw [forall_mem_cons] at hinside ⊢
      refine ⟨Op.fits_put rfl rfl ?_, leftOps_fit hready hinside.2 (by simp [hne])⟩
      simpa [endsWith_cons] using fun f hf hkind => absurd hkind (kind_leftFacts f hf)

/-- Every operation of a direct plan fits the plan's facts. -/
theorem DirectPlan.fits {p : Plan} (h : DirectPlan p) : ∀ o ∈ p.ops, o.Fits p.facts := by
  obtain ⟨hcompiled, he, hdirect⟩ := h
  cases hcompiled with
  | apply h =>
      obtain ⟨c, rfl, hready, u, -, hcase⟩ := compileTarget_compiled h he
      exact (hcase.fits hready (hcase.delivery.1 ▸ hdirect)).1
  | undo h hu =>
      obtain ⟨c, rfl, hready, u, hu', hcase⟩ := compileTarget_compiled h (eligible_of_undo h hu)
      obtain rfl := Option.some.inj (hu.symm.trans hu')
      exact (hcase.fits hready (hcase.delivery.2 ▸ hdirect)).2
  | recovery h =>
      obtain ⟨c, pol, facts, ops, rfl, hready, hcase, his, -⟩ :=
        compileRoleOnlyRecovery_compiled h he
      exact his.fits (hcase.fits hready)
  | removal h =>
      obtain ⟨c, facts, ops, rfl, hready, hcase, his, hinside⟩ := compileRemoveControl_compiled h he
      exact his.fits (hcase.fits hready (hinside (his.delivery.symm.trans hdirect)))

end

end AuthSec

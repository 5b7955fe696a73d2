import AuthSec.Plans.Recovery

/-!
# What the compilers leave

Inversions of the compilers: the facts and the operations of the plans that they return, and what
an eligible plan says about the input.
-/

namespace AuthSec

open List

/-! ## Keys of facts -/

lemma FactKind.text_injective : Function.Injective FactKind.text := by
  intro k k' h
  cases k <;> cases k' <;> first | rfl | exact absurd h (by decide)

lemma FactKind.colon_notMem_text (k : FactKind) : ∀ ch ∈ k.text.toList, decide (ch ≠ ':') := by
  cases k <;> decide

/-- The part of a key behind the kind. -/
def keyTail (subject : String) : List Char :=
  if subject = "" then [] else ':' :: subject.toList

lemma toList_factKey (k : FactKind) (s : String) :
    (factKey k s).toList = k.text.toList ++ keyTail s := by
  unfold factKey keyTail
  split_ifs <;> simp

lemma takeWhile_factKey (k : FactKind) (s : String) :
    (factKey k s).toList.takeWhile (fun ch => decide (ch ≠ ':')) = k.text.toList := by
  rw [toList_factKey, takeWhile_append_of_pos k.colon_notMem_text]
  unfold keyTail
  split_ifs <;> simp

lemma keyTail_injective : Function.Injective keyTail := by
  intro s s' h
  unfold keyTail at h
  split_ifs at h with hs hs'
  · rw [hs, hs']
  · exact String.ext (List.cons.inj h).2

/-- A key determines the kind and the subject of its fact. -/
lemma factKey_inj {k k' : FactKind} {s s' : String} :
    factKey k s = factKey k' s' ↔ k = k' ∧ s = s' := by
  constructor
  · intro h
    have hkind : k = k' := by
      apply FactKind.text_injective
      apply String.ext
      rw [← takeWhile_factKey k s, ← takeWhile_factKey k' s', h]
    subst hkind
    refine ⟨rfl, keyTail_injective ?_⟩
    have htail := congrArg String.toList h
    rwa [toList_factKey, toList_factKey, append_cancel_left_eq] at htail
  · rintro ⟨rfl, rfl⟩
    rfl

lemma Fact.key_eq_iff {f : Fact} {k : FactKind} {s : String} :
    f.key = factKey k s ↔ f.kind = k ∧ f.subject = s :=
  factKey_inj

/-! ## The facts that an operation moves -/

/-- The operation moves the fact. -/
def Op.Moves (o : Op) (f : Fact) : Prop :=
  f.key ∈ opEffects o

/-- The kinds of facts that an operation moves, about the policy or the role that it names. -/
lemma Op.moves_iff {o : Op} {f : Fact} : o.Moves f ↔
    match o.op with
    | .createPolicy | .deletePolicy =>
        (f.kind = .policyDocument ∨ f.kind = .policyOwner) ∧ f.subject = o.policyARN
    | .createPolicyVersion => f.kind = .policyDocument ∧ f.subject = o.policyARN
    | .putRolePermissionsBoundary | .deleteRolePermissionsBoundary =>
        o.roleARN = "" ∧ f.kind = .roleBoundary ∧ f.subject = ""
    | .createRole | .deleteRole => f.kind = .newRole ∧ f.subject = o.roleARN
    | .bindSubject => f.kind = .binding ∧ f.subject = o.subjectARN
    | _ => False := by
  unfold Moves opEffects
  cases o.op <;> simp [Fact.key_eq_iff, or_and_right]

/-- The value that the operation gives a fact that it moves. -/
def Op.written (o : Op) (f : Fact) : String :=
  match o.op, f.kind with
  | .createPolicy, .policyOwner => ownerValue o.tags
  | .createPolicy, _ | .createPolicyVersion, _ => o.documentHash
  | .deletePolicy, _ => valueAbsent
  | .putRolePermissionsBoundary, _ => o.policyARN
  | .deleteRolePermissionsBoundary, _ => valueNone
  | _, _ => f.after

/-- An operation fits the facts of its plan. -/
structure Op.Fits (o : Op) (facts : List Fact) : Prop where
  /-- it gives the facts that it moves their values after the plan -/
  written : ∀ f ∈ facts, o.Moves f → o.written f = f.after
  /-- the plan has every fact that it moves -/
  covered : ∀ k ∈ opEffects o, ∃ f ∈ facts, f.key = k
  /-- what it creates is AuthSec's -/
  managed : o.op = .createPolicy →
    o.tags.str tagManagedBy = tagManagedByValue ∧ o.tags.str tagWorkspace ≠ ""
  /-- it is about no other role than the plan's -/
  own : o.roleARN = ""

/-! ## Sealing -/

section

variable [Sha256]

/-- What a sealed plan is, hashes apart. -/
lemma Plan.sealed_eq_ok {p q : Plan} (h : p.sealed = .ok q) :
    q = { p.settle with
      facts := sortFacts p.facts
      impact := p.impact.normalized
      impactHash := q.impactHash
      planHash := q.planHash
      materialHash := q.materialHash } ∧ q.violations = [] := by
  obtain ⟨ih, -, h⟩ := bind_eq_ok.1 h
  obtain ⟨ph, -, h⟩ := bind_eq_ok.1 h
  obtain ⟨mh, -, h⟩ := bind_eq_ok.1 h
  obtain ⟨u, hcheck, h⟩ := bind_eq_ok.1 h
  cases h
  exact ⟨rfl, require_eq_ok.1 hcheck⟩

/-- An eligible sealed plan was not refused, and kept its operations. -/
structure Plan.Kept (p q : Plan) : Prop where
  refusals : p.refusals = []
  eligibility : q.eligibility = p.eligibility
  eligible : p.eligibility ≠ .ineligible
  facts : q.facts = sortFacts p.facts
  ops : q.ops = p.ops
  delivery : q.delivery = p.delivery
  kind : q.kind = p.kind

lemma Plan.kept_of_refusals {p q : Plan} (h : p.sealed = .ok q) (hr : p.refusals = [])
    (he : p.eligibility ≠ .ineligible) : p.Kept q := by
  obtain ⟨hq, -⟩ := sealed_eq_ok h
  have hsettle : p.settle = p := if_pos hr
  rw [hsettle] at hq
  exact ⟨hr, by rw [hq], he, by rw [hq], by rw [hq], by rw [hq], by rw [hq]⟩

lemma Plan.kept_of_eligible {p q : Plan} (h : p.sealed = .ok q) (he : q.eligible) : p.Kept q := by
  obtain ⟨hq, -⟩ := sealed_eq_ok h
  have hne : q.eligibility ≠ .ineligible := of_decide_eq_true he
  by_cases hr : p.refusals = []
  · have hsettle : p.settle = p := if_pos hr
    rw [hsettle] at hq
    refine kept_of_refusals h hr ?_
    rw [hq] at hne
    exact hne
  · have hsettle : p.settle.eligibility = .ineligible := by rw [settle, if_neg hr]
    rw [hq] at hne
    exact absurd hsettle hne

end

/-! ## The parts of a plan that decide what it does -/

structure PlanParts where
  refusals : List Refusal
  facts : List Fact
  ops : List Op
  delivery : String
  kind : PlanKind
  eligibility : Eligibility

def Plan.parts (p : Plan) : PlanParts :=
  ⟨p.refusals, p.facts, p.ops, p.delivery, p.kind, p.eligibility⟩

/-- A plan that was not refused, with these facts and operations. -/
structure Plan.Is (p : Plan) (kind : PlanKind) (delivery : String) (facts : List Fact)
    (ops : List Op) : Prop where
  kind : p.kind = kind
  delivery : p.delivery = delivery
  facts : p.facts = sortFacts facts
  ops : p.ops = ops

lemma Plan.Kept.is {p q : Plan} (h : p.Kept q) {kind : PlanKind} {delivery : String}
    {facts : List Fact} {ops : List Op} (hp : p.facts = facts ∧ p.ops = ops ∧
      p.delivery = delivery ∧ p.kind = kind) : q.Is kind delivery facts ops := by
  obtain ⟨hf, ho, hd, hk⟩ := hp
  exact ⟨h.kind.trans hk, h.delivery.trans hd, by rw [h.facts, hf], h.ops.trans ho⟩

lemma Plan.Is.fits {p : Plan} {kind : PlanKind} {delivery : String} {facts : List Fact}
    {ops : List Op} (h : p.Is kind delivery facts ops) (hfits : ∀ o ∈ ops, o.Fits facts) :
    ∀ o ∈ p.ops, o.Fits p.facts := by
  intro o ho
  have hmem : ∀ f, f ∈ p.facts ↔ f ∈ facts := fun f => by rw [h.facts, sortFacts, mem_sortOn]
  obtain ⟨hwritten, hcovered, hmanaged, hown⟩ := hfits o (h.ops ▸ ho)
  exact ⟨by simpa only [hmem] using hwritten, by simpa only [hmem] using hcovered, hmanaged, hown⟩

section

variable (p : Plan)

@[simp]
lemma Plan.parts_refuse (rs : List Refusal) :
    (p.refuse rs).parts = { p.parts with refusals := p.refusals ++ rs } := rfl

@[simp]
lemma Plan.parts_archive (hash : String) (canonical : Bytes) :
    (p.archive hash canonical).parts = p.parts := by
  unfold archive
  split_ifs <;> rfl

@[simp]
lemma Plan.refusals_archive (hash : String) (canonical : Bytes) :
    (p.archive hash canonical).refusals = p.refusals :=
  congrArg PlanParts.refusals (p.parts_archive hash canonical)

@[simp]
lemma Plan.ops_archive (hash : String) (canonical : Bytes) :
    (p.archive hash canonical).ops = p.ops :=
  congrArg PlanParts.ops (p.parts_archive hash canonical)

@[simp]
lemma Plan.delivery_archive (hash : String) (canonical : Bytes) :
    (p.archive hash canonical).delivery = p.delivery :=
  congrArg PlanParts.delivery (p.parts_archive hash canonical)

@[simp]
lemma Plan.kind_archive (hash : String) (canonical : Bytes) :
    (p.archive hash canonical).kind = p.kind :=
  congrArg PlanParts.kind (p.parts_archive hash canonical)

@[simp]
lemma Plan.eligibility_archive (hash : String) (canonical : Bytes) :
    (p.archive hash canonical).eligibility = p.eligibility :=
  congrArg PlanParts.eligibility (p.parts_archive hash canonical)

lemma Plan.parts_archiveText [Sha256] {p q : Plan} {text : Bytes} {h : String}
    (hq : p.archiveText text = .ok (q, h)) :
    q.parts = p.parts ∧ documentHash text = .ok h := by
  obtain ⟨c, hc, hq⟩ := map_eq_ok.1 hq
  cases hq
  exact ⟨p.parts_archive _ _, by rw [documentHash, hc]; rfl⟩

end

namespace ApplyCtx

variable {c : ApplyCtx} {p q p' u : Plan}

lemma parts_setDiff {case : PlanCase} {before after : Option BoundaryRef}
    {beforeText afterText : Option Bytes}
    (h : c.setDiff p case before after beforeText afterText = .ok q) : q.parts = p.parts := by
  obtain ⟨ch, -, h⟩ := bind_eq_ok.1 h
  cases h
  rfl

variable [Sha256]

lemma parts_undoBase {post : ArtifactStateFacts} (h : c.undoBase p post = .ok u) :
    u.parts = ⟨[], [], [], c.inp.intent.delivery, .undo, p.eligibility⟩ := by
  obtain ⟨pc, -, h⟩ := bind_eq_ok.1 h
  obtain ⟨ph, -, h⟩ := bind_eq_ok.1 h
  cases h
  rfl

/-- What the builder for a role without a boundary leaves. -/
lemma none_eq_ok (h : c.none p = .ok (p', u)) : ∃ doc, excludeOnlyDocument c.removed = .ok doc ∧
    p'.parts = { p.parts with
      refusals := p.refusals ++
        refuseIf (nameTooLong (authSecBoundaryName c.role.roleID)) .policyNameTooLong
          (authSecBoundaryName c.role.roleID) ++
        (sizeRefusal doc ++ c.nameInUseRefusal ++ c.firstAttachmentProof.refusals)
      facts := c.noneFacts (contentHash doc)
      ops := c.noneOps (contentHash doc) } ∧
    u.parts = ⟨[], c.noneUndoFacts (contentHash doc), c.deleteBoundaryOp :: deletePolicyOps c.newARN,
      c.inp.intent.delivery, .undo, p.eligibility⟩ := by
  obtain ⟨doc, hdoc, h⟩ := bind_eq_ok.1 h
  obtain ⟨p₁, hp₁, h⟩ := bind_eq_ok.1 h
  obtain ⟨u₀, hu₀, h⟩ := bind_eq_ok.1 h
  obtain ⟨u₁, hu₁, h⟩ := bind_eq_ok.1 h
  cases h
  have hparts := parts_setDiff hp₁
  have hundo := parts_undoBase hu₀
  have hparts' := parts_setDiff hu₁
  refine ⟨doc, hdoc, ?_, ?_⟩
  · simp only [Plan.parts, PlanParts.mk.injEq] at hparts ⊢
    obtain ⟨hr, -, ho, hd, hk, he⟩ := hparts
    simp [hr, ho, hd, hk, he, Plan.refuse]
  · simp only [Plan.parts, PlanParts.mk.injEq] at hundo hparts' hparts ⊢
    simp [restoredImpact, hparts', hundo, hparts, Plan.refuse]

variable {cur : CurrentBoundary} {out : Option Plan}

/-- What the builder for AuthSec's own boundary leaves. -/
lemma authsec_eq_ok (h : c.authsec cur p = .ok (p', u)) :
    ∃ doc, excludeOnlyDocument c.removed = .ok doc ∧
      p'.parts = { p.parts with
        refusals := p.refusals ++ (c.ownerRefusal cur ++ c.consumersRefusal cur) ++ sizeRefusal doc
        facts := c.versionFacts true cur.others cur.hash (contentHash doc)
        ops := p.ops ++ if contentHash doc = cur.hash then [] else
          newVersionOps c.inp.control c.role.boundaryARN (contentHash doc)
            cur.policy.versionCount } ∧
      u.parts = ⟨[], c.versionFacts false cur.others (contentHash doc) cur.hash,
        if contentHash doc = cur.hash then [] else
          newVersionOps c.inp.control c.role.boundaryARN cur.hash (versionsAfter cur),
        c.inp.intent.delivery, .undo, p.eligibility⟩ := by
  obtain ⟨doc, hdoc, h⟩ := bind_eq_ok.1 h
  obtain ⟨p₁, hp₁, h⟩ := bind_eq_ok.1 h
  obtain ⟨u₀, hu₀, h⟩ := bind_eq_ok.1 h
  obtain ⟨u₁, hu₁, h⟩ := bind_eq_ok.1 h
  cases h
  have hparts := parts_setDiff hp₁
  have hundo := parts_undoBase hu₀
  have hparts' := parts_setDiff hu₁
  simp only [Plan.parts, PlanParts.mk.injEq] at hparts hundo hparts'
  refine ⟨doc, hdoc, ?_, ?_⟩
  · split_ifs at hparts ⊢ <;> simp [Plan.parts, hparts, Plan.refuse]
  · split_ifs at hparts hparts' ⊢ <;>
      simp [Plan.parts, restoredImpact, hparts', hundo, hparts, Plan.refuse]

/-- A narrowed document, or a refusal. -/
lemma narrow_eq_ok {out : Option (Bytes × Narrowing)} (h : c.narrow cur p = .ok (p', out)) :
    (∃ refusal, out = .none ∧ p'.parts = { p.parts with refusals := p.refusals ++ [refusal] }) ∨
    ∃ doc n, narrowCustomerBoundary cur.policy.defaultDocument c.removed = .ok (.ok (doc, n)) ∧
      out = some (doc, n) ∧
      p'.parts = { p.parts with refusals := p.refusals ++ sizeRefusal doc } := by
  obtain ⟨res, hres, h⟩ := bind_eq_ok.1 h
  cases res with
  | error refusal =>
      cases h
      exact Or.inl ⟨refusal, rfl, rfl⟩
  | ok dn =>
      obtain ⟨doc, n⟩ := dn
      cases h
      refine Or.inr ⟨doc, n, hres, rfl, ?_⟩
      simp

/-- What the builder for a customer's boundary that only the role uses leaves. -/
lemma customerExclusive_eq_ok (h : c.customerExclusive cur p = .ok (p', out)) :
    p'.refusals ≠ [] ∨
      ∃ doc n u, narrowCustomerBoundary cur.policy.defaultDocument c.removed =
          .ok (.ok (doc, n)) ∧ out = some u ∧
        p'.parts = { p.parts with
          refusals := p.refusals ++ c.exclusiveRefusal p.delivery ++ sizeRefusal doc
          facts := c.customerFacts true [] cur.hash (contentHash doc)
          ops := if n.changed then [newDocumentOp c.role.boundaryARN (contentHash doc)] else p.ops
          eligibility := .iacOnly } ∧
        u.parts = ⟨[], c.customerFacts false [] (contentHash doc) cur.hash,
          if n.changed then [newDocumentOp c.role.boundaryARN cur.hash] else [],
          c.inp.intent.delivery, .undo, .iacOnly⟩ := by
  obtain ⟨⟨p₀, res⟩, hnarrow, h⟩ := bind_eq_ok.1 h
  rcases narrow_eq_ok hnarrow with ⟨refusal, rfl, hp₀⟩ | ⟨doc, n, hdoc, rfl, hp₀⟩
  · cases h
    simp only [Plan.parts, PlanParts.mk.injEq] at hp₀
    exact Or.inl (by simp [hp₀])
  · obtain ⟨p₁, hp₁, h⟩ := bind_eq_ok.1 h
    obtain ⟨u₀, hu₀, h⟩ := bind_eq_ok.1 h
    obtain ⟨u₁, hu₁, h⟩ := bind_eq_ok.1 h
    cases h
    have hparts := parts_setDiff hp₁
    have hundo := parts_undoBase hu₀
    have hparts' := parts_setDiff hu₁
    simp only [Plan.parts, PlanParts.mk.injEq] at hp₀ hparts hundo hparts'
    refine Or.inr ⟨doc, n, _, hdoc, rfl, ?_, ?_⟩
    · split_ifs at hparts ⊢ <;> simp [Plan.parts, hparts, hp₀, Plan.refuse]
    · split_ifs at hparts hparts' ⊢ <;>
        simp [Plan.parts, restoredImpact, hparts', hundo, hparts, hp₀, Plan.refuse]

lemma sharedUnchanged_eq_ok (h : c.sharedUnchanged cur p = .ok (p', out)) :
    ∃ u, out = some u ∧
      p'.parts = { p.parts with facts := c.customerFacts true cur.others cur.hash cur.hash } ∧
      u.parts = ⟨[], c.customerFacts false cur.others cur.hash cur.hash, [],
        c.inp.intent.delivery, .undo, p.eligibility⟩ := by
  obtain ⟨p₁, hp₁, h⟩ := bind_eq_ok.1 h
  obtain ⟨u₀, hu₀, h⟩ := bind_eq_ok.1 h
  obtain ⟨u₁, hu₁, h⟩ := bind_eq_ok.1 h
  cases h
  have hparts := parts_setDiff hp₁
  have hundo := parts_undoBase hu₀
  have hparts' := parts_setDiff hu₁
  simp only [Plan.parts, PlanParts.mk.injEq] at hparts hundo hparts'
  exact ⟨_, rfl, by simp [Plan.parts, hparts], by simp [Plan.parts, hparts', hundo, hparts]⟩

lemma sharedCopy_eq_ok {doc : Bytes} (h : c.sharedCopy cur doc p = .ok (p', out)) :
    ∃ u, out = some u ∧
      p'.parts = { p.parts with
        refusals := p.refusals ++ c.copyRefusal cur
        facts := c.copyFacts cur (contentHash doc)
        ops := c.copyOps cur (contentHash doc) } ∧
      u.parts = ⟨[], c.copyUndoFacts cur (contentHash doc),
        c.putBoundaryOp c.role.boundaryARN :: deletePolicyOps (c.copyARN cur),
        c.inp.intent.delivery, .undo, p.eligibility⟩ := by
  obtain ⟨p₁, hp₁, h⟩ := bind_eq_ok.1 h
  obtain ⟨u₀, hu₀, h⟩ := bind_eq_ok.1 h
  obtain ⟨u₁, hu₁, h⟩ := bind_eq_ok.1 h
  cases h
  have hparts := parts_setDiff hp₁
  have hundo := parts_undoBase hu₀
  have hparts' := parts_setDiff hu₁
  simp only [Plan.parts, PlanParts.mk.injEq] at hparts hundo hparts'
  exact ⟨_, rfl, by simp [Plan.parts, hparts, Plan.refuse],
    by simp [Plan.parts, restoredImpact, hparts', hundo, hparts, Plan.refuse]⟩

/-- What the builder for a customer's boundary with other users leaves. -/
lemma customerShared_eq_ok (h : c.customerShared cur p = .ok (p', out)) :
    p'.refusals ≠ [] ∨
      ∃ doc n u, narrowCustomerBoundary cur.policy.defaultDocument c.removed =
          .ok (.ok (doc, n)) ∧ out = some u ∧
        p'.parts = { p.parts with
          refusals := p.refusals ++ (c.sharedRefusal p.delivery ++
            refuseIf (nameTooLong (c.copyName cur)) .policyNameTooLong (c.copyName cur)) ++
            sizeRefusal doc ++ if n.changed then c.copyRefusal cur else []
          facts := if n.changed then c.copyFacts cur (contentHash doc)
            else c.customerFacts true cur.others cur.hash cur.hash
          ops := if n.changed then c.copyOps cur (contentHash doc) else p.ops
          eligibility := .iacOnly } ∧
        u.parts = ⟨[], if n.changed then c.copyUndoFacts cur (contentHash doc)
            else c.customerFacts false cur.others cur.hash cur.hash,
          if n.changed then c.putBoundaryOp c.role.boundaryARN :: deletePolicyOps (c.copyARN cur)
            else [],
          c.inp.intent.delivery, .undo, .iacOnly⟩ := by
  obtain ⟨⟨p₀, res⟩, hnarrow, h⟩ := bind_eq_ok.1 h
  rcases narrow_eq_ok hnarrow with ⟨refusal, rfl, hp₀⟩ | ⟨doc, n, hdoc, rfl, hp₀⟩
  · cases h
    simp only [Plan.parts, PlanParts.mk.injEq] at hp₀
    exact Or.inl (by simp [hp₀])
  · refine Or.inr ⟨doc, n, ?_⟩
    simp only [Plan.parts, PlanParts.mk.injEq] at hp₀
    dsimp only at h
    split_ifs at h with hn
    · obtain ⟨u, rfl, hparts, hundo⟩ := sharedCopy_eq_ok h
      simp only [Plan.parts, PlanParts.mk.injEq] at hparts hundo
      exact ⟨u, hdoc, rfl, by simp [Plan.parts, hparts, hp₀, hn, Plan.refuse],
        by simp [Plan.parts, hundo, hp₀, hn, Plan.refuse]⟩
    · obtain ⟨u, rfl, hparts, hundo⟩ := sharedUnchanged_eq_ok h
      simp only [Plan.parts, PlanParts.mk.injEq] at hparts hundo
      exact ⟨u, hdoc, rfl, by simp [Plan.parts, hparts, hp₀, hn, Plan.refuse],
        by simp [Plan.parts, hundo, hp₀, hn, Plan.refuse]⟩

end ApplyCtx

/-! ## Compiled targets -/

lemma refuseIf_eq_nil {bad : Bool} {code : RefusalCode} {detail : String} :
    refuseIf bad code detail = [] ↔ bad = false := by
  unfold refuseIf
  split_ifs with hb <;> simp [hb]

variable {live : LiveRead} {roleID : String}

lemma LiveRead.policy_eq_ok {arn : String} {p : Option LivePolicy} :
    live.policy arn = .ok p ↔ live.policies.get? arn = some p := by
  unfold policy
  cases live.policies.get? arn <;> simp

lemma checkIncarnation_eq_ok {role : LiveRole} (h : checkIncarnation live roleID = .ok role) :
    live.role = some role ∧ role.roleID = roleID := by
  unfold checkIncarnation at h
  cases hr : live.role with
  | none =>
      rw [hr] at h
      cases h
  | some r =>
      rw [hr] at h
      dsimp only at h
      split_ifs at h with hne
      cases h
      exact ⟨rfl, not_not.1 hne⟩

lemma checkIncarnation_ne_nil {rs : List Refusal} (h : checkIncarnation live roleID = .error rs) :
    rs ≠ [] := by
  unfold checkIncarnation at h
  cases hr : live.role with
  | none =>
      rw [hr] at h
      cases h
      exact cons_ne_nil _ _
  | some r =>
      rw [hr] at h
      dsimp only at h
      split_ifs at h
      cases h
      exact cons_ne_nil _ _

section

variable [Sha256]

/-- The boundary of the role in a read. -/
structure CurrentBoundary.Reads (cur : CurrentBoundary) (live : LiveRead) (role : LiveRole) :
    Prop where
  arn : role.boundaryARN ≠ ""
  policy : live.policies.get? role.boundaryARN = some (some cur.policy)
  hash : documentHash cur.policy.defaultDocument = .ok cur.hash
  others : cur.others = otherUsers cur.policy.attachmentSet role.roleID

lemma currentBoundary_eq_ok {role : LiveRole} {p p' : Plan} {cur : Option CurrentBoundary}
    (h : currentBoundary live role p = .ok (p', cur)) :
    p'.parts = p.parts ∧
      ((role.boundaryARN = "" ∧ cur = none) ∨ ∃ b, cur = some b ∧ b.Reads live role) := by
  unfold currentBoundary at h
  split_ifs at h with hb
  · cases h
    exact ⟨rfl, Or.inl ⟨hb, rfl⟩⟩
  · obtain ⟨pol, hpol, h⟩ := bind_eq_ok.1 h
    cases pol with
    | none => cases h
    | some pol =>
        obtain ⟨⟨p₁, hash⟩, hp₁, h⟩ := bind_eq_ok.1 h
        cases h
        obtain ⟨hparts, hhash⟩ := Plan.parts_archiveText hp₁
        refine ⟨hparts, Or.inr ⟨_, rfl, hb, LiveRead.policy_eq_ok.1 hpol, hhash, rfl⟩⟩

/-- What the builders are given. -/
structure ApplyCtx.Ready (c : ApplyCtx) : Prop where
  check : c.inp.check = .ok ()
  role : c.inp.live.role = some c.role
  roleID : c.role.roleID = c.inp.control.roleID
  defHash : roleDefinitionHash c.role = .ok c.defHash
  eligible : roleEligibility c.role = []

/-- The apply plan and the undo plan of an eligible target, by the boundary that the role had. -/
inductive ApplyCtx.Compiled (c : ApplyCtx) : Plan → Plan → Prop
  | none {a u : Plan} {doc : Bytes} (hboundary : c.role.boundaryARN = "")
      (hdoc : excludeOnlyDocument c.removed = .ok doc) (hfree : c.nameInUseRefusal = [])
      (hproof : c.firstAttachmentProof.refusals = [])
      (ha : a.Is .apply c.inp.intent.delivery (c.noneFacts (contentHash doc))
        (c.noneOps (contentHash doc)))
      (hu : u.Is .undo c.inp.intent.delivery (c.noneUndoFacts (contentHash doc))
        (c.deleteBoundaryOp :: deletePolicyOps c.newARN)) : c.Compiled a u
  | authsec {a u : Plan} {cur : CurrentBoundary} {doc : Bytes}
      (hcur : cur.Reads c.inp.live c.role) (hpath : isAuthSecPath c.role.boundaryARN)
      (hdoc : excludeOnlyDocument c.removed = .ok doc) (howner : c.ownerRefusal cur = [])
      (hothers : cur.others = [])
      (ha : a.Is .apply c.inp.intent.delivery
        (c.versionFacts true cur.others cur.hash (contentHash doc))
        (if contentHash doc = cur.hash then [] else
          newVersionOps c.inp.control c.role.boundaryARN (contentHash doc) cur.policy.versionCount))
      (hu : u.Is .undo c.inp.intent.delivery
        (c.versionFacts false cur.others (contentHash doc) cur.hash)
        (if contentHash doc = cur.hash then [] else
          newVersionOps c.inp.control c.role.boundaryARN cur.hash (ApplyCtx.versionsAfter cur))) :
      c.Compiled a u
  | exclusive {a u : Plan} {cur : CurrentBoundary} {doc : Bytes} {n : Narrowing}
      (hcur : cur.Reads c.inp.live c.role) (hpath : isAuthSecPath c.role.boundaryARN = false)
      (hdelivery : c.inp.intent.delivery ≠ deliveryDirect) (hothers : cur.others = [])
      (hdoc : narrowCustomerBoundary cur.policy.defaultDocument c.removed = .ok (.ok (doc, n)))
      (ha : a.Is .apply c.inp.intent.delivery (c.customerFacts true [] cur.hash (contentHash doc))
        (if n.changed then [ApplyCtx.newDocumentOp c.role.boundaryARN (contentHash doc)] else []))
      (hu : u.Is .undo c.inp.intent.delivery (c.customerFacts false [] (contentHash doc) cur.hash)
        (if n.changed then [ApplyCtx.newDocumentOp c.role.boundaryARN cur.hash] else [])) :
      c.Compiled a u
  | shared {a u : Plan} {cur : CurrentBoundary} {doc : Bytes} {n : Narrowing}
      (hcur : cur.Reads c.inp.live c.role) (hpath : isAuthSecPath c.role.boundaryARN = false)
      (hdelivery : c.inp.intent.delivery ≠ deliveryDirect) (hothers : cur.others ≠ [])
      (hdoc : narrowCustomerBoundary cur.policy.defaultDocument c.removed = .ok (.ok (doc, n)))
      (hfree : n.changed → c.copyRefusal cur = [])
      (ha : a.Is .apply c.inp.intent.delivery
        (if n.changed then c.copyFacts cur (contentHash doc)
          else c.customerFacts true cur.others cur.hash cur.hash)
        (if n.changed then c.copyOps cur (contentHash doc) else []))
      (hu : u.Is .undo c.inp.intent.delivery
        (if n.changed then c.copyUndoFacts cur (contentHash doc)
          else c.customerFacts false cur.others cur.hash cur.hash)
        (if n.changed then c.putBoundaryOp c.role.boundaryARN :: deletePolicyOps (c.copyARN cur)
          else [])) : c.Compiled a u

lemma parts_goneRolePrecondition {p q : Plan} (h : goneRolePrecondition p live roleID = .ok q) :
    q.parts = p.parts := by
  obtain ⟨pre, -, h⟩ := bind_eq_ok.1 h
  obtain ⟨c, -, h⟩ := bind_eq_ok.1 h
  obtain ⟨ph, -, h⟩ := bind_eq_ok.1 h
  cases h
  rfl

/-- The case of a builder, once its plans are sealed. -/
lemma ApplyCtx.compiled_of_build {c : ApplyCtx} {cur : Option CurrentBoundary}
    {p p' a : Plan} {undo : Option Plan} {rs : List Refusal}
    (hcur : (c.role.boundaryARN = "" ∧ cur = .none) ∨
      ∃ b, cur = some b ∧ b.Reads c.inp.live c.role)
    (hp : p.parts = ⟨rs, [], [], c.inp.intent.delivery, .apply, .eligible⟩)
    (hbuild : c.build cur p = .ok (p', undo)) (ha : p'.Kept a) :
    rs = [] ∧ ∃ u, undo = some u ∧ u.refusals = [] ∧ u.eligibility ≠ .ineligible ∧
      ∀ v, u.Kept v → c.Compiled a v := by
  have hr := ha.refusals
  simp only [Plan.parts, PlanParts.mk.injEq] at hp
  rcases hcur with ⟨hb, rfl⟩ | ⟨b, rfl, hreads⟩
  · obtain ⟨⟨p₁, u⟩, hnone, h⟩ := map_eq_ok.1 hbuild
    cases h
    obtain ⟨doc, hdoc, hparts, hundo⟩ := none_eq_ok hnone
    simp only [Plan.parts, PlanParts.mk.injEq, hp] at hparts hundo
    simp only [hparts, append_eq_nil_iff] at hr
    refine ⟨hr.1.1, u, rfl, hundo.1, by simp [hundo], fun v hv => ?_⟩
    exact .none hb hdoc hr.2.1.2 hr.2.2 (ha.is (by simp [hparts])) (hv.is (by simp [hundo]))
  · simp only [build] at hbuild
    split_ifs at hbuild with hpath hothers
    · obtain ⟨⟨p₁, u⟩, hauthsec, h⟩ := map_eq_ok.1 hbuild
      cases h
      obtain ⟨doc, hdoc, hparts, hundo⟩ := authsec_eq_ok hauthsec
      simp only [Plan.parts, PlanParts.mk.injEq, hp] at hparts hundo
      simp only [hparts, append_eq_nil_iff, consumersRefusal, refuseIf_eq_nil] at hr
      refine ⟨hr.1.1, u, rfl, hundo.1, by simp [hundo], fun v hv => ?_⟩
      exact .authsec hreads hpath hdoc hr.1.2.1 (by simpa using hr.1.2.2) (ha.is (by simp [hparts]))
        (hv.is (by simp [hundo]))
    · rcases customerExclusive_eq_ok hbuild with hne | ⟨doc, n, u, hdoc, rfl, hparts, hundo⟩
      · exact absurd hr hne
      · simp only [Plan.parts, PlanParts.mk.injEq, hp] at hparts hundo
        simp only [hparts, append_eq_nil_iff, exclusiveRefusal, refuseIf_eq_nil] at hr
        refine ⟨hr.1.1, u, rfl, hundo.1, by simp [hundo], fun v hv => ?_⟩
        exact .exclusive hreads (by simpa using hpath) (by simpa using hr.1.2) hothers hdoc
          (ha.is (by simp [hparts])) (hv.is (by simp [hundo]))
    · rcases customerShared_eq_ok hbuild with hne | ⟨doc, n, u, hdoc, rfl, hparts, hundo⟩
      · exact absurd hr hne
      · simp only [Plan.parts, PlanParts.mk.injEq, hp] at hparts hundo
        simp only [hparts, append_eq_nil_iff, sharedRefusal, refuseIf_eq_nil] at hr
        refine ⟨hr.1.1.1, u, rfl, hundo.1, by simp [hundo], fun v hv => ?_⟩
        exact .shared hreads (by simpa using hpath) (by simpa using hr.1.1.2.1) hothers hdoc
          (fun hn => by simpa [hn] using hr.2) (ha.is (by simp [hparts])) (hv.is (by simp [hundo]))

/-- Only an eligible target has an undo plan. -/
lemma eligible_of_undo {inp : TargetInput} {plans : TargetPlans} {u : Plan}
    (h : compileTarget inp = .ok plans) (hu : plans.undo = some u) : plans.apply.eligible := by
  obtain ⟨⟨⟩, -, h⟩ := bind_eq_ok.1 h
  cases hrole : checkIncarnation inp.live inp.control.roleID with
  | error rs =>
      rw [hrole] at h
      obtain ⟨ap, -, h⟩ := bind_eq_ok.1 h
      obtain ⟨q, -, h⟩ := bind_eq_ok.1 h
      cases h
      cases hu
  | ok role =>
      rw [hrole] at h
      obtain ⟨pre, -, h⟩ := bind_eq_ok.1 h
      obtain ⟨pc, -, h⟩ := bind_eq_ok.1 h
      obtain ⟨ph, -, h⟩ := bind_eq_ok.1 h
      obtain ⟨defHash, -, h⟩ := bind_eq_ok.1 h
      obtain ⟨⟨ap, cur⟩, -, h⟩ := bind_eq_ok.1 h
      obtain ⟨⟨ap', undo⟩, -, h⟩ := bind_eq_ok.1 h
      obtain ⟨a, -, h⟩ := bind_eq_ok.1 h
      split_ifs at h with he
      · cases undo with
        | none => cases h
        | some u =>
            obtain ⟨v, -, h⟩ := bind_eq_ok.1 h
            cases h
            exact he
      · cases h
        cases hu

/-- An eligible target has an undo plan, and both are what the builder of its case leaves. -/
theorem compileTarget_compiled {inp : TargetInput} {plans : TargetPlans}
    (h : compileTarget inp = .ok plans) (he : plans.apply.eligible) :
    ∃ c : ApplyCtx, c.inp = inp ∧ c.Ready ∧
      ∃ u, plans.undo = some u ∧ c.Compiled plans.apply u := by
  obtain ⟨⟨⟩, hcheck, h⟩ := bind_eq_ok.1 h
  cases hrole : checkIncarnation inp.live inp.control.roleID with
  | error rs =>
      rw [hrole] at h
      obtain ⟨ap, hap, h⟩ := bind_eq_ok.1 h
      obtain ⟨q, hq, h⟩ := bind_eq_ok.1 h
      cases h
      have hr := (Plan.kept_of_eligible hq he).refusals
      have hparts := congrArg PlanParts.refusals (parts_goneRolePrecondition hap)
      have happ : inp.start.refusals ++ rs = [] := hparts.symm.trans hr
      exact absurd (append_eq_nil_iff.1 happ).2 (checkIncarnation_ne_nil hrole)
  | ok role =>
      rw [hrole] at h
      obtain ⟨pre, -, h⟩ := bind_eq_ok.1 h
      obtain ⟨pc, -, h⟩ := bind_eq_ok.1 h
      obtain ⟨ph, -, h⟩ := bind_eq_ok.1 h
      obtain ⟨defHash, hdef, h⟩ := bind_eq_ok.1 h
      obtain ⟨⟨ap, cur⟩, hcur, h⟩ := bind_eq_ok.1 h
      obtain ⟨⟨ap', undo⟩, hbuild, h⟩ := bind_eq_ok.1 h
      obtain ⟨a, ha, h⟩ := bind_eq_ok.1 h
      obtain ⟨hlive, hid⟩ := checkIncarnation_eq_ok hrole
      obtain ⟨hparts, hcases⟩ := currentBoundary_eq_ok hcur
      split_ifs at h with heligible
      · obtain ⟨hr, u, rfl, hur, hue, hcompiled⟩ := ApplyCtx.compiled_of_build
          (c := ⟨inp, role, defHash⟩) hcases hparts hbuild (Plan.kept_of_eligible ha heligible)
        obtain ⟨v, hv, h⟩ := bind_eq_ok.1 h
        cases h
        refine ⟨⟨inp, role, defHash⟩, rfl, ⟨hcheck, hlive, hid, hdef, ?_⟩, v, rfl,
          hcompiled v (Plan.kept_of_refusals hv hur hue)⟩
        exact (append_eq_nil_iff.1 (append_eq_nil_iff.1 hr).2).1
      · cases h
        exact absurd he heligible

end

end AuthSec

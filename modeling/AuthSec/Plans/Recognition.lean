import AuthSec.Plans.Direct

/-!
# Recognition and the classifier

An operation that AWS answers with an error may be done all the same; `classifyOpResponse` says so
from a read.  The classifier derives the values of the facts from such a read by rules of its own.
The two agree on the operations of a direct plan, except that the owner of a created policy is
recognised without the tag from which the classifier tells it.
-/

namespace AuthSec

/-! ## Answers -/

/-- The answers that record an operation as done. -/
def OpOutcome.done (out : OpOutcome) : Prop :=
  out.outcome = .recognisedDone ∨ out.outcome = .notNeeded

lemma not_done_of_terminal {reason : String} : ¬ OpOutcome.done ⟨.terminal, reason⟩ := by
  simp [OpOutcome.done]

variable {errorCode : String}

lemma not_done_otherError : ¬ (otherError errorCode).done := by
  unfold otherError
  split_ifs <;> exact not_done_of_terminal

/-- Tags of the same control make the owner of an AuthSec policy if they have AuthSec's own tag. -/
lemma ownerValue_eq_iff {tags tags' : GoMap String}
    (hmanaged : tags'.str tagManagedBy = tagManagedByValue)
    (hcontrol : tags.str tagControl = tags'.str tagControl)
    (hworkspace : tags.str tagManagedBy = tagManagedByValue →
      tags.str tagWorkspace = tags'.str tagWorkspace) :
    ownerValue tags = ownerValue tags' ↔ tags.str tagManagedBy = tagManagedByValue := by
  have hafter : ownerValue tags' =
      "authsec:" ++ tags'.str tagWorkspace ++ ":" ++ tags'.str tagControl :=
    if_neg (not_not.2 hmanaged)
  rw [hafter, ownerValue]
  split_ifs with h
  · refine iff_of_false (fun heq => ?_) h
    have hhead := congrArg (fun s => s.toList.head?) heq
    simp [String.append_assoc] at hhead
  · exact iff_of_true (by rw [hworkspace (not_not.1 h), hcontrol]) (not_not.1 h)

section

variable [Sha256]

/-! ## Reads that give every fact a value -/

/-- The read has what the value of the fact is taken from. -/
def LiveRead.Shows (live : LiveRead) (f : Fact) : Prop :=
  match f.kind with
  | .role | .roleBoundary => True
  | .roleDefinition => ∀ r, live.role = some r → ∃ h, roleDefinitionHash r = .ok h
  | .policyDocument => ∃ found, live.policies.get? f.subject = some found ∧
      ∀ pol, found = some pol → ∃ h, documentHash pol.defaultDocument = .ok h
  | .policyOwner | .policyUsers => ∃ found, live.policies.get? f.subject = some found
  | .binding => ∃ b, live.bindings.get? f.subject = some b
  | .newRole => ∃ found, live.roles.get? f.subject = some found ∧
      ∀ r, found = some r → ∃ h, dedicatedRoleHash r = .ok h

/-- The read covers a plan's facts. -/
def LiveRead.Covers (live : LiveRead) (facts : List Fact) : Prop :=
  ∀ f ∈ facts, live.Shows f

variable {live : LiveRead} {f : Fact} {facts : List Fact}

lemma exists_observeFact (roleID : String) :
    (∃ v, observeFact live roleID f = .ok v) ↔ live.Shows f := by
  obtain ⟨kind, subject, before, after, onlyBefore⟩ := f
  cases kind with
  | role => simp [observeFact, LiveRead.Shows]
  | roleBoundary => simp [observeFact, LiveRead.Shows]
  | roleDefinition => cases h : live.role <;> simp [observeFact, LiveRead.Shows, h]
  | policyDocument | policyOwner | policyUsers =>
      cases h : live.policies.get? subject with
      | none => simp [observeFact, LiveRead.Shows, LiveRead.policy, h]
      | some found =>
          cases found <;> simp [observeFact, LiveRead.Shows, LiveRead.policy, h, observePolicy]
  | binding => cases h : live.bindings.get? subject <;> simp [observeFact, LiveRead.Shows, h]
  | newRole =>
      cases h : live.roles.get? subject with
      | none => simp [observeFact, LiveRead.Shows, h]
      | some found => cases found <;> simp [observeFact, LiveRead.Shows, h]

/-- What is observed of a fact depends on its key only. -/
lemma observeFact_of_key (live : LiveRead) (roleID : String) {g : Fact} (h : f.key = g.key) :
    observeFact live roleID f = observeFact live roleID g := by
  obtain ⟨hkind, hsubject⟩ := factKey_inj.1 h
  unfold observeFact
  rw [hkind, hsubject]

lemma exists_observeFacts : (∃ obs, observeFacts facts live = .ok obs) ↔ live.Covers facts := by
  have hvalues : (∃ obs, observeFacts facts live = .ok obs) ↔ ∃ values, facts.mapM (fun f =>
      (observeFact live (factsRoleID facts) f).map fun v => (f.key, v)) = .ok values := by
    constructor
    · rintro ⟨obs, h⟩
      obtain ⟨values, hvalues, -⟩ := bind_eq_ok.1 h
      exact ⟨values, hvalues⟩
    · rintro ⟨values, h⟩
      exact ⟨_, bind_eq_ok.2 ⟨values, h, rfl⟩⟩
  rw [hvalues, exists_mapM_eq_ok]
  refine forall₂_congr fun f _ => ?_
  rw [← exists_observeFact (factsRoleID facts)]
  simp [map_eq_ok]

/-- The observed values are the values of the facts. -/
lemma get?_observeFacts {obs : GoMap String} (h : observeFacts facts live = .ok obs)
    (hf : f ∈ facts) :
    ∃ v, observeFact live (factsRoleID facts) f = .ok v ∧ obs.get? f.key = some v := by
  obtain ⟨values, hvalues, h⟩ := bind_eq_ok.1 h
  cases h
  have hread : ∀ e ∈ values, ∃ g ∈ facts, g.key = e.1 ∧
      observeFact live (factsRoleID facts) g = .ok e.2 := by
    intro e he
    obtain ⟨g, hg, hok⟩ := exists_of_mem_mapM hvalues he
    obtain ⟨v, hv, rfl⟩ := map_eq_ok.1 hok
    exact ⟨g, hg, rfl, hv⟩
  have hagree : ∀ e ∈ values, ∀ e' ∈ values, e.1 = e'.1 → e = e' := by
    intro e he e' he' hkey
    obtain ⟨g, -, hg, hgv⟩ := hread e he
    obtain ⟨g', -, hg', hgv'⟩ := hread e' he'
    have hsame := observeFact_of_key live (factsRoleID facts) (hg.trans (hkey.trans hg'.symm))
    exact Prod.ext hkey (Except.ok.inj (hgv.symm.trans (hsame.trans hgv')))
  obtain ⟨e, he, hok⟩ := exists_mem_of_mapM hvalues hf
  obtain ⟨v, hv, rfl⟩ := map_eq_ok.1 hok
  exact ⟨v, hv, (GoMap.get?_ofList_of_agree hagree f.key v).2 he⟩

/-! ## Recognition -/

/-- What recognition has found in the read. -/
def RecognisedIn (o : Op) (live : LiveRead) : Prop :=
  match o.op with
  | .createPolicy => ∃ pol, live.policies.get? o.policyARN = some (some pol) ∧
      documentHash pol.defaultDocument = .ok o.documentHash ∧
      pol.tags.str tagControl = o.tags.str tagControl ∧
      (pol.tags.str tagManagedBy = tagManagedByValue → o.tags.str tagWorkspace ≠ "" →
        pol.tags.str tagWorkspace = o.tags.str tagWorkspace)
  | .createPolicyVersion => ∃ pol, live.policies.get? o.policyARN = some (some pol) ∧
      documentHash pol.defaultDocument = .ok o.documentHash
  | .putRolePermissionsBoundary => ∃ r, live.role = some r ∧ r.boundaryARN = o.policyARN
  | .deleteRolePermissionsBoundary => ∃ r, live.role = some r ∧ r.boundaryARN = ""
  | _ => True

lemma recognisedIn_of_error {p : Plan} {o : Op} (h : (classifyError p o errorCode live).done) :
    RecognisedIn o live := by
  unfold classifyError at h
  unfold RecognisedIn
  cases hop : o.op with
  | createPolicy =>
      simp only [hop] at h
      split_ifs at h
      · unfold recogniseCreated at h
        split at h
        · rename_i pol hpol
          split_ifs at h with helsewhere hsame
          · exact absurd h not_done_of_terminal
          · exact ⟨pol, hpol, hsame.2, hsame.1, by tauto⟩
          · exact absurd h not_done_of_terminal
        · exact absurd h not_done_of_terminal
      · exact absurd h not_done_otherError
  | createPolicyVersion =>
      simp only [hop] at h
      split_ifs at h with hdoc
      · unfold hasDocument at hdoc
        split at hdoc
        · rename_i pol hpol
          exact ⟨pol, hpol, of_decide_eq_true hdoc⟩
        · cases hdoc
      · exact absurd h not_done_of_terminal
      · exact absurd h not_done_otherError
  | putRolePermissionsBoundary =>
      simp only [hop] at h
      split_ifs at h with hrole
      · obtain ⟨r, hr, hb⟩ := (Option.any_eq_true ..).1 hrole
        exact ⟨r, hr, beq_iff_eq.1 hb⟩
      · exact absurd h not_done_of_terminal
      · exact absurd h not_done_of_terminal
      · exact absurd h not_done_otherError
  | deleteRolePermissionsBoundary =>
      simp only [hop] at h
      split_ifs at h with hrole
      · obtain ⟨r, hr, hb⟩ := (Option.any_eq_true ..).1 hrole
        exact ⟨r, hr, beq_iff_eq.1 hb⟩
      · exact absurd h not_done_of_terminal
      · exact absurd h not_done_otherError
  | _ => trivial

/-- An operation that is recorded as done was recognised. -/
lemma recognisedIn_of_done {p : Plan} {i : ℕ} {kind : ResponseKind} {o : Op}
    (ho : p.ops[i]? = some o) (h : (classifyOpResponse p i kind errorCode live).done) :
    RecognisedIn o live := by
  unfold classifyOpResponse at h
  rw [ho] at h
  cases kind with
  | ok => simp [OpOutcome.done] at h
  | noAnswer => simp [OpOutcome.done] at h
  | error =>
      dsimp only at h
      split_ifs at h
      · simp [OpOutcome.done] at h
      · simp [OpOutcome.done] at h
      · exact recognisedIn_of_error h

/-! ## Recognition against the classifier -/

/-- The operations that recognition looks for in the read. -/
def recognisedKinds : List OpKind :=
  [.createPolicy, .createPolicyVersion, .putRolePermissionsBoundary, .deleteRolePermissionsBoundary]

/-- The policy that the operation creates carries the tag that makes it AuthSec's. -/
def ManagedIn (o : Op) (live : LiveRead) : Prop :=
  ∀ pol, live.policies.get? o.policyARN = some (some pol) →
    pol.tags.str tagManagedBy = tagManagedByValue

/-- When a fact that a recognised operation moves has its value after the plan. -/
lemma observed_eq_after_iff {o : Op} {roleID v : String} (hfits : o.Fits facts) (hf : f ∈ facts)
    (hmoves : o.Moves f) (hkind : o.op ∈ recognisedKinds) (hrec : RecognisedIn o live)
    (hv : observeFact live roleID f = .ok v) : v = f.after ↔
      (o.op = .createPolicy → f.kind = .policyOwner → ManagedIn o live) ∧
        (o.op = .putRolePermissionsBoundary → o.policyARN ≠ "") := by
  rw [← hfits.written f hf hmoves]
  rw [Op.moves_iff] at hmoves
  unfold RecognisedIn at hrec
  unfold observeFact at hv
  unfold Op.written
  cases hop : o.op with
  | createPolicy =>
      simp only [hop] at hmoves hrec ⊢
      obtain ⟨pol, hpol, hdoc, hcontrol, hworkspace⟩ := hrec
      obtain ⟨hf | hf, hsubject⟩ := hmoves
      · simp only [hf, hsubject, LiveRead.policy, hpol, ok_bind, observePolicy, hdoc] at hv
        simp [hf, Except.ok.inj hv]
      · simp only [hf, hsubject, LiveRead.policy, hpol, ok_bind, observePolicy] at hv
        cases hv
        obtain ⟨hmanaged, hws⟩ := hfits.managed hop
        have howner := ownerValue_eq_iff hmanaged hcontrol fun h => hworkspace h hws
        simpa [hf, ManagedIn, hpol] using howner
  | createPolicyVersion =>
      simp only [hop] at hmoves hrec ⊢
      obtain ⟨pol, hpol, hdoc⟩ := hrec
      simp only [hmoves, LiveRead.policy, hpol, ok_bind, observePolicy, hdoc] at hv
      simp [Except.ok.inj hv]
  | putRolePermissionsBoundary =>
      simp only [hop] at hmoves hrec ⊢
      obtain ⟨r, hr, hb⟩ := hrec
      simp only [hmoves, hr, Option.elim_some, boundaryValue, hb] at hv
      cases hv
      by_cases harn : o.policyARN = "" <;> simp [harn, valueNone]
  | deleteRolePermissionsBoundary =>
      simp only [hop] at hmoves hrec ⊢
      obtain ⟨r, hr, hb⟩ := hrec
      simp only [hmoves, hr, Option.elim_some, boundaryValue, hb] at hv
      simp [← Except.ok.inj hv]
  | _ => simp [hop, recognisedKinds] at hkind

/-- A recognised operation of a direct plan has moved its facts, in the eyes of the classifier,
exactly if the read covers the plan, the created policy carries AuthSec's own tag and the boundary
that is put has a name. -/
theorem recognised_iff_observed {p : Plan} (hp : DirectPlan p) {i : ℕ} {o : Op}
    (ho : p.ops[i]? = some o) (hkind : o.op ∈ recognisedKinds) (kind : ResponseKind)
    (errorCode : String) (live : LiveRead)
    (hdone : (classifyOpResponse p i kind errorCode live).done) :
    (∃ obs, observeFacts p.facts live = .ok obs ∧
      ∀ f ∈ p.facts, f.key ∈ opEffects o → obs.get? f.key = some f.after) ↔
    live.Covers p.facts ∧ (o.op = .createPolicy → ManagedIn o live) ∧
      (o.op = .putRolePermissionsBoundary → o.policyARN ≠ "") := by
  have hfits := hp.fits o (List.mem_of_getElem? ho)
  have hrec := recognisedIn_of_done ho hdone
  constructor
  · rintro ⟨obs, hobs, hafter⟩
    have hvalue : ∀ f ∈ p.facts, o.Moves f →
        (o.op = .createPolicy → f.kind = .policyOwner → ManagedIn o live) ∧
          (o.op = .putRolePermissionsBoundary → o.policyARN ≠ "") := by
      intro f hf hmoves
      obtain ⟨v, hv, hget⟩ := get?_observeFacts hobs hf
      have hv' : v = f.after := Option.some.inj (hget.symm.trans (hafter f hf hmoves))
      exact (observed_eq_after_iff hfits hf hmoves hkind hrec hv).1 hv'
    refine ⟨exists_observeFacts.1 ⟨obs, hobs⟩, fun hop => ?_, fun hop => ?_⟩
    · obtain ⟨f, hf, hkey⟩ := hfits.covered (factKey .policyOwner o.policyARN)
        (by simp [opEffects, hop])
      have hmoves : o.Moves f := by simp [Op.Moves, opEffects, hop, hkey]
      exact (hvalue f hf hmoves).1 hop (Fact.key_eq_iff.1 hkey).1
    · obtain ⟨f, hf, hkey⟩ := hfits.covered (factKey .roleBoundary "")
        (by simp [opEffects, hop, hfits.own])
      have hmoves : o.Moves f := by simp [Op.Moves, opEffects, hop, hkey, hfits.own]
      exact (hvalue f hf hmoves).2 hop
  · rintro ⟨hcovers, hmanaged, hput⟩
    obtain ⟨obs, hobs⟩ := exists_observeFacts.2 hcovers
    refine ⟨obs, hobs, fun f hf hmoves => ?_⟩
    obtain ⟨v, hv, hget⟩ := get?_observeFacts hobs hf
    rw [hget, (observed_eq_after_iff hfits hf hmoves hkind hrec hv).2
      ⟨fun hop _ => hmanaged hop, hput⟩]

end

/-! ## A role without a boundary -/

section

/-- The control of a role that gets its first boundary. -/
def firstControl : ControlRef where
  id := "c-1"
  policyID := "p-1"
  accountID := "111122223333"
  roleID := "AROAEXAMPLEROLE01"
  workspaceRef := "ws-1"
  ownedPolicyARNs := []

def firstRole : LiveRole where
  roleID := firstControl.roleID
  arn := "arn:aws:iam::111122223333:role/app"
  name := "app"
  path := "/"
  accountID := firstControl.accountID

/-- The bundle has `sqs` unused for ninety days. -/
def firstFacts : BundleFacts where
  format := "1"
  catalog := catalogLabel
  builtAt := "2026-01-01T00:00:00Z"
  sources := [⟨sourceAWSPublication, 7, none, "k-1", "run-1", true, true, "trusted", [], 24, none,
    "complete", none⟩]
  target := ⟨firstControl.accountID, firstControl.roleID, firstRole.arn, ""⟩
  removedServices := ["sqs"]
  grants := []
  consumers := []
  consumersUnresolved := 0
  owners := []
  activity := [⟨"sqs", evidenceCollected, qualNoAttempt, none, grantAgePredatesObservation, none,
    90⟩]
  routes := []
  gaps := []

def firstIntent : RightSizeIntent where
  kind := intentRightSizeServices
  subjects := [⟨"11111111-1111-1111-1111-111111111111", firstControl.roleID,
    firstControl.accountID⟩]
  retain := []
  remove := [{ service := "sqs", basis := "no_attempt", qualifiedDays := 90,
               grantAgeBasis := grantAgePredatesObservation }]
  observationDays := 30
  delivery := deliveryDirect
  evidenceRev := 7

/-- The boundary that the role gets. -/
def firstARN : String :=
  authSecBoundaryARN "aws" firstControl.accountID firstControl.roleID

/-- A read of the role with this policy under the boundary's ARN. -/
def firstRead (found : Option LivePolicy) : LiveRead :=
  { readAt := 0, role := some firstRole, policies := GoMap.ofList [(firstARN, found)] }

def firstTarget : TargetInput where
  control := firstControl
  intent := firstIntent
  live := firstRead none
  evidence := ⟨⟨firstFacts, [], "sha256:b", "trusted", [], []⟩, 7, "run-1"⟩
  scanEvidence := some ⟨allForms.map fun f => ⟨f.name, "", .complete⟩, [], false⟩
  enabledRegions := []
  accountServices := some []
  dependencyContexts := []

/-- The policy with the document of the plan and these tags. -/
def firstPolicy (tags : List (String × String)) : LivePolicy where
  arn := firstARN
  path := authSecPolicyPath
  name := authSecBoundaryName firstControl.roleID
  tags := GoMap.ofList tags
  defaultDocument := (excludeOnlyDocument ["sqs"]).toOption.getD []
  versionCount := 1
  attachmentSet := []

/-- What the executor reads after it has created the policy. -/
def createdRead : LiveRead :=
  firstRead (some (firstPolicy [(tagManagedBy, tagManagedByValue),
    (tagWorkspace, firstControl.workspaceRef), (tagControl, firstControl.id)]))

/-- The policy without the tag that makes it AuthSec's. -/
def untaggedRead : LiveRead :=
  firstRead (some (firstPolicy [(tagControl, firstControl.id)]))

/-- The owner of the created policy is to be the control, and the read shows a customer's. -/
def customerSeen [Sha256] (p : Plan) (o : Op) (live : LiveRead) : Bool :=
  (observeFacts p.facts live).toOption.any fun obs => p.facts.any fun f =>
    f.key ∈ opEffects o && obs.get? f.key == some "customer" && f.after == "authsec:ws-1:c-1"

/-- The plan for the first boundary, run: both reads are recognised, and the first one covers the
facts of the plan. -/
lemma firstTarget_run :
    let _ : Sha256 := ⟨fun _ => []⟩
    ∃ p o, DirectPlan p ∧ p.ops[0]? = some o ∧ o.op = .createPolicy ∧ o.policyARN = firstARN ∧
      createdRead.Covers p.facts ∧ customerSeen p o untaggedRead ∧
      ∀ live ∈ [createdRead, untaggedRead],
        (classifyOpResponse p 0 .error "EntityAlreadyExists" live).outcome = .recognisedDone := by
  intro sha
  have hrun : (compileTarget firstTarget).toOption.any (fun plans =>
      plans.apply.eligible && plans.apply.delivery == deliveryDirect &&
        plans.apply.ops[0]?.any (fun o => o.op == .createPolicy && o.policyARN == firstARN &&
          customerSeen plans.apply o untaggedRead) &&
        (observeFacts plans.apply.facts createdRead).toOption.isSome &&
        [createdRead, untaggedRead].all fun live =>
          (classifyOpResponse plans.apply 0 .error "EntityAlreadyExists" live).outcome ==
            .recognisedDone) := by decide +kernel
  cases h : compileTarget firstTarget with
  | error e =>
      rw [h] at hrun
      cases hrun
  | ok plans =>
      rw [h] at hrun
      simp only [Except.toOption, Option.any_some, Bool.and_eq_true, beq_iff_eq,
        Option.any_eq_true, List.all_eq_true] at hrun
      obtain ⟨⟨⟨⟨he, hdirect⟩, o, ho, ⟨hop, harn⟩, hseen⟩, hcovers⟩, hdone⟩ := hrun
      refine ⟨plans.apply, o, ⟨.apply h, he, hdirect⟩, ho, hop, harn, ?_, hseen, hdone⟩
      refine exists_observeFacts.1 ?_
      cases hobs : observeFacts plans.apply.facts createdRead with
      | error e => simp [hobs] at hcovers
      | ok obs => exact ⟨obs, rfl⟩

/-- The policy that the executor created is recognised, and the classifier sees its facts moved. -/
theorem recognised_iff_observed_created :
    let _ : Sha256 := ⟨fun _ => []⟩
    ∃ p o, DirectPlan p ∧ p.ops[0]? = some o ∧ o.op = .createPolicy ∧
      ∃ obs, observeFacts p.facts createdRead = .ok obs ∧
        ∀ f ∈ p.facts, f.key ∈ opEffects o → obs.get? f.key = some f.after := by
  intro sha
  obtain ⟨p, o, hp, ho, hop, harn, hcovers, -, hdone⟩ := firstTarget_run
  have hmanaged : ManagedIn o createdRead := by
    intro pol hpol
    rw [harn] at hpol
    obtain rfl := Option.some.inj (Option.some.inj hpol)
    decide +kernel
  refine ⟨p, o, hp, ho, hop, (recognised_iff_observed hp ho (by simp [hop, recognisedKinds]) .error
    "EntityAlreadyExists" createdRead (Or.inl (hdone _ (by simp)))).2 ⟨hcovers, fun _ => hmanaged, ?_⟩⟩
  simp [hop]

/-- A policy that nobody marked as AuthSec's is recognised as the created one, while the classifier
sees a customer's policy. -/
theorem untagged_policy_recognised :
    let _ : Sha256 := ⟨fun _ => []⟩
    ∃ p o obs, DirectPlan p ∧ p.ops[0]? = some o ∧ o.op = .createPolicy ∧
      (classifyOpResponse p 0 .error "EntityAlreadyExists" untaggedRead).outcome =
        .recognisedDone ∧
      observeFacts p.facts untaggedRead = .ok obs ∧
      ∃ f ∈ p.facts, f.key ∈ opEffects o ∧ obs.get? f.key = some "customer" ∧
        f.after = "authsec:ws-1:c-1" := by
  intro sha
  obtain ⟨p, o, hp, ho, hop, -, -, hseen, hdone⟩ := firstTarget_run
  simp only [customerSeen, Option.any_eq_true, List.any_eq_true, Bool.and_eq_true, beq_iff_eq,
    decide_eq_true_eq] at hseen
  obtain ⟨obs, hobs, f, hf, ⟨hmoves, hcustomer⟩, hafter⟩ := hseen
  refine ⟨p, o, obs, hp, ho, hop, hdone _ (by simp), ?_, f, hf, hmoves, hcustomer, hafter⟩
  cases h : observeFacts p.facts untaggedRead with
  | error e => simp [h, Except.toOption] at hobs
  | ok obs' => simpa [h, Except.toOption] using hobs

end

end AuthSec

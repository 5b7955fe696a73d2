import AuthSec.Findings.Evaluate

/-!
# Fingerprints of findings

The fields of a fingerprint can be read off the text it hashes, and a statement key off the detail
key it is escaped to.  The findings of a role differ in their kind or their detail key, so those of
an evaluation have different fingerprints.
-/

namespace AuthSec

open List

/-! ## Detail keys -/

/-- How a character of a statement key is written. -/
def escapeKeyChar (c : Char) : List Char :=
  if c = '%' then ['%', '2', '5'] else if c = unitSepChar then ['%', '1', 'F'] else [c]

lemma toList_broadGrantDetailKey (key : String) :
    (broadGrantDetailKey key).toList = key.toList.flatMap escapeKeyChar := by
  rw [broadGrantDetailKey]
  split_ifs with hplain
  · have hself : ∀ c ∈ key.toList, escapeKeyChar c = [c] := by
      intro c hc
      have hnot : c ∉ ['%', unitSepChar] := by
        intro hmem
        have hany : containsAny key ['%', unitSepChar] = true :=
          any_eq_true.2 ⟨c, hc, by simpa using hmem⟩
        simp [hany] at hplain
      simp only [mem_cons, not_mem_nil, or_false, not_or] at hnot
      rw [escapeKeyChar, if_neg hnot.1, if_neg hnot.2]
    rw [flatMap_congr hself, flatMap_singleton']
  · simp only [replaceChar, String.toList_ofList, flatMap_assoc]
    refine flatMap_congr fun c _ => ?_
    by_cases hpercent : c = '%'
    · subst hpercent
      decide
    · simp [escapeKeyChar, hpercent]

lemma escapeKeyChar_code {b c : Char} {us vs : List Char}
    (h : escapeKeyChar b ++ us = escapeKeyChar c ++ vs) : b = c ∧ us = vs := by
  have hsign : '%' ≠ unitSepChar := by decide
  unfold escapeKeyChar at h
  split_ifs at h <;> grind

/-- Two statement keys never share a detail key. -/
lemma broadGrantDetailKey_injective : Function.Injective broadGrantDetailKey := by
  intro key key' h
  have htext := congrArg String.toList h
  rw [toList_broadGrantDetailKey, toList_broadGrantDetailKey] at htext
  refine String.toList_inj.1 (flatMap_code_inj (P := fun _ => True) (fun c => ?_)
    (fun _ _ _ _ _ _ => escapeKeyChar_code) (by simp) (by simp) htext)
  unfold escapeKeyChar
  split_ifs <;> simp

lemma notMem_broadGrantDetailKey (key : String) :
    unitSepChar ∉ (broadGrantDetailKey key).toList := by
  rw [toList_broadGrantDetailKey, mem_flatMap]
  rintro ⟨c, -, hc⟩
  unfold escapeKeyChar at hc
  split_ifs at hc with hpercent hsep
  · exact absurd hc (by decide)
  · exact absurd hc (by decide)
  · exact hsep (mem_singleton.1 hc).symm

/-! ## Roles of a snapshot -/

variable {seen : List String}

lemma checkRoles_nodup {roles : List RoleSnapshot} {u : Unit} (h : checkRoles seen roles = .ok u) :
    (roles.map RoleSnapshot.roleID).Nodup ∧ ∀ r ∈ roles, r.roleID ∉ seen := by
  induction roles generalizing seen with
  | nil => exact ⟨.nil, by simp⟩
  | cons r roles ih =>
      rw [checkRoles] at h
      split_ifs at h with hids hseen
      obtain ⟨hnodup, hnew⟩ := ih h
      refine ⟨nodup_cons.2 ⟨fun hmem => ?_, hnodup⟩, forall_mem_cons.2 ⟨?_, ?_⟩⟩
      · obtain ⟨r', hr', heq⟩ := mem_map.1 hmem
        exact hnew r' hr' (heq ▸ mem_cons_self ..)
      · exact fun hmem => hseen (contains_iff_mem.2 hmem)
      · exact fun r' hr' hmem => hnew r' hr' (mem_cons_of_mem _ hmem)

lemma validateSnapshot_nodup {s : Snapshot} {u : Unit} (h : validateSnapshot s = .ok u) :
    (s.roles.map RoleSnapshot.roleID).Nodup := by
  unfold validateSnapshot at h
  split_ifs at h
  obtain ⟨_, hroles, -⟩ := bind_eq_ok.1 h
  exact (checkRoles_nodup hroles).1

lemma findings_concat (parts : List EvaluationPart) :
    (EvaluationPart.concat parts).findings = parts.flatMap EvaluationPart.findings := by
  induction parts with
  | nil => rfl
  | cons p parts ih =>
      rw [EvaluationPart.concat, EvaluationPart.findings_append, ih, flatMap_cons]

/-! ## Fingerprints -/

lemma FindingKind.text_injective : Function.Injective FindingKind.text := by
  intro k k' h
  cases k <;> cases k' <;> first | rfl | exact absurd h (by decide)

section

variable [Sha256]

variable {detailKey : String} {confidence : FindingConfidence} {severity : FindingSeverity}
  {detail : Json GoNum} {kind : FindingKind} {f : RoleFinding} {part : EvaluationPart}

lemma fingerprint_eq_ok {kind roleID fp : String} :
    fingerprint kind roleID detailKey = .ok fp ↔
      (unitSepChar ∉ kind.toList ∧ unitSepChar ∉ roleID.toList ∧ unitSepChar ∉ detailKey.toList) ∧
        (kind ≠ "" ∧ roleID ≠ "") ∧ sha256Label (utf8 (fingerprintText kind roleID detailKey)) = fp := by
  rw [fingerprint]
  cases hfind : [kind, roleID, detailKey].find? fun f => decide (unitSepChar ∈ f.toList) with
  | some f =>
      have hmem := mem_of_find?_eq_some hfind
      have hsep := find?_some hfind
      simp only [decide_eq_true_eq] at hsep
      refine iff_of_false nofun ?_
      rintro ⟨⟨hkind, hrole, hdetail⟩, -⟩
      simp only [mem_cons, not_mem_nil, or_false] at hmem
      rcases hmem with rfl | rfl | rfl
      · exact hkind hsep
      · exact hrole hsep
      · exact hdetail hsep
  | none =>
      have hnone := find?_eq_none.1 hfind
      simp only [mem_cons, not_mem_nil, or_false, forall_eq_or_imp, forall_eq,
        decide_eq_true_eq] at hnone
      simp only [hnone, not_false_eq_true, and_self, true_and]
      split_ifs with hempty
      · refine iff_of_false nofun ?_
        rintro ⟨⟨hkind, hrole⟩, -⟩
        rcases hempty with h | h
        · exact hkind h
        · exact hrole h
      · rw [not_or] at hempty
        simp [hempty]

/-- The three fields can be read off a fingerprint. -/
lemma fingerprint_inj (hsum : Function.Injective Sha256.sum)
    {kind kind' roleID roleID' detailKey' fp : String}
    (h : fingerprint kind roleID detailKey = .ok fp)
    (h' : fingerprint kind' roleID' detailKey' = .ok fp) :
    kind = kind' ∧ roleID = roleID' ∧ detailKey = detailKey' := by
  obtain ⟨⟨hkind, hrole, -⟩, -, rfl⟩ := fingerprint_eq_ok.1 h
  obtain ⟨⟨hkind', hrole', -⟩, -, heq⟩ := fingerprint_eq_ok.1 h'
  have htext := String.ofList_injective (utf8_injective (sha256Label_injective hsum heq.symm))
  obtain ⟨hk, hrest⟩ := append_sep_inj hkind hkind' htext
  obtain ⟨hr, hd⟩ := append_sep_inj hrole hrole' hrest
  exact ⟨String.toList_inj.1 hk, String.toList_inj.1 hr, String.toList_inj.1 hd⟩

/-! ## The findings of a role -/

/-- Findings of a role, of some kinds, that differ in their kind or their detail key. -/
structure FindingsOf (r : RoleSnapshot) (kinds : List FindingKind) (fs : List RoleFinding) :
    Prop where
  labelled : ∀ f ∈ fs, fingerprint f.kind.text f.roleID f.detailKey = .ok f.fingerprint
  role : ∀ f ∈ fs, f.roleID = r.roleID
  kind : ∀ f ∈ fs, f.kind ∈ kinds
  distinct : (fs.map fun f => (f.kind, f.detailKey)).Nodup

/-- What a new finding is labelled with. -/
lemma newFinding_eq_ok {r : RoleSnapshot} {runID : String}
    (h : newFinding kind severity confidence r detailKey runID detail = .ok f) :
    fingerprint kind.text r.roleID detailKey = .ok f.fingerprint ∧ f.kind = kind ∧
      f.roleID = r.roleID ∧ f.detailKey = detailKey := by
  obtain ⟨fp, hfp, h⟩ := bind_eq_ok.1 h
  obtain ⟨d, -, h⟩ := bind_eq_ok.1 h
  obtain ⟨-, -, h⟩ := bind_eq_ok.1 h
  obtain rfl := Except.ok.inj h
  exact ⟨hfp, rfl, rfl, rfl⟩

namespace FindingsOf

variable {r : RoleSnapshot} {kinds kinds' : List FindingKind} {fs gs : List RoleFinding}

lemma nil : FindingsOf r kinds [] :=
  ⟨by simp, by simp, by simp, .nil⟩

/-- A new finding before others that differ from it. -/
lemma cons {runID : String}
    (hf : newFinding kind severity confidence r detailKey runID detail = .ok f)
    (hfs : FindingsOf r kinds fs) (hkind : kind ∈ kinds) (hnew : ∀ g ∈ fs, g.detailKey ≠ detailKey) :
    FindingsOf r kinds (f :: fs) := by
  obtain ⟨hfp, hk, hr, hd⟩ := newFinding_eq_ok hf
  refine ⟨?_, ?_, ?_, ?_⟩
  · exact forall_mem_cons.2 ⟨by rw [hk, hr, hd, hfp], hfs.labelled⟩
  · exact forall_mem_cons.2 ⟨hr, hfs.role⟩
  · exact forall_mem_cons.2 ⟨hk ▸ hkind, hfs.kind⟩
  · rw [map_cons]
    refine nodup_cons.2 ⟨fun hmem => ?_, hfs.distinct⟩
    obtain ⟨g, hg, heq⟩ := mem_map.1 hmem
    exact hnew g hg ((Prod.mk.inj heq).2.trans hd)

lemma mono (hfs : FindingsOf r kinds fs) (hkinds : kinds ⊆ kinds') : FindingsOf r kinds' fs :=
  { hfs with kind := fun f hf => hkinds (hfs.kind f hf) }

lemma single {runID : String}
    (hf : newFinding kind severity confidence r detailKey runID detail = .ok f)
    (hkind : kind ∈ kinds) : FindingsOf r kinds [f] :=
  cons hf nil hkind (by simp)

/-- Findings of other kinds. -/
lemma append (hfs : FindingsOf r kinds fs) (hgs : FindingsOf r kinds' gs)
    (hkinds : ∀ k ∈ kinds, k ∉ kinds') : FindingsOf r (kinds ++ kinds') (fs ++ gs) := by
  refine ⟨?_, ?_, ?_, ?_⟩
  · exact forall_mem_append.2 ⟨hfs.labelled, hgs.labelled⟩
  · exact forall_mem_append.2 ⟨hfs.role, hgs.role⟩
  · exact forall_mem_append.2 ⟨fun f hf => mem_append_left _ (hfs.kind f hf),
      fun g hg => mem_append_right _ (hgs.kind g hg)⟩
  · rw [map_append]
    refine nodup_append'.2 ⟨hfs.distinct, hgs.distinct, fun k hkf hkg => ?_⟩
    obtain ⟨f, hf, rfl⟩ := mem_map.1 hkf
    obtain ⟨g, hg, heq⟩ := mem_map.1 hkg
    exact hkinds _ (hfs.kind f hf) ((Prod.mk.inj heq).1 ▸ hgs.kind g hg)

end FindingsOf

variable {s : Snapshot} {r : RoleSnapshot} {runID : String}

/-- A service has at most one finding, under its name. -/
lemma findings_serviceVerdict {q : Qualification} {ra : RouteAnalysis} {live : List LiveStatement}
    (h : serviceVerdict r runID q ra live = .ok part) :
    part.findings = [] ∨ ∃ confidence detail f,
      newFinding .unusedService .medium confidence r q.service runID detail = .ok f ∧
        part.findings = [f] := by
  unfold serviceVerdict at h
  split at h
  · obtain rfl := Except.ok.inj h
    exact Or.inl rfl
  · obtain ⟨f, hf, h⟩ := bind_eq_ok.1 h
    obtain rfl := Except.ok.inj h
    exact Or.inr ⟨_, _, f, hf, rfl⟩
  · obtain rfl := Except.ok.inj h
    exact Or.inl rfl

/-- The findings about unused services are named after services that were not seen before. -/
lemma findingsOf_serviceParts {run : RunEvidence} {report : ActivityReport}
    {services : List ServiceActivity}
    (h : s.serviceParts r runID run report seen services = .ok part) :
    FindingsOf r [.unusedService] part.findings ∧ ∀ f ∈ part.findings, f.detailKey ∉ seen := by
  induction services generalizing seen part with
  | nil =>
      obtain rfl := Except.ok.inj h
      exact ⟨.nil, by simp⟩
  | cons sa rest ih =>
      rw [Snapshot.serviceParts] at h
      split_ifs at h with hseen
      obtain ⟨p, hp, h⟩ := bind_eq_ok.1 h
      obtain ⟨ps, hps, h⟩ := bind_eq_ok.1 h
      obtain rfl := Except.ok.inj h
      obtain ⟨verdict, hverdict, hp⟩ := bind_eq_ok.1 hp
      obtain rfl := Except.ok.inj hp
      obtain ⟨hof, hnew⟩ := ih hps
      have hnotseen : ∀ f ∈ ps.findings, f.detailKey ∉ seen := fun f hf hmem =>
        hnew f hf (mem_cons_of_mem _ hmem)
      simp only [EvaluationPart.findings_append, nil_append]
      rcases findings_serviceVerdict hverdict with hnone | ⟨_, _, f, hf, hone⟩
      · rw [hnone]
        exact ⟨hof, hnotseen⟩
      · rw [hone]
        refine ⟨.cons hf hof (by simp) fun g hg heq => hnew g hg ?_, ?_⟩
        · rw [heq]
          exact mem_cons_self ..
        · refine forall_mem_cons.2 ⟨?_, hnotseen⟩
          rw [(newFinding_eq_ok hf).2.2.2]
          exact fun hmem => hseen (contains_iff_mem.2 hmem)

lemma findingsOf_activityPart (h : s.activityPart r = .ok part) :
    FindingsOf r [.unusedService, .activityNotRead] part.findings := by
  unfold Snapshot.activityPart at h
  split at h
  · exact (findingsOf_serviceParts h).1.mono (by simp)
  · unfold Snapshot.notReadPart at h
    dsimp only at h
    split_ifs at h with hbound
    · obtain rfl := Except.ok.inj h
      exact .nil
    · obtain ⟨f, hf, h⟩ := bind_eq_ok.1 h
      obtain rfl := Except.ok.inj h
      exact .single hf (by simp)

/-- The findings about broad grants are named after statement keys that were not seen before. -/
lemma findingsOf_broadFindings {live : List LiveStatement} {fs : List RoleFinding}
    (h : broadFindings r runID seen live = .ok fs) :
    FindingsOf r [.broadGrant] fs ∧
      ∀ f ∈ fs, ∃ key, f.detailKey = broadGrantDetailKey key ∧ key ∉ seen := by
  induction live generalizing seen fs with
  | nil =>
      obtain rfl := Except.ok.inj h
      exact ⟨.nil, by simp⟩
  | cons ls rest ih =>
      rw [broadFindings] at h
      split_ifs at h with hnone hseen
      · exact ih h
      · obtain ⟨f, hf, h⟩ := bind_eq_ok.1 h
        obtain ⟨gs, hgs, h⟩ := bind_eq_ok.1 h
        obtain rfl := Except.ok.inj h
        obtain ⟨hof, hnew⟩ := ih hgs
        refine ⟨.cons hf hof (by simp) fun g hg heq => ?_, ?_⟩
        · obtain ⟨key, hkey, hnot⟩ := hnew g hg
          rw [heq] at hkey
          refine hnot ?_
          rw [← broadGrantDetailKey_injective hkey]
          exact mem_cons_self ..
        · refine forall_mem_cons.2 ⟨?_, fun g hg => ?_⟩
          · exact ⟨_, (newFinding_eq_ok hf).2.2.2, fun hmem => hseen (contains_iff_mem.2 hmem)⟩
          · obtain ⟨key, hkey, hnot⟩ := hnew g hg
            exact ⟨key, hkey, fun hmem => hnot (mem_cons_of_mem _ hmem)⟩

lemma findingsOf_sharedRoleFindings {fs : List RoleFinding}
    (h : sharedRoleFindings r runID = .ok fs) : FindingsOf r [.sharedRole] fs := by
  unfold sharedRoleFindings at h
  split_ifs at h
  · obtain rfl := Except.ok.inj h
    exact .nil
  · obtain ⟨f, hf, h⟩ := bind_eq_ok.1 h
    obtain rfl := Except.ok.inj h
    exact .single hf (by simp)

lemma findingsOf_reviewDateFindings {fs : List RoleFinding}
    (h : s.reviewDateFindings r = .ok fs) : FindingsOf r [.missingReviewDate] fs := by
  unfold Snapshot.reviewDateFindings at h
  split_ifs at h
  · obtain rfl := Except.ok.inj h
    exact .nil
  · obtain rfl := Except.ok.inj h
    exact .nil
  · obtain ⟨f, hf, h⟩ := bind_eq_ok.1 h
    obtain rfl := Except.ok.inj h
    exact .single hf (by simp)

lemma findingsOf_ownerFindings {fs : List RoleFinding} (h : s.ownerFindings r = .ok fs) :
    FindingsOf r [.missingOwner, .missingReviewDate] fs := by
  unfold Snapshot.ownerFindings at h
  split_ifs at h
  · obtain rfl := Except.ok.inj h
    exact .nil
  · obtain ⟨f, hf, h⟩ := bind_eq_ok.1 h
    obtain rfl := Except.ok.inj h
    exact .single hf (by simp)
  · exact (findingsOf_reviewDateFindings h).mono (by simp)

/-- The findings of a role differ in their kind or their detail key. -/
lemma findingsOf_evaluateRole (h : s.evaluateRole r = .ok part) :
    FindingsOf r ([.unusedService, .activityNotRead] ++ ([.broadGrant] ++
      ([.sharedRole] ++ [.missingOwner, .missingReviewDate]))) part.findings := by
  obtain ⟨activity, hactivity, h⟩ := bind_eq_ok.1 h
  obtain ⟨broad, hbroad, h⟩ := bind_eq_ok.1 h
  obtain ⟨shared, hshared, h⟩ := bind_eq_ok.1 h
  obtain ⟨owner, howner, h⟩ := bind_eq_ok.1 h
  obtain rfl := Except.ok.inj h
  have hsharing := (findingsOf_sharedRoleFindings hshared).append
    (findingsOf_ownerFindings howner) (by decide)
  have hgrants := (findingsOf_broadFindings hbroad).1.append hsharing (by decide)
  exact (findingsOf_activityPart hactivity).append hgrants (by decide)

/-! ## The findings of an evaluation -/

/-- What makes two findings different. -/
def RoleFinding.identity (f : RoleFinding) : String × FindingKind × String :=
  (f.roleID, f.kind, f.detailKey)

/-- The findings of different roles differ, and so do those of one. -/
lemma nodup_identity {kinds : List FindingKind} {roles : List RoleSnapshot}
    {parts : List EvaluationPart} (hroles : (roles.map RoleSnapshot.roleID).Nodup)
    (hparts : List.Forall₂ (fun r p => FindingsOf r kinds (EvaluationPart.findings p)) roles parts) :
    ((parts.flatMap EvaluationPart.findings).map RoleFinding.identity).Nodup ∧
      ∀ f ∈ parts.flatMap EvaluationPart.findings, f.roleID ∈ roles.map RoleSnapshot.roleID := by
  induction hparts with
  | nil => exact ⟨.nil, by simp⟩
  | @cons r p roles parts hp _ ih =>
      obtain ⟨hr, hroles⟩ := nodup_cons.1 hroles
      obtain ⟨hnodup, hmem⟩ := ih hroles
      rw [flatMap_cons, map_append]
      refine ⟨nodup_append'.2 ⟨?_, hnodup, ?_⟩, forall_mem_append.2 ⟨?_, ?_⟩⟩
      · refine pairwise_map.2 ((pairwise_map.1 hp.distinct).imp fun hne heq => hne ?_)
        exact congrArg Prod.snd heq
      · intro k hk hk'
        obtain ⟨f, hf, rfl⟩ := mem_map.1 hk
        obtain ⟨g, hg, heq⟩ := mem_map.1 hk'
        refine hr ?_
        rw [← hp.role f hf, ← show g.roleID = f.roleID from congrArg Prod.fst heq]
        exact hmem g hg
      · exact fun f hf => hp.role f hf ▸ mem_cons_self ..
      · exact fun f hf => mem_cons_of_mem _ (hmem f hf)

/-- The findings of an evaluation differ and are labelled with their fingerprints. -/
lemma findings_evaluate {e : SnapshotEvaluation} (h : evaluate s = .ok e) :
    (e.findings.map RoleFinding.identity).Nodup ∧
      ∀ f ∈ e.findings, fingerprint f.kind.text f.roleID f.detailKey = .ok f.fingerprint := by
  obtain ⟨_, hvalid, h⟩ := bind_eq_ok.1 h
  obtain ⟨parts, hparts, h⟩ := bind_eq_ok.1 h
  obtain rfl := Except.ok.inj h
  have hof := (mapM_eq_ok.1 hparts).imp fun _ _ hrole => findingsOf_evaluateRole hrole
  have hperm : ((EvaluationPart.concat parts).sorted.findings).Perm
      (parts.flatMap EvaluationPart.findings) := by
    rw [← findings_concat]
    exact perm_sortOn _ _
  have hroles : (((sortOn RoleSnapshot.roleID s.roles).filter fun r => skipReason r = "").map
      RoleSnapshot.roleID).Nodup :=
    (nodup_map_sortOn (validateSnapshot_nodup hvalid)).sublist (filter_sublist.map _)
  refine ⟨(hperm.map _).nodup_iff.2 (nodup_identity hroles hof).1, fun f hf => ?_⟩
  obtain ⟨p, hp, hf⟩ := mem_flatMap.1 (hperm.mem_iff.1 hf)
  obtain ⟨r, -, hr⟩ := exists_of_mem_mapM hparts hp
  exact (findingsOf_evaluateRole hr).labelled f hf

/-- The findings of an evaluation have different fingerprints.  The detail key of a broad grant
determines the statement key and holds no separator, so that no statement key keeps a finding from
having a fingerprint, and no two statement keys of a role have the same. -/
theorem evaluate_fingerprints (hsum : Function.Injective Sha256.sum) :
    (∀ s e, evaluate s = .ok e → (e.findings.map (·.fingerprint)).Nodup) ∧
    Function.Injective broadGrantDetailKey ∧
    (∀ key, unitSepChar ∉ (broadGrantDetailKey key).toList) ∧
    (∀ roleID key, roleID ≠ "" → unitSepChar ∉ roleID.toList →
      ∃ fp, fingerprint FindingKind.broadGrant.text roleID (broadGrantDetailKey key) = .ok fp) ∧
    ∀ roleID key key' fp,
      fingerprint FindingKind.broadGrant.text roleID (broadGrantDetailKey key) = .ok fp →
      fingerprint FindingKind.broadGrant.text roleID (broadGrantDetailKey key') = .ok fp →
        key = key' := by
  refine ⟨fun s e he => ?_, broadGrantDetailKey_injective, notMem_broadGrantDetailKey,
    fun roleID key hempty hrole => ?_, fun roleID key key' fp h h' => ?_⟩
  · obtain ⟨hnodup, hlabelled⟩ := findings_evaluate he
    refine pairwise_map.2 ((pairwise_map.1 hnodup).imp_of_mem ?_)
    intro f g hf hg hne heq
    obtain ⟨hkind, hrole, hdetail⟩ :=
      fingerprint_inj hsum (hlabelled f hf) (heq ▸ hlabelled g hg)
    refine hne ?_
    rw [RoleFinding.identity, RoleFinding.identity, hrole, FindingKind.text_injective hkind, hdetail]
  · exact ⟨_, fingerprint_eq_ok.2 ⟨⟨by decide, hrole, notMem_broadGrantDetailKey key⟩,
      ⟨by decide, hempty⟩, rfl⟩⟩
  · exact broadGrantDetailKey_injective (fingerprint_inj hsum h h').2.2

end

/-! ## Examples -/

/-- A statement that allows everything. -/
def allowAll (key : String) : StatementRevision where
  policyKey := "policy"
  statementKey := key
  hash := "hash"
  statement :=
    { sid := "", effect := .allow, actions := .action ["*"], resource := some ["*"]
      notResource := none, principal := none, notPrincipal := none, conditions := [], raw := []
      unknown := [] }
  fromTime := 0
  toTime := none

/-- A role with an inline policy whose statements have the keys. -/
def grantedRole (keys : List String) : RoleSnapshot where
  identityAccountID := "identity"
  roleID := "AROAEXAMPLE"
  arn := "arn:aws:iam::123456789012:role/jobs"
  name := "jobs"
  path := "/"
  accountID := "123456789012"
  connectorID := "connector"
  partitionKey := ""
  partition := "aws"
  createdAt := 0
  tags := ∅
  assignments := [⟨"policy", "", .inlined, [⟨0, none⟩]⟩]
  statements := keys.map allowAll
  activity := none
  consumers := []
  unmatchedOwnerTags := []

def grantedSnapshot (keys : List String) : Snapshot where
  rev := 1
  evaluatedAt := 1
  manifest := ∅
  runs := ∅
  roles := [grantedRole keys]
  workloads := []
  owners := []
  rules := []
  defaultWindowDays := 0

/-- Two statements, one with the separator for a key and one with its escape, have two findings. -/
lemma evaluate_grantedSnapshot :
    ((@evaluate ⟨id⟩ (grantedSnapshot ["\x1f", "%1F"])).map fun e => e.findings.length).toOption =
      some 2 := by
  decide +kernel

/-- The findings of the two statements have different fingerprints, as their keys have. -/
theorem evaluate_fingerprints_escaped :
    let _ : Sha256 := ⟨id⟩
    Function.Injective Sha256.sum ∧
      (∃ e, evaluate (grantedSnapshot ["\x1f", "%1F"]) = .ok e ∧ e.findings.length = 2 ∧
        (e.findings.map (·.fingerprint)).Nodup) ∧
      ∃ fp, fingerprint FindingKind.broadGrant.text "AROAEXAMPLE" (broadGrantDetailKey "\x1f") =
          .ok fp ∧
        fingerprint FindingKind.broadGrant.text "AROAEXAMPLE" (broadGrantDetailKey "%1F") ≠
          .ok fp := by
  intro _
  have hsum : Function.Injective Sha256.sum := fun _ _ h => h
  obtain ⟨hdistinct, -, -, hok, hinj⟩ := evaluate_fingerprints hsum
  refine ⟨hsum, ?_, ?_⟩
  · have hlen := evaluate_grantedSnapshot
    cases he : evaluate (grantedSnapshot ["\x1f", "%1F"]) with
    | error e =>
        rw [he] at hlen
        cases hlen
    | ok e =>
        rw [he] at hlen
        exact ⟨e, rfl, Option.some.inj hlen, hdistinct _ e he⟩
  · obtain ⟨fp, hfp⟩ := hok "AROAEXAMPLE" "\x1f" (by decide) (by decide)
    exact ⟨fp, hfp, fun h => absurd (hinj _ _ _ _ hfp h) (by decide)⟩

end AuthSec

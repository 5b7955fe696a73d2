import AuthSec.Policy.Lemmas.Narrow
import AuthSec.Routes

/-!
# Principals of resource policies

The decoder marks a principal as a wildcard if one of its AWS entries is `*`, and the analysis of a
marked statement looks at no other entry.

* `decodePolicyDocument_principals`: what decoding establishes about principals;
* `session_mem_statementRoutes`: which statements have a route of the role's sessions;
* `statementRoutes_eq_nil`: which granting statements have no route.  Those that do not name the role
  have none, and those whose `NotPrincipal` lists one of its sessions, although the role itself and
  its other sessions are granted by them.
-/

namespace AuthSec

open List

/-! ## Principals as the decoder leaves them -/

/-- What decoding establishes about the principals of a statement. -/
structure Statement.PrincipalsRead (st : Statement) : Prop where
  exclusive : st.notPrincipal = none ∨ st.principal = none
  wildcard : ∀ p, st.principal = some p → ∀ v ∈ p.aws, (p.wildcard = true ↔ "*" ∈ p.aws)

section

variable {v : Json Float64} {st : Statement} {room : ℕ}

lemma decodePrincipal_wildcard {name : String} {p : Principal} (hv : v.Fits room)
    (h : decodePrincipal v name = .ok p) {a : String} (ha : a ∈ p.aws) :
    p.wildcard = true ↔ "*" ∈ p.aws := by
  cases v with
  | str s =>
      rw [decodePrincipal] at h
      split_ifs at h
      cases h
      exact absurd ha not_mem_nil
  | obj ms =>
      obtain ⟨vals, hvals, hp⟩ := bind_eq_ok.1 h
      have hkeys : (vals.map Prod.fst).Nodup := by
        have hfst : vals.map Prod.fst = ms.map Prod.fst := by
          refine mapM_map_fst (fun m e he => ?_) hvals
          obtain ⟨l, -, rfl⟩ := map_eq_ok.1 he
          rfl
        rw [hfst]
        cases hv with
        | obj _ _ hms => exact hms
      cases hp
      cases haws : GoMap.get? (GoMap.ofList vals) "AWS" with
      | none =>
          simp only [Principal.aws, haws] at ha
          exact absurd ha not_mem_nil
      | some l =>
          have hmem := (GoMap.get?_ofList hkeys "AWS" l).1 haws
          simp only [Principal.aws, haws, Option.getD_some, any_eq_true, Bool.and_eq_true,
            beq_iff_eq, contains_iff_mem]
          constructor
          · rintro ⟨⟨k, l'⟩, hl', rfl, hstar⟩
            have hsame := (GoMap.get?_ofList hkeys "AWS" l').2 hl'
            rw [haws] at hsame
            rwa [Option.some.inj hsame]
          · exact fun hstar => ⟨("AWS", l), hmem, rfl, hstar⟩
  | _ => cases h

/-- The principals pass the checks behind the last member unchanged. -/
lemma StatementDraft.finish_principals {d : StatementDraft} {raw : Bytes} {unknown : List String}
    (h : d.finish raw unknown = .ok st) :
    st.principal = d.principal ∧ st.notPrincipal = d.notPrincipal ∧
      (d.notPrincipal = none ∨ d.principal = none) := by
  unfold finish at h
  cases heffect : d.effect with
  | none =>
      rw [heffect] at h
      cases h
  | some e =>
      simp only [heffect, bind_eq_ok] at h
      obtain ⟨actions, -, h⟩ := h
      split_ifs at h with hboth hresource
      cases h
      refine ⟨rfl, rfl, ?_⟩
      cases hp : d.principal <;> cases hnp : d.notPrincipal <;> simp [hp, hnp] at hboth ⊢

/-- The `Principal` element that was read is a member of the statement. -/
lemma principal_of_readMembers {ms : Members Float64} {d : StatementDraft}
    {p : Principal} (h : readMembers ms = .ok d) (hp : d.principal = some p) :
    ∃ v, ("Principal", v) ∈ ms ∧ decodePrincipal v "Principal" = .ok p := by
  have hothers : ∀ e' ≠ Element.principal, ∀ src d : StatementDraft,
      (StatementDraft.put e' src d).principal = d.principal := by
    intro e' he' src d
    cases e' <;> first | rfl | exact absurd rfl he'
  rcases readMembers_element hothers h with hnone | ⟨v, f, d₀, hv, hf, hd⟩
  · rw [hnone] at hp
    cases hp
  · obtain ⟨p', hp', rfl⟩ := map_eq_ok.1 hf
    rw [hd] at hp
    cases hp
    exact ⟨v, hv, hp'⟩

lemma decodeStatement_principals (hv : v.Fits room) (h : decodeStatement v = .ok st) :
    st.PrincipalsRead := by
  cases v with
  | obj ms =>
      obtain ⟨d, hd, hfinish⟩ := bind_eq_ok.1 h
      obtain ⟨hprincipal, hnot, hexclusive⟩ := StatementDraft.finish_principals hfinish
      refine ⟨by rwa [hprincipal, hnot], fun p hp a ha => ?_⟩
      rw [hprincipal] at hp
      obtain ⟨w, hw, hread⟩ := principal_of_readMembers hd hp
      cases hv with
      | obj room _ _ hms => exact decodePrincipal_wildcard (hms _ hw) hread ha
  | _ => cases h

lemma decodeDocument_statements {doc : PolicyDocument} (hv : v.Fits room)
    (h : decodeDocument v = .ok doc) (hst : st ∈ doc.statements) :
    ∃ w room, Json.Fits room w ∧ decodeStatement w = .ok st := by
  cases v with
  | obj ms =>
      obtain ⟨d, hd, h⟩ := bind_eq_ok.1 h
      cases hstmts : d.stmts with
      | none =>
          rw [hstmts] at h
          cases h
      | some stmts =>
          simp only [hstmts, bind_eq_ok] at h
          obtain ⟨list, hlist, sts, hsts, hdoc⟩ := h
          cases hdoc
          obtain ⟨sv, hsv, hdecode⟩ := exists_of_mem_mapM hsts hst
          cases hv with
          | obj room _ _ hms =>
              have hfits := statementList_fits (hms _ (mem_of_readDocument hd hstmts)) hlist
              obtain ⟨room', hroom'⟩ := hfits sv.1 (fst_mem_of_mem_zipIdx hsv)
              exact ⟨sv.1, room', hroom', mapError_eq_ok.1 hdecode⟩
  | _ => cases h

/-- Every statement of a decoded policy has its principals as the text lists them. -/
theorem decodePolicyDocument_principals {text : Bytes} {doc : PolicyDocument}
    (h : decodePolicyDocument text = .ok doc) (hst : st ∈ doc.statements) :
    st.PrincipalsRead := by
  obtain ⟨raw, -, h⟩ := bind_eq_ok.1 h
  obtain ⟨w, hw, h⟩ := bind_eq_ok.1 h
  have hfits := parseJSON_fits (mapError_eq_ok.1 hw)
  obtain ⟨sv, room, hsv, hdecode⟩ := decodeDocument_statements hfits (mapError_eq_ok.1 h) hst
  exact decodeStatement_principals hsv hdecode

end

/-! ## What a policy says of a role -/

/-- The entry is the role itself. -/
def RoleRef.IsNamed (role : RoleRef) (v : String) : Prop :=
  v = role.arn ∨ (role.roleID ≠ "" ∧ v = role.roleID)

/-- The entry is a session of the role. -/
def RoleRef.IsSession (role : RoleRef) (v : String) : Prop :=
  role.name ≠ "" ∧ startsWith v ("arn:" ++ role.partitionOr ++ ":sts::" ++ role.accountID ++
    ":assumed-role/" ++ role.name ++ "/") = true

/-- The entry covers the role as a whole: it is the role, by its ARN or its `RoleId`, or the role's
account.  A session of the role is not the role. -/
def RoleRef.IsListed (role : RoleRef) (v : String) : Prop :=
  (v ≠ "*" ∧ role.IsNamed v) ∨ v = role.accountID ∨
    v = "arn:" ++ role.partitionOr ++ ":iam::" ++ role.accountID ++ ":root"

/-- The statement names the role, one of its sessions or everyone: by a wildcard, or by a
`NotPrincipal` that does not list the role. -/
def Statement.NamesRole (st : Statement) (role : RoleRef) : Prop :=
  (∃ p, st.principal = some p ∧ (p.wildcard = true ∨
    ∃ v ∈ p.aws, v = "*" ∨ role.IsNamed v ∨ role.IsSession v)) ∨
  ∃ np, st.notPrincipal = some np ∧ ∀ v ∈ np.aws, ¬role.IsListed v

/-- Of the role, the `NotPrincipal` of the statement lists sessions only. -/
def Statement.ExceptsSession (st : Statement) (role : RoleRef) : Prop :=
  ∃ np, st.notPrincipal = some np ∧ (∃ v ∈ np.aws, role.IsSession v) ∧
    ∀ v ∈ np.aws, ¬role.IsListed v

/-! ## Statements -/

section

variable {st : Statement} {service : String} {role : RoleRef} {v : String}

lemma RoleRef.IsSession.ne_star (h : role.IsSession v) : v ≠ "*" := by
  rintro rfl
  have hstart := h.2
  simp [startsWith, List.isPrefixOf] at hstart

lemma classifyAWSPrincipal_session :
    classifyAWSPrincipal v role = .roleSession ↔ role.IsSession v ∧ ¬role.IsNamed v := by
  constructor
  · intro h
    rw [classifyAWSPrincipal] at h
    split_ifs at h with hstar hnamed hsession
    exact ⟨hsession, hnamed⟩
  · rintro ⟨hsession, hnamed⟩
    rw [classifyAWSPrincipal, if_neg hsession.ne_star]
    exact (if_neg hnamed).trans (if_pos hsession)

lemma classifyAWSPrincipal_unset :
    classifyAWSPrincipal v role = .unset ↔ ¬(v = "*" ∨ role.IsNamed v ∨ role.IsSession v) := by
  rw [classifyAWSPrincipal]
  split_ifs with hstar hnamed hsession
  · exact iff_of_false (by simp) (not_not.2 (Or.inl hstar))
  · exact iff_of_false (by simp) (not_not.2 (Or.inr (Or.inl hnamed)))
  · exact iff_of_false (by simp) (not_not.2 (Or.inr (Or.inr hsession)))
  · refine iff_of_true rfl ?_
    rintro (heq | hname | hsess)
    · exact hstar heq
    · exact hnamed hname
    · exact hsession hsess

/-- The test for a `NotPrincipal` takes a session of the role for the role. -/
lemma principalLists_iff {np : Principal} :
    principalLists (some np) role = true ↔
      ∃ v ∈ np.aws, role.IsListed v ∨ role.IsSession v := by
  simp only [principalLists, any_eq_true, Bool.or_eq_true, Bool.and_eq_true, bne_iff_ne,
    beq_iff_eq, ne_eq, classifyAWSPrincipal_unset, not_not, RoleRef.IsListed]
  refine exists_congr fun v => and_congr_right fun _ => ⟨?_, ?_⟩
  · rintro ((⟨hstar | hnamed | hsession, hne⟩ | haccount) | hroot)
    · exact absurd hstar hne
    · exact Or.inl (Or.inl ⟨hne, hnamed⟩)
    · exact Or.inr hsession
    · exact Or.inl (Or.inr (Or.inl haccount))
    · exact Or.inl (Or.inr (Or.inr hroot))
  · rintro ((⟨hne, hnamed⟩ | haccount | hroot) | hsession)
    · exact Or.inl (Or.inl ⟨Or.inr (Or.inl hnamed), hne⟩)
    · exact Or.inl (Or.inr haccount)
    · exact Or.inr hroot
    · exact Or.inl (Or.inl ⟨Or.inr (Or.inr hsession), hsession.ne_star⟩)

lemma mem_sortedPrincipals {ps : List RoutePrincipal} {q : RoutePrincipal} (hq : q ≠ .unset) :
    q ∈ sortedPrincipals ps ↔ q ∈ ps := by
  cases q <;> simp [sortedPrincipals] at hq ⊢

lemma sortedPrincipals_eq_nil {ps : List RoutePrincipal} :
    sortedPrincipals ps = [] ↔ ∀ q ∈ ps, q = .unset := by
  rw [eq_nil_iff_forall_not_mem]
  constructor
  · intro h q hq
    by_contra hset
    exact h q ((mem_sortedPrincipals hset).2 hq)
  · intro h q hq
    have hset : q ≠ .unset := by
      rintro rfl
      simp [sortedPrincipals] at hq
    exact hset (h q ((mem_sortedPrincipals hset).1 hq))

/-- A statement has a route of sessions where no wildcard hides them. -/
lemma session_mem_statementRoutes :
    RoutePrincipal.roleSession ∈ statementRoutes st service role ↔
      (st.effect = .allow ∧ st.grantsNamespace service = true) ∧ st.notPrincipal = none ∧
        ∃ p, st.principal = some p ∧ p.wildcard = false ∧
          ∃ v ∈ p.aws, role.IsSession v ∧ ¬role.IsNamed v := by
  rw [statementRoutes]
  split_ifs with hgrants hnot hlists
  · simp only [not_mem_nil, false_iff, not_and]
    rintro ⟨heffect, hns⟩
    rcases hgrants with h | h
    · exact absurd heffect h
    · rw [hns] at h
      cases h
  · simp [Option.isSome_iff_ne_none.1 hnot]
  · simp [Option.isSome_iff_ne_none.1 hnot]
  · rw [not_or, not_not, Bool.not_eq_false] at hgrants
    rw [Option.not_isSome_iff_eq_none] at hnot
    cases hp : st.principal with
    | none => simp
    | some p =>
        cases hw : p.wildcard with
        | true => simp [hw]
        | false =>
            have hclass : ∀ v, v ∈ p.aws ∧ classifyAWSPrincipal v role = .roleSession ↔
                v ∈ p.aws ∧ role.IsSession v ∧ ¬role.IsNamed v :=
              fun v => and_congr_right fun _ => classifyAWSPrincipal_session
            simp [hw, hgrants, hnot, mem_sortedPrincipals, hclass]

/-- A granting statement has no route exactly if it does not name the role, or a `NotPrincipal` that
lists a session hides that it does. -/
lemma statementRoutes_eq_nil (hread : st.PrincipalsRead) (heffect : st.effect = .allow)
    (hgrants : st.grantsNamespace service = true) :
    statementRoutes st service role = [] ↔ (st.NamesRole role → st.ExceptsSession role) := by
  rw [statementRoutes, if_neg (by simp [heffect, hgrants])]
  cases hnp : st.notPrincipal with
  | some np =>
      have hp : st.principal = none := hread.exclusive.resolve_left (by simp [hnp])
      rw [if_pos (by rfl)]
      have hnil : (if principalLists (some np) role then [] else [RoutePrincipal.wildcard]) = [] ↔
          ∃ v ∈ np.aws, role.IsListed v ∨ role.IsSession v := by
        rw [← principalLists_iff]
        split_ifs with hlists <;> simp [hlists]
      rw [hnil]
      constructor
      · rintro ⟨v, hv, hlisted | hsession⟩ (⟨p, hp', -⟩ | ⟨np', hnp', hnone⟩)
        · cases hp.symm.trans hp'
        · cases hnp.symm.trans hnp'
          exact absurd hlisted (hnone v hv)
        · cases hp.symm.trans hp'
        · cases hnp.symm.trans hnp'
          exact ⟨np, hnp, ⟨v, hv, hsession⟩, hnone⟩
      · intro h
        by_cases hnone : ∀ v ∈ np.aws, ¬role.IsListed v
        · obtain ⟨np', hnp', ⟨v, hv, hsession⟩, -⟩ := h (Or.inr ⟨np, hnp, hnone⟩)
          cases hnp.symm.trans hnp'
          exact ⟨v, hv, Or.inr hsession⟩
        · push Not at hnone
          obtain ⟨v, hv, hlisted⟩ := hnone
          exact ⟨v, hv, Or.inl hlisted⟩
  | none =>
      have hexcepts : ¬st.ExceptsSession role := by simp [Statement.ExceptsSession, hnp]
      simp only [hexcepts, imp_false, Statement.NamesRole, hnp]
      cases hp : st.principal with
      | none => simp
      | some p =>
          cases hw : p.wildcard with
          | true => simp [hw]
          | false =>
              simp [hw, sortedPrincipals_eq_nil, classifyAWSPrincipal_unset]

end

end AuthSec

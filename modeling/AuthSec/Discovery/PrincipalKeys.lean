import AuthSec.Discovery.Principals

/-!
# Keys of external principals

`ExternalPrincipalKey` joins the issuer and the subject of an endpoint and leaves the kind out.  So the
kinds have to differ in issuer or subject, and the place where the two are joined has to be clear.

* `exists_subject`: a document for everything that an entry can name;
* `neverMerged_iff`: no two principals get one key exactly when no service is named as an account or a
  principal is, no provider has the issuer of AWS, and no issuer goes on where another one ends.
-/

namespace AuthSec

open List


/-! ## Documents of one entry -/

/-- The element of a name among names that differ in more than case. -/
lemma rawElement_eq {name : String} {ms : Members Float64}
    (h : ∀ n ∈ ms.map Prod.fst, equalFoldASCII n name = decide (n = name)) :
    rawElement name ms = lastMember name ms := by
  rw [rawElement, lastMember, GoMap.get?_ofList_eq, memberValues, getLast?_map]
  refine congrArg (fun l => Option.map Prod.snd (List.getLast? l)) (filter_congr fun m hm => ?_)
  exact h m.1 (mem_map_of_mem hm)

/-- A statement of one principal block that allows everything under conditions. -/
def openMembers (principal : Json Float64) (ops : Members Float64) :
    Members Float64 :=
  [("Effect", .str "Allow"), ("Action", .str "*"), ("Principal", principal),
    ("Condition", .obj ops)]

variable {ops : Members Float64} {principal : Json Float64}
  {entries : List TrustPrincipalEntry} {cond : ConditionBlock} {v i s : String}
  {e e' : TrustPrincipalEntry} {k k' : ExternalKind}

lemma rawElement_open :
    ∀ name ∈ ["Sid", "Effect", "Action", "NotAction", "Principal", "NotPrincipal", "Condition"],
      rawElement name (openMembers principal ops) = lastMember name (openMembers principal ops) := by
  have hnames : ∀ name ∈ ["Sid", "Effect", "Action", "NotAction", "Principal", "NotPrincipal",
      "Condition"], ∀ n ∈ ["Effect", "Action", "Principal", "Condition"],
      equalFoldASCII n name = decide (n = name) := by
    decide +kernel
  exact fun name hname => rawElement_eq (hnames name hname)

lemma decode_openMembers (hpresent : presentElement (some principal) = some principal)
    (hentries : decodePrincipalBlock principal = .ok entries)
    (hcond : decodeConditions (.obj ops) = .ok cond) :
    decodeTrustStatement (.obj (openMembers principal ops)) =
      .ok ⟨0, "", .allow, ["*"], [], entries, none, some (.obj ops), cond⟩ := by
  have hms : (objectMembers (.obj (openMembers principal ops))).mapError ("not an object: " ++ ·) =
      .ok (openMembers principal ops) := rfl
  have hprincipals : decodeTrustPrincipals (some principal) none = .ok (entries, none) := by
    rw [decodeTrustPrincipals, hpresent]
    change ((decodePrincipalBlock principal).mapError ("Principal: " ++ ·) >>= fun es =>
      pure (es, none)) = _
    rw [hentries]
    rfl
  have hcondition : decodeTrustCondition (some (.obj ops)) = .ok (cond, some (.obj ops)) := by
    change ((decodeConditions (.obj ops)).mapError ("Condition: " ++ ·) >>= fun c =>
      pure (c, some (Json.obj ops))) = _
    rw [hcond]
    rfl
  have hmember : ∀ name value, lastMember name (openMembers principal ops) = value →
      name ∈ ["Sid", "Effect", "Action", "NotAction", "Principal", "NotPrincipal", "Condition"] →
      rawElement name (openMembers principal ops) = value :=
    fun name value hvalue hname => (rawElement_open name hname).trans hvalue
  have hsid : decodeTrustSid none = .ok "" := rfl
  have heffect : decodeTrustEffect (some (.str "Allow")) = .ok .allow := rfl
  have hactions : decodeTrustActions (some (.str "*")) none = .ok (["*"], []) := rfl
  rw [decodeTrustStatement, hms, ok_bind, hmember "Sid" none rfl (by decide), hsid, ok_bind,
    hmember "Effect" (some (.str "Allow")) rfl (by decide), heffect, ok_bind,
    hmember "Action" (some (.str "*")) rfl (by decide), hmember "NotAction" none rfl (by decide),
    hactions, hmember "Principal" (some principal) rfl (by decide),
    hmember "NotPrincipal" none rfl (by decide), hprincipals,
    hmember "Condition" (some (.obj ops)) rfl (by decide), hcondition]
  rfl

/-- The statement that is read. -/
def openStatement (entries : List TrustPrincipalEntry) (ops : Members Float64)
    (cond : ConditionBlock) : TrustStatement :=
  ⟨0, "", .allow, ["*"], [], entries, none, some (.obj ops), cond⟩

lemma produced_open (hpresent : presentElement (some principal) = some principal)
    (hentries : decodePrincipalBlock principal = .ok entries)
    (hcond : decodeConditions (.obj ops) = .ok cond) :
    Produced (openStatement entries ops cond) := by
  refine ⟨.obj [("Statement", .obj (openMembers principal ops))],
    ⟨readStatements [.obj (openMembers principal ops)],
      skippedStatements [.obj (openMembers principal ops)]⟩, rfl, ?_⟩
  refine mem_filterMap.2 ⟨(.obj (openMembers principal ops), 0), mem_singleton.2 rfl, ?_⟩
  rw [parseTrustStatement, decode_openMembers hpresent hentries hcond]
  rfl

lemma openStatement_allows :
    ∀ action ∈ [actionAssumeRole, actionAssumeRoleWebIdentity, actionAssumeRoleSAML],
      (openStatement entries ops cond).allows action = true := by
  have hall : ∀ action ∈ [actionAssumeRole, actionAssumeRoleWebIdentity, actionAssumeRoleSAML],
      actionMatches "*" action = true := by
    decide +kernel
  intro action haction
  simp [TrustStatement.allows, openStatement, hall action haction]

lemma decodeEntries_self {t : PrincipalType} (hv : trimSpace v ≠ "") :
    decodeEntries [(t.text, .arr [.str v])] t = .ok [⟨t, v⟩] := by
  have hmember : lastMember t.text [(t.text, Json.arr [.str v])] =
      some (.arr [.str v] : Json Float64) := by
    cases t <;> rfl
  have hvalues : intoStringOrSlice (.arr [.str v] : Json Float64) [] = .ok [v] := rfl
  have hpresent : presentElement (some (.arr [.str v])) = some (.arr [.str v] : Json Float64) := rfl
  rw [decodeEntries, hmember, hpresent]
  refine bind_eq_ok.2 ⟨[v], mapError_eq_ok.2 hvalues, mapM_eq_ok.2 (.cons ?_ .nil)⟩
  exact if_neg hv

lemma decodePrincipalBlock_single {t : PrincipalType} (ht : t ≠ .anyone) (hv : trimSpace v ≠ "") :
    decodePrincipalBlock (.obj [(t.text, .arr [.str v])]) = .ok [⟨t, v⟩] := by
  have hentries : [PrincipalType.aws, .service, .federated].mapM
      (decodeEntries [(t.text, .arr [.str v])]) =
      .ok ([PrincipalType.aws, .service, .federated].map fun u =>
        if u = t then [⟨t, v⟩] else []) := by
    refine mapM_eq_ok.2 (List.forall₂_map_right_iff.2 (List.forall₂_same.2 fun u hu => ?_))
    split_ifs with heq
    · rw [heq]
      exact decodeEntries_self hv
    · cases t <;> cases u <;> first | rfl | exact absurd rfl heq
  cases t with
  | anyone => exact absurd rfl ht
  | aws | service | federated =>
      unfold decodePrincipalBlock
      simp only [PrincipalType.text] at hentries ⊢
      rw [hentries]
      rfl

/-- The block of an entry. -/
def blockOf (e : TrustPrincipalEntry) : Json Float64 :=
  if e.type = .anyone then .str e.value else .obj [(e.type.text, .arr [.str e.value])]

lemma decodePrincipalBlock_blockOf (he : e.Valid) : decodePrincipalBlock (blockOf e) = .ok [e] := by
  rw [TrustPrincipalEntry.Valid] at he
  rw [blockOf]
  obtain ⟨t, v⟩ := e
  split_ifs at he ⊢ with ht
  · obtain rfl : t = .anyone := ht
    obtain rfl : v = "*" := he
    rfl
  · exact decodePrincipalBlock_single ht he

/-- Conditions that require a subject of a provider. -/
def subjectCondition (keyPrefix s : String) : Members Float64 :=
  [("StringEquals", .obj [(toLower keyPrefix ++ ":sub", .arr [.str s])])]

lemma subjectValues_subjectCondition (keyPrefix s : String) :
    ∃ cond, decodeConditions (.obj (subjectCondition keyPrefix s)) = .ok cond ∧
      subjectValues cond keyPrefix = [s] := by
  refine ⟨GoMap.ofList [("StringEquals",
    stringValues [(toLower keyPrefix ++ ":sub", .arr [.str s])])], rfl, ?_⟩
  have hop : (stringOperator "StringEquals" && !negatedOperator "StringEquals") = true := by
    decide +kernel
  have hsub : String.ofList (":sub".toList.map lowerChar) = ":sub" := by decide +kernel
  have hkey : toLower (toLower keyPrefix ++ ":sub") = toLower keyPrefix ++ ":sub" := by
    have happend : toLower (toLower keyPrefix ++ ":sub") =
        toLower (toLower keyPrefix) ++ String.ofList (":sub".toList.map lowerChar) := by
      simp [toLower, String.ofList_append]
    rw [happend, toLower_toLower, hsub]
  have hsingle : ∀ {V : Type} (k : String) (v : V), (GoMap.ofList [(k, v)]).sortedPairs = [(k, v)] :=
    fun k v => rfl
  have hstrings : stringValues [(toLower keyPrefix ++ ":sub", (.arr [.str s] : Json Float64))] =
      GoMap.ofList [(toLower keyPrefix ++ ":sub", [s])] := rfl
  have hvalues : ConditionBlock.subValues (GoMap.ofList [("StringEquals",
      stringValues [(toLower keyPrefix ++ ":sub", (.arr [.str s] : Json Float64))])])
      (fun key => toLower key = toLower keyPrefix ++ ":sub") = [s] := by
    rw [ConditionBlock.subValues, hsingle, flatMap_singleton, if_pos hop, hstrings, hsingle,
      filter_cons_of_pos (by rw [hkey]; exact decide_eq_true rfl)]
    rfl
  rw [subjectValues, hvalues]

/-- A statement of one entry that allows everything gives what the entry can name. -/
lemma mem_subjects_of_names {st : TrustStatement} (hprincipals : st.principals = [e])
    (hallows : ∀ action ∈ [actionAssumeRole, actionAssumeRoleWebIdentity, actionAssumeRoleSAML],
      st.allows action = true)
    (hvalues : subjectValues st.cond (providerOf e.value).keyPrefix = [s]) (h : Names e k i s) :
    ∃ t ∈ st.subjects, t.kind = k ∧ t.issuer = i ∧ t.subject = s := by
  have hsubjects : ∀ t, st.entrySubjects e = [t] → t ∈ st.subjects := by
    intro t ht
    rw [TrustStatement.subjects, hprincipals, flatMap_singleton, ht]
    exact mem_singleton.2 rfl
  have hrole := hallows actionAssumeRole (by decide)
  cases h with
  | anyone v =>
      refine ⟨(classifyAWSEntry anyAWSPrincipal).subjectOf ⟨.anyone, v⟩ .stsAssumeRole,
        hsubjects _ ?_, rfl, rfl, rfl⟩
      simp only [TrustStatement.entrySubjects, TrustStatement.anyoneMechanism, hrole, if_true]
  | aws v =>
      refine ⟨(classifyAWSEntry v).subjectOf ⟨.aws, v⟩ .stsAssumeRole, hsubjects _ ?_, rfl,
        classifyAWSEntry_issuer v, rfl⟩
      simp only [TrustStatement.entrySubjects, hrole, if_true]
  | service =>
      refine ⟨(FarEndpoint.mk .awsService issuerAWS s "" "").subjectOf ⟨.service, s⟩ .stsAssumeRole,
        hsubjects _ ?_, rfl, rfl, rfl⟩
      simp only [TrustStatement.entrySubjects, hrole, if_true]
  | federated v =>
      have haction : st.allows (providerOf v).action = true := by
        refine hallows _ ?_
        unfold providerOf
        split_ifs <;> simp
      refine ⟨(FarEndpoint.mk (providerOf v).kind (providerOf v).issuer s "" "").subjectOf
        ⟨.federated, v⟩ (providerOf v).mechanism, hsubjects _ ?_, rfl, rfl, rfl⟩
      simp only [TrustStatement.entrySubjects, TrustStatement.federatedSubjects, haction,
        Bool.not_true, Bool.false_eq_true, if_false, hvalues, map_cons, map_nil]

/-- Everything that an entry can name is named by some statement. -/
lemma exists_subject (he : e.Valid) (h : Names e k i s) :
    ∃ st, Produced st ∧ st.principals = [e] ∧
      ∃ t ∈ st.subjects, t.kind = k ∧ t.issuer = i ∧ t.subject = s := by
  obtain ⟨cond, hcond, hvalues⟩ := subjectValues_subjectCondition (providerOf e.value).keyPrefix s
  have hpresent : presentElement (some (blockOf e)) = some (blockOf e) := by
    rw [blockOf]
    split_ifs <;> rfl
  exact ⟨_, produced_open hpresent (decodePrincipalBlock_blockOf he) hcond, rfl,
    mem_subjects_of_names rfl openStatement_allows hvalues h⟩

/-! ## Keys -/

/-- The text of an issuer before a further part. -/
def joined (i x : String) : String :=
  i ++ "\x1f" ++ x

lemma toList_joined (i x : String) : (joined i x).toList = i.toList ++ '\x1f' :: x.toList := by
  simp [joined]

lemma joined_ne (i x : String) : joined i x ≠ i := by
  intro h
  have hlength := congrArg (fun t => t.toList.length) h
  simp [toList_joined] at hlength

lemma externalPrincipalKey_inj {j u : String} :
    externalPrincipalKey i s = externalPrincipalKey j u ↔ joined i s = joined j u := by
  simp [externalPrincipalKey, sourceKey, joined, String.ext_iff, List.intercalate]

/-- Two joined texts are of the same parts, or one of them is cut further behind. -/
lemma joined_cases {j u : String} (h : joined i s = joined j u) :
    (i = j ∧ s = u) ∨ (∃ x, j = joined i x ∧ s = joined x u) ∨
      ∃ x, i = joined j x ∧ u = joined x s := by
  rw [String.ext_iff, toList_joined, toList_joined] at h
  have hjoined : ∀ {t i : String} {xs : List Char}, t.toList = i.toList ++ '\x1f' :: xs →
      t = joined i (String.ofList xs) := by
    intro t i xs ht
    rw [String.ext_iff, toList_joined, ht, String.toList_ofList]
  rcases append_sep_cases h with ⟨hi, hs⟩ | ⟨xs, hj, hs⟩ | ⟨xs, hi, hu⟩
  · exact Or.inl ⟨String.ext_iff.2 hi, String.ext_iff.2 hs⟩
  · refine Or.inr (Or.inl ⟨String.ofList xs, hjoined hj, ?_⟩)
    rw [String.ext_iff, toList_joined, hs, String.toList_ofList]
  · refine Or.inr (Or.inr ⟨String.ofList xs, hjoined hi, ?_⟩)
    rw [String.ext_iff, toList_joined, hu, String.toList_ofList]


/-! ## Kinds -/

/-- The subject that an entry names with the issuer of AWS. -/
def TrustPrincipalEntry.awsSubject (e : TrustPrincipalEntry) : Option String :=
  match e.type with
  | .anyone => some anyAWSPrincipal
  | .aws => some ((rootAccount e.value).getD e.value)
  | .service => some e.value
  | .federated => none

lemma rootAccount_accountID (h : isAccountID v.toList) : rootAccount v = none := by
  have hcolon : ':' ∉ v.toList := by
    intro hmem
    rw [isAccountID, Bool.and_eq_true] at h
    exact absurd (all_eq_true.1 h.2 ':' hmem) (by decide)
  rw [rootAccount, splitOn_eq_singleton hcolon]

lemma isAccountID_rootAccount {account : String} (h : rootAccount v = some account) :
    isAccountID account.toList := by
  unfold rootAccount at h
  split at h
  · split_ifs at h with hparts
    obtain rfl := Option.some.inj h
    rw [String.toList_ofList]
    exact hparts.2.2.2.2.1
  · exact absurd h (by simp)

lemma classifyAWSEntry_subject (v : String) :
    (classifyAWSEntry v).subject = (rootAccount v).getD v := by
  rw [classifyAWSEntry]
  split
  case isTrue hany =>
    subst hany
    decide +kernel
  split
  case isTrue haccount =>
    rw [rootAccount_accountID haccount]
    rfl
  cases rootAccount v <;> rfl

/-- The kind of an AWS entry can be told from its subject. -/
lemma classifyAWSEntry_kind (v : String) :
    (classifyAWSEntry v).kind =
      if (classifyAWSEntry v).subject = anyAWSPrincipal ∨
        isAccountID (classifyAWSEntry v).subject.toList then .awsAccount else .awsPrincipal := by
  by_cases hany : v = anyAWSPrincipal
  · simp [classifyAWSEntry, hany]
  by_cases haccount : isAccountID v.toList
  · simp [classifyAWSEntry, hany, haccount]
  cases hroot : rootAccount v with
  | none => simp [classifyAWSEntry, hany, haccount, hroot]
  | some account => simp [classifyAWSEntry, hany, haccount, hroot, isAccountID_rootAccount hroot]

lemma oidcIssuerFromARN_suffix (v : String) : (oidcIssuerFromARN v).toList <:+ v.toList := by
  rw [oidcIssuerFromARN]
  cases hdrop : v.toList.dropInfix? ":oidc-provider/".toList with
  | none => exact nil_suffix
  | some around =>
      obtain ⟨⟨mid, hv, -⟩, -⟩ := dropInfix?_eq_some_iff.1 hdrop
      rw [String.toList_ofList, hv]
      exact suffix_append ..

/-- The kind of a provider can be told from its issuer. -/
lemma providerOf_kind (v : String) :
    (providerOf v).kind =
      if contains (providerOf v).issuer ":saml-provider/" then .saml else .oidc := by
  unfold providerOf
  split_ifs with hsaml hoidc hissuer
  · rfl
  · refine absurd ?_ hsaml
    simp only [contains, decide_eq_true_eq] at hissuer ⊢
    exact hissuer.trans (oidcIssuerFromARN_suffix v).isInfix
  · rfl
  · rfl


/-- A key of AWS for the kind, or one of a provider. -/
lemma Names.kind_eq (h : Names e k i s) (h' : Names e' k' i s)
    (hservice : e.type = .service ↔ e'.type = .service)
    (hfederated : e.type = .federated ↔ e'.type = .federated) : k = k' := by
  cases h with
  | anyone v =>
      generalize hs : anyAWSPrincipal = s at h'
      generalize hi : issuerAWS = i at h'
      cases h' with
      | anyone => rfl
      | aws v' => rw [classifyAWSEntry_kind, if_pos (Or.inl hs.symm)]
      | service => simp at hservice
      | federated => simp at hfederated
  | aws v =>
      generalize hs : (classifyAWSEntry v).subject = s at h'
      generalize hi : issuerAWS = i at h'
      rw [classifyAWSEntry_kind v, hs]
      cases h' with
      | anyone => exact if_pos (Or.inl rfl)
      | aws v' => exact (classifyAWSEntry_kind v').symm
      | service => simp at hservice
      | federated => simp at hfederated
  | service v =>
      generalize hi : issuerAWS = i at h'
      cases h' with
      | anyone | aws | federated => simp at hservice
      | service => rfl
  | federated v s =>
      generalize hi : (providerOf v).issuer = i at h'
      rw [providerOf_kind v, hi]
      cases h' with
      | anyone | aws | service => simp at hfederated
      | federated v' => exact (providerOf_kind v').symm

/-- What an entry of no provider names. -/
lemma Names.awsSubject_eq (h : Names e k i s) (he : e.type ≠ .federated) :
    i = issuerAWS ∧ e.awsSubject = some s := by
  cases h with
  | anyone v => exact ⟨rfl, rfl⟩
  | aws v => exact ⟨rfl, congrArg some (classifyAWSEntry_subject v).symm⟩
  | service v => exact ⟨rfl, rfl⟩
  | federated v s => exact absurd rfl he

lemma Names.issuer_eq (h : Names e k i s) (he : e.type = .federated) :
    (providerOf e.value).issuer = i := by
  cases h with
  | anyone | aws | service => simp at he
  | federated v s => rfl

lemma exists_names_aws (h : e.awsSubject = some s) :
    ∃ k, Names e k issuerAWS s ∧ k ≠ .oidc ∧ k ≠ .saml ∧ (k = .awsService ↔ e.type = .service) := by
  obtain ⟨t, v⟩ := e
  cases t with
  | anyone =>
      obtain rfl := Option.some.inj h
      exact ⟨_, Names.anyone v, by simp⟩
  | aws =>
      obtain rfl := Option.some.inj h
      have hnames := Names.aws v
      rw [classifyAWSEntry_subject] at hnames
      refine ⟨_, hnames, ?_⟩
      rw [classifyAWSEntry_kind]
      split_ifs <;> decide
  | service =>
      obtain rfl := Option.some.inj h
      exact ⟨_, Names.service v, by simp⟩
  | federated => exact absurd h (by simp [TrustPrincipalEntry.awsSubject])

lemma federated_of_awsSubject (h : e.awsSubject = none) : e.type = .federated := by
  obtain ⟨t, v⟩ := e
  cases t with
  | anyone | aws | service => simp [TrustPrincipalEntry.awsSubject] at h
  | federated => rfl

lemma providerOf_kind_cases (v : String) : (providerOf v).kind = .saml ∨ (providerOf v).kind = .oidc := by
  rw [providerOf_kind]
  split_ifs <;> simp

/-! ## Merged principals -/

/-- Entries that principal blocks may have. -/
structure EntrySet where
  entries : Set TrustPrincipalEntry
  valid : ∀ e ∈ entries, e.Valid

/-- No two principals get one key, in statements of documents with these entries only. -/
def NeverMerged (E : EntrySet) : Prop :=
  ∀ st st', Produced st → Produced st' → (∀ e ∈ st.principals, e ∈ E.entries) →
    (∀ e ∈ st'.principals, e ∈ E.entries) → ∀ t ∈ st.subjects, ∀ t' ∈ st'.subjects,
      externalPrincipalKey t.issuer t.subject = externalPrincipalKey t'.issuer t'.subject →
      t.kind = t'.kind ∧ t.issuer = t'.issuer ∧ t.subject = t'.subject

/-- The entries keep the kinds apart by issuer and subject, and the separator out of the issuers. -/
structure KeptApart (E : EntrySet) : Prop where
  /-- No service is named as an account or as a principal is. -/
  service : ∀ e ∈ E.entries, ∀ e' ∈ E.entries, e.type = .service → e'.type ≠ .service →
    e'.awsSubject ≠ some e.value
  /-- No provider has the issuer of AWS beside entries of AWS. -/
  issuer : ∀ f ∈ E.entries, ∀ e ∈ E.entries, f.type = .federated → e.type ≠ .federated →
    (providerOf f.value).issuer ≠ issuerAWS
  /-- No issuer of a provider goes on where that of AWS ends, into a subject of AWS. -/
  extended : ∀ f ∈ E.entries, ∀ e ∈ E.entries, f.type = .federated → ∀ x,
    (providerOf f.value).issuer = joined issuerAWS x → ∀ s, e.awsSubject ≠ some (joined x s)
  /-- No issuer of a provider goes on where another one ends. -/
  nested : ∀ f ∈ E.entries, ∀ g ∈ E.entries, f.type = .federated → g.type = .federated → ∀ x,
    (providerOf g.value).issuer ≠ joined (providerOf f.value).issuer x


lemma joined_ne_issuerAWS (i x : String) : joined i x ≠ issuerAWS := by
  intro h
  have hmem : '\x1f' ∈ issuerAWS.toList := by
    rw [← h, toList_joined]
    simp
  exact absurd hmem (by decide)

variable {E : EntrySet} {i' s' : String}

/-- No issuer goes on where that of another principal ends, in front of the same key. -/
lemma KeptApart.not_cut (hE : KeptApart E) (he : e ∈ E.entries) (he' : e' ∈ E.entries) {x : String}
    (h : Names e k i s) (h' : Names e' k' i' s') (hissuer : i' = joined i x) : s ≠ joined x s' := by
  have hfederated : e'.type = .federated := by
    by_contra hne
    exact joined_ne_issuerAWS i x (hissuer.symm.trans (h'.awsSubject_eq hne).1)
  have hprovider : (providerOf e'.value).issuer = joined i x := (h'.issuer_eq hfederated).trans hissuer
  by_cases hf : e.type = .federated
  · rw [← h.issuer_eq hf] at hprovider
    exact absurd hprovider (hE.nested e he e' he' hf hfederated x)
  · obtain ⟨rfl, hsubject⟩ := h.awsSubject_eq hf
    rintro rfl
    exact hE.extended e' he' e he hfederated x hprovider s' hsubject

lemma KeptApart.federated_of (hE : KeptApart E) (he : e ∈ E.entries) (he' : e' ∈ E.entries)
    (h : Names e k i s) (h' : Names e' k' i s) (hfederated : e.type = .federated) :
    e'.type = .federated := by
  by_contra hne
  exact hE.issuer e he e' he' hfederated hne
    ((h.issuer_eq hfederated).trans (h'.awsSubject_eq hne).1)

lemma KeptApart.service_of (hE : KeptApart E) (he : e ∈ E.entries) (he' : e' ∈ E.entries)
    (h : Names e k i s) (h' : Names e' k' i s) (hservice : e.type = .service) :
    e'.type = .service := by
  by_contra hne
  have hf : e.type ≠ .federated := by simp [hservice]
  have hf' : e'.type ≠ .federated := fun hf' => hf (hE.federated_of he' he h' h hf')
  have hvalue : e.awsSubject = some e.value := by simp [TrustPrincipalEntry.awsSubject, hservice]
  refine hE.service e he e' he' hservice hne ?_
  rw [(h'.awsSubject_eq hf').2, ← hvalue, (h.awsSubject_eq hf).2]

/-- Entries that are apart give one key to one principal only. -/
lemma KeptApart.eq_of_key (hE : KeptApart E) (he : e ∈ E.entries) (he' : e' ∈ E.entries)
    (h : Names e k i s) (h' : Names e' k' i' s')
    (hkey : externalPrincipalKey i s = externalPrincipalKey i' s') : k = k' ∧ i = i' ∧ s = s' := by
  rcases joined_cases (externalPrincipalKey_inj.1 hkey) with
    ⟨rfl, rfl⟩ | ⟨x, hi, hs⟩ | ⟨x, hi, hs⟩
  · exact ⟨h.kind_eq h' ⟨hE.service_of he he' h h', hE.service_of he' he h' h⟩
      ⟨hE.federated_of he he' h h', hE.federated_of he' he h' h⟩, rfl, rfl⟩
  · exact absurd hs (hE.not_cut he he' h h' hi)
  · exact absurd hs (hE.not_cut he' he h' h hi)

/-- Entries of statements that merge nothing. -/
lemma NeverMerged.eq_of_key (hE : NeverMerged E) (he : e ∈ E.entries) (he' : e' ∈ E.entries)
    (h : Names e k i s) (h' : Names e' k' i' s')
    (hkey : externalPrincipalKey i s = externalPrincipalKey i' s') : k = k' ∧ i = i' ∧ s = s' := by
  obtain ⟨st, hst, hentries, t, ht, rfl, rfl, rfl⟩ := exists_subject (E.valid e he) h
  obtain ⟨st', hst', hentries', t', ht', rfl, rfl, rfl⟩ := exists_subject (E.valid e' he') h'
  refine hE st st' hst hst' ?_ ?_ t ht t' ht' hkey
  · rw [hentries]
    exact fun p hp => mem_singleton.1 hp ▸ he
  · rw [hentries']
    exact fun p hp => mem_singleton.1 hp ▸ he'

lemma NeverMerged.apart (hE : NeverMerged E) : KeptApart E where
  service := by
    rintro ⟨_, v⟩ he e' he' rfl htype hsubject
    obtain ⟨k, hk, -, -, hservice⟩ := exists_names_aws hsubject
    have hkinds := (hE.eq_of_key he he' (Names.service v) hk rfl).1
    exact htype (hservice.1 hkinds.symm)
  issuer := by
    rintro ⟨_, f⟩ hf e he rfl htype hissuer
    cases hsubject : e.awsSubject with
    | none => exact htype (federated_of_awsSubject hsubject)
    | some s =>
        obtain ⟨k, hk, hoidc, hsaml, -⟩ := exists_names_aws hsubject
        have hfederated := Names.federated f s
        rw [show (providerOf f).issuer = issuerAWS from hissuer] at hfederated
        have hkinds := (hE.eq_of_key hf he hfederated hk rfl).1
        rcases providerOf_kind_cases f with hkind | hkind
        · exact hsaml (hkinds.symm.trans hkind)
        · exact hoidc (hkinds.symm.trans hkind)
  extended := by
    rintro ⟨_, f⟩ hf e he rfl x hissuer s hsubject
    obtain ⟨k, hk, -⟩ := exists_names_aws hsubject
    have hfederated := Names.federated f s
    rw [show (providerOf f).issuer = joined issuerAWS x from hissuer] at hfederated
    refine joined_ne issuerAWS x (hE.eq_of_key hf he hfederated hk ?_).2.1
    simp [externalPrincipalKey_inj, joined, String.append_assoc]
  nested := by
    rintro ⟨_, f⟩ hf ⟨_, g⟩ hg rfl rfl x hissuer
    have hfederated := Names.federated g "*"
    rw [show (providerOf g).issuer = joined (providerOf f).issuer x from hissuer] at hfederated
    refine joined_ne _ x (hE.eq_of_key hg hf hfederated (Names.federated f (joined x "*")) ?_).2.1
    simp [externalPrincipalKey_inj, joined, String.append_assoc]

/-- No two external principals get one key exactly when the entries keep them apart. -/
theorem neverMerged_iff (E : EntrySet) : NeverMerged E ↔ KeptApart E := by
  refine ⟨NeverMerged.apart, fun hE st st' _ _ hentries hentries' t ht t' ht' hkey => ?_⟩
  obtain ⟨e, he, h⟩ := mem_subjects ht
  obtain ⟨e', he', h'⟩ := mem_subjects ht'
  exact hE.eq_of_key (hentries e he) (hentries' e' he') h h' hkey

/-- A document with one statement that allows a principal block to assume the role. -/
def roleDocument (principal : Json Float64) : Json Float64 :=
  .obj [("Statement", .obj [("Effect", .str "Allow"), ("Action", .str "sts:AssumeRole"),
    ("Principal", principal)])]

/-- The kinds and keys of the principals that a document names. -/
def principalKeys (doc : Json Float64) : List (ExternalKind × String) :=
  match parseTrustDocument doc with
  | .error _ => []
  | .ok d => (d.statements.flatMap TrustStatement.subjects).map fun t =>
      (t.kind, externalPrincipalKey t.issuer t.subject)

/-- The service `*` and any principal at all get one key. -/
theorem principalKeys_star :
    principalKeys (roleDocument (.obj [("Service", .str "*")])) =
      [(.awsService, externalPrincipalKey "aws" "*")] ∧
    principalKeys (roleDocument (.str "*")) = [(.awsAccount, externalPrincipalKey "aws" "*")] := by
  decide +kernel

end AuthSec

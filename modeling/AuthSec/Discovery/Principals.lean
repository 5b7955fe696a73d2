import AuthSec.Discovery.StatementKeys
import AuthSec.Lib.Substrings

/-!
# Principals of trust statements

`Subjects` normalises the principals of a statement to far endpoints, each with a kind, an issuer and
a subject.

* `Names`: the endpoints that one entry can give, kind by kind;
* `mem_subjects`: every endpoint of a statement is given by one of its entries.

Statements that the parser gives are `Produced`; results about keys are about these.
-/

namespace AuthSec

open List

/-! ## Actions -/

/-- The globs of trust statements. -/
def trustGlob : Glob Char Char where
  star c := c = '*'
  hit c a := c ≠ '*' && (c = '?' || c = a)

/-- `wildcardMatch`. -/
def wildcardMatch (pattern s : String) : Bool :=
  trustGlob.greedy pattern.toList s.toList

/-- `actionMatches`. -/
def actionMatches (pattern action : String) : Bool :=
  wildcardMatch (toLower pattern) (toLower action)

/-- `TrustStatement.allows`. -/
def TrustStatement.allows (st : TrustStatement) (action : String) : Bool :=
  if st.notActions ≠ [] then !st.notActions.any (actionMatches · action)
  else st.actions.any (actionMatches · action)

def actionAssumeRole : String := "sts:AssumeRole"
def actionAssumeRoleWebIdentity : String := "sts:AssumeRoleWithWebIdentity"
def actionAssumeRoleSAML : String := "sts:AssumeRoleWithSAML"

/-! ## Endpoints -/

/-- The kinds of external principals. -/
inductive ExternalKind where
  | awsAccount
  | awsPrincipal
  | awsService
  | oidc
  | saml
deriving DecidableEq

/-- The mechanisms by which a role is assumed. -/
inductive Mechanism where
  | stsAssumeRole
  | oidcFederation
  | samlFederation
deriving DecidableEq

/-- The far endpoint that an entry names. -/
structure FarEndpoint where
  kind : ExternalKind
  issuer : String
  subject : String
  account : String
  identityARN : String
deriving DecidableEq

/-- `TrustSubject`. -/
structure TrustSubject extends FarEndpoint where
  entry : TrustPrincipalEntry
  mechanism : Mechanism
  wildcard : Bool
deriving DecidableEq

/-- `AnyAWSPrincipal`. -/
def anyAWSPrincipal : String := "*"

/-- `IssuerAWS`. -/
def issuerAWS : String := "aws"

/-- `accountIDPattern`. -/
def isAccountID (v : List Char) : Bool :=
  v.length = 12 && v.all isDigitChar

/-- The account of `accountRootPattern`. -/
def rootAccount (v : String) : Option String :=
  match v.toList.splitOn ':' with
  | [arn, partition, service, region, account, resource] =>
    if arn = "arn".toList ∧ partition ≠ [] ∧ service = "iam".toList ∧ region = [] ∧
        isAccountID account ∧ resource = "root".toList then
      some (String.ofList account)
    else none
  | _ => none

/-- The fields of an ARN: six parts, the last one with what is behind. -/
def arnParts (v : String) : Option (List (List Char)) :=
  let parts := splitN ':' 5 v.toList
  if parts.length = 6 ∧ parts.head? = some "arn".toList ∧ isAccountID (parts.getD 4 []) then
    some parts
  else none

/-- `arnAccount`. -/
def trustARNAccount (v : String) : String :=
  ((arnParts v).map fun parts => String.ofList (parts.getD 4 [])).getD ""

/-- `IdentityPrincipalARN`. -/
def isIdentityARN (v : String) : Bool :=
  (arnParts v).any fun parts =>
    parts.getD 2 [] = "iam".toList &&
      ("role/".toList <+: parts.getD 5 [] || "user/".toList <+: parts.getD 5 [])

/-- `classifyAWSEntry`. -/
def classifyAWSEntry (v : String) : FarEndpoint :=
  if v = anyAWSPrincipal then ⟨.awsAccount, issuerAWS, anyAWSPrincipal, "", ""⟩
  else if isAccountID v.toList then ⟨.awsAccount, issuerAWS, v, v, ""⟩
  else
    match rootAccount v with
    | some account => ⟨.awsAccount, issuerAWS, account, account, ""⟩
    | none => ⟨.awsPrincipal, issuerAWS, v, trustARNAccount v, if isIdentityARN v then v else ""⟩

/-- `oidcIssuerFromARN`. -/
def oidcIssuerFromARN (arn : String) : String :=
  match arn.toList.dropInfix? ":oidc-provider/".toList with
  | some (_, issuer) => String.ofList issuer
  | none => ""

/-- What the value of a federated entry says of the provider. -/
structure Provider where
  kind : ExternalKind
  issuer : String
  mechanism : Mechanism
  action : String
  keyPrefix : String

/-- The provider of a federated entry. -/
def providerOf (value : String) : Provider :=
  if contains value ":saml-provider/" then
    ⟨.saml, value, .samlFederation, actionAssumeRoleSAML, "saml"⟩
  else if contains value ":oidc-provider/" ∧ oidcIssuerFromARN value ≠ "" then
    ⟨.oidc, oidcIssuerFromARN value, .oidcFederation, actionAssumeRoleWebIdentity,
      oidcIssuerFromARN value⟩
  else ⟨.oidc, value, .oidcFederation, actionAssumeRoleWebIdentity, value⟩

/-! ## Subjects of a statement -/

/-- The subjects that conditions require of a provider, or any. -/
def subjectValues (cond : ConditionBlock) (keyPrefix : String) : List String :=
  match cond.subValues fun key => toLower key = toLower keyPrefix ++ ":sub" with
  | [] => ["*"]
  | values => values

/-- `anyoneMechanism`. -/
def TrustStatement.anyoneMechanism (st : TrustStatement) : Option Mechanism :=
  if st.allows actionAssumeRole then some .stsAssumeRole
  else if st.allows actionAssumeRoleWebIdentity then some .oidcFederation
  else if st.allows actionAssumeRoleSAML then some .samlFederation
  else none

/-- The subject at an endpoint. -/
def FarEndpoint.subjectOf (e : FarEndpoint) (entry : TrustPrincipalEntry) (mechanism : Mechanism) :
    TrustSubject :=
  { e with
    entry := entry
    mechanism := mechanism
    wildcard := e.subject = anyAWSPrincipal || containsAny e.subject ['*', '?'] }

/-- `federatedSubjects`. -/
def TrustStatement.federatedSubjects (st : TrustStatement) (p : TrustPrincipalEntry) :
    List TrustSubject :=
  let provider := providerOf p.value
  if !st.allows provider.action then []
  else (subjectValues st.cond provider.keyPrefix).map fun v =>
    (FarEndpoint.mk provider.kind provider.issuer v "" "").subjectOf p provider.mechanism

/-- The subjects of an entry. -/
def TrustStatement.entrySubjects (st : TrustStatement) (p : TrustPrincipalEntry) :
    List TrustSubject :=
  match p.type with
  | .anyone =>
    match st.anyoneMechanism with
    | some mechanism => [(classifyAWSEntry anyAWSPrincipal).subjectOf p mechanism]
    | none => []
  | .aws =>
    if st.allows actionAssumeRole then [(classifyAWSEntry p.value).subjectOf p .stsAssumeRole]
    else []
  | .service =>
    if st.allows actionAssumeRole then
      [(FarEndpoint.mk .awsService issuerAWS p.value "" "").subjectOf p .stsAssumeRole]
    else []
  | .federated => st.federatedSubjects p

/-- `Subjects`: one subject for each endpoint. -/
def TrustStatement.subjects (st : TrustStatement) : List TrustSubject :=
  firsts (fun sub => sub.issuer ++ "\x00" ++ sub.subject) [] (st.principals.flatMap st.entrySubjects)

/-- `ExternalPrincipalKey`. -/
def externalPrincipalKey (issuer subject : String) : String :=
  sourceKey "aws" ["ext", issuer, subject]

/-! ## Endpoints of entries -/

/-- The kind, issuer and subject of an endpoint that an entry can name. -/
inductive Names : TrustPrincipalEntry → ExternalKind → String → String → Prop
  | anyone (v : String) : Names ⟨.anyone, v⟩ .awsAccount issuerAWS anyAWSPrincipal
  | aws (v : String) :
      Names ⟨.aws, v⟩ (classifyAWSEntry v).kind issuerAWS (classifyAWSEntry v).subject
  | service (v : String) : Names ⟨.service, v⟩ .awsService issuerAWS v
  | federated (v s : String) : Names ⟨.federated, v⟩ (providerOf v).kind (providerOf v).issuer s

lemma classifyAWSEntry_issuer (v : String) : (classifyAWSEntry v).issuer = issuerAWS := by
  rw [classifyAWSEntry]
  split
  · rfl
  split
  · rfl
  split <;> rfl

/-- What an entry gives is what it can name. -/
lemma names_of_entrySubjects {st : TrustStatement} {p : TrustPrincipalEntry} {t : TrustSubject}
    (h : t ∈ st.entrySubjects p) : Names p t.kind t.issuer t.subject := by
  obtain ⟨type, v⟩ := p
  cases type with
  | anyone =>
      simp only [TrustStatement.entrySubjects] at h
      split at h
      · obtain rfl := mem_singleton.1 h
        exact Names.anyone v
      · exact absurd h not_mem_nil
  | aws =>
      simp only [TrustStatement.entrySubjects] at h
      split_ifs at h
      · obtain rfl := mem_singleton.1 h
        have hnames := Names.aws v
        rw [← classifyAWSEntry_issuer v] at hnames
        exact hnames
      · exact absurd h not_mem_nil
  | service =>
      simp only [TrustStatement.entrySubjects] at h
      split_ifs at h
      · obtain rfl := mem_singleton.1 h
        exact Names.service v
      · exact absurd h not_mem_nil
  | federated =>
      simp only [TrustStatement.entrySubjects, TrustStatement.federatedSubjects] at h
      split_ifs at h
      · exact absurd h not_mem_nil
      · obtain ⟨s, -, rfl⟩ := mem_map.1 h
        exact Names.federated v s

/-- The subjects of a statement come from its entries. -/
lemma mem_subjects {st : TrustStatement} {t : TrustSubject} (h : t ∈ st.subjects) :
    ∃ p ∈ st.principals, Names p t.kind t.issuer t.subject := by
  obtain ⟨p, hp, ht⟩ := List.mem_flatMap.1 (mem_of_mem_firsts h)
  exact ⟨p, hp, names_of_entrySubjects ht⟩

/-- An entry that a principal block can have: its value is not blank. -/
def TrustPrincipalEntry.Valid (p : TrustPrincipalEntry) : Prop :=
  if p.type = .anyone then p.value = "*" else trimSpace p.value ≠ ""

/-- A statement of some document. -/
def Produced (st : TrustStatement) : Prop :=
  ∃ doc d, parseTrustDocument doc = .ok d ∧ st ∈ d.statements

end AuthSec

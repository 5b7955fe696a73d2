import AuthSec.Go.Strings
import AuthSec.Lib.Except
import AuthSec.Lib.Sorting
import Mathlib.Data.Finset.Sort

/-!
# Scopes that are granted

A token gets the scopes that were requested, that the resource server supports and that the roles of
its subject give.  `ResolveWithReport` grants them to users, with a reason for every scope that it
does not grant; `intersectWithRS` grants them to service accounts; `ValidateRequestedScopes` lists
the scopes that a request may not name.

* `mem_grantable`, `mem_intersectWithRS`, `mem_validateRequestedScopes`: the three in terms of one
  scope;
* `resolveWithReport_iff_intersect`: users and service accounts get the same exactly when no refresh
  capability is requested for a client without OpenID.
-/

namespace AuthSec

open List

/-! ## Clients and servers -/

/-- `oidcCoreScopes`. -/
def oidcCoreScopes : List String :=
  ["openid", "profile", "email", "offline_access", "address", "phone"]

/-- `MCPOAuthClient`: its registered scope. -/
structure OAuthClient where
  scope : String
deriving DecidableEq

/-- `ResourceServer`: the scopes that it declares. -/
structure ResourceServer where
  scopesSupported : List String
deriving DecidableEq

/-- `strings.Fields`. -/
def fields (s : String) : List String :=
  ((s.toList.splitOnP isSpace).filter (· ≠ [])).map String.ofList

/-- `clientIsOIDC`. -/
def clientIsOIDC : Option OAuthClient → Bool
  | none => false
  | some client => "openid" ∈ fields client.scope

/-- The scopes that a server supports: none without a server. -/
def rsSupported (rs : Option ResourceServer) : List String :=
  (rs.map (·.scopesSupported)).getD []

/-! ## Scopes of a subject -/

/-- What the database answers about a subject and a server. -/
structure ScopeAnswers where
  /-- the identifiers are UUIDs -/
  validIDs : Bool
  /-- the state of the end user, if there is a row -/
  endUserStatus : Option String
  userScopes : Except String (List String)
  /-- the status of the service account, if there is a row -/
  accountStatus : Option String
  accountScopes : Except String (List String)
  /-- every scope of the server -/
  allScopes : List String

/-- The scope is below a wildcard such as `tools:*`. -/
def belowWildcard (scope wildcard : String) : Bool :=
  ":*".toList <:+ wildcard.toList ∧ wildcard.toList.dropLast <+: scope.toList

/-- `expandWildcards`. -/
def expandWildcards (allScopes : List String) (effective : Finset String) : Finset String :=
  effective ∪ (allScopes.filter fun scope => ∃ wc ∈ effective, belowWildcard scope wc).toFinset

/-- The set of the scopes that a query gave. -/
def effectiveScopes (db : ScopeAnswers) (scopes : Except String (List String)) :
    Except String (Finset String) := do
  let result := (← scopes).toFinset
  return if result.Nonempty then expandWildcards db.allScopes result else result

/-- `resolveUserEffectiveScopes`: a user with a state other than active has none. -/
def resolveUserEffectiveScopes (db : ScopeAnswers) : Except String (Finset String) :=
  if !db.validIDs then .ok ∅
  else if ∃ status ∈ db.endUserStatus, status ≠ "" ∧ status ≠ "active" then .ok ∅
  else effectiveScopes db db.userScopes

/-- `resolveServiceAccountEffectiveScopes`: an account must be active. -/
def resolveServiceAccountEffectiveScopes (db : ScopeAnswers) : Except String (Finset String) :=
  if !db.validIDs then .ok ∅
  else if db.accountStatus ≠ some "active" then .ok ∅
  else effectiveScopes db db.accountScopes

/-! ## Users -/

/-- `BlockReason`. -/
inductive BlockReason where
  | notInRSSupported
  | noRBACBinding
  | oidcNotAllowed
deriving DecidableEq

/-- `ScopeDiagnostic`. -/
structure ScopeDiagnostic where
  scope : String
  granted : Bool
  reason : Option BlockReason
deriving DecidableEq

/-- `ScopeResolutionReport`. -/
structure ScopeResolutionReport where
  requested : List String
  rsSupported : List String
  userEffective : List String
  grantable : List String
  diagnostics : List ScopeDiagnostic
deriving DecidableEq

/-- The scopes that the loops over a request look at: the empty one and those seen before are passed
over. -/
def unseen : List String → List String → List String
  | _, [] => []
  | seen, s :: rest =>
    if s = "" ∨ s ∈ seen then unseen seen rest else s :: unseen (s :: seen) rest

/-- What `ResolveWithReport` says about a scope. -/
def diagnose (supported : List String) (effective : Finset String) (isOIDC : Bool) (s : String) :
    ScopeDiagnostic :=
  if s = "offline_access" then ⟨s, true, none⟩
  else if s ∈ oidcCoreScopes then
    if isOIDC then ⟨s, true, none⟩ else ⟨s, false, some .oidcNotAllowed⟩
  else if s ∉ supported then ⟨s, false, some .notInRSSupported⟩
  else if s ∉ effective then ⟨s, false, some .noRBACBinding⟩
  else ⟨s, true, none⟩

/-- `ResolveWithReport`. -/
def resolveWithReport (db : ScopeAnswers) (requested : List String) (rs : Option ResourceServer)
    (client : Option OAuthClient) : Except String ScopeResolutionReport := do
  let effective ← (resolveUserEffectiveScopes db).mapError ("resolving user RBAC scopes: " ++ ·)
  let diagnostics :=
    (unseen [] requested).map (diagnose (rsSupported rs) effective (clientIsOIDC client))
  return {
    requested := requested
    rsSupported := rsSupported rs
    userEffective := effective.sort
    grantable := (diagnostics.filter (·.granted)).map (·.scope)
    diagnostics := diagnostics }

/-! ## Service accounts -/

/-- `intersectWithRS`. -/
def intersectWithRS (requested : List String) (effective : Finset String)
    (rs : Option ResourceServer) (client : Option OAuthClient) : List String :=
  (unseen [] requested).filter fun s =>
    if s ∈ oidcCoreScopes then clientIsOIDC client
    else s ∈ rsSupported rs && s ∈ effective

/-- `SubjectType` of a principal. -/
inductive SubjectType where
  | user
  | serviceAccount
  | other (name : String)
deriving DecidableEq

/-- `ResolvePrincipalEffectiveScopes`. -/
def resolvePrincipalEffectiveScopes (subject : SubjectType) (db : ScopeAnswers)
    (requested : List String) (rs : Option ResourceServer) (client : Option OAuthClient) :
    Except String (List String) :=
  match subject with
  | .user => do return (← resolveWithReport db requested rs client).grantable
  | .serviceAccount => do
      let effective ← resolveServiceAccountEffectiveScopes db
      return intersectWithRS requested effective rs client
  | .other name => .error ("unknown principal subject_type " ++ name)

/-- `ValidateRequestedScopes`: the scopes that are not valid. -/
def validateRequestedScopes (scopes : List String) (rs : Option ResourceServer)
    (client : Option OAuthClient) : List String :=
  scopes.filter fun s =>
    if s = "" ∨ s = "offline_access" then false
    else if s ∈ oidcCoreScopes then !clientIsOIDC client
    else s ∉ rsSupported rs

/-! ## One scope -/

lemma mem_unseen {seen l : List String} {s : String} :
    s ∈ unseen seen l ↔ s ∈ l ∧ s ≠ "" ∧ s ∉ seen := by
  induction l generalizing seen with
  | nil => simp [unseen]
  | cons t l ih =>
      rw [unseen]
      split_ifs with hskip
      · rw [ih, mem_cons]
        constructor
        · exact fun ⟨hs, hrest⟩ => ⟨Or.inr hs, hrest⟩
        · rintro ⟨rfl | hs, hne, hseen⟩
          · exact absurd hskip (not_or.2 ⟨hne, hseen⟩)
          · exact ⟨hs, hne, hseen⟩
      · rw [not_or] at hskip
        rw [mem_cons, ih, mem_cons, mem_cons, not_or]
        constructor
        · rintro (rfl | ⟨hs, hne, -, hseen⟩)
          · exact ⟨Or.inl rfl, hskip⟩
          · exact ⟨Or.inr hs, hne, hseen⟩
        · rintro ⟨rfl | hs, hne, hseen⟩
          · exact Or.inl rfl
          · by_cases hst : s = t
            · exact Or.inl hst
            · exact Or.inr ⟨hs, hne, hst, hseen⟩

section

variable {requested : List String} {effective : Finset String} {rs : Option ResourceServer}
  {client : Option OAuthClient} {s : String}

variable (effective rs client) in
/-- A core scope passes for a client with OpenID, another one if it is supported and effective. -/
def ScopePasses (s : String) : Prop :=
  if s ∈ oidcCoreScopes then clientIsOIDC client = true
  else s ∈ rsSupported rs ∧ s ∈ effective

lemma mem_intersectWithRS : s ∈ intersectWithRS requested effective rs client ↔
    s ∈ requested ∧ s ≠ "" ∧ ScopePasses effective rs client s := by
  rw [intersectWithRS, mem_filter, mem_unseen, and_assoc, ScopePasses]
  by_cases hcore : s ∈ oidcCoreScopes <;> simp [hcore]

lemma diagnose_granted :
    (diagnose (rsSupported rs) effective (clientIsOIDC client) s).granted = true ↔
      s = "offline_access" ∨ ScopePasses effective rs client s := by
  unfold diagnose ScopePasses
  split_ifs <;> simp_all

lemma diagnose_scope : (diagnose (rsSupported rs) effective (clientIsOIDC client) s).scope = s := by
  unfold diagnose
  split_ifs <;> rfl

/-- The report on a subject whose effective scopes are known. -/
lemma mem_grantable {db : ScopeAnswers} (h : resolveUserEffectiveScopes db = .ok effective) :
    ∃ report, resolveWithReport db requested rs client = .ok report ∧
      ∀ s, s ∈ report.grantable ↔
        s ∈ requested ∧ s ≠ "" ∧ (s = "offline_access" ∨ ScopePasses effective rs client s) := by
  rw [resolveWithReport, h]
  refine ⟨_, rfl, fun s => ?_⟩
  rw [filter_map, List.map_map, mem_map]
  simp only [mem_filter, mem_unseen, Function.comp_apply, diagnose_granted, diagnose_scope]
  constructor
  · rintro ⟨s, ⟨⟨hs, hne, -⟩, hgranted⟩, rfl⟩
    exact ⟨hs, hne, hgranted⟩
  · rintro ⟨hs, hne, hgranted⟩
    exact ⟨s, ⟨⟨hs, hne, not_mem_nil⟩, hgranted⟩, rfl⟩

lemma mem_validateRequestedScopes : s ∈ validateRequestedScopes requested rs client ↔
    s ∈ requested ∧ s ≠ "" ∧ s ≠ "offline_access" ∧
      if s ∈ oidcCoreScopes then clientIsOIDC client = false else s ∉ rsSupported rs := by
  rw [validateRequestedScopes, mem_filter]
  refine and_congr_right fun _ => ?_
  by_cases hskip : s = "" ∨ s = "offline_access"
  · rw [if_pos hskip]
    refine iff_of_false Bool.false_ne_true fun ⟨hne, hoffline, _⟩ => ?_
    exact hskip.elim hne hoffline
  · rw [if_neg hskip]
    rw [not_or] at hskip
    by_cases hcore : s ∈ oidcCoreScopes <;> simp [hcore, hskip]

/-- A scope that is not valid does not pass. -/
lemma not_scopePasses (effective : Finset String)
    (h : s ∈ validateRequestedScopes requested rs client) :
    s ≠ "offline_access" ∧ ¬ScopePasses effective rs client s := by
  obtain ⟨-, -, hoffline, hinvalid⟩ := mem_validateRequestedScopes.1 h
  refine ⟨hoffline, ?_⟩
  rw [ScopePasses]
  split_ifs at hinvalid ⊢ with hcore
  · simp [hinvalid]
  · exact fun hpasses => hinvalid hpasses.1

/-- With the same effective scopes a user and a service account are granted the same, and nothing
that is not valid, exactly when no refresh capability is requested for a client without OpenID. -/
theorem resolveWithReport_iff_intersect {db : ScopeAnswers}
    (h : resolveUserEffectiveScopes db = .ok effective) :
    ∃ report, resolveWithReport db requested rs client = .ok report ∧
      (((∀ s, s ∈ intersectWithRS requested effective rs client ↔ s ∈ report.grantable) ∧
        ∀ s ∈ validateRequestedScopes requested rs client,
          s ∉ intersectWithRS requested effective rs client ∧ s ∉ report.grantable) ↔
      ("offline_access" ∈ requested → clientIsOIDC client = true)) := by
  obtain ⟨report, hreport, hmem⟩ := @mem_grantable requested effective rs client db h
  have hoffline : ScopePasses effective rs client "offline_access" ↔ clientIsOIDC client = true := by
    rw [ScopePasses, if_pos (by decide)]
  refine ⟨report, hreport, ?_⟩
  simp only [hmem, mem_intersectWithRS]
  constructor
  · rintro ⟨hsame, -⟩ hrequested
    exact hoffline.1 ((hsame "offline_access").2 ⟨hrequested, by decide, Or.inl rfl⟩).2.2
  · intro hoidc
    refine ⟨fun s => and_congr_right fun hs => and_congr_right fun _ => ?_, fun s hs => ?_⟩
    · refine ⟨Or.inr, ?_⟩
      rintro (rfl | hpasses)
      · exact hoffline.2 (hoidc hs)
      · exact hpasses
    · obtain ⟨hne, hpasses⟩ := not_scopePasses effective hs
      exact ⟨fun hgranted => hpasses hgranted.2.2,
        fun hgranted => hgranted.2.2.elim hne hpasses⟩

end

/-! ## Examples -/

/-- A user and a service account with the role for `tools:*`. -/
def toolAnswers : ScopeAnswers where
  validIDs := true
  endUserStatus := none
  userScopes := .ok ["tools:*"]
  accountStatus := some "active"
  accountScopes := .ok ["tools:*"]
  allScopes := ["tools:*", "tools:read", "admin"]

/-- A tool scope that is granted and an admin scope that is not. -/
theorem resolveWithReport_iff_intersect_tools :
    let rs : Option ResourceServer := some ⟨["tools:read", "admin"]⟩
    let client : Option OAuthClient := some ⟨"openid tools:read"⟩
    let requested := ["openid", "tools:read", "admin"]
    let granted := intersectWithRS requested {"tools:*", "tools:read"} rs client
    ∃ report, resolveWithReport toolAnswers requested rs client = .ok report ∧
      (((∀ s, s ∈ granted ↔ s ∈ report.grantable) ∧
        ∀ s ∈ validateRequestedScopes requested rs client,
          s ∉ granted ∧ s ∉ report.grantable) ↔
      ("offline_access" ∈ requested → clientIsOIDC client = true)) :=
  resolveWithReport_iff_intersect (by decide +kernel)

/-- A refresh capability for a client without OpenID: the user gets it, the service account does
not. -/
theorem resolvePrincipal_offline_access :
    resolvePrincipalEffectiveScopes .user toolAnswers ["tools:read", "offline_access"]
        (some ⟨["tools:read"]⟩) (some ⟨"tools:read"⟩) = .ok ["tools:read", "offline_access"] ∧
      resolvePrincipalEffectiveScopes .serviceAccount toolAnswers ["tools:read", "offline_access"]
        (some ⟨["tools:read"]⟩) (some ⟨"tools:read"⟩) = .ok ["tools:read"] := by
  decide +kernel

end AuthSec

import AuthSec.Evidence.BundleOrder
import AuthSec.Go.Decode

/-!
# Reading bundles back

`ParseBundle` decodes the stored text of a bundle and derives its trust again.  Every string of the
facts comes back as it was (`BundleFacts.into_readBack`); integers come back through the nearest
binary64 number, which has no `int64` text when it is too far from zero.
-/

namespace AuthSec

open List

deriving instance Inhabited for BundleSource, BundleTarget, BundleGrant, BundleActivity, Gap
deriving instance Inhabited for ImpactConsumer, Route, BundleFacts

/-! ## Decoding facts -/

def BundleSource.names : List String :=
  ["kind", "rev", "published_at", "connector_id", "connector_run", "authenticated", "ordered",
    "trust", "trust_reasons", "freshness_hours", "activity_report_generated_at",
    "resource_policy_coverage", "resource_policy_run"]

def BundleSource.into : Decoder BundleSource := fun v s => do
  let ms ← structMembers names v
  return {
    kind := ← fieldInto intoString "kind" ms s.kind
    rev := ← fieldInto intoInt "rev" ms s.rev
    publishedAt := ← fieldInto intoPtr "published_at" ms s.publishedAt
    connectorID := ← fieldInto intoString "connector_id" ms s.connectorID
    connectorRun := ← fieldInto intoString "connector_run" ms s.connectorRun
    authenticated := ← fieldInto intoBool "authenticated" ms s.authenticated
    ordered := ← fieldInto intoBool "ordered" ms s.ordered
    trust := ← fieldInto intoString "trust" ms s.trust
    trustReasons := ← fieldInto (intoList intoString) "trust_reasons" ms s.trustReasons
    freshnessHours := ← fieldInto intoInt "freshness_hours" ms s.freshnessHours
    activityReportGeneratedAt :=
      ← fieldInto intoPtr "activity_report_generated_at" ms s.activityReportGeneratedAt
    resourcePolicyCoverage :=
      ← fieldInto intoString "resource_policy_coverage" ms s.resourcePolicyCoverage
    resourcePolicyRun := ← fieldInto intoPtr "resource_policy_run" ms s.resourcePolicyRun }

def BundleTarget.names : List String :=
  ["account_id", "role_id", "role_arn", "estate_scope"]

def BundleTarget.into : Decoder BundleTarget := fun v t => do
  let ms ← structMembers names v
  return {
    accountID := ← fieldInto intoString "account_id" ms t.accountID
    roleID := ← fieldInto intoString "role_id" ms t.roleID
    roleARN := ← fieldInto intoString "role_arn" ms t.roleARN
    estateScope := ← fieldInto intoString "estate_scope" ms t.estateScope }

def BundleGrant.names : List String :=
  ["policy_arn", "assignment_kind", "statement_key", "statement_hash", "services"]

def BundleGrant.into : Decoder BundleGrant := fun v g => do
  let ms ← structMembers names v
  return {
    policyARN := ← fieldInto intoString "policy_arn" ms g.policyARN
    assignmentKind := ← fieldInto intoString "assignment_kind" ms g.assignmentKind
    statementKey := ← fieldInto intoString "statement_key" ms g.statementKey
    statementHash := ← fieldInto intoString "statement_hash" ms g.statementHash
    services := ← fieldInto (intoList intoString) "services" ms g.services }

def BundleActivity.names : List String :=
  ["service", "state", "outcome", "last_authenticated_at", "grant_age_basis",
    "verified_grant_from", "qualified_days"]

def BundleActivity.into : Decoder BundleActivity := fun v a => do
  let ms ← structMembers names v
  return {
    service := ← fieldInto intoString "service" ms a.service
    state := ← fieldInto intoString "state" ms a.state
    outcome := ← fieldInto intoString "outcome" ms a.outcome
    lastAuthenticatedAt := ← fieldInto intoPtr "last_authenticated_at" ms a.lastAuthenticatedAt
    grantAgeBasis := ← fieldInto intoString "grant_age_basis" ms a.grantAgeBasis
    verifiedGrantFrom := ← fieldInto intoPtr "verified_grant_from" ms a.verifiedGrantFrom
    qualifiedDays := ← fieldInto intoInt "qualified_days" ms a.qualifiedDays }

def Gap.names : List String :=
  ["kind", "key", "service", "form", "region", "resource", "reason", "count"]

def Gap.into : Decoder Gap := fun v g => do
  let ms ← structMembers names v
  return {
    kind := ← fieldInto intoString "kind" ms g.kind
    key := ← fieldInto intoString "key" ms g.key
    service := ← fieldInto intoString "service" ms g.service
    form := ← fieldInto intoString "form" ms g.form
    region := ← fieldInto intoString "region" ms g.region
    resource := ← fieldInto intoString "resource" ms g.resource
    reason := ← fieldInto intoString "reason" ms g.reason
    count := ← fieldInto intoInt "count" ms g.count }

def ImpactConsumer.names : List String :=
  ["workload_id", "relationship"]

def ImpactConsumer.into : Decoder ImpactConsumer := fun v c => do
  let ms ← structMembers names v
  return {
    workloadID := ← fieldInto intoString "workload_id" ms c.workloadID
    relationship := ← fieldInto intoString "relationship" ms c.relationship }

def Route.names : List String :=
  ["service", "form", "region", "resource", "principal", "effect", "reason"]

def Route.into : Decoder Route := fun v r => do
  let ms ← structMembers names v
  return {
    service := ← fieldInto intoString "service" ms r.service
    form := ← fieldInto intoString "form" ms r.form
    region := ← fieldInto intoString "region" ms r.region
    resource := ← fieldInto intoString "resource" ms r.resource
    principal := ← fieldInto intoString "principal" ms r.principal
    effect := ← fieldInto intoString "effect" ms r.effect
    reason := ← fieldInto intoString "reason" ms r.reason }

def BundleFacts.names : List String :=
  ["format", "catalog", "built_at", "sources", "target", "removed_services", "grants", "consumers",
    "consumers_unresolved", "owners", "activity", "routes", "gaps"]

def BundleFacts.into : Decoder BundleFacts := fun v f => do
  let ms ← structMembers names v
  return {
    format := ← fieldInto intoString "format" ms f.format
    catalog := ← fieldInto intoString "catalog" ms f.catalog
    builtAt := ← fieldInto intoString "built_at" ms f.builtAt
    sources := ← fieldInto (intoList BundleSource.into) "sources" ms f.sources
    target := ← fieldInto BundleTarget.into "target" ms f.target
    removedServices := ← fieldInto (intoList intoString) "removed_services" ms f.removedServices
    grants := ← fieldInto (intoList BundleGrant.into) "grants" ms f.grants
    consumers := ← fieldInto (intoList ImpactConsumer.into) "consumers" ms f.consumers
    consumersUnresolved := ← fieldInto intoInt "consumers_unresolved" ms f.consumersUnresolved
    owners := ← fieldInto (intoList intoString) "owners" ms f.owners
    activity := ← fieldInto (intoList BundleActivity.into) "activity" ms f.activity
    routes := ← fieldInto (intoList Route.into) "routes" ms f.routes
    gaps := ← fieldInto (intoList Gap.into) "gaps" ms f.gaps }

/-- Decodes the facts of a text that passed the checks, and classifies them. -/
def parseFacts (v : Json Float64) : Except GoErr (BundleFacts × String × List String) := do
  let f ← (BundleFacts.into v default).mapError fun e => .wrapped "igagov: bundle facts: " (.msg e)
  if f.sources = [] then
    .error (.msg "igagov: evidence bundle must name at least one source")
  else .ok (f, classifyBundleTrust f)

/-- `ParseBundle`: the facts, their trust level and its reasons. -/
def parseBundle [Sha256] (canonical : Bytes) (bundleHash : String) :
    Except GoErr (BundleFacts × String × List String) := do
  let v ← (parseJSON canonical).mapError .notIJSON
  if writeCanonical v ≠ canonical then .error (.msg "igagov: bundle text is not canonical")
  else if contentHash canonical ≠ bundleHash then
    .error (.msg "igagov: bundle hash does not match its canonical facts")
  else parseFacts v

/-! ## What comes back -/

@[simp]
lemma intoList_strArray (l cur : List String) :
    intoList intoString (readBack (strArray l)) cur = .ok l := by
  rw [strArray, intoList_readBack fun s => intoString_str s default]
  exact mapM_ok l

/-- The source with its integers as they come back. -/
def BundleSource.reread (s : BundleSource) : Except String BundleSource := do
  let rev ← AuthSec.reread s.rev
  let freshnessHours ← AuthSec.reread s.freshnessHours
  return { s with rev := rev, freshnessHours := freshnessHours }

lemma BundleSource.into_readBack (s : BundleSource) :
    into (readBack s.toJson) default = s.reread := by
  obtain ⟨ms, hms, h⟩ : ∃ ms, structMembers names (readBack s.toJson) = .ok ms ∧
      Rereads names _ ms := structMembers_readBack (by decide) (List.Sublist.refl _)
  rw [into, hms, ok_bind]
  iterate 13 rw [h.fieldInto_eq (by decide)]
  simp [lookup_cons, goInt, reread]

lemma BundleTarget.into_readBack (t : BundleTarget) : into (readBack t.toJson) default = .ok t := by
  obtain ⟨ms, hms, h⟩ : ∃ ms, structMembers names (readBack t.toJson) = .ok ms ∧
      Rereads names _ ms := structMembers_readBack (by decide) (List.Sublist.refl _)
  rw [into, hms, ok_bind]
  iterate 4 rw [h.fieldInto_eq (by decide)]
  simp [lookup_cons]

lemma BundleGrant.into_readBack (g : BundleGrant) : into (readBack g.toJson) default = .ok g := by
  obtain ⟨ms, hms, h⟩ : ∃ ms, structMembers names (readBack g.toJson) = .ok ms ∧
      Rereads names _ ms := structMembers_readBack (by decide) (List.Sublist.refl _)
  rw [into, hms, ok_bind]
  iterate 5 rw [h.fieldInto_eq (by decide)]
  simp [lookup_cons]

/-- The activity with its number of days as it comes back. -/
def BundleActivity.reread (a : BundleActivity) : Except String BundleActivity := do
  let qualifiedDays ← AuthSec.reread a.qualifiedDays
  return { a with qualifiedDays := qualifiedDays }

lemma BundleActivity.into_readBack (a : BundleActivity) :
    into (readBack a.toJson) default = a.reread := by
  obtain ⟨ms, hms, h⟩ : ∃ ms, structMembers names (readBack a.toJson) = .ok ms ∧
      Rereads names _ ms := structMembers_readBack (by decide) (List.Sublist.refl _)
  rw [into, hms, ok_bind]
  iterate 7 rw [h.fieldInto_eq (by decide)]
  simp [lookup_cons, goInt, reread]

lemma ImpactConsumer.into_readBack (c : ImpactConsumer) :
    into (readBack c.toJson) default = .ok c := by
  obtain ⟨ms, hms, h⟩ : ∃ ms, structMembers names (readBack c.toJson) = .ok ms ∧
      Rereads names _ ms := structMembers_readBack (by decide) (List.Sublist.refl _)
  rw [into, hms, ok_bind]
  iterate 2 rw [h.fieldInto_eq (by decide)]
  simp [lookup_cons]

lemma Route.into_readBack (r : Route) : into (readBack r.toJson) default = .ok r := by
  have hfields : (r.fields.map Prod.fst).Nodup := by simp [fields]
  obtain ⟨ms, hms, h⟩ : ∃ ms, structMembers names (readBack r.toJson) = .ok ms ∧
      Rereads names (strMembers r.fields ++ []) ms := by
    rw [Route.stringStruct.json r, append_nil]
    exact structMembers_readBack (by decide) (names_strMembers r.fields)
  have hstring : ∀ f ∈ r.fields, fieldInto intoString f.1 ms "" = .ok f.2.2 := fun f hf =>
    h.fieldInto_string hfields (by simp) (mem_map_of_mem hf) hf
  simp only [fields, forall_mem_cons] at hstring
  obtain ⟨hservice, hform, hregion, hresource, hprincipal, heffect, hreason, -⟩ := hstring
  have hzero : (default : Route) = ⟨"", "", "", "", "", "", ""⟩ := rfl
  simp only [into, hms, hzero, ok_bind, pure_eq_ok, hservice, hform, hregion, hresource, hprincipal,
    heffect, hreason]

/-- The gap with its count as it comes back. -/
def Gap.reread (g : Gap) : Except String Gap := do
  let count ← AuthSec.reread g.count
  return { g with count := count }

lemma Gap.into_readBack (g : Gap) : into (readBack g.toJson) default = g.reread := by
  have hfields : (g.fields.map Prod.fst).Nodup := by simp [fields]
  have hcountName : (g.countMember.map Prod.fst).Sublist ["count"] := by
    rw [countMember]
    split_ifs <;> simp
  obtain ⟨ms, hms, h⟩ : ∃ ms, structMembers names (readBack g.toJson) = .ok ms ∧
      Rereads names (strMembers g.fields ++ g.countMember) ms := by
    rw [g.toJson_eq]
    refine structMembers_readBack (by decide) ?_
    rw [map_append]
    exact (names_strMembers g.fields).append hcountName
  have hstring : ∀ f ∈ g.fields, fieldInto intoString f.1 ms "" = .ok f.2.2 := by
    intro f hf
    have hname : f.1 ∈ g.fields.map Prod.fst := mem_map_of_mem hf
    refine h.fieldInto_string hfields (fun hcount => ?_) (mem_append_left ["count"] hname) hf
    rw [mem_singleton.1 (hcountName.subset hcount)] at hname
    simp [fields] at hname
  have hcount : fieldInto intoInt "count" ms 0 = AuthSec.reread g.count := by
    by_cases hzero : g.count = 0
    · rw [hzero, AuthSec.reread, rereadInt64_zero]
      refine h.fieldInto_of_not_mem (by decide) ?_
      simp [countMember, hzero, fields, strMembers, omitEmpty]
    · rw [h.fieldInto_of_mem (mem_append_right _ (by simp [countMember, hzero]; rfl))]
      exact intoInt_readBack _ _
  simp only [fields, forall_mem_cons] at hstring
  obtain ⟨hkind, hkey, hservice, hform, hregion, hresource, hreason, -⟩ := hstring
  have hzero : (default : Gap) = ⟨"", "", "", "", "", "", "", 0⟩ := rfl
  simp only [into, hms, hzero, ok_bind, hkind, hkey, hservice, hform, hregion, hresource, hreason,
    hcount, reread]

namespace BundleFacts

/-- The facts with their integers as they come back. -/
def reread (f : BundleFacts) : Except String BundleFacts := do
  let sources ← f.sources.mapM BundleSource.reread
  let consumersUnresolved ← AuthSec.reread f.consumersUnresolved
  let activity ← f.activity.mapM BundleActivity.reread
  let gaps ← f.gaps.mapM Gap.reread
  return { f with sources := sources, consumersUnresolved := consumersUnresolved,
                  activity := activity, gaps := gaps }

lemma into_readBack (f : BundleFacts) : into (readBack f.toJson) default = f.reread := by
  obtain ⟨ms, hms, h⟩ : ∃ ms, structMembers names (readBack f.toJson) = .ok ms ∧
      Rereads names _ ms := structMembers_readBack (by decide) (List.Sublist.refl _)
  have htarget : (default : BundleFacts).target = default := rfl
  rw [into, hms, ok_bind, htarget]
  iterate 13 rw [h.fieldInto_eq (by decide)]
  simp only [lookup_cons, String.reduceBEq, beq_self_eq_true, goInt, readBack_str, intoString_str,
    intoList_strArray, intoInt_readBack, intoList_readBack BundleSource.into_readBack,
    BundleTarget.into_readBack, intoList_readBack BundleGrant.into_readBack,
    intoList_readBack ImpactConsumer.into_readBack, intoList_readBack BundleActivity.into_readBack,
    intoList_readBack Route.into_readBack, intoList_readBack Gap.into_readBack, mapM_ok, ok_bind,
    reread]

end BundleFacts

/-! ## Parsing a bundle that was built -/

lemma parseJSON_goText {v : Json GoNum} (hv : v.Fits (maxJSONDepth + 1)) :
    parseJSON (goText v) = .ok (readBack v) :=
  parseJSON_writeCanonical (Json.fits_map.2 hv)

lemma parseBundle_goText [Sha256] (f : BundleFacts) :
    parseBundle (goText f.toJson) (contentHash (goText f.toJson)) =
      parseFacts (readBack f.toJson) := by
  have hcanonical : writeCanonical (readBack f.toJson) = goText f.toJson := writeCanonical_canon _
  rw [parseBundle, parseJSON_goText f.fits]
  simp [Except.mapError, hcanonical]

lemma reread_eq_ok {n m : Int64} : reread n = .ok m ↔ rereadInt64 n = some m := by
  rw [reread]
  cases rereadInt64 n <;> simp [cannotUnmarshal]

lemma exists_reread {n : Int64} : (∃ m, reread n = .ok m) ↔ n.toInt.natAbs < 2 ^ 63 - 512 := by
  simp only [reread_eq_ok, ← rereadInt64_isSome_iff, Option.isSome_iff_exists]

lemma BundleSource.reread_eq_ok {s s' : BundleSource} : s.reread = .ok s' ↔
    ∃ rev hours, AuthSec.reread s.rev = .ok rev ∧ AuthSec.reread s.freshnessHours = .ok hours ∧
      { s with rev := rev, freshnessHours := hours } = s' := by
  simp [reread, bind_eq_ok]

lemma BundleActivity.reread_eq_ok {a a' : BundleActivity} : a.reread = .ok a' ↔
    ∃ days, AuthSec.reread a.qualifiedDays = .ok days ∧ { a with qualifiedDays := days } = a' := by
  simp [reread, bind_eq_ok]

lemma Gap.reread_eq_ok {g g' : Gap} : g.reread = .ok g' ↔
    ∃ n, AuthSec.reread g.count = .ok n ∧ { g with count := n } = g' := by
  simp [reread, bind_eq_ok]

/-- What the trust of a bundle is derived from. -/
structure BundleFacts.SameGrounds (f f' : BundleFacts) : Prop where
  removedServices : f'.removedServices = f.removedServices
  sources : f'.sources.map (fun s => (s.kind, s.connectorRun, s.trust, s.trustReasons)) =
    f.sources.map fun s => (s.kind, s.connectorRun, s.trust, s.trustReasons)
  activity : f'.activity.map (fun a => (a.service, a.state)) =
    f.activity.map fun a => (a.service, a.state)
  gaps : f'.gaps.map Gap.key = f.gaps.map Gap.key

namespace BundleFacts

variable {f f' : BundleFacts}

lemma SameGrounds.uncollected (h : f.SameGrounds f') : f'.uncollected = f.uncollected := by
  have hstate : ∀ (g : BundleFacts) (svc : String),
      ((GoMap.ofList (g.activity.map fun a => (a.service, a))).get? svc).all
          (·.state != evidenceCollected) =
        ((GoMap.ofList (g.activity.map fun a => (a.service, a.state))).get? svc).all
          (· != evidenceCollected) := by
    intro g svc
    have hmap := GoMap.get?_ofList_map BundleActivity.state (g.activity.map fun a => (a.service, a))
      svc
    rw [List.map_map, Function.comp_def] at hmap
    rw [hmap, Option.all_map]
  simp only [BundleFacts.uncollected, h.removedServices, hstate, h.activity]

/-- The reasons of the sources are read off the fields that come back as they were. -/
lemma SameGrounds.flatMap_sources (h : f.SameGrounds f') {g : BundleSource → List String}
    (g' : String × String × String × List String → List String)
    (hg : ∀ s, g s = g' (s.kind, s.connectorRun, s.trust, s.trustReasons)) :
    f'.sources.flatMap g = f.sources.flatMap g := by
  have hflat : ∀ l : List BundleSource, l.flatMap g =
      (l.map fun s => (s.kind, s.connectorRun, s.trust, s.trustReasons)).flatMap g' := by
    intro l
    rw [flatMap_map]
    exact congrArg (l.flatMap ·) (funext hg)
  rw [hflat, hflat, h.sources]

lemma SameGrounds.untrusted (h : f.SameGrounds f') : f'.untrusted = f.untrusted := by
  rw [BundleFacts.untrusted, BundleFacts.untrusted, h.uncollected]
  exact congrArg (· ++ _) (h.flatMap_sources (fun t =>
    (if t.2.2.1 = trustUntrusted then
      t.2.2.2.map ("source " ++ t.1 ++ ":" ++ t.2.1 ++ ": " ++ ·) else []) ++
    if t.2.2.1 = trustUntrusted ∧ t.2.2.2 = [] then
      ["source " ++ t.1 ++ ":" ++ t.2.1 ++ ": " ++ "untrusted"] else []) fun _ => rfl)

lemma SameGrounds.incomplete (h : f.SameGrounds f') : f'.incomplete = f.incomplete := by
  have hgaps : ∀ g : BundleFacts, g.gaps.map ("gap " ++ ·.key) =
      (g.gaps.map Gap.key).map ("gap " ++ ·) := fun g => by rw [List.map_map]; rfl
  rw [BundleFacts.incomplete, BundleFacts.incomplete, hgaps, hgaps, h.gaps]
  exact congrArg (· ++ _) (h.flatMap_sources (fun t =>
    if t.2.2.1 = trustPartial then
      t.2.2.2.map ("source " ++ t.1 ++ ":" ++ t.2.1 ++ ": " ++ ·) else []) fun _ => rfl)

/-- The trust is derived from these grounds only. -/
lemma SameGrounds.classify (h : f.SameGrounds f') :
    classifyBundleTrust f' = classifyBundleTrust f := by
  rw [classifyBundleTrust, classifyBundleTrust, h.untrusted, h.incomplete]

/-- Facts that come back give the same grounds. -/
lemma sameGrounds_of_reread (h : f.reread = .ok f') : f.SameGrounds f' := by
  simp only [reread, bind_eq_ok, pure_eq_ok, Except.ok.injEq] at h
  obtain ⟨sources, hsources, unresolved, -, activity, hactivity, gaps, hgaps, rfl⟩ := h
  refine ⟨rfl, ?_, ?_, ?_⟩
  · refine mapM_map_fst (fun s s' hs => ?_) hsources
    obtain ⟨rev, hours, -, -, rfl⟩ := BundleSource.reread_eq_ok.1 hs
    rfl
  · refine mapM_map_fst (fun a a' ha => ?_) hactivity
    obtain ⟨days, -, rfl⟩ := BundleActivity.reread_eq_ok.1 ha
    rfl
  · refine mapM_map_fst (fun g g' hg => ?_) hgaps
    obtain ⟨n, -, rfl⟩ := Gap.reread_eq_ok.1 hg
    rfl

end BundleFacts

/-- An integer that can be read from its canonical text. -/
def Rereadable (n : Int64) : Prop :=
  n.toInt.natAbs < 2 ^ 63 - 512

lemma BundleFacts.exists_reread {f : BundleFacts} : (∃ f', f.reread = .ok f') ↔
    (∀ s ∈ f.sources, Rereadable s.rev ∧ Rereadable s.freshnessHours) ∧
      Rereadable f.consumersUnresolved ∧ (∀ a ∈ f.activity, Rereadable a.qualifiedDays) ∧
      ∀ g ∈ f.gaps, Rereadable g.count := by
  have hsources : (∃ l, f.sources.mapM BundleSource.reread = .ok l) ↔
      ∀ s ∈ f.sources, Rereadable s.rev ∧ Rereadable s.freshnessHours := by
    simp only [exists_mapM_eq_ok, BundleSource.reread_eq_ok, Rereadable, ← AuthSec.exists_reread]
    refine forall₂_congr fun s _ => ⟨?_, ?_⟩
    · rintro ⟨_, rev, hours, hrev, hhours, -⟩
      exact ⟨⟨rev, hrev⟩, hours, hhours⟩
    · rintro ⟨⟨rev, hrev⟩, hours, hhours⟩
      exact ⟨_, rev, hours, hrev, hhours, rfl⟩
  have hactivity : (∃ l, f.activity.mapM BundleActivity.reread = .ok l) ↔
      ∀ a ∈ f.activity, Rereadable a.qualifiedDays := by
    simp only [exists_mapM_eq_ok, BundleActivity.reread_eq_ok, Rereadable, ← AuthSec.exists_reread]
    exact forall₂_congr fun a _ => ⟨fun ⟨_, days, hdays, _⟩ => ⟨days, hdays⟩,
      fun ⟨days, hdays⟩ => ⟨_, days, hdays, rfl⟩⟩
  have hgaps : (∃ l, f.gaps.mapM Gap.reread = .ok l) ↔ ∀ g ∈ f.gaps, Rereadable g.count := by
    simp only [exists_mapM_eq_ok, Gap.reread_eq_ok, Rereadable, ← AuthSec.exists_reread]
    exact forall₂_congr fun g _ => ⟨fun ⟨_, n, hn, _⟩ => ⟨n, hn⟩, fun ⟨n, hn⟩ => ⟨_, n, hn, rfl⟩⟩
  have hunresolved : (∃ n, AuthSec.reread f.consumersUnresolved = .ok n) ↔
      Rereadable f.consumersUnresolved := AuthSec.exists_reread
  rw [← hsources, ← hactivity, ← hgaps, ← hunresolved]
  simp only [reread, bind_eq_ok, pure_eq_ok, Except.ok.injEq]
  constructor
  · rintro ⟨_, sources, hs, n, hn, activity, ha, gaps, hg, -⟩
    exact ⟨⟨sources, hs⟩, ⟨n, hn⟩, ⟨activity, ha⟩, gaps, hg⟩
  · rintro ⟨⟨sources, hs⟩, ⟨n, hn⟩, ⟨activity, ha⟩, gaps, hg⟩
    exact ⟨_, sources, hs, n, hn, activity, ha, gaps, hg, rfl⟩

lemma parseFacts_readBack {f f' : BundleFacts} {trust : String × List String} :
    parseFacts (readBack f.toJson) = .ok (f', trust) ↔
      f.reread = .ok f' ∧ f'.sources ≠ [] ∧ classifyBundleTrust f' = trust := by
  simp only [parseFacts, f.into_readBack, bind_eq_ok, mapError_eq_ok]
  constructor
  · rintro ⟨g, hg, hparse⟩
    split_ifs at hparse with hsources
    obtain ⟨rfl, rfl⟩ := ok_pair_inj hparse
    exact ⟨hg, hsources, rfl⟩
  · rintro ⟨hf', hsources, rfl⟩
    exact ⟨f', hf', if_neg hsources⟩

/-- A text that was written is parsed, with the trust of the facts it was written from, exactly when
the integers of the facts can be read back. -/
theorem parseBundle_goText_iff [Sha256] {f : BundleFacts} (hsources : f.sources ≠ []) :
    (∃ f', parseBundle (goText f.toJson) (contentHash (goText f.toJson)) =
      .ok (f', classifyBundleTrust f)) ↔ ∃ f', f.reread = .ok f' := by
  simp only [parseBundle_goText, parseFacts_readBack]
  refine exists_congr fun f' => ⟨fun h => h.1, fun hf' => ?_⟩
  have hsame := BundleFacts.sameGrounds_of_reread hf'
  refine ⟨hf', fun hempty => hsources ?_, hsame.classify⟩
  have hlength := congrArg List.length hsame.sources
  rw [length_map, length_map, hempty] at hlength
  exact eq_nil_of_length_eq_zero hlength.symm

end AuthSec

import AuthSec.Evidence.Impact
import AuthSec.Go.Time
import AuthSec.Intent

/-!
# Evidence bundles

The evidence that a version is compiled from, as one canonical text with a hash and a trust level.
-/

namespace AuthSec

/-- `BundleFormat`. -/
def bundleFormat : String := "igagov.bundle/1"

def trustTrusted : String := "trusted"
def trustPartial : String := "partial"
def trustUntrusted : String := "untrusted"

def sourceAWSPublication : String := "aws_publication"
def sourceK8sSweep : String := "k8s_sweep"

def gapResourcePolicyCoverage : String := "resource_policy_coverage"
def gapUnanalysedForm : String := "unanalysed_form"
def gapPolicyUnparseable : String := "policy_unparseable"
def gapConsumersUnresolved : String := "consumers_unresolved"

def evidenceCollected : String := "collected"

/-- `CatalogLabel`. -/
def catalogLabel : String :=
  "catalog@" ++ toString catalogVersion

/-! ## Facts -/

/-- A publication behind the evidence. -/
structure BundleSource where
  kind : String
  rev : Int64
  publishedAt : Option String
  connectorID : String
  connectorRun : String
  authenticated : Bool
  ordered : Bool
  trust : String
  trustReasons : List String
  freshnessHours : Int64
  activityReportGeneratedAt : Option String
  resourcePolicyCoverage : String
  resourcePolicyRun : Option String
  deriving DecidableEq

def goInt (n : Int64) : Json GoNum :=
  .num (.int n)

def BundleSource.toJson (s : BundleSource) : Json GoNum :=
  .obj [("kind", .str s.kind), ("rev", goInt s.rev), ("published_at", goPtr s.publishedAt),
    ("connector_id", .str s.connectorID), ("connector_run", .str s.connectorRun),
    ("authenticated", .bool s.authenticated), ("ordered", .bool s.ordered),
    ("trust", .str s.trust), ("trust_reasons", strArray s.trustReasons),
    ("freshness_hours", goInt s.freshnessHours),
    ("activity_report_generated_at", goPtr s.activityReportGeneratedAt),
    ("resource_policy_coverage", .str s.resourcePolicyCoverage),
    ("resource_policy_run", goPtr s.resourcePolicyRun)]

/-- The fields that the sources are sorted by, in order. -/
def BundleSource.sortKey (s : BundleSource) : String ×ₗ String ×ₗ ℤ ×ₗ String :=
  toLex (s.kind, toLex (s.connectorID, toLex (s.rev.toInt, s.connectorRun)))

structure BundleTarget where
  accountID : String
  roleID : String
  roleARN : String
  estateScope : String
  deriving DecidableEq

def BundleTarget.toJson (t : BundleTarget) : Json GoNum :=
  .obj [("account_id", .str t.accountID), ("role_id", .str t.roleID), ("role_arn", .str t.roleARN),
    ("estate_scope", .str t.estateScope)]

/-- A statement that grants services to the role. -/
structure BundleGrant where
  policyARN : String
  assignmentKind : String
  statementKey : String
  statementHash : String
  services : List String
  deriving DecidableEq

def BundleGrant.toJson (g : BundleGrant) : Json GoNum :=
  .obj [("policy_arn", .str g.policyARN), ("assignment_kind", .str g.assignmentKind),
    ("statement_key", .str g.statementKey), ("statement_hash", .str g.statementHash),
    ("services", strArray g.services)]

/-- The fields that the grants are sorted by, in order. -/
def BundleGrant.sortKey (g : BundleGrant) : String ×ₗ String ×ₗ String :=
  toLex (g.policyARN, toLex (g.statementKey, g.statementHash))

/-- What is known of the use of a service. -/
structure BundleActivity where
  service : String
  state : String
  outcome : String
  lastAuthenticatedAt : Option String
  grantAgeBasis : String
  verifiedGrantFrom : Option String
  qualifiedDays : Int64
  deriving DecidableEq

def BundleActivity.toJson (a : BundleActivity) : Json GoNum :=
  .obj [("service", .str a.service), ("state", .str a.state), ("outcome", .str a.outcome),
    ("last_authenticated_at", goPtr a.lastAuthenticatedAt),
    ("grant_age_basis", .str a.grantAgeBasis),
    ("verified_grant_from", goPtr a.verifiedGrantFrom),
    ("qualified_days", goInt a.qualifiedDays)]

/-- Something the evidence leaves open. -/
structure Gap where
  kind : String
  key : String
  service : String := ""
  form : String := ""
  region : String := ""
  resource : String := ""
  reason : String := ""
  count : Int64 := 0
  deriving DecidableEq

def Gap.toJson (g : Gap) : Json GoNum :=
  .obj ([("kind", .str g.kind), ("key", .str g.key)] ++ omitEmpty "service" g.service ++
    omitEmpty "form" g.form ++ omitEmpty "region" g.region ++ omitEmpty "resource" g.resource ++
    omitEmpty "reason" g.reason ++ if g.count = 0 then [] else [("count", goInt g.count)])

/-- `GapHash`. -/
def gapHash [Sha256] (g : Gap) : Except GoErr String :=
  hashCanonicalTagged .gap g.toJson

/-- What a bundle says, and what is hashed. -/
structure BundleFacts where
  format : String
  catalog : String
  builtAt : String
  sources : List BundleSource
  target : BundleTarget
  removedServices : List String
  grants : List BundleGrant
  consumers : List ImpactConsumer
  consumersUnresolved : Int64
  owners : List String
  activity : List BundleActivity
  routes : List Route
  gaps : List Gap
  deriving DecidableEq

def BundleFacts.toJson (f : BundleFacts) : Json GoNum :=
  .obj [("format", .str f.format), ("catalog", .str f.catalog), ("built_at", .str f.builtAt),
    ("sources", .arr (f.sources.map BundleSource.toJson)), ("target", f.target.toJson),
    ("removed_services", strArray f.removedServices),
    ("grants", .arr (f.grants.map BundleGrant.toJson)),
    ("consumers", .arr (f.consumers.map ImpactConsumer.toJson)),
    ("consumers_unresolved", goInt f.consumersUnresolved), ("owners", strArray f.owners),
    ("activity", .arr (f.activity.map BundleActivity.toJson)),
    ("routes", .arr (f.routes.map Route.toJson)), ("gaps", .arr (f.gaps.map Gap.toJson))]

/-! ## Trust -/

/-- A source as the builder service reads it. -/
structure BundleSourceInput where
  kind : String
  rev : Int64
  publishedAt : Time
  connectorID : String
  connectorRun : String
  authenticated : Bool
  ordered : Bool
  activityReportGeneratedAt : Option Time := none
  resourcePolicyCoverage : String := ""
  resourcePolicyRun : String := ""
  deriving DecidableEq

structure TrustRules where
  maxSourceAge : ℤ

/-- `DefaultTrustRules`. -/
def defaultTrustRules : TrustRules :=
  ⟨24 * hour⟩

namespace BundleSourceInput

/-- The coverage of the source, `not_collected` if it gives none. -/
def coverage (s : BundleSourceInput) : String :=
  if s.resourcePolicyCoverage = "" then CoverageState.notCollected.text
  else s.resourcePolicyCoverage

/-- How old the source's activity report, or else its publication, is. -/
def age (s : BundleSourceInput) (builtAt : Time) : ℤ :=
  max 0 (timeSub builtAt (s.activityReportGeneratedAt.getD s.publishedAt))

def untrustedReasons (s : BundleSourceInput) (builtAt : Time) (rules : TrustRules) : List String :=
  (if s.kind = sourceAWSPublication then []
    else if s.kind = sourceK8sSweep then ["provider_not_supported:K-1"]
    else ["source_kind_not_supported"]) ++
  (if s.authenticated then [] else ["unauthenticated"]) ++
  (if s.ordered then [] else ["unordered"]) ++
  if rules.maxSourceAge < s.age builtAt then ["stale"] else []

def partialReasons (s : BundleSourceInput) : List String :=
  if s.coverage = CoverageState.complete.text then []
  else ["resource_policy_coverage_" ++ s.coverage]

def trust (s : BundleSourceInput) (builtAt : Time) (rules : TrustRules) : String :=
  if s.untrustedReasons builtAt rules ≠ [] then trustUntrusted
  else if s.partialReasons ≠ [] then trustPartial
  else trustTrusted

end BundleSourceInput

/-- `sourceTrust`. -/
def sourceTrust (s : BundleSourceInput) (builtAt : Time) (rules : TrustRules) : BundleSource where
  kind := s.kind
  rev := s.rev
  publishedAt := ts s.publishedAt
  connectorID := s.connectorID
  connectorRun := s.connectorRun
  authenticated := s.authenticated
  ordered := s.ordered
  trust := s.trust builtAt rules
  trustReasons := sortOn id (s.untrustedReasons builtAt rules ++ s.partialReasons)
  freshnessHours := Int64.ofInt (s.age builtAt / hour)
  activityReportGeneratedAt := ts s.activityReportGeneratedAt
  resourcePolicyCoverage := s.coverage
  resourcePolicyRun := if s.resourcePolicyRun = "" then none else some s.resourcePolicyRun

namespace BundleSource

/-- What the trust reasons of a bundle call the source. -/
def label (s : BundleSource) : String :=
  "source " ++ s.kind ++ ":" ++ s.connectorRun ++ ": "

/-- The reasons a source of this trust level contributes. -/
def reasonsAt (s : BundleSource) (trust : String) : List String :=
  if s.trust = trust then s.trustReasons.map (s.label ++ ·) else []

end BundleSource

namespace BundleFacts

/-- The removed services whose activity was not collected. -/
def uncollected (f : BundleFacts) : List String :=
  f.removedServices.filter fun svc =>
    ((GoMap.ofList (f.activity.map fun a => (a.service, a))).get? svc).all
      (·.state != evidenceCollected)

def untrusted (f : BundleFacts) : List String :=
  (f.sources.flatMap fun s => s.reasonsAt trustUntrusted ++
    if s.trust = trustUntrusted ∧ s.trustReasons = [] then [s.label ++ "untrusted"] else []) ++
  f.uncollected.map ("activity_not_collected:" ++ ·)

def incomplete (f : BundleFacts) : List String :=
  (f.sources.flatMap (·.reasonsAt trustPartial)) ++ f.gaps.map ("gap " ++ ·.key)

end BundleFacts

/-- `ClassifyBundleTrust`: the trust level and its reasons. -/
def classifyBundleTrust (f : BundleFacts) : String × List String :=
  if f.untrusted ≠ [] then (trustUntrusted, sortedUnique (f.untrusted ++ f.incomplete))
  else if f.incomplete ≠ [] then (trustPartial, sortedUnique f.incomplete)
  else (trustTrusted, [])

/-! ## Building a bundle -/

/-- `gapFor`: the gap of a route that was not analysed. -/
def gapFor (r : Route) : Gap :=
  if r.reason = "form_not_collected" then
    { kind := gapUnanalysedForm, key := "unanalysed_form:" ++ r.form, service := r.service,
      form := r.form, reason := r.reason }
  else if r.reason = "policy_unparseable" then
    { kind := gapPolicyUnparseable, key := "policy_unparseable:" ++ r.resource,
      service := r.service, form := r.form, region := r.region, resource := r.resource,
      reason := r.reason }
  else if r.reason = "no_resource_policy_coverage" then
    { kind := gapResourcePolicyCoverage, key := "resource_policy_coverage:" ++ r.service ++ ":*",
      service := r.service, reason := r.reason }
  else
    { kind := gapResourcePolicyCoverage,
      key := "resource_policy_coverage:" ++ r.form ++ ":" ++
        if r.region = "" then "*" else r.region,
      service := r.service, form := r.form, region := r.region, reason := r.reason }

/-- What the builder service gathered for one target. -/
structure BundleInput where
  builtAt : Time
  sources : List BundleSourceInput
  target : BundleTarget
  removedServices : List String
  grants : List BundleGrant := []
  consumers : List ImpactConsumer := []
  consumersUnresolved : Int64 := 0
  owners : List String := []
  activity : List BundleActivity := []
  routeAnalyses : List RouteAnalysis := []

namespace BundleInput

def check (inp : BundleInput) : Except GoErr Unit :=
  if inp.sources = [] then
    .error (.msg "igagov: an evidence bundle must name at least one source")
  else if inp.builtAt = zeroTime then .error (.msg "igagov: an evidence bundle needs its build time")
  else if ¬ reAccount inp.target.accountID ∨ inp.target.roleID = "" ∨ inp.target.roleARN = "" then
    .error (.msg "igagov: an evidence bundle needs its target account, RoleId and ARN")
  else if inp.consumersUnresolved < 0 then
    .error (.msg "igagov: consumers_unresolved cannot be negative")
  else .ok ()

/-- The target, with the scope of its account if it names none. -/
def targetFacts (inp : BundleInput) : BundleTarget :=
  if inp.target.estateScope = "" then
    { inp.target with estateScope := "aws:account:" ++ inp.target.accountID }
  else inp.target

def sourceFacts (inp : BundleInput) (rules : TrustRules) : List BundleSource :=
  inp.sources.map (sourceTrust · inp.builtAt rules)

def grantFacts (inp : BundleInput) : List BundleGrant :=
  inp.grants.map fun g => { g with services := sortedUnique g.services }

/-- The routes of the removed services. -/
def routes (inp : BundleInput) : List Route :=
  (inp.routeAnalyses.filter (inp.removedServices.contains ·.service)).flatMap RouteAnalysis.routes

/-- The routes of the removed services that were not analysed. -/
def blindRoutes (inp : BundleInput) : List Route :=
  inp.routes.filter (·.effect == RouteEffect.notAnalysed.text)

def consumersGap (inp : BundleInput) : List Gap :=
  if 0 < inp.consumersUnresolved then
    [{ kind := gapConsumersUnresolved, key := gapConsumersUnresolved,
       count := inp.consumersUnresolved }]
  else []

/-- The gaps by key, later ones winning. -/
def gapMap (inp : BundleInput) : GoMap Gap :=
  GoMap.ofList ((inp.blindRoutes.map gapFor ++ inp.consumersGap).map fun g => (g.key, g))

def facts (inp : BundleInput) (rules : TrustRules) : BundleFacts where
  format := bundleFormat
  catalog := catalogLabel
  builtAt := (ts inp.builtAt).getD ""
  sources := sortOn BundleSource.sortKey (inp.sourceFacts rules)
  target := inp.targetFacts
  removedServices := sortedUnique inp.removedServices
  grants := sortOn BundleGrant.sortKey inp.grantFacts
  consumers := { consumers := inp.consumers : Impact }.normalized.consumers
  consumersUnresolved := inp.consumersUnresolved
  owners := sortedUnique inp.owners
  activity := sortOn BundleActivity.service inp.activity
  routes := sortRoutes (inp.routes.filter (·.effect != RouteEffect.notAnalysed.text))
  gaps := inp.gapMap.sortedPairs.map Prod.snd

end BundleInput

/-- A service that stands twice in a row in a sorted list of activities. -/
def activityTwice : List BundleActivity → Option String
  | a :: b :: l => if a.service = b.service then some b.service else activityTwice (b :: l)
  | _ => none

/-- A sealed bundle with its trust. -/
structure Bundle where
  facts : BundleFacts
  canonical : Bytes
  hash : String
  trust : String
  trustReasons : List String
  gapRefs : List GapRef
  deriving DecidableEq

def gapRef [Sha256] (g : Gap) : Except GoErr GapRef :=
  (gapHash g).map fun h => ⟨g.key, h⟩

/-- The bundle of some facts. -/
def sealBundle [Sha256] (f : BundleFacts) : Except GoErr Bundle := do
  let canon ← canonField f.toJson
  checkStorable canon
  let refs ← f.gaps.mapM gapRef
  return { facts := f, canonical := canon, hash := contentHash canon,
           trust := (classifyBundleTrust f).1, trustReasons := (classifyBundleTrust f).2,
           gapRefs := refs }

/-- `BuildBundle`. -/
def buildBundle [Sha256] (inp : BundleInput) (rules : TrustRules) : Except GoErr Bundle := do
  inp.check
  match activityTwice (inp.facts rules).activity with
  | some svc => .error (.msg ("igagov: activity lists " ++ svc ++ " twice"))
  | none => sealBundle (inp.facts rules)

/-! ## The impact of a version -/

/-- `impactFor`. -/
def impactFor (b : BundleFacts) (remove : List RemoveEntry) (retain : List RetainEntry) :
    Impact where
  consumers := b.consumers
  ownerUserIDs := b.owners
  removed := remove.map fun e => ⟨e.service, e.basis⟩
  retained := retain.map fun e => ⟨e.service, e.basis⟩
  statementRevisions := (b.grants.filter fun g =>
    g.services.any ((remove.map RemoveEntry.service).contains ·)).map BundleGrant.statementHash
  routes := b.routes.filter fun r => (remove.map RemoveEntry.service).contains r.service

section

variable {f : BundleFacts} {routes : List Route} {remove remove' : List RemoveEntry}
  {retain retain' : List RetainEntry}

/-- The removed or retained services and the routes of the removed ones stand in the two inputs
equally often. -/
structure SameServices (f : BundleFacts) (routes : List Route) (remove remove' : List RemoveEntry)
    (retain retain' : List RetainEntry) : Prop where
  perm_remove : (remove.map fun e => (e.service, e.basis)).Perm
    (remove'.map fun e => (e.service, e.basis))
  perm_retain : (retain.map fun e => (e.service, e.basis)).Perm
    (retain'.map fun e => (e.service, e.basis))
  perm_routes : (f.routes.filter fun r => (remove.map RemoveEntry.service).contains r.service).Perm
    (routes.filter fun r => (remove.map RemoveEntry.service).contains r.service)

lemma contains_service (hremove : ∀ e, e ∈ remove ↔ e ∈ remove') (s : String) :
    (remove'.map RemoveEntry.service).contains s = (remove.map RemoveEntry.service).contains s := by
  rw [Bool.eq_iff_iff, List.contains_iff_mem, List.contains_iff_mem]
  simp only [List.mem_map, hremove]

lemma perm_services {α : Type} {service basis : α → String} {l l' : List α} :
    (l.map fun e => (⟨service e, basis e⟩ : ImpactService)).Perm
        (l'.map fun e => ⟨service e, basis e⟩) ↔
      (l.map fun e => (service e, basis e)).Perm (l'.map fun e => (service e, basis e)) := by
  constructor
  · intro h
    simpa [Function.comp_def] using h.map fun s : ImpactService => (s.service, s.basis)
  · intro h
    simpa [Function.comp_def] using h.map fun p : String × String => (⟨p.1, p.2⟩ : ImpactService)

lemma impactFor_sameMembers (hroutes : ∀ r, r ∈ f.routes ↔ r ∈ routes)
    (hremove : ∀ e, e ∈ remove ↔ e ∈ remove') (hretain : ∀ e, e ∈ retain ↔ e ∈ retain') :
    (impactFor f remove retain).SameMembers
      (impactFor { f with routes := routes } remove' retain') := by
  refine ⟨?_, ?_, ?_, ?_, ?_, ?_, ?_⟩ <;> intro x <;>
    simp only [impactFor, contains_service hremove, List.mem_map, List.mem_filter, hremove, hretain,
      hroutes]

lemma impactFor_rearranged_iff (hremove : ∀ e, e ∈ remove ↔ e ∈ remove') :
    (impactFor f remove retain).Rearranged
        (impactFor { f with routes := routes } remove' retain') ↔
      SameServices f routes remove remove' retain retain' := by
  constructor
  · intro h
    refine ⟨perm_services.1 h.removed, perm_services.1 h.retained, ?_⟩
    simpa only [impactFor, contains_service hremove] using h.routes
  · intro h
    refine ⟨perm_services.2 h.perm_remove, perm_services.2 h.perm_retain, .nil, ?_⟩
    simpa only [impactFor, contains_service hremove] using h.perm_routes

/-- Impacts with the same members have the same hash if none of the services and routes stands more
often in one than in the other, whatever the digest is; and under an injective digest only then. -/
theorem impactHash_same_members [Sha256] :
    (∀ a b : Impact, a.SameMembers b → (a.Rearranged b → impactHash a = impactHash b) ∧
      (Function.Injective Sha256.sum → impactHash a = impactHash b → a.Rearranged b)) ∧
    ∀ (f : BundleFacts) (routes : List Route) (remove remove' : List RemoveEntry)
      (retain retain' : List RetainEntry), (∀ r, r ∈ f.routes ↔ r ∈ routes) →
      (∀ e, e ∈ remove ↔ e ∈ remove') → (∀ e, e ∈ retain ↔ e ∈ retain') →
      (SameServices f routes remove remove' retain retain' →
        impactHash (impactFor f remove retain) =
          impactHash (impactFor { f with routes := routes } remove' retain')) ∧
      (Function.Injective Sha256.sum → impactHash (impactFor f remove retain) =
          impactHash (impactFor { f with routes := routes } remove' retain') →
        SameServices f routes remove remove' retain retain') := by
  refine ⟨fun a b h => ⟨impactHash_of_rearranged h, rearranged_of_impactHash_eq⟩, ?_⟩
  intro f routes remove remove' retain retain' hroutes hremove hretain
  rw [← impactFor_rearranged_iff hremove]
  exact ⟨impactHash_of_rearranged (impactFor_sameMembers hroutes hremove hretain),
    rearranged_of_impactHash_eq⟩

end

/-- A queue whose policy names the role, as a bundle records it. -/
def queueRoute : Route where
  service := "sqs"
  form := "sqs_queue"
  region := "eu-west-1"
  resource := "arn:aws:sqs:eu-west-1:123456789012:jobs"
  principal := RoutePrincipal.roleARN.text
  effect := RouteEffect.limited.text

def removeSqs : RemoveEntry :=
  { service := "sqs", basis := "no_attempt", qualifiedDays := 90,
    grantAgeBasis := grantAgeObservedSinceChange }

def removeSns : RemoveEntry :=
  { removeSqs with service := "sns" }

/-- Facts of a bundle with these routes only. -/
def routeFacts (routes : List Route) : BundleFacts where
  format := bundleFormat
  catalog := catalogLabel
  builtAt := "2024-02-29T12:00:00Z"
  sources := []
  target := ⟨"123456789012", "AROAEXAMPLE", "arn:aws:iam::123456789012:role/jobs",
    "aws:account:123456789012"⟩
  removedServices := ["sqs"]
  grants := []
  consumers := []
  consumersUnresolved := 0
  owners := []
  activity := []
  routes := routes
  gaps := []

/-- Two services removed in either order. -/
theorem impactHash_other_order :
    @impactHash ⟨id⟩ (impactFor (routeFacts []) [removeSqs, removeSns] []) =
      @impactHash ⟨id⟩ (impactFor (routeFacts []) [removeSns, removeSqs] []) := by
  let _ : Sha256 := ⟨id⟩
  refine (impactHash_same_members.2 (routeFacts []) [] [removeSqs, removeSns]
    [removeSns, removeSqs] [] [] (by simp [routeFacts]) (by simp [or_comm]) (by simp)).1 ?_
  exact ⟨.swap .., .nil, by simp [routeFacts]⟩

/-- A route that is listed twice changes the hash, although no route is new. -/
theorem impactHash_route_twice :
    (∀ r, r ∈ [queueRoute] ↔ r ∈ [queueRoute, queueRoute]) ∧
      @impactHash ⟨id⟩ (impactFor (routeFacts [queueRoute]) [removeSqs] []) ≠
        @impactHash ⟨id⟩ (impactFor (routeFacts [queueRoute, queueRoute]) [removeSqs] []) := by
  let _ : Sha256 := ⟨id⟩
  have hroutes : ∀ r, r ∈ [queueRoute] ↔ r ∈ [queueRoute, queueRoute] := by simp
  refine ⟨hroutes, fun heq => ?_⟩
  have hperm := rearranged_of_impactHash_eq Function.injective_id heq
  exact absurd hperm.routes.length_eq (by decide)

end AuthSec

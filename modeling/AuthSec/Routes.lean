import AuthSec.Canonical.PlanHash
import AuthSec.Catalog

/-!
# Resource-policy routes

Which resource policies of a scan reach a role in spite of a boundary, and which forms the scan did
not cover.
-/

namespace AuthSec

/-! ## Evidence -/

/-- The state of a coverage row. -/
inductive CoverageState where
  | complete
  | incomplete
  | denied
  | notCollected
  deriving DecidableEq

def CoverageState.text : CoverageState → String
  | complete => "complete"
  | incomplete => "partial"
  | denied => "denied"
  | notCollected => "not_collected"

/-- How far a form was collected. -/
structure CoverageRow where
  form : String
  region : String
  state : CoverageState
  deriving DecidableEq

inductive ParseState where
  | parsed
  | unparseable
  deriving DecidableEq

/-- A resource with its policy, as the scan saw it. -/
structure ResourcePolicyObservation where
  form : String
  region : String
  resourceARN : String
  policyPresent : Bool
  parseState : ParseState
  document : Option PolicyDocument

/-- One scan's resource-policy evidence. -/
structure ResourcePolicyEvidence where
  coverage : List CoverageRow
  observations : List ResourcePolicyObservation
  enabledRegionsUnknown : Bool

def ResourcePolicyEvidence.coverageOnly (ev : ResourcePolicyEvidence) : ResourcePolicyEvidence :=
  { ev with observations := [] }

/-- The role whose routes are analysed. -/
structure RoleRef where
  roleID : String := ""
  arn : String := ""
  name : String := ""
  accountID : String := ""
  partition : String := ""
  deriving DecidableEq

/-- `RoleRef.partition`. -/
def RoleRef.partitionOr (r : RoleRef) : String :=
  if r.partition = "" then "aws" else r.partition

/-! ## Routes -/

/-- The principal of a route; `unset` on a route that names a form only. -/
inductive RoutePrincipal where
  | unset
  | roleARN
  | roleSession
  | wildcard
  deriving DecidableEq

def RoutePrincipal.text : RoutePrincipal → String
  | unset => ""
  | roleARN => "role_arn"
  | roleSession => "role_session"
  | wildcard => "wildcard"

/-- What a route means for a boundary. -/
inductive RouteEffect where
  | limited
  | bypassKnown
  | effectUnknown
  | notAnalysed
  deriving DecidableEq

def RouteEffect.text : RouteEffect → String
  | limited => "limited"
  | bypassKnown => "bypass_known"
  | effectUnknown => "effect_unknown"
  | notAnalysed => "not_analysed"

/-- A way to a service through a resource policy. -/
structure Route where
  service : String
  form : String := ""
  region : String := ""
  resource : String := ""
  principal : String := ""
  effect : String
  reason : String := ""
  deriving DecidableEq

def Route.toJson (r : Route) : Json GoNum :=
  .obj (("service", .str r.service) :: (omitEmpty "form" r.form ++ omitEmpty "region" r.region ++
    omitEmpty "resource" r.resource ++ omitEmpty "principal" r.principal ++
    [("effect", .str r.effect)] ++ omitEmpty "reason" r.reason))

/-- The fields that `SortRoutes` compares, in order. -/
def Route.sortKey (r : Route) : List String :=
  [r.service, r.resource, r.form, r.region, r.principal, r.effect, r.reason]

def sortRoutes (rs : List Route) : List Route :=
  sortOn Route.sortKey rs

/-- The account field of an ARN, empty if there is none. -/
def arnAccount (arn : String) : String :=
  if (splitN ':' 5 arn.toList).length < 6 then "" else (splitPart ':' 5 4 arn).getD ""

def classifyAWSPrincipal (v : String) (role : RoleRef) : RoutePrincipal :=
  if v = "*" then .wildcard
  else if v = role.arn ∨ (role.roleID ≠ "" ∧ v = role.roleID) then .roleARN
  else if role.name ≠ "" ∧ startsWith v ("arn:" ++ role.partitionOr ++ ":sts::" ++
      role.accountID ++ ":assumed-role/" ++ role.name ++ "/") then .roleSession
  else .unset

/-- The AWS entries of a principal element. -/
def Principal.aws (p : Principal) : List String :=
  (p.values.get? "AWS").getD []

def principalLists (p : Option Principal) (role : RoleRef) : Bool :=
  match p with
  | none => false
  | some p =>
    p.aws.any fun v =>
      (classifyAWSPrincipal v role != .unset && v != "*") || v == role.accountID ||
        v == "arn:" ++ role.partitionOr ++ ":iam::" ++ role.accountID ++ ":root"

/-- The principals in the order of their names, without repetition. -/
def sortedPrincipals (ps : List RoutePrincipal) : List RoutePrincipal :=
  [.roleARN, .roleSession, .wildcard].filter (· ∈ ps)

def statementRoutes (st : Statement) (ns : String) (role : RoleRef) : List RoutePrincipal :=
  if st.effect ≠ .allow ∨ st.grantsNamespace ns = false then []
  else if st.notPrincipal.isSome then
    if principalLists st.notPrincipal role then [] else [.wildcard]
  else
    match st.principal with
    | none => []
    | some p =>
      if p.wildcard then [.wildcard]
      else sortedPrincipals ((p.aws.map (classifyAWSPrincipal · role)).filter (· != .unset))

def effectFor : RoutePrincipal → RouteEffect
  | .roleARN => .limited
  | .roleSession => .bypassKnown
  | _ => .effectUnknown

/-! ## Route analysis -/

inductive RouteUsage where
  | noneObserved
  | confirmRequired
  deriving DecidableEq

inductive RouteState where
  | noneObserved
  | bypassKnown
  | effectUnknown
  | notAnalysed
  deriving DecidableEq

/-- The routes to a service. -/
structure RouteAnalysis where
  service : String
  usage : RouteUsage
  state : RouteState
  routes : List Route
  deriving DecidableEq

/-- `RouteAnalysis.finish`. -/
def finishRoutes (service : String) (routes : List Route) : RouteAnalysis where
  service := service
  usage := if routes.isEmpty then .noneObserved else .confirmRequired
  state :=
    if routes.any (·.effect == RouteEffect.bypassKnown.text) then .bypassKnown
    else if routes.any (·.effect == RouteEffect.effectUnknown.text) then .effectUnknown
    else if routes.any (·.effect == RouteEffect.notAnalysed.text) then .notAnalysed
    else .noneObserved
  routes := sortRoutes routes

/-- The coverage rows of a form, by region. -/
def coverageRows (ev : ResourcePolicyEvidence) (form : String) : GoMap CoverageRow :=
  GoMap.ofList ((ev.coverage.filter (·.form == form)).map fun c => (c.region, c))

/-- The rows of an account-scoped form that are not complete. -/
def accountRoutes (service form : String) (rows : GoMap CoverageRow) : List Route :=
  if rows.sortedPairs.isEmpty then
    [{ service, form, effect := RouteEffect.notAnalysed.text,
       reason := CoverageState.notCollected.text }]
  else
    (rows.sortedPairs.filter (·.2.state != .complete)).map fun (region, c) =>
      { service, form, region, effect := RouteEffect.notAnalysed.text, reason := c.state.text }

/-- The regions in which a form is not complete. -/
def regionRoutes (service form : String) (rows : GoMap CoverageRow)
    (enabledRegions : List String) : List Route :=
  (sortedUnique (enabledRegions ++ sortedKeys rows)).filterMap fun region =>
    match rows.get? region with
    | none => some { service, form, region, effect := RouteEffect.notAnalysed.text,
                     reason := CoverageState.notCollected.text }
    | some c =>
      if c.state = .complete then none
      else some { service, form, region, effect := RouteEffect.notAnalysed.text,
                  reason := c.state.text }

/-- What the coverage of a form leaves open. -/
def formRoutes (service : String) (ev : ResourcePolicyEvidence) (enabledRegions : List String)
    (f : PolicyBearingForm) : List Route :=
  if f.state = .uncollected then
    [{ service, form := f.name, effect := RouteEffect.notAnalysed.text,
       reason := "form_not_collected" }]
  else if f.scope = .account then accountRoutes service f.name (coverageRows ev f.name)
  else
    (if ev.enabledRegionsUnknown then
      [{ service, form := f.name, effect := RouteEffect.notAnalysed.text,
         reason := "enabled_regions_unknown" }]
    else []) ++ regionRoutes service f.name (coverageRows ev f.name) enabledRegions

/-- The routes of one observed policy. -/
def observationRoutes (service : String) (role : RoleRef) (ob : ResourcePolicyObservation) :
    List Route :=
  if ob.parseState = .unparseable then [unparseable]
  else
    match ob.document with
    | none => [unparseable]
    | some doc =>
      (keepFirst id (doc.statements.flatMap fun st => statementRoutes st service role)).map
        fun p => { service, form := ob.form, region := ob.region, resource := ob.resourceARN,
                   principal := p.text, effect := (effectFor p).text }
where
  unparseable : Route :=
    { service, form := ob.form, region := ob.region, resource := ob.resourceARN,
      effect := RouteEffect.notAnalysed.text, reason := "policy_unparseable" }

/-- `AnalyzeRoutes`. -/
def analyzeRoutes (service : String) (role : RoleRef) (ev : Option ResourcePolicyEvidence)
    (enabledRegions : List String) : RouteAnalysis :=
  match ev with
  | none => finishRoutes service
    [{ service, effect := RouteEffect.notAnalysed.text, reason := "no_resource_policy_coverage" }]
  | some ev =>
    finishRoutes service
      ((formsForNamespace service).flatMap (formRoutes service ev enabledRegions) ++
        (ev.observations.filter fun ob =>
          ((formsForNamespace service).map PolicyBearingForm.name).contains ob.form &&
            ob.policyPresent && !(arnAccount ob.resourceARN != "" && role.accountID != "" &&
              arnAccount ob.resourceARN != role.accountID)).flatMap
          (observationRoutes service role))

end AuthSec

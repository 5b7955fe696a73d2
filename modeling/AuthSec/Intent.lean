import AuthSec.Catalog

/-!
# Intents

What a policy version asks for, and the checks of `ValidateIntent`.  A set that the source fills
while it walks a list is the part of the list before the element at hand.
-/

namespace AuthSec

/-! ## Patterns of identifiers -/

def isUpperAlnum (c : Char) : Bool :=
  ('A' ≤ c && c ≤ 'Z') || isDigitChar c

def isHexChar (c : Char) : Bool :=
  isDigitChar c || ('a' ≤ c && c ≤ 'f') || ('A' ≤ c && c ≤ 'F')

/-- The class `[\w+=,.@-]`. -/
def isNameChar (c : Char) : Bool :=
  isLowerAlnum c || isUpperAlnum c || c ∈ ['_', '+', '=', ',', '.', '@', '-']

def isArnPartChar (c : Char) : Bool :=
  isLowerAlnum c || c == '-'

/-- `reUUID`. -/
def reUUID (s : String) : Bool :=
  match splitN '-' 5 s.toList with
  | [a, b, c, d, e] =>
    [a, b, c, d, e].map List.length == [8, 4, 4, 4, 12] && [a, b, c, d, e].all (·.all isHexChar)
  | _ => false

/-- `reRoleID`. -/
def reRoleID (s : String) : Bool :=
  match s.toList with
  | 'A' :: 'R' :: 'O' :: 'A' :: rest =>
    decide (8 ≤ rest.length ∧ rest.length ≤ 124) && rest.all isUpperAlnum
  | _ => false

/-- `reHash`. -/
def reHash (s : String) : Bool :=
  startsWith s "sha256:" && (s.toList.drop 7).length == 64 &&
    (s.toList.drop 7).all fun c => isDigitChar c || ('a' ≤ c && c ≤ 'f')

/-- `reRoleName` and `reInlineNm`, which differ in the bound. -/
def reName (bound : ℕ) (s : String) : Bool :=
  decide (1 ≤ s.toList.length ∧ s.toList.length ≤ bound) && s.toList.all isNameChar

/-- `reRolePath`. -/
def reRolePath (s : String) : Bool :=
  match s.toList with
  | ['/'] => true
  | '/' :: rest =>
    rest.getLast? == some '/' && decide (rest.length ≤ 511) &&
      rest.dropLast.all fun c => '!' ≤ c && c ≤ '~'
  | _ => false

/-- `reARN`. -/
def reARN (s : String) : Bool :=
  match splitN ':' 5 s.toList with
  | [arn, partition, service, region, account, resource] =>
    arn == "arn".toList && !partition.isEmpty && partition.all isArnPartChar &&
      service.all isArnPartChar && region.all isArnPartChar && account.all isDigitChar &&
        !resource.isEmpty && resource.all (· != '\n')
  | _ => false

/-! ## Dates -/

/-- A number of two digits in front of a text. -/
def twoDigits : List Char → Option (ℕ × List Char)
  | a :: b :: rest =>
    if isDigitChar a && isDigitChar b then
      some ((a.toNat - 48) * 10 + (b.toNat - 48), rest)
    else none
  | _ => none

/-- A number of one or two digits, as `time.Parse` reads an hour. -/
def oneOrTwoDigits (cs : List Char) : Option (ℕ × List Char) :=
  match twoDigits cs, cs with
  | some r, _ => some r
  | none, a :: rest => if isDigitChar a then some (a.toNat - 48, rest) else none
  | none, [] => none

def daysIn (month year : ℕ) : ℕ :=
  if month = 2 then
    if year % 4 = 0 ∧ (year % 100 ≠ 0 ∨ year % 400 = 0) then 29 else 28
  else if month ∈ [4, 6, 9, 11] then 30
  else 31

def expect (c : Char) : List Char → Option (List Char)
  | d :: rest => if d = c then some rest else none
  | [] => none

/-- The layout `2006-01-02`; gives the text behind it. -/
def parseDay (cs : List Char) : Option (List Char) := do
  let (y₁, cs) ← twoDigits cs
  let (y₂, cs) ← twoDigits cs
  let (month, cs) ← twoDigits (← expect '-' cs)
  let (day, cs) ← twoDigits (← expect '-' cs)
  if 1 ≤ month ∧ month ≤ 12 ∧ 1 ≤ day ∧ day ≤ daysIn month (y₁ * 100 + y₂) then some cs else none

/-- A fraction of a second, which the layout need not ask for. -/
def dropFraction : List Char → List Char
  | c :: d :: rest =>
    if (c == '.' || c == ',') && isDigitChar d then rest.dropWhile isDigitChar else c :: d :: rest
  | cs => cs

/-- The layout `Z07:00`. -/
def parseZone (cs : List Char) : Option Unit :=
  match cs with
  | ['Z'] => some ()
  | sign :: cs => do
    let (hour, cs) ← twoDigits cs
    let (minute, cs) ← twoDigits (← expect ':' cs)
    if (sign = '+' ∨ sign = '-') ∧ hour ≤ 24 ∧ minute ≤ 60 ∧ cs = [] then some () else none
  | [] => none

/-- The layout `time.RFC3339`. -/
def parseRFC3339 (cs : List Char) : Option Unit := do
  let cs ← parseDay cs
  let (hour, cs) ← oneOrTwoDigits (← expect 'T' cs)
  let (minute, cs) ← twoDigits (← expect ':' cs)
  let (second, cs) ← twoDigits (← expect ':' cs)
  if hour < 24 ∧ minute < 60 ∧ second < 60 then parseZone (dropFraction cs) else none

def validDate (s : String) : Bool :=
  parseDay s.toList == some [] || (parseRFC3339 s.toList).isSome

/-! ## Intents -/

/-- `Subject`: a role by its immutable id. -/
structure Subject where
  identityAccountID : String
  roleID : String
  accountID : String
  deriving DecidableEq

/-- A service that stays granted, and why. -/
structure RetainEntry where
  service : String
  basis : String
  lastAttempt : String := ""
  catalog : String := ""
  reason : String := ""
  reviewBy : String := ""
  subjects : List String := []
  deriving DecidableEq

structure IntentRoute where
  resource : String := ""
  principal : String := ""
  form : String := ""
  deriving DecidableEq

/-- A service that is taken away, and the evidence for it. -/
structure RemoveEntry where
  service : String
  basis : String
  qualifiedDays : ℤ
  grantAgeBasis : String
  routeUsage : String := ""
  routeState : String := ""
  routes : List IntentRoute := []
  deriving DecidableEq

structure RolloutIntent where
  canaryTarget : String := ""
  canaryHours : ℤ := 0
  deriving DecidableEq

/-- The intent to take unused services from roles. -/
structure RightSizeIntent where
  kind : String
  subjects : List Subject
  retain : List RetainEntry
  remove : List RemoveEntry
  observationDays : ℤ
  rollout : Option RolloutIntent := none
  delivery : String
  findingIDs : List String := []
  evidenceRev : ℤ
  deriving DecidableEq

/-- The intent to take controls back. -/
structure RemoveControlIntent where
  kind : String
  controlIDs : List String
  reason : String
  deriving DecidableEq

structure DedicatedWorkload where
  workloadID : String
  bindingKind : String
  bindingRef : String
  deriving DecidableEq

structure InlinePolicyRef where
  name : String
  documentHash : String
  deriving DecidableEq

structure NewRole where
  name : String
  path : String
  trustPolicyHash : String
  managedPolicyARNs : List String
  inlinePolicies : List InlinePolicyRef
  boundaryARN : String := ""
  deriving DecidableEq

/-- The intent to give a workload its own role. -/
structure DedicatedIdentityIntent where
  kind : String
  source : Subject
  workload : DedicatedWorkload
  newRole : NewRole
  delivery : String
  deriving DecidableEq

/-- One of the three intents, by its kind. -/
structure Intent where
  kind : String
  rightSize : Option RightSizeIntent := none
  removeControl : Option RemoveControlIntent := none
  dedicatedIdentity : Option DedicatedIdentityIntent := none

/-- `AppliesTo`. -/
def RetainEntry.appliesTo (e : RetainEntry) (identityAccountID : String) : Bool :=
  e.subjects.isEmpty || e.subjects.contains identityAccountID

/-- The services that scoped retains keep for a subject. -/
def RightSizeIntent.keptFor (r : RightSizeIntent) (identityAccountID : String) : List String :=
  (r.retain.filter fun e => e.appliesTo identityAccountID && !e.subjects.isEmpty).map
    RetainEntry.service

/-- `ForSubject`. -/
def RightSizeIntent.forSubject (r : RightSizeIntent) (identityAccountID : String) :
    RightSizeIntent :=
  { r with
    retain := sortOn RetainEntry.service
      ((r.retain.filter (·.appliesTo identityAccountID)).map fun e => { e with subjects := [] })
    remove := r.remove.filter fun e => e.service ∉ r.keptFor identityAccountID }

/-! ## Names of intents, bases and deliveries -/

def intentRightSizeServices : String := "right_size_services"
def intentRemoveControl : String := "remove_control"
def intentDedicatedIdentity : String := "dedicated_identity"

def deliveryDirect : String := "direct"
def deliveryIaCPR : String := "iac_pr"
def deliveryExport : String := "export"

def bindingECSTaskRole : String := "ecs_task_role"
def bindingLambdaRole : String := "lambda_role"
def bindingEC2InstanceProfile : String := "ec2_instance_profile"

def grantAgeObservedSinceChange : String := "observed_since_change"
def grantAgePredatesObservation : String := "predates_observation"

/-- `MinQualifiedDays`. -/
def minQualifiedDays : ℤ := 30

/-! ## Validation -/

/-- What a check reports, with the path of the field. -/
structure IntentError where
  field : String
  code : String
  message : String
  deriving DecidableEq

/-- `IntentErrors.Error`. -/
def intentErrorText (errs : List IntentError) : String :=
  "invalid intent: " ++ String.intercalate "; " (errs.map fun e => e.field ++ ": " ++ e.message)

/-- An error if the condition holds. -/
def flag (bad : Bool) (field code message : String) : List IntentError :=
  if bad then [⟨field, code, message⟩] else []

/-- The field of an element of a list. -/
def elementField (list : String) (i : ℕ) : String :=
  list ++ "[" ++ toString i ++ "]"

def validateSubject (field : String) (s : Subject) : List IntentError :=
  flag (!reUUID s.identityAccountID) (field ++ ".identity_account_id") "invalid"
      "must be a UUID" ++
    flag (!reRoleID s.roleID) (field ++ ".role_id") "invalid" "must be an IAM RoleId (AROA…)" ++
    flag (!reAccount s.accountID) (field ++ ".account_id") "invalid"
      "must be a 12-digit AWS account id"

/-- The checks of a retain's subjects; `r.retain.take i` are the entries before it. -/
def validateScope (r : RightSizeIntent) (i : ℕ) (e : RetainEntry) : List IntentError :=
  let f := elementField "retain" i
  flag (e.basis != "owner") (f ++ ".subjects") "invalid"
      "only an owner retain is scoped to subjects" ++
    e.subjects.zipIdx.flatMap fun (s, j) =>
      flag (!(r.subjects.map Subject.identityAccountID).contains s)
          (elementField (f ++ ".subjects") j) "invalid" (s ++ " is not a subject of this intent") ++
        flag ((((r.retain.take i).filter (·.service == e.service)).flatMap RetainEntry.subjects ++
            e.subjects.take j).contains s)
          (elementField (f ++ ".subjects") j) "duplicate"
          ("service " ++ e.service ++ " is retained twice for " ++ s)

/-- The services retained for every subject. -/
def retainedServices (es : List RetainEntry) : List String :=
  (es.filter (·.subjects.isEmpty)).map RetainEntry.service

def validateRetainBasis (f : String) (e : RetainEntry) : List IntentError :=
  if e.basis = "observed" then
    flag (e.lastAttempt == "" || !validDate e.lastAttempt) (f ++ ".last_attempt") "required"
      "an observed retain needs the last attempt time"
  else if e.basis = "dependency" then
    match parseDependencyRef e.catalog with
    | .ok _ => []
    | .error err => [⟨f ++ ".catalog", "invalid", err⟩]
  else if e.basis = "owner" then
    flag (trimSpace e.reason == "") (f ++ ".reason") "required" "an owner retain needs a reason" ++
      flag (e.reviewBy == "" || !validDate e.reviewBy) (f ++ ".review_by") "required"
        "an owner retain needs a review date (§3.8)"
  else
    flag (e.basis != "unreviewed") (f ++ ".basis") "invalid"
      "retain basis must be observed, dependency, owner or unreviewed"

def validateRetain (r : RightSizeIntent) (i : ℕ) (e : RetainEntry) : List IntentError :=
  let f := elementField "retain" i
  flag (!reService e.service) (f ++ ".service") "invalid" "must be an IAM service namespace" ++
    (if e.subjects.isEmpty then
      flag ((retainedServices (r.retain.take i)).contains e.service) (f ++ ".service") "duplicate"
        ("service " ++ e.service ++ " is retained twice")
    else validateScope r i e) ++
    validateRetainBasis f e

def validateRoute (f : String) (j : ℕ) (rt : IntentRoute) : List IntentError :=
  let rf := elementField (f ++ ".routes") j
  flag (rt.resource == "" && rt.form == "") rf "required" "a route names a resource or a form" ++
    flag (rt.resource != "" && !startsWith rt.resource "arn:") (rf ++ ".resource") "invalid"
      "must be an ARN" ++
    flag (!(["", "role_arn", "role_session", "wildcard"].contains rt.principal))
      (rf ++ ".principal") "invalid" "principal must be role_arn, role_session or wildcard"

def validateRemoveRoutes (f : String) (e : RemoveEntry) : List IntentError :=
  flag (!(["", "none_observed", "confirm_required"].contains e.routeUsage)) (f ++ ".route_usage")
      "invalid" "route_usage must be none_observed or confirm_required" ++
    flag (!(["", "none_observed", "bypass_known", "effect_unknown", "not_analysed"].contains
      e.routeState)) (f ++ ".route_state") "invalid" "unknown route_state" ++
    flag (e.routeUsage == "none_observed" && e.routeState != "" &&
      e.routeState != "none_observed") (f ++ ".route_state") "conflict"
      "route_usage none_observed requires route_state none_observed (§3.4)" ++
    flag (e.routeUsage == "none_observed" && !e.routes.isEmpty) (f ++ ".routes") "conflict"
      "route_usage none_observed lists no routes" ++
    flag (e.routeState != "" && e.routeState != "none_observed" && e.routes.isEmpty)
      (f ++ ".routes") "required"
      ("route_state " ++ e.routeState ++ " must list its routes or forms") ++
    e.routes.zipIdx.flatMap fun (rt, j) => validateRoute f j rt

def validateRemove (r : RightSizeIntent) (i : ℕ) (e : RemoveEntry) : List IntentError :=
  let f := elementField "remove" i
  flag (!reService e.service) (f ++ ".service") "invalid" "must be an IAM service namespace" ++
    flag (((r.remove.take i).map RemoveEntry.service).contains e.service) (f ++ ".service")
      "duplicate" ("service " ++ e.service ++ " is removed twice") ++
    flag ((retainedServices r.retain).contains e.service) (f ++ ".service") "conflict"
      ("service " ++ e.service ++ " is both retained and removed") ++
    flag (e.basis != "no_attempt") (f ++ ".basis") "invalid" "remove basis must be no_attempt" ++
    flag (e.qualifiedDays < minQualifiedDays) (f ++ ".qualified_days") "not_qualified"
      ("a removal needs at least " ++ toString minQualifiedDays ++ " qualified days (§2.6)") ++
    flag (e.grantAgeBasis != grantAgeObservedSinceChange &&
      e.grantAgeBasis != grantAgePredatesObservation) (f ++ ".grant_age_basis") "invalid"
      "grant_age_basis must be observed_since_change or predates_observation; an unknown grant is unreviewed, never removed" ++
    validateRemoveRoutes f e

def validateRollout (r : RightSizeIntent) : List IntentError :=
  match r.rollout with
  | none => []
  | some ro =>
    flag (ro.canaryTarget != "" && !(r.subjects.map Subject.roleID).contains ro.canaryTarget)
        "rollout.canary_target" "invalid" "the canary must be one of the subjects" ++
      flag (ro.canaryHours != 0 && (ro.canaryHours < 1 || 336 < ro.canaryHours))
        "rollout.canary_hours" "out_of_range" "must be 1..336"

/-- Ids that must be UUIDs, without repetition. -/
def validateIDs (field : String) (ids : List String) (duplicate : String) : List IntentError :=
  ids.zipIdx.flatMap fun (id, i) =>
    flag (!reUUID id) (elementField field i) "invalid" "must be a UUID" ++
      flag ((ids.take i).contains id) (elementField field i) "duplicate" duplicate

/-- The checks of `validateRightSize` in front of those on the retains. -/
def validateSubjects (r : RightSizeIntent) : List IntentError :=
  flag (r.kind != intentRightSizeServices) "kind" "invalid"
      ("kind must be " ++ intentRightSizeServices) ++
    flag r.subjects.isEmpty "subjects" "required"
      "at least one subject is required (no selector targets in R1a, P-06)" ++
    r.subjects.zipIdx.flatMap fun (s, i) =>
      validateSubject (elementField "subjects" i) s ++
        flag (((r.subjects.take i).map Subject.roleID).contains s.roleID)
          (elementField "subjects" i ++ ".role_id") "duplicate"
          ("role " ++ s.roleID ++ " is listed twice")

/-- The checks of `validateRightSize` behind those on the removals. -/
def validateTerms (r : RightSizeIntent) : List IntentError :=
  flag (r.observationDays < 1 || 90 < r.observationDays) "observation_days" "out_of_range"
      "must be 1..90" ++
    validateRollout r ++
    flag (!([deliveryDirect, deliveryIaCPR, deliveryExport].contains r.delivery)) "delivery"
      "invalid" "delivery must be direct, iac_pr or export" ++
    validateIDs "finding_ids" r.findingIDs "finding listed twice" ++
    flag (r.evidenceRev ≤ 0) "evidence_rev" "required"
      "the revision the intent was proposed from is required"

def validateRightSize (r : RightSizeIntent) : List IntentError :=
  validateSubjects r ++
    (r.retain.zipIdx.flatMap fun (e, i) => validateRetain r i e) ++
    ((sortedUnique ((r.retain.filter (!·.subjects.isEmpty)).map RetainEntry.service)).flatMap
      fun svc => flag ((retainedServices r.retain).contains svc) "retain" "duplicate"
        ("service " ++ svc ++ " is retained for every subject and again for some")) ++
    flag r.remove.isEmpty "remove" "required"
      "a right_size_services intent removes at least one service" ++
    (r.subjects.zipIdx.flatMap fun (s, i) =>
      flag (!r.remove.isEmpty && (r.forSubject s.identityAccountID).remove.isEmpty)
        (elementField "subjects" i) "nothing_to_remove"
        ("the owners' retains leave nothing to remove for role " ++ s.roleID)) ++
    (r.remove.zipIdx.flatMap fun (e, i) => validateRemove r i e) ++
    validateTerms r

def validateRemoveControl (r : RemoveControlIntent) : List IntentError :=
  flag (r.kind != intentRemoveControl) "kind" "invalid" ("kind must be " ++ intentRemoveControl) ++
    flag r.controlIDs.isEmpty "control_ids" "required" "at least one control is required" ++
    validateIDs "control_ids" r.controlIDs "control listed twice" ++
    flag (trimSpace r.reason == "") "reason" "required" "removing AuthSec control needs a reason"

def validateNewRole (nr : NewRole) : List IntentError :=
  flag (!reName 64 nr.name) "new_role.name" "invalid" "must be a valid IAM role name" ++
    flag (!reRolePath nr.path) "new_role.path" "invalid"
      "must be an IAM path (\"/\" or \"/a/b/\")" ++
    flag (!reHash nr.trustPolicyHash) "new_role.trust_policy_hash" "invalid"
      "must be sha256:<64 hex>" ++
    (nr.managedPolicyARNs.zipIdx.flatMap fun (a, i) =>
      flag (!reARN a) (elementField "new_role.managed_policy_arns" i) "invalid" "must be an ARN" ++
        flag ((nr.managedPolicyARNs.take i).contains a)
          (elementField "new_role.managed_policy_arns" i) "duplicate" "policy listed twice") ++
    (nr.inlinePolicies.zipIdx.flatMap fun (p, i) =>
      flag (!reName 128 p.name) (elementField "new_role.inline_policies" i ++ ".name") "invalid"
          "must be a valid inline policy name" ++
        flag (((nr.inlinePolicies.take i).map InlinePolicyRef.name).contains p.name)
          (elementField "new_role.inline_policies" i ++ ".name") "duplicate"
          "inline policy listed twice" ++
        flag (!reHash p.documentHash) (elementField "new_role.inline_policies" i ++
          ".document_hash") "invalid" "must be sha256:<64 hex>") ++
    flag (nr.boundaryARN != "" && !reARN nr.boundaryARN) "new_role.boundary_arn" "invalid"
      "must be an ARN"

def validateDedicated (d : DedicatedIdentityIntent) : List IntentError :=
  flag (d.kind != intentDedicatedIdentity) "kind" "invalid"
      ("kind must be " ++ intentDedicatedIdentity) ++
    validateSubject "source" d.source ++
    flag (!reUUID d.workload.workloadID) "workload.workload_id" "invalid" "must be a UUID" ++
    flag (!([bindingECSTaskRole, bindingLambdaRole, bindingEC2InstanceProfile].contains
      d.workload.bindingKind)) "workload.binding_kind" "invalid"
      "binding_kind must be ecs_task_role, lambda_role or ec2_instance_profile (§11)" ++
    flag (!reARN d.workload.bindingRef) "workload.binding_ref" "invalid" "must be an ARN" ++
    validateNewRole d.newRole ++
    flag (d.delivery != deliveryIaCPR && d.delivery != deliveryExport) "delivery" "invalid"
      "a dedicated identity is delivered only as iac_pr or export (§11; 050 iga_gov_plan_kind_chk)"

/-- `ValidateIntent`: the problems, none for a valid intent. -/
def validateIntent (inp : Intent) : List IntentError :=
  sortOn IntentError.field
    (if inp.kind = intentRightSizeServices then
      match inp.rightSize with
      | none => [⟨"kind", "shape", "right_size_services intent has no body"⟩]
      | some r => validateRightSize r
    else if inp.kind = intentRemoveControl then
      match inp.removeControl with
      | none => [⟨"kind", "shape", "remove_control intent has no body"⟩]
      | some r => validateRemoveControl r
    else if inp.kind = intentDedicatedIdentity then
      match inp.dedicatedIdentity with
      | none => [⟨"kind", "shape", "dedicated_identity intent has no body"⟩]
      | some d => validateDedicated d
    else [⟨"kind", "unknown_kind", "unknown intent kind " ++ quote inp.kind⟩])

end AuthSec

import AuthSec.Evidence.Bundle
import AuthSec.Live
import AuthSec.Plans.FirstAttachment
import AuthSec.Policy.Boundary

/-!
# Plans

A compiled plan: the native operations in execution order, the facts that a live read is compared
with, the reasons why it is ineligible, and what it records for review.  `Plan.sealed` finishes a
plan: an ineligible one has no operations, the facts are put in order, the hashes are computed and
the checks of the table are asserted.
-/

namespace AuthSec

/-! ## Operations -/

/-- The native operations; the first seven are the ones that AuthSec runs itself. -/
inductive OpKind where
  | createPolicy
  | createPolicyVersion
  | deletePolicyVersion
  | tagPolicy
  | deletePolicy
  | putRolePermissionsBoundary
  | deleteRolePermissionsBoundary
  | createRole
  | attachRolePolicy
  | putRolePolicy
  | addResourcePolicyPrincipal
  | removeResourcePolicyPrincipal
  | addTrustPolicyPrincipal
  | removeTrustPolicyPrincipal
  | bindSubject
  | deleteRole
  deriving DecidableEq

def OpKind.text : OpKind → String
  | createPolicy => "CreatePolicy"
  | createPolicyVersion => "CreatePolicyVersion"
  | deletePolicyVersion => "DeletePolicyVersion"
  | tagPolicy => "TagPolicy"
  | deletePolicy => "DeletePolicy"
  | putRolePermissionsBoundary => "PutRolePermissionsBoundary"
  | deleteRolePermissionsBoundary => "DeleteRolePermissionsBoundary"
  | createRole => "CreateRole"
  | attachRolePolicy => "AttachRolePolicy"
  | putRolePolicy => "PutRolePolicy"
  | addResourcePolicyPrincipal => "AddResourcePolicyPrincipal"
  | removeResourcePolicyPrincipal => "RemoveResourcePolicyPrincipal"
  | addTrustPolicyPrincipal => "AddTrustPolicyPrincipal"
  | removeTrustPolicyPrincipal => "RemoveTrustPolicyPrincipal"
  | bindSubject => "BindSubject"
  | deleteRole => "DeleteRole"

/-- Which versions a `DeletePolicyVersion` deletes. -/
inductive VersionSelect where
  | unset
  | oldestNonDefault
  | allNonDefault
  deriving DecidableEq

def VersionSelect.text : VersionSelect → String
  | unset => ""
  | oldestNonDefault => "oldest_non_default"
  | allNonDefault => "all_non_default"

/-- An operation of a plan. -/
structure Op where
  op : OpKind
  roleName : String := ""
  roleARN : String := ""
  policyARN : String := ""
  policyName : String := ""
  path : String := ""
  documentHash : String := ""
  setAsDefault : Bool := false
  tags : GoMap String := ∅
  select : VersionSelect := .unset
  ifVersionsAtLeast : ℤ := 0
  subjectARN : String := ""
  trustPolicyHash : String := ""
  resourceARN : String := ""
  principal : String := ""
  inlineName : String := ""
  instanceProfile : String := ""
  onlyIfUnused : Bool := false
  binding : String := ""
  steps : List String := []
  deriving DecidableEq

/-- A Boolean member with `omitempty`. -/
def omitFalse (k : String) (b : Bool) : Members GoNum :=
  if b then [(k, .bool b)] else []

def Op.toJson (o : Op) : Json GoNum :=
  .obj (("op", .str o.op.text) :: (omitEmpty "role_name" o.roleName ++
    omitEmpty "role_arn" o.roleARN ++ omitEmpty "policy_arn" o.policyARN ++
    omitEmpty "policy_name" o.policyName ++ omitEmpty "path" o.path ++
    omitEmpty "document_hash" o.documentHash ++ omitFalse "set_as_default" o.setAsDefault ++
    (if o.tags.sortedPairs = [] then [] else [("tags", mapJson o.tags)]) ++
    omitEmpty "select" o.select.text ++
    (if o.ifVersionsAtLeast = 0 then []
      else [("if_versions_at_least", goInt (Int64.ofInt o.ifVersionsAtLeast))]) ++
    omitEmpty "subject_arn" o.subjectARN ++ omitEmpty "trust_policy_hash" o.trustPolicyHash ++
    omitEmpty "resource_arn" o.resourceARN ++ omitEmpty "principal" o.principal ++
    omitEmpty "inline_name" o.inlineName ++ omitEmpty "instance_profile" o.instanceProfile ++
    omitFalse "only_if_unused" o.onlyIfUnused ++ omitEmpty "binding" o.binding ++
    if o.steps = [] then [] else [("steps", strArray o.steps)]))

/-! ## Facts -/

/-- What a fact is about. -/
inductive FactKind where
  | role
  | roleDefinition
  | roleBoundary
  | policyDocument
  | policyOwner
  | policyUsers
  | binding
  | newRole
  deriving DecidableEq

def FactKind.text : FactKind → String
  | role => "role_incarnation"
  | roleDefinition => "role_definition"
  | roleBoundary => "role_boundary"
  | policyDocument => "policy_document"
  | policyOwner => "policy_owner"
  | policyUsers => "policy_users"
  | binding => "workload_binding"
  | newRole => "new_role"

def valueNone : String := "none"
def valueAbsent : String := "absent"

/-- One native condition of a plan with its values before and after. -/
structure Fact where
  kind : FactKind
  subject : String := ""
  before : String
  after : String
  /-- compared only to tell a state before the plan from a conflict -/
  onlyBefore : Bool := false
  deriving DecidableEq

def factKey (kind : FactKind) (subject : String) : String :=
  if subject = "" then kind.text else kind.text ++ ":" ++ subject

/-- The key of a fact, which every constructor of the package derives from its kind and subject. -/
def Fact.key (f : Fact) : String :=
  factKey f.kind f.subject

/-- `Fact.Changes`. -/
def Fact.changes (f : Fact) : Bool :=
  f.before ≠ f.after

@[simps]
def factRole (roleID : String) : Fact :=
  { kind := .role, before := roleID, after := roleID }

@[simps]
def factBoundary (before after : String) : Fact :=
  { kind := .roleBoundary, before, after }

@[simps]
def factPolicyDoc (arn before after : String) : Fact :=
  { kind := .policyDocument, subject := arn, before, after }

@[simps]
def factPolicyOwner (arn before after : String) : Fact :=
  { kind := .policyOwner, subject := arn, before, after }

/-- A canonical text as a string: the characters it encodes. -/
def textLoop : ℕ → Bytes → List Char
  | 0, _ => []
  | fuel + 1, bs =>
    match decodeRune bs with
    | some (c, rest) => c :: textLoop fuel rest
    | none => []

def textOf (bs : Bytes) : String :=
  String.ofList (textLoop bs.length bs)

/-- `usersValue`. -/
def usersValue (set : List AttachedEntity) : String :=
  match canonField (.arr ((normalEntities set).map AttachedEntity.toJson)) with
  | .ok c => textOf c
  | .error _ => "\x00invalid"

@[simps]
def factPolicyUsers (arn : String) (before after : List AttachedEntity) : Fact :=
  { kind := .policyUsers, subject := arn, before := usersValue before, after := usersValue after }

/-- `sortFacts`. -/
def sortFacts (fs : List Fact) : List Fact :=
  sortOn Fact.key fs

/-! ## Plans -/

/-- What a plan is for. -/
inductive PlanKind where
  | apply
  | undo
  | removeControl
  | split
  | splitRevert
  deriving DecidableEq

def PlanKind.text : PlanKind → String
  | apply => "apply"
  | undo => "undo"
  | removeControl => "remove_control"
  | split => "split"
  | splitRevert => "split_revert"

/-- Who may carry a plan out. -/
inductive Eligibility where
  | eligible
  | iacOnly
  | ineligible
  deriving DecidableEq

/-- What a plan wants of the role's boundary; `unset` is the empty text. -/
inductive Attachment where
  | unset
  | present
  | absent
  | unchanged
  deriving DecidableEq

def Attachment.text : Attachment → String
  | unset => ""
  | present => "present"
  | absent => "absent"
  | unchanged => "unchanged"

/-- What becomes of the policy that a plan replaces. -/
inductive Disposition where
  | keep
  | delete
  | retainShared
  deriving DecidableEq

def Disposition.text : Disposition → String
  | keep => "keep"
  | delete => "delete"
  | retainShared => "retain_shared"

structure BoundaryRef where
  arn : String
  documentHash : String
  deriving DecidableEq

/-- What a plan does to the boundary. -/
inductive PlanCase where
  | unset
  | noneToAuthSec
  | authSecVersion
  | customerInPlace
  | customerSplit
  | undoDeleteNew
  | undoEarlierDocument
  | undoCustomerInPlace
  | undoSplit
  | recoverDetach
  | recoverNewPolicy
  | recoverSplit
  | removeDetach
  | removeInPlace
  | removeRepoint
  | splitIsolate
  | splitRevert
  deriving DecidableEq

inductive PlanNote where
  | alreadyInPlace
  | nothingToNarrow
  | baselineDocChanged
  | copyRetained
  | policyRetained
  deriving DecidableEq

inductive CompatKind where
  | resourcePolicy
  | trustPolicy
  | principalCondition
  deriving DecidableEq

/-- Who takes a reference over to the new role. -/
inductive Handling where
  | pr
  | ownerConfirm
  | effectUnknown
  deriving DecidableEq

/-- A reference to the source role that does not follow it to the new role. -/
structure CompatibilityItem where
  kind : CompatKind
  resource : String
  form : String := ""
  principal : RoutePrincipal := .unset
  handling : Handling
  deriving DecidableEq

/-- What a split moves. -/
structure SplitDetail where
  sourceRoleARN : String
  newRoleARN : String
  newRoleHash : String
  subjectKind : String
  subjectARN : String
  /-- every subject, when there is more than one -/
  subjectARNs : List String
  fromWorkloadKeys : List String
  compatibility : List CompatibilityItem
  deriving DecidableEq

/-- What a plan changes and why, for review. -/
structure PlanDiff where
  case : PlanCase := .unset
  boundaryBefore : Option BoundaryRef := none
  boundaryAfter : Option BoundaryRef := none
  newlyExcluded : List String := []
  alreadyExcluded : List String := []
  newlyUnexcluded : List String := []
  narrowing : Option Narrowing := none
  firstAttachment : Option FirstAttachmentProof := none
  split : Option SplitDetail := none
  notes : List PlanNote := []

/-- A document that the plan read or will write. -/
structure ArchivedDocument where
  hash : String
  canonical : Bytes
  deriving DecidableEq

/-- `Plan`, a row of `iga_gov_plan`. -/
structure Plan where
  controlID : String
  kind : PlanKind
  delivery : String
  eligibility : Eligibility := .eligible
  ineligibleReason : String := ""
  refusals : List Refusal := []
  basisReadAt : Time
  precondition : Bytes := []
  preconditionHash : String := ""
  beforeDocumentHash : Option String := none
  desiredAttachment : Attachment := .unset
  desiredBoundaryARN : Option String := none
  desiredDocumentHash : Option String := none
  replacedBoundaryARN : Option String := none
  artifactDisposition : Disposition := .keep
  bundleHash : String
  evidenceRev : Int64
  resourcePolicyScanRunID : Option String
  firstAttachment : Bool := false
  unanalysed : List UnanalysedItem := []
  impact : Impact := {}
  impactHash : String := ""
  ops : List Op := []
  diff : PlanDiff := {}
  planHash : String := ""
  materialHash : String := ""
  gapRefs : List GapRef
  documents : List ArchivedDocument := []
  facts : List Fact := []

namespace Plan

/-- `Plan.Eligible`. -/
def eligible (p : Plan) : Bool :=
  p.eligibility ≠ .ineligible

/-- `Plan.HashInput`. -/
def hashInput (p : Plan) : PlanHashInput where
  controlID := p.controlID
  kind := p.kind.text
  delivery := p.delivery
  desiredAttachment := p.desiredAttachment.text
  desiredBoundaryARN := p.desiredBoundaryARN
  desiredDocumentHash := p.desiredDocumentHash
  replacedBoundaryARN := p.replacedBoundaryARN
  artifactDisposition := p.artifactDisposition.text
  bundleHash := p.bundleHash
  evidenceRev := p.evidenceRev
  resourcePolicyScanRunID := p.resourcePolicyScanRunID
  firstAttachment := p.firstAttachment
  unanalysed := p.unanalysed
  preconditionHash := p.preconditionHash
  ops := some (.arr (p.ops.map Op.toJson))

/-- `Plan.PoliciesToRead`. -/
def policiesToRead (p : Plan) : List String :=
  sortedUnique ((p.facts.filter (·.kind == .policyDocument)).map Fact.subject)

/-- The checks of `iga_gov_plan` that the plan fails. -/
def violations (p : Plan) : List String :=
  let inel := p.eligibility == .ineligible
  let split := p.kind == .split || p.kind == .splitRevert
  (if inel ≠ (p.ineligibleReason ≠ "") then ["iga_gov_plan_ineligible_chk"] else []) ++
  (if inel then []
    else if p.desiredAttachment = .present then
      if p.desiredBoundaryARN = none ∨ p.desiredDocumentHash = none then
        ["iga_gov_plan_attachment_chk"] else []
    else if p.desiredBoundaryARN ≠ none ∨ p.desiredDocumentHash ≠ none then
      ["iga_gov_plan_attachment_chk"] else []) ++
  (if split ≠ (p.desiredAttachment = .unchanged) ∨
      (p.kind = .apply ∧ p.desiredAttachment ≠ .present) ∨
      (split ∧ p.delivery ≠ deliveryIaCPR ∧ p.delivery ≠ deliveryExport) then
    ["iga_gov_plan_kind_chk"] else []) ++
  (if (p.desiredAttachment = .absent ∧ p.artifactDisposition ≠ .delete ∧
        p.artifactDisposition ≠ .retainShared) ∨
      (p.kind ≠ .undo ∧ p.kind ≠ .removeControl ∧ p.artifactDisposition ≠ .keep) ∨
      (p.artifactDisposition ≠ .keep ∧ (p.replacedBoundaryARN = none ∨
        (p.desiredBoundaryARN ≠ none ∧ p.replacedBoundaryARN = p.desiredBoundaryARN))) then
    ["iga_gov_plan_disposition_chk"] else []) ++
  (if p.firstAttachment ∧ (p.desiredAttachment ≠ .present ∨ p.resourcePolicyScanRunID = none) then
    ["iga_gov_plan_first_attachment_chk"] else [])

/-- `Plan.CheckStorable`. -/
def checkStorable (p : Plan) : Except GoErr Unit :=
  require (p.violations = [])
    (GoErr.msg ("igagov: plan violates " ++ ", ".intercalate p.violations))

end Plan

/-! ## Controls and evidence -/

def tagManagedBy : String := "authsec:managed-by"
def tagWorkspace : String := "authsec:workspace"
def tagControl : String := "authsec:control"
def tagPolicy : String := "authsec:policy"
def tagChange : String := "authsec:change"
def tagManagedByValue : String := "authsec"

/-- The executor puts the id of the deployment in its place. -/
def deploymentPlaceholder : String := "$\x7bdeployment_id\x7d"

/-- `ControlRef`. -/
structure ControlRef where
  id : String
  policyID : String
  accountID : String
  roleID : String
  workspaceRef : String
  ownedPolicyARNs : List String
  deriving DecidableEq

/-- `ownerValue` of a policy's tags. -/
def ownerValue (tags : GoMap String) : String :=
  if tags.str tagManagedBy ≠ tagManagedByValue then "customer"
  else "authsec:" ++ tags.str tagWorkspace ++ ":" ++ tags.str tagControl

namespace ControlRef

def validate (c : ControlRef) : Except GoErr Unit :=
  require (¬ (c.id = "" ∨ c.roleID = "" ∨ reAccount c.accountID = false ∨ c.workspaceRef = ""))
    (GoErr.compile .input ["the control needs an id, account, RoleId and workspace ref"])

def owns (c : ControlRef) (arn : String) : Bool :=
  c.ownedPolicyARNs.contains arn

def ownerValue (c : ControlRef) : String :=
  "authsec:" ++ c.workspaceRef ++ ":" ++ c.id

def createTags (c : ControlRef) : GoMap String :=
  GoMap.ofList [(tagManagedBy, tagManagedByValue), (tagWorkspace, c.workspaceRef),
    (tagControl, c.id), (tagPolicy, c.policyID), (tagChange, deploymentPlaceholder)]

def changeTags (c : ControlRef) : GoMap String :=
  GoMap.ofList [(tagPolicy, c.policyID), (tagChange, deploymentPlaceholder)]

end ControlRef

/-- `EvidenceRef`. -/
structure EvidenceRef where
  bundle : Bundle
  evidenceRev : Int64
  scanRunID : String

namespace EvidenceRef

def validate (e : EvidenceRef) (roleID : String) : Except GoErr Unit := do
  require (¬ (e.bundle.hash = "" ∨ e.bundle.facts.sources = []))
    (GoErr.compile .input ["a plan needs its evidence bundle"])
  require (e.bundle.trust ≠ trustUntrusted)
    (GoErr.compile .evidenceUntrusted e.bundle.trustReasons)
  require (¬ (e.evidenceRev ≤ 0 ∨ e.scanRunID = ""))
    (GoErr.compile .input ["a plan needs its evidence revision and resource-policy scan run"])
  require (e.bundle.facts.target.roleID = roleID)
    (GoErr.compile .evidenceMismatch ["the bundle is for role " ++ e.bundle.facts.target.roleID])
  require ((e.bundle.facts.sources.any (·.rev == e.evidenceRev)) ∧
      e.bundle.facts.sources.any fun s =>
        s.connectorRun == e.scanRunID || s.resourcePolicyRun.getD "" == e.scanRunID)
    (GoErr.compile .evidenceMismatch
      ["the evidence revision and scan run must be the bundle's source"])

/-- `EvidenceRef.plan`: a plan to start from. -/
def plan (e : EvidenceRef) (controlID : String) (kind : PlanKind) (delivery : String)
    (readAt : Time) : Plan :=
  { controlID, kind, delivery, basisReadAt := readAt, bundleHash := e.bundle.hash,
    evidenceRev := e.evidenceRev, resourcePolicyScanRunID := some e.scanRunID,
    gapRefs := e.bundle.gapRefs }

end EvidenceRef

/-! ## Building a plan -/

def Refusal.text (r : Refusal) : String :=
  if r.detail = "" then r.code.text else r.code.text ++ ": " ++ r.detail

namespace Plan

def refuse (p : Plan) (rs : List Refusal) : Plan :=
  { p with refusals := p.refusals ++ rs }

/-- `Plan.archive`. -/
def archive (p : Plan) (hash : String) (canonical : Bytes) : Plan :=
  if hash ∈ p.documents.map ArchivedDocument.hash then p
  else { p with documents := sortOn ArchivedDocument.hash (p.documents ++ [⟨hash, canonical⟩]) }

section

variable [Sha256]

/-- `Plan.archiveText`. -/
def archiveText (p : Plan) (text : Bytes) : Except GoErr (Plan × String) :=
  (canonicalDocument text).map fun c => (p.archive (contentHash c) c, contentHash c)

/-- A plan with a reason against it is ineligible and has no operations. -/
def settle (p : Plan) : Plan :=
  if p.refusals = [] then p
  else { p with eligibility := .ineligible
                ineligibleReason := "; ".intercalate (p.refusals.map Refusal.text)
                ops := [] }

/-- `Plan.seal`. -/
def sealed (p : Plan) : Except GoErr Plan := do
  let p := { p.settle with facts := sortFacts p.facts, impact := p.impact.normalized }
  let ih ← AuthSec.impactHash p.impact
  let ph ← AuthSec.planHash p.hashInput
  let mh ← AuthSec.materialHash ⟨p.hashInput, ih, p.gapRefs⟩
  let p := { p with impactHash := ih, planHash := ph, materialHash := mh }
  p.checkStorable
  return p

end

end Plan

end AuthSec

import AuthSec.Go.Time
import AuthSec.Routes

/-!
# The live read and its state

A discovery read of a role and of the policies around it, the artifact state it shows, and the
preconditions that plans are bound to.
-/

namespace AuthSec

/-! ## Attachments and artifact state -/

/-- The kind of an entity that uses a policy, and the way it uses it, are as the read gives them. -/
structure AttachedEntity where
  kind : String
  id : String
  name : String
  usage : String
  deriving DecidableEq

def usageBoundary : String := "boundary"

def AttachedEntity.toJson (e : AttachedEntity) : Json GoNum :=
  .obj [("kind", .str e.kind), ("id", .str e.id), ("name", .str e.name), ("usage", .str e.usage)]

/-- The fields by which a set of entities is sorted. -/
def AttachedEntity.sortKey (e : AttachedEntity) : List String :=
  [e.kind, e.id, e.usage, e.name]

/-- A set of entities in order. -/
def normalEntities (es : List AttachedEntity) : List AttachedEntity :=
  sortOn AttachedEntity.sortKey es

/-- The boundary of a role, its document and its users. -/
structure ArtifactStateFacts where
  roleID : String
  boundaryARN : Option String := none
  boundaryDocumentHash : Option String := none
  attachmentSet : List AttachedEntity := []
  deriving DecidableEq

namespace ArtifactStateFacts

def normalized (s : ArtifactStateFacts) : ArtifactStateFacts :=
  { s with attachmentSet := normalEntities s.attachmentSet }

def toJson (s : ArtifactStateFacts) : Json GoNum :=
  .obj [("role_id", .str s.roleID), ("boundary_arn", goPtr s.boundaryARN),
    ("boundary_document_hash", goPtr s.boundaryDocumentHash),
    ("attachment_set", .arr (s.attachmentSet.map AttachedEntity.toJson))]

/-- `ArtifactStateFacts.Canonical`. -/
def canonical (s : ArtifactStateFacts) : Except GoErr Bytes :=
  if s.roleID = "" then .error (.msg "igagov: artifact_state needs the role_id")
  else if s.boundaryARN.isSome ≠ s.boundaryDocumentHash.isSome then
    .error (.msg "igagov: artifact_state boundary ARN and document hash must be both set or both null")
  else canonField s.normalized.toJson

/-- The value that undo, remove-control and recovery plans are bound to. -/
def precondition (s : ArtifactStateFacts) : Json GoNum :=
  .obj [("artifact_state", s.normalized.toJson)]

end ArtifactStateFacts

structure PolicyRef where
  ref : String
  documentHash : String
  deriving DecidableEq

def PolicyRef.toJson (r : PolicyRef) : Json GoNum :=
  .obj [("ref", .str r.ref), ("document_hash", .str r.documentHash)]

def sortedRefs (refs : List PolicyRef) : List PolicyRef :=
  sortOn PolicyRef.ref refs

/-- A map of strings as `encoding/json` writes it. -/
def mapJson (m : GoMap String) : Json GoNum :=
  .obj (m.sortedPairs.map fun e => (e.1, .str e.2))

/-! ## The read -/

/-- A role as it was read. -/
structure LiveRole where
  roleID : String
  arn : String
  name : String
  path : String
  accountID : String
  partition : String := ""
  tags : GoMap String := ∅
  continuity : String := ""
  boundaryARN : String := ""
  managedPolicies : List PolicyRef := []
  inlinePolicies : List PolicyRef := []
  trustPolicyHash : String := ""
  documents : GoMap Bytes := ∅

/-- A policy as it was read. -/
structure LivePolicy where
  arn : String
  path : String
  name : String
  tags : GoMap String
  defaultDocument : Bytes
  versionCount : ℤ
  attachmentSet : List AttachedEntity

/-- A policy is missing from the map when it was not read, and `none` when AWS does not have it. -/
structure LiveRead where
  readAt : Time
  role : Option LiveRole
  policies : GoMap (Option LivePolicy)
  roles : GoMap (Option LiveRole) := ∅
  bindings : GoMap String := ∅

/-- `LiveRole.partition`. -/
def LiveRole.partitionOr (r : LiveRole) : String :=
  if r.partition ≠ "" then r.partition
  else
    match splitN ':' 2 r.arn.toList with
    | [_, p, _] => if p = [] then "aws" else String.ofList p
    | _ => "aws"

/-- `LiveRole.ref`. -/
def LiveRole.ref (r : LiveRole) : RoleRef :=
  ⟨r.roleID, r.arn, r.name, r.accountID, r.partitionOr⟩

/-- The use of a policy as the boundary of the role. -/
def isOwnBoundary (roleID : String) (e : AttachedEntity) : Bool :=
  e.kind == "role" && e.id == roleID && e.usage == usageBoundary

def otherUsers (set : List AttachedEntity) (roleID : String) : List AttachedEntity :=
  normalEntities (set.filter (!isOwnBoundary roleID ·))

def LiveRead.policy (lr : LiveRead) (arn : String) : Except GoErr (Option LivePolicy) :=
  match lr.policies.get? arn with
  | none => .error (.compile .liveIncomplete ["policy " ++ arn ++ " was not read"])
  | some p => .ok p

/-! ## Artifact state and preconditions -/

section

variable [Sha256]

/-- The state of a role with a boundary. -/
def boundaryState (role : LiveRole) (p : LivePolicy) : Except GoErr ArtifactStateFacts :=
  match documentHash p.defaultDocument with
  | .error e => .error (.wrapped ("igagov: boundary document of " ++ role.boundaryARN) e)
  | .ok h => .ok (ArtifactStateFacts.normalized
      ⟨role.roleID, some role.boundaryARN, some h, p.attachmentSet⟩)

/-- `ArtifactState`. -/
def artifactState (live : LiveRead) : Except GoErr ArtifactStateFacts :=
  match live.role with
  | none => .error (.compile .liveIncomplete ["the role was not found"])
  | some role =>
    if role.boundaryARN = "" then .ok ⟨role.roleID, none, none, []⟩
    else do
      match ← live.policy role.boundaryARN with
      | none => .error (.compile .liveIncomplete
          ["the role's boundary " ++ role.boundaryARN ++ " returned NoSuchEntity"])
      | some p => boundaryState role p

/-- `StatePreconditionHash`. -/
def statePreconditionHash (s : ArtifactStateFacts) : Except GoErr String := do
  let _ ← s.canonical
  let c ← canonField s.precondition
  return taggedHash .stateOnly [c]

end

def roleTagManagedBy : String := "ManagedBy"
def roleTagProtected : String := "authsec:protected"

def protectionTags (tags : GoMap String) : GoMap String :=
  tags.filterKeys fun k => k == roleTagManagedBy || k == roleTagProtected

/-- What a plan to apply is bound to. -/
structure ApplyPrecondition where
  artifactState : ArtifactStateFacts
  roleARN : String := ""
  rolePath : String := ""
  protectionTags : GoMap String := ∅
  managedPolicies : List PolicyRef := []
  inlinePolicies : List PolicyRef := []

/-- What the apply precondition says beyond the artifact state. -/
def definitionMembers (roleARN rolePath : String) (protectionTags : GoMap String)
    (managedPolicies inlinePolicies : List PolicyRef) : Members GoNum :=
  [("role_arn", .str roleARN), ("role_path", .str rolePath),
    ("protection_tags", mapJson protectionTags),
    ("managed_policies", .arr ((sortedRefs managedPolicies).map PolicyRef.toJson)),
    ("inline_policies", .arr ((sortedRefs inlinePolicies).map PolicyRef.toJson))]

def ApplyPrecondition.value (p : ApplyPrecondition) : Json GoNum :=
  .obj (("artifact_state", p.artifactState.normalized.toJson) ::
    definitionMembers p.roleARN p.rolePath p.protectionTags p.managedPolicies p.inlinePolicies)

/-- `ApplyPrecondition.Canonical`. -/
def ApplyPrecondition.canonical (p : ApplyPrecondition) : Except GoErr Bytes := do
  let _ ← p.artifactState.canonical
  canonField p.value

section

variable [Sha256]

/-- `ApplyPreconditionHash`. -/
def applyPreconditionHash (p : ApplyPrecondition) : Except GoErr String :=
  p.canonical.map fun c => taggedHash .precondition [c]

/-- `ApplyPreconditionFor`. -/
def applyPreconditionFor (live : LiveRead) : Except GoErr ApplyPrecondition := do
  let st ← artifactState live
  match live.role with
  | none => .error (.compile .liveIncomplete ["the role was not found"])
  | some r => return ⟨st, r.arn, r.path, protectionTags r.tags, r.managedPolicies,
      r.inlinePolicies⟩

def roleDefinitionHash (r : LiveRole) : Except GoErr String :=
  hashCanonicalTagged .roleDefinition
    (.obj (definitionMembers r.arn r.path (protectionTags r.tags) r.managedPolicies
      r.inlinePolicies))

end

/-! ## Eligibility of a role -/

def continuityRecognition : String := "recognition_only"

/-- A refusal if the condition holds. -/
def refuseIf (bad : Bool) (code : RefusalCode) (detail : String) : List Refusal :=
  if bad then [⟨code, detail⟩] else []

/-- `RoleEligibility`. -/
def roleEligibility (r : LiveRole) : List Refusal :=
  (if startsWith r.path "/aws-service-role/" then [⟨.serviceLinked, "path " ++ r.path⟩]
    else refuseIf (startsWith r.path "/aws-reserved/") .awsReserved ("path " ++ r.path)) ++
  refuseIf (equalFoldASCII (r.tags.str roleTagManagedBy) "AuthSec") .authSecManagedRole
    "tagged ManagedBy=AuthSec" ++
  refuseIf (equalFoldASCII (r.tags.str roleTagProtected) "true") .protectedRole
    "tagged authsec:protected=true" ++
  refuseIf (r.continuity == continuityRecognition) .recognitionOnly
    "identity continuity is recognition_only"

/-- `checkIncarnation`: the role of the control, or why there is none. -/
def checkIncarnation (live : LiveRead) (roleID : String) : Except (List Refusal) LiveRole :=
  match live.role with
  | none => .error [⟨.roleGone, "role " ++ roleID ++ " returned NoSuchEntity"⟩]
  | some r =>
    if r.roleID ≠ roleID then
      .error [⟨.roleRecreated, "live RoleId " ++ r.roleID ++ " is not " ++ roleID⟩]
    else .ok r

end AuthSec

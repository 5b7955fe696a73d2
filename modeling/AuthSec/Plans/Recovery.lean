import AuthSec.Go.Decode
import AuthSec.Plans.Apply

/-!
# Role-only recovery and removal of a control

`compileRoleOnlyRecovery` restores one role when the undo of its deployment is blocked because the
policy has other users by now.  `compileRemoveControl` restores the boundary that the role had
before AuthSec's first change.
-/

namespace AuthSec

/-! ## The artifact state of a stored precondition -/

/-- The members of an object; `json.Unmarshal` passes over the ones it does not know. -/
def anyMembers : Json Float64 → Except String (Members Float64)
  | .obj ms => .ok ms
  | .null => .ok []
  | _ => cannotUnmarshal "struct"

instance : Inhabited AttachedEntity := ⟨⟨"", "", "", ""⟩⟩

def AttachedEntity.into : Decoder AttachedEntity := fun v e => do
  let ms ← anyMembers v
  return {
    kind := ← fieldInto intoString "kind" ms e.kind
    id := ← fieldInto intoString "id" ms e.id
    name := ← fieldInto intoString "name" ms e.name
    usage := ← fieldInto intoString "usage" ms e.usage }

def ArtifactStateFacts.into : Decoder ArtifactStateFacts := fun v s => do
  let ms ← anyMembers v
  return {
    roleID := ← fieldInto intoString "role_id" ms s.roleID
    boundaryARN := ← fieldInto intoPtr "boundary_arn" ms s.boundaryARN
    boundaryDocumentHash :=
      ← fieldInto intoPtr "boundary_document_hash" ms s.boundaryDocumentHash
    attachmentSet :=
      ← fieldInto (intoList AttachedEntity.into) "attachment_set" ms s.attachmentSet }

/-- The artifact state that an undo plan is bound to.  The source reads it with `json.Unmarshal`, which
takes more texts than the strict parser; preconditions are canonical texts, which both read alike. -/
def undoState (precondition : Bytes) : Except GoErr ArtifactStateFacts :=
  match parseJSON precondition with
  | .error _ => .error notAState
  | .ok v => (readState v).mapError fun _ => notAState
where
  readState (v : Json Float64) : Except String ArtifactStateFacts := do
    let ms ← anyMembers v
    fieldInto ArtifactStateFacts.into "artifact_state" ms { roleID := "" }
  notAState : GoErr := .compile .input ["the undo plan's precondition is not an artifact_state"]

section

variable [Sha256]

/-- `statePrecondition`. -/
def statePrecondition (p : Plan) (st : ArtifactStateFacts) : Except GoErr Plan := do
  let pc ← canonField st.precondition
  let ph ← statePreconditionHash st
  return { p with precondition := pc, preconditionHash := ph }

/-- An operation of a direct plan names a policy that is not AuthSec's. -/
def Op.outside (o : Op) : Bool :=
  o.policyARN ≠ "" && !isAuthSecPath o.policyARN

/-! ## Role-only recovery -/

/-- What a recovery is compiled from. -/
structure RecoveryInput where
  control : ControlRef
  undo : Plan
  undoneDeploymentID : String
  earlierDocument : Bytes
  live : LiveRead
  evidence : EvidenceRef

/-- The name of the policy that a recovery creates.  The identifier is cut after eight characters, in
the source after eight bytes, which is the same for the text of a UUID. -/
def recoveryPolicyName (roleID deploymentID : String) : String :=
  authSecBoundaryName roleID ++ "-u" ++
    String.ofList (((toLower deploymentID).toList.filter (· ≠ '-')).take 8)

/-- `RecoveryPolicyARN`. -/
def recoveryPolicyARN (partition account roleID deploymentID : String) : String :=
  "arn:" ++ partition ++ ":iam::" ++ account ++ ":policy" ++ authSecPolicyPath ++
    recoveryPolicyName roleID deploymentID

/-- What the builders of a recovery read. -/
structure RecoveryCtx where
  inp : RecoveryInput
  role : LiveRole
  /-- the policy that the apply installed, and its document -/
  installed : String
  docHash : String
  others : List AttachedEntity

namespace RecoveryCtx

variable (c : RecoveryCtx)

/-- The facts that keep the installed policy as it is. -/
def installedFacts : List Fact :=
  [factPolicyDoc c.installed c.docHash c.docHash,
    factPolicyOwner c.installed c.inp.control.ownerValue c.inp.control.ownerValue,
    factPolicyUsers c.installed c.others c.others]

/-- Detach the boundary from the role. -/
def detach (p : Plan) : Plan :=
  { p with
    desiredAttachment := .absent
    ops := [{ op := .deleteRolePermissionsBoundary, roleName := c.role.name }]
    diff := { p.diff with
      case := .recoverDetach
      boundaryBefore := some ⟨c.installed, c.docHash⟩ }
    facts := factRole c.role.roleID :: factBoundary c.installed valueNone :: c.installedFacts }

/-- The policy for the earlier document. -/
def newARN : String :=
  recoveryPolicyARN c.role.partitionOr c.role.accountID c.role.roleID c.inp.undoneDeploymentID

def newPolicyOps (eh : String) : List Op :=
  [{ op := .createPolicy, policyARN := c.newARN,
     policyName := recoveryPolicyName c.role.roleID c.inp.undoneDeploymentID,
     path := authSecPolicyPath, documentHash := eh, tags := c.inp.control.createTags },
    { op := .putRolePermissionsBoundary, roleName := c.role.name, policyARN := c.newARN }]

def newPolicyFacts (eh : String) : List Fact :=
  [factRole c.role.roleID, factBoundary c.installed c.newARN,
    factPolicyDoc c.newARN valueAbsent eh,
    factPolicyOwner c.newARN valueAbsent c.inp.control.ownerValue,
    factPolicyUsers c.newARN [] []] ++ c.installedFacts

/-- The earlier AuthSec document under a new policy. -/
def newPolicy (p : Plan) : Except GoErr Plan := do
  require (c.inp.earlierDocument ≠ [])
    (GoErr.compile .input ["the earlier document's text is needed for a -u policy"])
  let (p, eh) ← p.archiveText c.inp.earlierDocument
  require (eh = c.inp.undo.desiredDocumentHash.getD "")
    (GoErr.compile .input ["the earlier document does not hash to the undo's desired document"])
  let p := p.refuse (refuseIf (c.inp.live.hasPolicy c.newARN) .policyNameInUse c.newARN)
  return { p with
    desiredAttachment := .present
    desiredBoundaryARN := some c.newARN
    desiredDocumentHash := some eh
    ops := c.newPolicyOps eh
    diff := { p.diff with
      case := .recoverNewPolicy
      boundaryBefore := some ⟨c.installed, c.docHash⟩
      boundaryAfter := some ⟨c.newARN, eh⟩ }
    facts := c.newPolicyFacts eh }

def repointFacts (shared sh : String) (sOthers : List AttachedEntity) : List Fact :=
  [factRole c.role.roleID, factBoundary c.installed shared,
    factPolicyDoc c.installed c.docHash c.docHash, factPolicyUsers c.installed c.others c.others,
    factPolicyDoc shared sh sh, factPolicyUsers shared sOthers sOthers]

/-- Point the role back at the shared boundary as it is now. -/
def repoint (shared : String) (p : Plan) : Except GoErr Plan := do
  match ← c.inp.live.policy shared with
  | none => return { p.refuse [⟨.baselineMissing, shared⟩] with
      desiredAttachment := .present, desiredBoundaryARN := some shared }
  | some sp => do
      let (p, sh) ← p.archiveText sp.defaultDocument
      return { p with
        desiredAttachment := .present
        desiredBoundaryARN := some shared
        desiredDocumentHash := some sh
        ops := [{ op := .putRolePermissionsBoundary, roleName := c.role.name,
                  policyARN := shared }]
        diff := { p.diff with
          case := .recoverSplit
          boundaryBefore := some ⟨c.installed, c.docHash⟩
          boundaryAfter := some ⟨shared, sh⟩
          notes := p.diff.notes ++ [.copyRetained] }
        facts := c.repointFacts shared sh (otherUsers sp.attachmentSet c.role.roleID) }

/-- The builder for the state that the undo would restore. -/
def build (p : Plan) : Except GoErr Plan :=
  let undo := c.inp.undo
  if undo.desiredAttachment = .absent then .ok (c.detach p)
  else if undo.replacedBoundaryARN = none ∧ isAuthSecPath (undo.desiredBoundaryARN.getD "") then
    c.newPolicy p
  else
    match undo.replacedBoundaryARN, undo.desiredBoundaryARN with
    | some _, some shared => c.repoint shared p
    | _, _ => .ok { p.refuse [⟨.roleOnlyUnavailable, unavailableText⟩] with
        desiredAttachment := undo.desiredAttachment }
where
  unavailableText : String :=
    "the boundary is a customer document narrowed in place; " ++
      "restore it through the customer's own change"

end RecoveryCtx

/-- What the live boundary has against a recovery. -/
def recoveryRefusals (st undone : ArtifactStateFacts) (others : List AttachedEntity) :
    List Refusal :=
  let installed := undone.boundaryARN.getD ""
  refuseIf (installed = "" || st.boundaryARN.getD "" != installed ||
      st.boundaryDocumentHash.getD "" != undone.boundaryDocumentHash.getD "") .changedOutsideAuthSec
    ("boundary " ++ st.boundaryARN.getD "none" ++ " / " ++ st.boundaryDocumentHash.getD "none" ++
      " is not what the apply left (" ++ installed ++ " / " ++
      undone.boundaryDocumentHash.getD "none" ++ ")") ++
  refuseIf others.isEmpty .roleOnlyNotNeeded
    (installed ++ " has no other users; run the undo itself")

/-- Every policy that a direct plan names has to be AuthSec's. -/
def outsideRefusals (p : Plan) : List Refusal :=
  if p.delivery = deliveryDirect then
    (p.ops.filter Op.outside).map fun o => ⟨.directNeedsAuthSecTarget, o.policyARN⟩
  else []

/-- What a recovery records once its operations are known. -/
def finishRecovery (p : Plan) : Plan :=
  let notes := if p.diff.case ≠ .recoverSplit ∧ p.diff.case ≠ .unset then [.policyRetained] else []
  { p.refuse (outsideRefusals p) with diff := { p.diff with notes := p.diff.notes ++ notes } }

/-- The recovery plan of a role that is there. -/
def RecoveryInput.compileRole (inp : RecoveryInput) (undone : ArtifactStateFacts)
    (role : LiveRole) (p : Plan) : Except GoErr Plan := do
  let st ← artifactState inp.live
  let p ← statePrecondition p st
  let installed := undone.boundaryARN.getD ""
  let others := otherUsers st.attachmentSet role.roleID
  let p := { p with
    beforeDocumentHash := st.boundaryDocumentHash
    replacedBoundaryARN := some installed }
  let p := p.refuse (recoveryRefusals st undone others)
  let p ← RecoveryCtx.build
    ⟨inp, role, installed, undone.boundaryDocumentHash.getD "", others⟩ p
  (finishRecovery p).sealed

/-- `CompileRoleOnlyRecovery`. -/
def compileRoleOnlyRecovery (inp : RecoveryInput) : Except GoErr Plan := do
  inp.control.validate
  require (inp.undo.kind = .undo ∧ inp.undo.controlID = inp.control.id)
    (GoErr.compile .input ["role-only recovery derives from this control's undo plan"])
  inp.evidence.validate inp.control.roleID
  let p := { inp.evidence.plan inp.control.id .undo inp.undo.delivery inp.live.readAt with
    eligibility := inp.undo.eligibility
    artifactDisposition := .retainShared
    impact := inp.undo.impact }
  let undone ← undoState inp.undo.precondition
  match checkIncarnation inp.live inp.control.roleID with
  | .error rs => do
      let p := { p.refuse rs with
        desiredAttachment := inp.undo.desiredAttachment
        replacedBoundaryARN := some (undone.boundaryARN.getD "unknown") }
      let p ← statePrecondition p { roleID := inp.control.roleID }
      p.sealed
  | .ok role => inp.compileRole undone role p

/-! ## Removal of a control -/

/-- The boundary of the role before AuthSec's first change. -/
structure Baseline where
  boundaryARN : Option String
  documentHash : Option String
  document : Bytes

/-- What a removal is compiled from. -/
structure RemoveControlInput where
  control : ControlRef
  baseline : Baseline
  lastDeployed : BoundaryRef
  delivery : String
  live : LiveRead
  evidence : EvidenceRef
  excludedServices : List String

/-- What the builders of a removal read. -/
structure RemoveCtx where
  inp : RemoveControlInput
  role : LiveRole
  /-- the boundary that the role has now -/
  cur : String
  curHash : String
  curPol : LivePolicy
  others : List AttachedEntity

namespace RemoveCtx

variable (c : RemoveCtx)

/-- The owner is a fact only of AuthSec's own policies. -/
def ownerFacts (after : String) : List Fact :=
  if isAuthSecPath c.cur then [factPolicyOwner c.cur c.inp.control.ownerValue after] else []

/-- The facts of the current boundary, deleted or kept. -/
def deletedFacts : List Fact :=
  [factPolicyDoc c.cur c.curHash valueAbsent, factPolicyUsers c.cur [] []] ++
    c.ownerFacts valueAbsent

def retainedFacts : List Fact :=
  [factPolicyDoc c.cur c.curHash c.curHash, factPolicyUsers c.cur c.others c.others] ++
    c.ownerFacts c.inp.control.ownerValue

@[simps op roleARN policyARN]
def detachOp : Op :=
  { op := .deleteRolePermissionsBoundary, roleName := c.role.name }

/-- There was no boundary. -/
def detach (p : Plan) : Plan :=
  let p := { p with
    desiredAttachment := .absent
    replacedBoundaryARN := some c.cur
    diff := { p.diff with case := .removeDetach } }
  let base := [factRole c.role.roleID, factBoundary c.cur valueNone]
  if c.others = [] then
    { p with
      artifactDisposition := .delete
      ops := c.detachOp :: deletePolicyOps c.cur
      facts := base ++ c.deletedFacts }
  else
    { p with
      artifactDisposition := .retainShared
      ops := [c.detachOp]
      diff := { p.diff with notes := p.diff.notes ++ [.policyRetained] }
      facts := base ++ c.retainedFacts }

/-- The operations that give the current boundary its earlier document. -/
def restoreOps (bh : String) : List Op :=
  if bh = c.curHash then []
  else if isAuthSecPath c.cur then newVersionOps c.inp.control c.cur bh c.curPol.versionCount
  else
    [{ op := .createPolicyVersion, policyARN := c.cur, documentHash := bh, setAsDefault := true }]

def restoreFacts (bh : String) : List Fact :=
  [factRole c.role.roleID, factBoundary c.cur c.cur, factPolicyDoc c.cur c.curHash bh,
    factPolicyUsers c.cur c.others c.others] ++ c.ownerFacts c.inp.control.ownerValue

/-- The boundary was the same policy. -/
def restore (p : Plan) : Except GoErr (Plan × Option Bytes) := do
  let (p, bh) ← p.archiveText c.inp.baseline.document
  require (some bh = c.inp.baseline.documentHash)
    (GoErr.compile .input ["the baseline document does not hash to the recorded baseline"])
  let p := p.refuse (refuseIf (!c.others.isEmpty) .consumersChanged
    (c.cur ++ " is used by " ++ toString c.others.length ++
      " other entities; restoring its document would change them"))
  let notes := if bh = c.curHash then [.alreadyInPlace] else []
  return ({ p with
    desiredAttachment := .present
    desiredBoundaryARN := some c.cur
    desiredDocumentHash := some bh
    ops := c.restoreOps bh
    diff := { p.diff with case := .removeInPlace, notes := p.diff.notes ++ notes }
    facts := c.restoreFacts bh }, some c.inp.baseline.document)

/-- The boundary was another policy, at which the role is pointed as it is now. -/
def repoint (b : String) (p : Plan) : Except GoErr (Plan × Option Bytes) := do
  let bp ← c.inp.live.policy b
  let p := { p with
    desiredAttachment := .present
    desiredBoundaryARN := some b
    replacedBoundaryARN := some c.cur
    diff := { p.diff with case := .removeRepoint } }
  match bp with
  | none => return (p.refuse [⟨.baselineMissing, b⟩], none)
  | some bp => do
      let (p, bh) ← p.archiveText bp.defaultDocument
      let changed := if some bh = c.inp.baseline.documentHash then [] else [.baselineDocChanged]
      let bOthers := otherUsers bp.attachmentSet c.role.roleID
      let put : Op := { op := .putRolePermissionsBoundary, roleName := c.role.name, policyARN := b }
      let base := [factRole c.role.roleID, factBoundary c.cur b, factPolicyDoc b bh bh,
        factPolicyUsers b bOthers bOthers]
      let p := { p with desiredDocumentHash := some bh }
      if c.others = [] then
        return ({ p with
          artifactDisposition := .delete
          ops := put :: deletePolicyOps c.cur
          diff := { p.diff with notes := p.diff.notes ++ changed }
          facts := base ++ c.deletedFacts }, some bp.defaultDocument)
      else
        return ({ p with
          artifactDisposition := .retainShared
          ops := [put]
          diff := { p.diff with notes := p.diff.notes ++ changed ++ [.copyRetained] }
          facts := base ++ c.retainedFacts }, some bp.defaultDocument)

def build (p : Plan) : Except GoErr (Plan × Option Bytes) :=
  match c.inp.baseline.boundaryARN with
  | none => .ok (c.detach p, none)
  | some b => if b = c.cur then c.restore p else c.repoint b p

end RemoveCtx

/-- What a removal records once its operations are known. -/
def RemoveCtx.finish (c : RemoveCtx) (p : Plan) (afterText : Option Bytes) :
    Except GoErr Plan := do
  let curText := some c.curPol.defaultDocument
  let ch ← exclusionChanges curText afterText
    (c.inp.excludedServices ++ notActionNamespaces curText)
  let p := { p with
    diff := { p.diff with
      boundaryBefore := some ⟨c.cur, c.curHash⟩
      boundaryAfter := p.desiredBoundaryARN.bind fun arn =>
        p.desiredDocumentHash.map fun h => ⟨arn, h⟩
      newlyExcluded := ch.newly
      alreadyExcluded := ch.already
      newlyUnexcluded := ch.unexcluded }
    impact := { p.impact with
      restored := p.impact.restored ++
        ch.unexcluded.map (ImpactService.mk · "remove_control") } }
  let p := p.refuse ((outsideRefusals p).take 1)
  let customer := p.eligibility = .eligible ∧
    (isAuthSecPath c.cur = false ∨ p.desiredBoundaryARN.any fun arn => !isAuthSecPath arn)
  let p := { p with eligibility := if customer then .iacOnly else p.eligibility }
  p.sealed

/-- The removal plan of a role that is there. -/
def RemoveControlInput.compileRole (inp : RemoveControlInput) (role : LiveRole) (p : Plan) :
    Except GoErr Plan := do
  let st ← artifactState inp.live
  match st.boundaryARN, st.boundaryDocumentHash with
  | some cur, some curHash => do
      let p ← statePrecondition p st
      match ← inp.live.policy cur with
      | none => .error (.msg "runtime error: invalid memory address or nil pointer dereference")
      | some curPol => do
          let (p, _) ← { p with beforeDocumentHash := some curHash }.archiveText
            curPol.defaultDocument
          let p := p.refuse (refuseIf (cur != inp.lastDeployed.arn ||
              curHash != inp.lastDeployed.documentHash) .changedOutsideAuthSec
            ("the role's boundary is " ++ cur ++ " / " ++ curHash ++
              ", not what AuthSec last deployed (" ++ inp.lastDeployed.arn ++ " / " ++
              inp.lastDeployed.documentHash ++ ")"))
          let c : RemoveCtx := ⟨inp, role, cur, curHash, curPol,
            otherUsers st.attachmentSet role.roleID⟩
          let (p, afterText) ← c.build p
          c.finish p afterText
  | _, _ => .error (.compile .noArtifact
      ["the role has no boundary; the control can be retired without a plan"])

/-- `CompileRemoveControl`. -/
def compileRemoveControl (inp : RemoveControlInput) : Except GoErr Plan := do
  inp.control.validate
  require (inp.delivery = deliveryDirect ∨ inp.delivery = deliveryIaCPR ∨
      inp.delivery = deliveryExport)
    (GoErr.compile .input ["delivery must be direct, iac_pr or export"])
  inp.evidence.validate inp.control.roleID
  require (inp.baseline.boundaryARN.isSome = inp.baseline.documentHash.isSome)
    (GoErr.compile .input ["baseline ARN and document hash are set together"])
  let p := { inp.evidence.plan inp.control.id .removeControl inp.delivery inp.live.readAt with
    impact := { consumers := inp.evidence.bundle.facts.consumers
                ownerUserIDs := inp.evidence.bundle.facts.owners } }
  match checkIncarnation inp.live inp.control.roleID with
  | .error rs => do
      let p := { p.refuse rs with
        desiredAttachment := .absent
        artifactDisposition := .delete
        replacedBoundaryARN := some inp.lastDeployed.arn }
      let p ← statePrecondition p { roleID := inp.control.roleID }
      p.sealed
  | .ok role => inp.compileRole role p

end

end AuthSec

import AuthSec.Plans.Classify

/-!
# Apply and undo plans

`compileTarget` compiles one target of a right-sizing version from a live read and its evidence:
the apply plan, and the undo plan derived from what the apply leaves.  There is one builder for
each kind of boundary that the role has now: none, AuthSec's own, a customer's that only this role
uses, a customer's that others use too.
-/

namespace AuthSec

/-! ## Names -/

def authSecPolicyPath : String := "/authsec/"
def authSecBoundaryName (roleID : String) : String := "AuthSecBoundary-" ++ roleID
def maxPolicyNameLen : ℕ := 128
def maxPolicyVersions : ℤ := 5

/-- `AuthSecBoundaryARN`. -/
def authSecBoundaryARN (partition account roleID : String) : String :=
  "arn:" ++ partition ++ ":iam::" ++ account ++ ":policy" ++ authSecPolicyPath ++
    authSecBoundaryName roleID

/-- The name of a split copy. -/
def splitCopyName (sharedName roleID : String) : String :=
  sharedName ++ "-" ++ roleID

/-- `SplitCopyARN`. -/
def splitCopyARN (partition account path sharedName roleID : String) : String :=
  "arn:" ++ partition ++ ":iam::" ++ account ++ ":policy" ++ (if path = "" then "/" else path) ++
    splitCopyName sharedName roleID

def isAuthSecPath (arn : String) : Bool :=
  contains arn (":policy" ++ authSecPolicyPath)

/-- The name is longer than IAM allows. -/
def nameTooLong (name : String) : Bool :=
  maxPolicyNameLen < (utf8 name).length

/-- The read found a policy under the ARN. -/
def LiveRead.hasPolicy (lr : LiveRead) (arn : String) : Bool :=
  ((lr.policies.get? arn).bind id).isSome

/-! ## Input -/

/-- What a target is compiled from. -/
structure TargetInput where
  control : ControlRef
  intent : RightSizeIntent
  live : LiveRead
  evidence : EvidenceRef
  scanEvidence : Option ResourcePolicyEvidence
  enabledRegions : List String
  accountServices : Option (List String)
  dependencyContexts : List DependencyContext

/-- The undo plan is missing when the apply plan is ineligible. -/
structure TargetPlans where
  apply : Plan
  undo : Option Plan

def qualNoAttempt : String := "no_attempt"

/-- The activity of a service, the last fact about it. -/
def activityOf (activity : List BundleActivity) (service : String) : Option BundleActivity :=
  (GoMap.ofList (activity.map fun a => (a.service, a))).get? service

/-- What the activity has against removing a service. -/
def activityRefusal (service : String) : Option BundleActivity → List Refusal
  | none => [⟨.notInActivityReport, service⟩]
  | some a =>
    if a.state ≠ evidenceCollected then [⟨.notInActivityReport, service⟩]
    else if a.outcome ≠ qualNoAttempt then
      [⟨.removalNotJustified, service ++ ": activity outcome " ++ a.outcome⟩]
    else if a.qualifiedDays.toInt < minQualifiedDays then
      [⟨.removalNotJustified, service ++ ": " ++ toString a.qualifiedDays.toInt ++
        " qualified days"⟩]
    else if a.grantAgeBasis ≠ grantAgeObservedSinceChange ∧
        a.grantAgeBasis ≠ grantAgePredatesObservation then
      [⟨.removalNotJustified, service ++ ": grant age " ++ a.grantAgeBasis⟩]
    else []

/-- `justifyRemovals`. -/
def justifyRemovals (remove : List RemoveEntry) (activity : List BundleActivity)
    (ctxs : List DependencyContext) : List Refusal :=
  remove.flatMap fun e =>
    activityRefusal e.service (activityOf activity e.service) ++
      (isDependency e.service ctxs).elim [] fun d =>
        [⟨.removalIsDependency, e.service ++ " (" ++ d.catalog ++ ")"⟩]

/-! ## The builders -/

/-- What the builders read; the plan they build is passed along. -/
structure ApplyCtx where
  inp : TargetInput
  role : LiveRole
  defHash : String

/-- The boundary that the role has now. -/
structure CurrentBoundary where
  policy : LivePolicy
  hash : String
  others : List AttachedEntity

/-- `pruneOp`. -/
def pruneOp (arn : String) : Op :=
  { op := .deletePolicyVersion, policyARN := arn, select := .oldestNonDefault,
    ifVersionsAtLeast := maxPolicyVersions }

/-- A new default version of a policy with room made for it when it has `versions` of them. -/
def newVersionOps (ctl : ControlRef) (arn documentHash : String) (versions : ℤ) : List Op :=
  (if maxPolicyVersions ≤ versions then [pruneOp arn] else []) ++
    [{ op := .createPolicyVersion, policyARN := arn, documentHash, setAsDefault := true },
      { op := .tagPolicy, policyARN := arn, tags := ctl.changeTags }]

/-- The deletion of a policy that no role has as its boundary any more. -/
def deletePolicyOps (arn : String) : List Op :=
  [{ op := .deletePolicyVersion, policyARN := arn, select := .allNonDefault },
    { op := .deletePolicy, policyARN := arn }]

namespace ApplyCtx

variable (c : ApplyCtx)

def removed : List String :=
  sortedUnique (c.inp.intent.remove.map RemoveEntry.service)

/-- The namespaces whose exclusion a diff reports. -/
def candidates (texts : List (Option Bytes)) : List String :=
  sortedUnique (c.removed ++ c.inp.intent.retain.map RetainEntry.service ++
    texts.flatMap notActionNamespaces)

/-- `checkSize`. -/
def sizeRefusal (canonical : Bytes) : List Refusal :=
  refuseIf (maxPolicyChars < policyChars canonical) .documentTooLarge
    (toString (policyChars canonical) ++ " characters excluding whitespace (limit " ++
      toString maxPolicyChars ++ ")")

def setDiff (p : Plan) (case : PlanCase) (before after : Option BoundaryRef)
    (beforeText afterText : Option Bytes) : Except GoErr Plan := do
  let ch ← exclusionChanges beforeText afterText (c.candidates [beforeText, afterText])
  return { p with
    diff := { p.diff with
      case
      boundaryBefore := before
      boundaryAfter := after
      newlyExcluded := ch.newly
      alreadyExcluded := ch.already
      newlyUnexcluded := ch.unexcluded } }

/-- `restoredImpact`. -/
def restoredImpact (u : Plan) : Plan :=
  { u with impact := { u.impact with
      restored := u.impact.restored ++ u.diff.newlyUnexcluded.map fun s => ⟨s, "undo"⟩ } }

def roleFacts (withDefinition : Bool) : List Fact :=
  factRole c.role.roleID ::
    if withDefinition then
      [{ kind := .roleDefinition, before := c.defHash, after := c.defHash, onlyBefore := true }]
    else []

/-- The artifact state that the apply leaves. -/
def postState (arn docHash : String) (others : List AttachedEntity) : ArtifactStateFacts :=
  ArtifactStateFacts.normalized
    ⟨c.role.roleID, some arn, some docHash,
      others ++ [⟨"role", c.role.roleID, c.role.name, usageBoundary⟩]⟩

@[simps op roleARN policyARN]
def putBoundaryOp (arn : String) : Op :=
  { op := .putRolePermissionsBoundary, roleName := c.role.name, policyARN := arn }

@[simps op roleARN policyARN]
def deleteBoundaryOp : Op :=
  { op := .deleteRolePermissionsBoundary, roleName := c.role.name }

variable [Sha256]

/-- `undoBase`. -/
def undoBase (p : Plan) (post : ArtifactStateFacts) : Except GoErr Plan := do
  let pc ← canonField post.precondition
  let ph ← statePreconditionHash post
  return { c.inp.evidence.plan c.inp.control.id .undo c.inp.intent.delivery c.inp.live.readAt with
    eligibility := p.eligibility
    precondition := pc
    preconditionHash := ph
    beforeDocumentHash := post.boundaryDocumentHash
    impact := { consumers := p.impact.consumers, ownerUserIDs := p.impact.ownerUserIDs }
    documents := p.documents }

/-- The AuthSec boundary of the role. -/
def newARN : String :=
  authSecBoundaryARN c.role.partitionOr c.role.accountID c.role.roleID

/-- A policy of that name is never adopted. -/
def nameInUseRefusal : List Refusal :=
  match c.inp.live.policies.get? c.newARN with
  | some (some existing) =>
      if existing.tags.str tagManagedBy = tagManagedByValue ∧
          existing.tags.str tagWorkspace ≠ c.inp.control.workspaceRef then
        [⟨.artifactOwnedElsewhere, c.newARN⟩]
      else [⟨.policyNameInUse, c.newARN⟩]
  | _ => []

def firstAttachmentProof : FirstAttachmentProof :=
  proveFirstAttachment c.role.ref c.inp.evidence.scanRunID c.inp.scanEvidence c.inp.enabledRegions
    c.inp.accountServices c.inp.evidence.bundle.facts.gaps

def noneOps (h : String) : List Op :=
  [{ op := .createPolicy, policyARN := c.newARN, policyName := authSecBoundaryName c.role.roleID,
     path := authSecPolicyPath, documentHash := h, tags := c.inp.control.createTags },
    c.putBoundaryOp c.newARN]

def noneFacts (h : String) : List Fact :=
  c.roleFacts true ++
    [factBoundary valueNone c.newARN, factPolicyDoc c.newARN valueAbsent h,
      factPolicyOwner c.newARN valueAbsent c.inp.control.ownerValue,
      factPolicyUsers c.newARN [] []]

def noneUndoFacts (h : String) : List Fact :=
  c.roleFacts false ++
    [factBoundary c.newARN valueNone, factPolicyDoc c.newARN h valueAbsent,
      factPolicyOwner c.newARN c.inp.control.ownerValue valueAbsent,
      factPolicyUsers c.newARN [] []]

/-- No boundary: a new AuthSec boundary, the role's first. -/
def none (p : Plan) : Except GoErr (Plan × Plan) := do
  let arn := c.newARN
  let doc ← excludeOnlyDocument c.removed
  let h := contentHash doc
  let p := p.refuse (refuseIf (nameTooLong (authSecBoundaryName c.role.roleID)) .policyNameTooLong
    (authSecBoundaryName c.role.roleID))
  let p := (p.archive h doc).refuse
    (sizeRefusal doc ++ c.nameInUseRefusal ++ c.firstAttachmentProof.refusals)
  let p := { p with
    desiredBoundaryARN := some arn
    desiredDocumentHash := some h
    firstAttachment := true
    unanalysed := c.firstAttachmentProof.unanalysed
    diff := { p.diff with firstAttachment := some c.firstAttachmentProof }
    ops := c.noneOps h }
  let p ← c.setDiff p .noneToAuthSec .none (some ⟨arn, h⟩) .none (some doc)
  let p := { p with facts := c.noneFacts h }
  let u ← c.undoBase p (c.postState arn h [])
  let u := { u with
    desiredAttachment := .absent
    replacedBoundaryARN := some arn
    artifactDisposition := .delete
    ops := c.deleteBoundaryOp :: deletePolicyOps arn }
  let u ← c.setDiff u .undoDeleteNew (some ⟨arn, h⟩) .none (some doc) .none
  return (p, { restoredImpact u with facts := c.noneUndoFacts h })

/-- The boundary is another workspace's, or another control's. -/
def ownerRefusal (cur : CurrentBoundary) : List Refusal :=
  if cur.policy.tags.str tagManagedBy = tagManagedByValue ∧
      cur.policy.tags.str tagWorkspace ≠ c.inp.control.workspaceRef then
    [⟨.artifactOwnedElsewhere, c.role.boundaryARN⟩]
  else
    refuseIf (ownerValue cur.policy.tags != c.inp.control.ownerValue ||
      !c.inp.control.owns c.role.boundaryARN) .artifactOtherControl c.role.boundaryARN

def consumersRefusal (cur : CurrentBoundary) : List Refusal :=
  refuseIf (!cur.others.isEmpty) .consumersChanged
    (c.role.boundaryARN ++ " is used by " ++ toString cur.others.length ++ " other entities")

/-- The facts of a plan that gives the role's boundary another document. -/
def versionFacts (withDefinition : Bool) (others : List AttachedEntity) (before after : String) :
    List Fact :=
  c.roleFacts withDefinition ++
    [factBoundary c.role.boundaryARN c.role.boundaryARN,
      factPolicyDoc c.role.boundaryARN before after,
      factPolicyOwner c.role.boundaryARN c.inp.control.ownerValue c.inp.control.ownerValue,
      factPolicyUsers c.role.boundaryARN others others]

/-- The number of versions after the apply. -/
def versionsAfter (cur : CurrentBoundary) : ℤ :=
  if maxPolicyVersions ≤ cur.policy.versionCount then maxPolicyVersions
  else cur.policy.versionCount + 1

/-- AuthSec's own boundary: a new default version. -/
def authsec (cur : CurrentBoundary) (p : Plan) : Except GoErr (Plan × Plan) := do
  let arn := c.role.boundaryARN
  let ctl := c.inp.control
  let doc ← excludeOnlyDocument c.removed
  let h := contentHash doc
  let p := p.refuse (c.ownerRefusal cur ++ c.consumersRefusal cur)
  let p := (p.archive h doc).refuse (sizeRefusal doc)
  let p := { p with desiredBoundaryARN := some arn, desiredDocumentHash := some h }
  let p :=
    if h = cur.hash then
      { p with diff := { p.diff with notes := p.diff.notes ++ [.alreadyInPlace] } }
    else { p with ops := p.ops ++ newVersionOps ctl arn h cur.policy.versionCount }
  let p ← c.setDiff p .authSecVersion (some ⟨arn, cur.hash⟩) (some ⟨arn, h⟩)
    (some cur.policy.defaultDocument) (some doc)
  let p := { p with facts := c.versionFacts true cur.others cur.hash h }
  let u ← c.undoBase p (c.postState arn h cur.others)
  let u := { u with
    desiredAttachment := .present
    desiredBoundaryARN := some arn
    desiredDocumentHash := some cur.hash }
  let u :=
    if h = cur.hash then
      { u with diff := { u.diff with notes := u.diff.notes ++ [.alreadyInPlace] } }
    else { u with ops := u.ops ++ newVersionOps ctl arn cur.hash (versionsAfter cur) }
  let u ← c.setDiff u .undoEarlierDocument (some ⟨arn, h⟩) (some ⟨arn, cur.hash⟩)
    (some doc) (some cur.policy.defaultDocument)
  return (p, { restoredImpact u with facts := c.versionFacts false cur.others h cur.hash })

/-- `narrow`: the narrowed document, or the plan that refuses it. -/
def narrow (cur : CurrentBoundary) (p : Plan) :
    Except GoErr (Plan × Option (Bytes × Narrowing)) := do
  match ← narrowCustomerBoundary cur.policy.defaultDocument c.removed with
  | .error refusal => return (p.refuse [refusal], .none)
  | .ok (doc, n) =>
      return ((p.archive (contentHash doc) doc).refuse (sizeRefusal doc), some (doc, n))

/-- The facts of a plan for a customer's boundary that keeps its place. -/
def customerFacts (withDefinition : Bool) (others : List AttachedEntity) (before after : String) :
    List Fact :=
  c.roleFacts withDefinition ++
    [factBoundary c.role.boundaryARN c.role.boundaryARN,
      factPolicyDoc c.role.boundaryARN before after,
      factPolicyUsers c.role.boundaryARN others others]

def newDocumentOp (arn documentHash : String) : Op :=
  { op := .createPolicyVersion, policyARN := arn, documentHash, setAsDefault := true }

/-- AuthSec writes no customer's boundary itself. -/
def exclusiveRefusal (delivery : String) : List Refusal :=
  refuseIf (delivery == deliveryDirect) .customerBoundaryDirect
    (c.role.boundaryARN ++ " is a customer boundary; AuthSec never edits it in AWS (J2/J1 only)")

def sharedRefusal (delivery : String) : List Refusal :=
  refuseIf (delivery == deliveryDirect) .customerBoundaryDirect
    (c.role.boundaryARN ++
      " is a shared customer boundary; AuthSec proposes a split copy only through J2/J1")

/-- A customer's boundary that only this role uses: narrowed in place, never by AuthSec. -/
def customerExclusive (cur : CurrentBoundary) (p : Plan) : Except GoErr (Plan × Option Plan) := do
  let arn := c.role.boundaryARN
  let p := { p with eligibility := .iacOnly }
  let p := p.refuse (c.exclusiveRefusal p.delivery)
  match ← c.narrow cur p with
  | (p, .none) =>
      return ({ p with desiredBoundaryARN := some arn, facts := c.roleFacts true }, .none)
  | (p, some (doc, n)) => do
      let h := contentHash doc
      let p := { p with
        desiredBoundaryARN := some arn
        desiredDocumentHash := some h
        diff := { p.diff with narrowing := some n } }
      let p :=
        if n.changed then { p with ops := [newDocumentOp arn h] }
        else { p with diff := { p.diff with
          notes := p.diff.notes ++ [.nothingToNarrow, .alreadyInPlace] } }
      let p ← c.setDiff p .customerInPlace (some ⟨arn, cur.hash⟩) (some ⟨arn, h⟩)
        (some cur.policy.defaultDocument) (some doc)
      let p := { p with facts := c.customerFacts true [] cur.hash h }
      let u ← c.undoBase p (c.postState arn h [])
      let u := { u with
        desiredAttachment := .present
        desiredBoundaryARN := some arn
        desiredDocumentHash := some cur.hash }
      let u :=
        if n.changed then { u with ops := [newDocumentOp arn cur.hash] }
        else { u with diff := { u.diff with notes := u.diff.notes ++ [.alreadyInPlace] } }
      let u ← c.setDiff u .undoCustomerInPlace (some ⟨arn, h⟩) (some ⟨arn, cur.hash⟩)
        (some doc) (some cur.policy.defaultDocument)
      return (p, some { restoredImpact u with facts := c.customerFacts false [] h cur.hash })

/-- The split copy of the boundary. -/
def copyARN (cur : CurrentBoundary) : String :=
  splitCopyARN c.role.partitionOr c.role.accountID cur.policy.path cur.policy.name c.role.roleID

def copyName (cur : CurrentBoundary) : String :=
  splitCopyName cur.policy.name c.role.roleID

/-- Nothing to narrow: the shared boundary stays, and no copy is made. -/
def sharedUnchanged (cur : CurrentBoundary) (p : Plan) : Except GoErr (Plan × Option Plan) := do
  let shared := c.role.boundaryARN
  let text := some cur.policy.defaultDocument
  let p := { p with
    desiredBoundaryARN := some shared
    desiredDocumentHash := some cur.hash
    diff := { p.diff with notes := p.diff.notes ++ [.nothingToNarrow, .alreadyInPlace] } }
  let p ← c.setDiff p .customerSplit (some ⟨shared, cur.hash⟩) (some ⟨shared, cur.hash⟩) text text
  let p := { p with facts := c.customerFacts true cur.others cur.hash cur.hash }
  let u ← c.undoBase p (c.postState shared cur.hash cur.others)
  let u := { u with
    desiredAttachment := .present
    desiredBoundaryARN := some shared
    desiredDocumentHash := some cur.hash
    diff := { u.diff with notes := u.diff.notes ++ [.alreadyInPlace] } }
  let u ← c.setDiff u .undoSplit (some ⟨shared, cur.hash⟩) (some ⟨shared, cur.hash⟩) text text
  return (p, some { u with facts := c.customerFacts false cur.others cur.hash cur.hash })

def copyOps (cur : CurrentBoundary) (h : String) : List Op :=
  [{ op := .createPolicy, policyARN := c.copyARN cur, policyName := c.copyName cur,
     path := cur.policy.path, documentHash := h }, c.putBoundaryOp (c.copyARN cur)]

def copyFacts (cur : CurrentBoundary) (h : String) : List Fact :=
  c.roleFacts true ++
    [factBoundary c.role.boundaryARN (c.copyARN cur),
      factPolicyDoc (c.copyARN cur) valueAbsent h, factPolicyUsers (c.copyARN cur) [] [],
      factPolicyDoc c.role.boundaryARN cur.hash cur.hash,
      factPolicyUsers c.role.boundaryARN cur.others cur.others]

def copyUndoFacts (cur : CurrentBoundary) (h : String) : List Fact :=
  c.roleFacts false ++
    [factBoundary (c.copyARN cur) c.role.boundaryARN,
      factPolicyDoc (c.copyARN cur) h valueAbsent, factPolicyUsers (c.copyARN cur) [] [],
      factPolicyDoc c.role.boundaryARN cur.hash cur.hash,
      factPolicyUsers c.role.boundaryARN cur.others cur.others]

/-- A policy of the copy's name. -/
def copyRefusal (cur : CurrentBoundary) : List Refusal :=
  refuseIf (c.inp.live.hasPolicy (c.copyARN cur)) .policyNameInUse (c.copyARN cur)

/-- The role gets a narrowed copy of the boundary that it shares. -/
def sharedCopy (cur : CurrentBoundary) (doc : Bytes) (p : Plan) :
    Except GoErr (Plan × Option Plan) := do
  let shared := c.role.boundaryARN
  let arn := c.copyARN cur
  let h := contentHash doc
  let p := p.refuse (c.copyRefusal cur)
  let p := { p with
    desiredBoundaryARN := some arn
    desiredDocumentHash := some h
    replacedBoundaryARN := some shared
    ops := c.copyOps cur h }
  let p ← c.setDiff p .customerSplit (some ⟨shared, cur.hash⟩) (some ⟨arn, h⟩)
    (some cur.policy.defaultDocument) (some doc)
  let p := { p with facts := c.copyFacts cur h }
  let u ← c.undoBase p (c.postState arn h [])
  let u := { u with
    desiredAttachment := .present
    desiredBoundaryARN := some shared
    desiredDocumentHash := some cur.hash
    replacedBoundaryARN := some arn
    artifactDisposition := .delete
    ops := c.putBoundaryOp shared :: deletePolicyOps arn }
  let u ← c.setDiff u .undoSplit (some ⟨arn, h⟩) (some ⟨shared, cur.hash⟩)
    (some doc) (some cur.policy.defaultDocument)
  return (p, some { restoredImpact u with facts := c.copyUndoFacts cur h })

/-- A customer's boundary that others use too: never changed, the role gets a copy. -/
def customerShared (cur : CurrentBoundary) (p : Plan) : Except GoErr (Plan × Option Plan) := do
  let p := { p with eligibility := .iacOnly }
  let p := p.refuse (c.sharedRefusal p.delivery ++
    refuseIf (nameTooLong (c.copyName cur)) .policyNameTooLong (c.copyName cur))
  match ← c.narrow cur p with
  | (p, .none) =>
      return ({ p with
        desiredBoundaryARN := some (c.copyARN cur)
        facts := c.roleFacts true }, .none)
  | (p, some (doc, n)) =>
      let p := { p with diff := { p.diff with narrowing := some n } }
      if n.changed then c.sharedCopy cur doc p else c.sharedUnchanged cur p

end ApplyCtx

/-! ## Compiling a target -/

section

variable [Sha256]

/-- What was read of a role that is gone or was created again. -/
def gonePrecondition (live : LiveRead) (roleID : String) : Except GoErr ApplyPrecondition :=
  match live.role with
  | some _ => applyPreconditionFor live
  | none => .ok { artifactState := { roleID } }

/-- `goneRolePrecondition`. -/
def goneRolePrecondition (p : Plan) (live : LiveRead) (roleID : String) : Except GoErr Plan := do
  let pre ← gonePrecondition live roleID
  let c ← pre.canonical
  let h ← applyPreconditionHash pre
  return { p with precondition := c, preconditionHash := h }

/-- The boundary of the role, read and archived. -/
def currentBoundary (live : LiveRead) (role : LiveRole) (p : Plan) :
    Except GoErr (Plan × Option CurrentBoundary) :=
  if role.boundaryARN = "" then .ok (p, none)
  else do
    match ← live.policy role.boundaryARN with
    | none => .error (.compile .liveIncomplete ["the role's boundary returned NoSuchEntity"])
    | some cur => do
        let (p, h) ← p.archiveText cur.defaultDocument
        return ({ p with beforeDocumentHash := some h },
          some ⟨cur, h, otherUsers cur.attachmentSet role.roleID⟩)

/-- The builder for the boundary that the role has. -/
def ApplyCtx.build (c : ApplyCtx) (cur : Option CurrentBoundary) (p : Plan) :
    Except GoErr (Plan × Option Plan) :=
  match cur with
  | .none => (c.none p).map fun (p, u) => (p, some u)
  | some cur =>
    if isAuthSecPath c.role.boundaryARN then (c.authsec cur p).map fun (p, u) => (p, some u)
    else if cur.others = [] then c.customerExclusive cur p
    else c.customerShared cur p

/-- The checks of `CompileTarget` before a plan is begun. -/
def TargetInput.check (inp : TargetInput) : Except GoErr Unit := do
  inp.control.validate
  let errs := validateIntent { kind := intentRightSizeServices, rightSize := some inp.intent }
  require (errs = []) (GoErr.compile .invalidIntent [intentErrorText errs])
  require (inp.intent.subjects.any fun s =>
      s.roleID == inp.control.roleID && s.accountID == inp.control.accountID)
    (GoErr.compile .input ["the control's role is not a subject of the intent"])
  inp.evidence.validate inp.control.roleID
  require (",".intercalate (sortedUnique (inp.intent.remove.map RemoveEntry.service)) =
      ",".intercalate inp.evidence.bundle.facts.removedServices)
    (GoErr.compile .evidenceMismatch ["the bundle was built for another removal set"])

/-- The plan that the compilation of a target begins with. -/
def TargetInput.start (inp : TargetInput) : Plan :=
  { inp.evidence.plan inp.control.id .apply inp.intent.delivery inp.live.readAt with
    desiredAttachment := .present
    impact := impactFor inp.evidence.bundle.facts inp.intent.remove inp.intent.retain }

/-- The plan of a role that is there. -/
def TargetInput.compileRole (inp : TargetInput) (role : LiveRole) (ap : Plan) :
    Except GoErr TargetPlans := do
  let ap := ap.refuse (roleEligibility role ++
    justifyRemovals inp.intent.remove inp.evidence.bundle.facts.activity inp.dependencyContexts)
  let pre ← applyPreconditionFor inp.live
  let pc ← pre.canonical
  let ph ← applyPreconditionHash pre
  let defHash ← roleDefinitionHash role
  let (ap, cur) ← currentBoundary inp.live role
    { ap with precondition := pc, preconditionHash := ph }
  let (ap, undo) ← (ApplyCtx.mk inp role defHash).build cur ap
  let ap ← ap.sealed
  if ap.eligible then
    match undo with
    | some u => do
        let u ← u.sealed
        return ⟨ap, some u⟩
    | none => .error (.msg "runtime error: invalid memory address or nil pointer dereference")
  else return ⟨ap, none⟩

/-- `CompileTarget`. -/
def compileTarget (inp : TargetInput) : Except GoErr TargetPlans := do
  inp.check
  match checkIncarnation inp.live inp.control.roleID with
  | .error rs => do
      let ap ← goneRolePrecondition (inp.start.refuse rs) inp.live inp.control.roleID
      let ap ← ap.sealed
      return ⟨ap, none⟩
  | .ok role => inp.compileRole role inp.start

end

end AuthSec

import AuthSec.Plans.Plan

/-!
# The classifier

A live read gives each fact of a plan a value.  From the values the classifier says whether the
read shows the state before the plan, the state after it, a state in between that a prefix of the
operations explains, or a conflict.  An operation whose outcome is unknown is resolved by the same
classification, and an answer of AWS to an operation is recognised from the read that follows it.
-/

namespace AuthSec

/-! ## Observation -/

section

variable [Sha256]

def dedicatedSpecHash (trust : String) (managed : List String) (inline : List PolicyRef)
    (boundary : String) : Except GoErr String :=
  hashCanonicalTagged .dedicatedRole
    (.obj [("trust_policy_hash", .str trust),
      ("managed_policy_arns", strArray (sortedUnique managed)),
      ("inline_policies", .arr ((sortedRefs inline).map PolicyRef.toJson)),
      ("boundary_arn", .str boundary)])

/-- `dedicatedRoleHash`. -/
def dedicatedRoleHash (r : LiveRole) : Except GoErr String :=
  dedicatedSpecHash r.trustPolicyHash (r.managedPolicies.map PolicyRef.ref) r.inlinePolicies
    r.boundaryARN

/-- The role that the facts of a plan are about. -/
def factsRoleID (facts : List Fact) : String :=
  ((facts.filter (·.kind == .role)).getLast?.map Fact.before).getD ""

/-- The boundary of a role as a value. -/
def boundaryValue (boundaryARN : String) : String :=
  if boundaryARN = "" then valueNone else boundaryARN

/-- The value of a fact about a policy that AWS has. -/
def observePolicy (p : LivePolicy) (roleID : String) : FactKind → Except GoErr String
  | .policyDocument => documentHash p.defaultDocument
  | .policyOwner => .ok (ownerValue p.tags)
  | _ => .ok (usersValue (otherUsers p.attachmentSet roleID))

/-- The value that a read gives a fact. -/
def observeFact (live : LiveRead) (roleID : String) (f : Fact) : Except GoErr String :=
  match f.kind with
  | .role => .ok (live.role.elim valueAbsent LiveRole.roleID)
  | .roleDefinition => live.role.elim (.ok valueAbsent) roleDefinitionHash
  | .roleBoundary => .ok (live.role.elim valueAbsent fun r => boundaryValue r.boundaryARN)
  | .policyDocument | .policyOwner | .policyUsers => do
      match ← live.policy f.subject with
      | none => .ok (if f.kind = .policyUsers then usersValue [] else valueAbsent)
      | some p => observePolicy p roleID f.kind
  | .binding =>
      match live.bindings.get? f.subject with
      | none => .error (.compile .liveIncomplete ["binding of " ++ f.subject ++ " was not read"])
      | some b => .ok b
  | .newRole =>
      match live.roles.get? f.subject with
      | none => .error (.compile .liveIncomplete ["role " ++ f.subject ++ " was not read"])
      | some r => r.elim (.ok valueAbsent) dedicatedRoleHash

/-- `ObserveFacts`. -/
def observeFacts (facts : List Fact) (live : LiveRead) : Except GoErr (GoMap String) := do
  let values ← facts.mapM fun f =>
    (observeFact live (factsRoleID facts) f).map fun v => (f.key, v)
  return GoMap.ofList values

end

/-! ## Classification -/

/-- Where a plan stands in a read. -/
inductive PlanClass where
  | before
  | intermediate
  | after
  | conflict
  deriving DecidableEq

/-- Where the observed value of a fact stands. -/
inductive FactPosition where
  | before
  | after
  | both
  | neither
  deriving DecidableEq

/-- Why a read fits no place of a plan. -/
inductive ConflictReason where
  | roleGone
  | roleRecreated
  | ownedElsewhere
  | consumersChanged
  | changedOutside
  | planChanged
  | notAPrefix
  | roleDefinition
  | bindingUnexpected
  deriving DecidableEq

def ConflictReason.text : ConflictReason → String
  | roleGone => "role_gone"
  | roleRecreated => "role_recreated"
  | ownedElsewhere => "artifact_owned_elsewhere"
  | consumersChanged => "artifact_consumers_changed"
  | changedOutside => "artifact_changed_outside_authsec"
  | planChanged => "plan_changed"
  | notAPrefix => "not_a_prefix_of_op_order"
  | roleDefinition => "role_definition_changed"
  | bindingUnexpected => "binding_unexpected"

structure FactResult where
  fact : Fact
  observed : String
  position : FactPosition
  deriving DecidableEq

/-- `Classification`; `nextOp` is `none` where the source has −1. -/
structure Classification where
  cls : PlanClass
  nextOp : Option ℕ
  visible : ℕ
  total : ℕ
  facts : List FactResult
  conflicts : List FactResult
  reason : Option ConflictReason
  deriving DecidableEq

/-- The keys of the facts that an operation moves to their value after the plan. -/
def opEffects (o : Op) : List String :=
  match o.op with
  | .createPolicy | .deletePolicy =>
      [factKey .policyDocument o.policyARN, factKey .policyOwner o.policyARN]
  | .createPolicyVersion => [factKey .policyDocument o.policyARN]
  | .putRolePermissionsBoundary | .deleteRolePermissionsBoundary =>
      if o.roleARN ≠ "" then [] else [factKey .roleBoundary ""]
  | .createRole | .deleteRole => [factKey .newRole o.roleARN]
  | .bindSubject => [factKey .binding o.subjectARN]
  | _ => []

/-- `OpObservable`. -/
def opObservable (o : Op) : Bool :=
  !(opEffects o).isEmpty

/-- For every number of operations that ran, the keys that are at their value after the plan. -/
def prefixStates (ops : List Op) : List (List String) :=
  ops.scanl (fun keys o => keys ++ opEffects o) []

def factPosition (f : Fact) (observed : String) : FactPosition :=
  if observed = f.before ∧ observed = f.after then .both
  else if observed = f.before then .before
  else if observed = f.after then .after
  else .neither

/-- The facts with what was observed of them. -/
def factResults (facts : List Fact) (obs : GoMap String) : List FactResult :=
  facts.map fun f => ⟨f, obs.str f.key, factPosition f (obs.str f.key)⟩

/-- The state in which exactly the changing facts with these keys are at their value after. -/
def matchesState (rs : List FactResult) (keys : List String) : Bool :=
  let at? : GoMap FactPosition := GoMap.ofList (rs.map fun r => (r.fact.key, r.position))
  rs.all fun r => r.fact.onlyBefore || !r.fact.changes ||
    at?.get? r.fact.key == some (if r.fact.key ∈ keys then .after else .before)

/-- `conflictReason`. -/
def conflictReason (kind : PlanKind) (cs : List FactResult) : ConflictReason :=
  let first (k : FactKind) := cs.find? (·.fact.kind == k)
  match first .role with
  | some r => if r.observed = valueAbsent then .roleGone else .roleRecreated
  | none =>
    if (first .policyOwner).any fun r => startsWith r.observed "authsec:" then .ownedElsewhere
    else if (first .policyUsers).isSome then .consumersChanged
    else if (first .binding).isSome then .bindingUnexpected
    else
      match kind with
      | .undo | .removeControl | .splitRevert => .changedOutside
      | .apply | .split => .planChanged

/-- `classifyObserved`. -/
def classifyObserved (p : Plan) (obs : GoMap String) : Classification :=
  let rs := factResults p.facts obs
  let counted := rs.filter (!·.fact.onlyBefore)
  let conflicts := counted.filter (·.position == .neither)
  let anyBefore := counted.any (·.position == .before)
  let anyAfter := counted.any (·.position == .after)
  let c : Classification :=
    { cls := .conflict
      nextOp := none
      total := (counted.filter (·.fact.changes)).length
      visible := (counted.filter fun r => r.fact.changes && r.position == .after).length
      facts := rs
      conflicts
      reason := none }
  if conflicts ≠ [] then { c with reason := some (conflictReason p.kind conflicts) }
  else
    match (rs.filter fun r => r.fact.onlyBefore && r.position != .both).getLast?,
        anyBefore && !anyAfter with
    | some r, true =>
        { c with conflicts := conflicts ++ [r], reason := some .roleDefinition }
    | _, _ =>
      let cls := if anyBefore then (if anyAfter then .intermediate else .before) else .after
      if p.delivery ≠ deliveryDirect then { c with cls }
      else
        match (prefixStates p.ops).findIdx? (matchesState rs) with
        | some k => { c with cls, nextOp := some k }
        | none => { c with reason := some .notAPrefix }

/-- `Classify`. -/
def classify [Sha256] (p : Plan) (live : LiveRead) : Except GoErr Classification := do
  require (p.facts ≠ []) (GoErr.msg "igagov: plan has no facts to classify")
  let obs ← observeFacts p.facts live
  return classifyObserved p obs

/-! ## Operations with an unknown outcome -/

/-- What a read says of one operation. -/
inductive Resolution where
  | applied
  | notApplied
  | unobservable
  | conflict
  deriving DecidableEq

structure OpResolution where
  resolution : Resolution
  classification : Classification

/-- What the classification of a read says about one operation. -/
def resolveWith (p : Plan) (opIndex : ℕ) (o : Op) (cl : Classification) : Resolution :=
  if cl.cls = .conflict then .conflict
  else if opEffects o = [] then .unobservable
  else if matchesState cl.facts ((prefixStates p.ops).getD (opIndex + 1) []) then .applied
  else if matchesState cl.facts ((prefixStates p.ops).getD opIndex []) then .notApplied
  else .conflict

/-- `ResolveUnknownOp`. -/
def resolveUnknownOp [Sha256] (p : Plan) (opIndex : ℕ) (live : LiveRead) :
    Except GoErr OpResolution := do
  require (p.delivery = deliveryDirect)
    (GoErr.msg "igagov: only direct plans have AuthSec ops to resolve")
  match p.ops[opIndex]? with
  | none => .error (.msg ("igagov: op " ++ toString opIndex ++ " is not in the plan"))
  | some o => do
      let cl ← classify p live
      return ⟨resolveWith p opIndex o cl, cl⟩

/-! ## Answers of AWS -/

inductive OpOutcomeKind where
  | ok
  | retryable
  | terminal
  | recognisedDone
  | notNeeded
  | unknown
  deriving DecidableEq

/-- The outcome of a request. -/
structure OpOutcome where
  outcome : OpOutcomeKind
  reason : String := ""
  deriving DecidableEq

/-- How a call ended, as the adapter saw it. -/
inductive ResponseKind where
  | ok
  | error
  | noAnswer
  deriving DecidableEq

/-- `IsIAMThrottle`. -/
def isIAMThrottle (errorCode : String) : Bool :=
  errorCode ∈ ["Throttling", "ThrottlingException", "RequestLimitExceeded",
    "TooManyRequestsException"]

/-- The answer to an error code that no rule of the operation covers. -/
def otherError (errorCode : String) : OpOutcome :=
  if errorCode = "LimitExceeded" then ⟨.terminal, "quota_exceeded"⟩ else ⟨.terminal, errorCode⟩

section

variable [Sha256]

/-- The policy that a `CreatePolicy` found in its place. -/
def recogniseCreated (o : Op) (found : Option (Option LivePolicy)) : OpOutcome :=
  match found with
  | some (some pp) =>
      if pp.tags.str tagManagedBy = tagManagedByValue ∧ o.tags.str tagWorkspace ≠ "" ∧
          pp.tags.str tagWorkspace ≠ o.tags.str tagWorkspace then
        ⟨.terminal, ConflictReason.ownedElsewhere.text⟩
      else if pp.tags.str tagControl = o.tags.str tagControl ∧
          documentHash pp.defaultDocument = .ok o.documentHash then
        { outcome := .recognisedDone }
      else ⟨.terminal, "blocked: exists with another document or control"⟩
  | _ => ⟨.terminal, "exists_but_unreadable"⟩

/-- The default document of the policy is the one that the operation writes. -/
def hasDocument (o : Op) (found : Option (Option LivePolicy)) : Bool :=
  match found with
  | some (some pp) => documentHash pp.defaultDocument = .ok o.documentHash
  | _ => false

/-- The rules of the response table for an operation. -/
def classifyError (p : Plan) (o : Op) (errorCode : String) (live : LiveRead) : OpOutcome :=
  match o.op with
  | .createPolicy =>
      if errorCode = "EntityAlreadyExists" then recogniseCreated o (live.policies.get? o.policyARN)
      else otherError errorCode
  | .createPolicyVersion =>
      if hasDocument o (live.policies.get? o.policyARN) then { outcome := .notNeeded }
      else if errorCode = "LimitExceeded" then ⟨.terminal, "version_limit_after_prune"⟩
      else otherError errorCode
  | .deletePolicyVersion =>
      if errorCode = "NoSuchEntity" then { outcome := .recognisedDone }
      else if errorCode = "DeleteConflict" then ⟨.terminal, "blocked: version is the default"⟩
      else otherError errorCode
  | .tagPolicy =>
      if errorCode = "NoSuchEntity" then ⟨.terminal, "blocked: policy gone"⟩
      else otherError errorCode
  | .putRolePermissionsBoundary =>
      if live.role.any (·.boundaryARN == o.policyARN) then { outcome := .recognisedDone }
      else if errorCode = "AccessDenied" ∨ errorCode = "AccessDeniedException" then
        ⟨.terminal, "binding_partial"⟩
      else if errorCode = "NoSuchEntity" then ⟨.terminal, ConflictReason.roleGone.text⟩
      else otherError errorCode
  | .deleteRolePermissionsBoundary =>
      if live.role.any (·.boundaryARN == "") then { outcome := .recognisedDone }
      else if live.role.any fun r =>
          p.facts.any fun f => f.kind == .roleBoundary && r.boundaryARN != f.before then
        ⟨.terminal, "blocked: another boundary is attached"⟩
      else otherError errorCode
  | .deletePolicy =>
      if errorCode = "NoSuchEntity" then { outcome := .recognisedDone }
      else if errorCode = "DeleteConflict" then ⟨.terminal, "attached_elsewhere"⟩
      else otherError errorCode
  | _ => otherError errorCode

/-- `ClassifyOpResponse`. -/
def classifyOpResponse (p : Plan) (opIndex : ℕ) (kind : ResponseKind) (errorCode : String)
    (live : LiveRead) : OpOutcome :=
  match p.ops[opIndex]?, kind with
  | none, _ => ⟨.terminal, "op_not_in_plan"⟩
  | some _, .ok => { outcome := .ok }
  | some _, .noAnswer => ⟨.unknown, "no_answer_not_retried"⟩
  | some o, .error =>
      if isIAMThrottle errorCode then ⟨.retryable, "throttled"⟩
      else if errorCode ∈ ["ServiceFailure", "InternalFailure", "ServiceUnavailable"] then
        ⟨.unknown, "service_failure_not_retried"⟩
      else classifyError p o errorCode live

end

end AuthSec

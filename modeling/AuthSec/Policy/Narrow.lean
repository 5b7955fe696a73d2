import AuthSec.Policy.Action

/-!
# Narrowing a customer's boundary

`NarrowCustomerBoundary` deletes the `Action` entries of the removed namespaces from every Allow
statement and keeps everything else.  A `json.RawMessage` is the value of its text; the text that
`encoding/json` writes for a map of them is read again at once, so that only the value matters.
-/

namespace AuthSec

/-! ## Refusals -/

/-- Why a plan is ineligible. -/
inductive RefusalCode where
  | roleGone
  | roleRecreated
  | serviceLinked
  | awsReserved
  | authSecManagedRole
  | protectedRole
  | recognitionOnly
  | notInActivityReport
  | removalNotJustified
  | removalIsDependency
  | documentTooLarge
  | evidenceIncomplete
  | blocksBoundary
  | customerBoundaryDirect
  | notNarrowable
  | narrowedEmpty
  | artifactOwnedElsewhere
  | artifactOtherControl
  | consumersChanged
  | changedOutsideAuthSec
  | policyNameInUse
  | policyNameTooLong
  | roleOnlyNotNeeded
  | roleOnlyUnavailable
  | baselineMissing
  | directNeedsAuthSecTarget
  | migrationEvidence
  | subjectBindingMismatch
  | newRoleNameInUse
  | newRoleNotBaselinePreserve
  | splitDirect
  deriving DecidableEq

def RefusalCode.text : RefusalCode → String
  | roleGone => "role_gone"
  | roleRecreated => "role_recreated"
  | serviceLinked => "service_linked_role"
  | awsReserved => "aws_reserved_role"
  | authSecManagedRole => "authsec_managed_role"
  | protectedRole => "protected_role"
  | recognitionOnly => "recognition_only_identity"
  | notInActivityReport => "service_not_in_activity_report"
  | removalNotJustified => "removal_not_justified"
  | removalIsDependency => "removal_is_dependency"
  | documentTooLarge => "document_too_large"
  | evidenceIncomplete => "resource_policy_evidence_incomplete"
  | blocksBoundary => "resource_policy_blocks_boundary"
  | customerBoundaryDirect => "customer_boundary_requires_iac"
  | notNarrowable => "customer_boundary_not_narrowable"
  | narrowedEmpty => "customer_boundary_would_be_empty"
  | artifactOwnedElsewhere => "artifact_owned_elsewhere"
  | artifactOtherControl => "artifact_owned_by_other_control"
  | consumersChanged => "artifact_consumers_changed"
  | changedOutsideAuthSec => "artifact_changed_outside_authsec"
  | policyNameInUse => "boundary_policy_name_in_use"
  | policyNameTooLong => "policy_name_too_long"
  | roleOnlyNotNeeded => "role_only_recovery_not_needed"
  | roleOnlyUnavailable => "role_only_recovery_unavailable"
  | baselineMissing => "baseline_boundary_missing"
  | directNeedsAuthSecTarget => "direct_requires_authsec_boundary"
  | migrationEvidence => "migration_evidence_unavailable"
  | subjectBindingMismatch => "subject_binding_mismatch"
  | newRoleNameInUse => "new_role_name_in_use"
  | newRoleNotBaselinePreserve => "new_role_not_baseline_preserving"
  | splitDirect => "split_requires_iac"

/-- Why a plan is refused. -/
structure Refusal where
  code : RefusalCode
  detail : String
  deriving DecidableEq

/-! ## Objects as maps of raw messages -/

/-- `json.Unmarshal` of a text that the package's parser accepts, into a map of raw messages. -/
def unmarshalObject (raw : Bytes) : Except GoErr (Members Float64) := do
  let v ← (parseJSON raw).mapError .notIJSON
  match v with
  | .obj ms => return ms
  | _ => .error (.msg "json: cannot unmarshal into a map")

/-- `m[k] = v`. -/
def setMember (k : String) (v : Json Float64) (ms : Members Float64) :
    Members Float64 :=
  ms.filter (·.1 != k) ++ [(k, v)]

/-- `delete(m, k)`. -/
def deleteMember (k : String) (ms : Members Float64) : Members Float64 :=
  ms.filter (·.1 != k)

/-- `json.Marshal` and `Canonicalize`. -/
def canonicalizeRaw (v : Json Float64) : Except GoErr Bytes :=
  canonField (v.map GoNum.float)

/-! ## Narrowing -/

/-- What narrowing did to a statement. -/
inductive NarrowResult where
  | kept
  | narrowed
  | deleted
  deriving DecidableEq

structure NarrowedStatement where
  index : ℕ
  sid : String
  effect : Effect
  result : NarrowResult
  removedActions : List String
  deriving DecidableEq

/-- What narrowing did, statement by statement. -/
structure Narrowing where
  statements : List NarrowedStatement
  changed : Bool
  subsetProof : Bool
  deriving DecidableEq

def namespaceWildcard (action : String) : Bool :=
  match splitAction action with
  | some (ns, _) => containsAny ns ['*', '?']
  | none => true

/-- The namespace of an action is one of the removed ones. -/
def namespaceRemoved (remove : List String) (action : String) : Bool :=
  let ns := ((splitAction action).map Prod.fst).getD ""
  toLower ns ∈ remove.map toLower

/-- One character of `%q`.  A character beyond ASCII is taken to be printable; `strconv` escapes those
that are not, such as the control characters from U+0080 on. -/
def quoteChar (c : Char) : List Char :=
  if c = '"' ∨ c = '\\' then ['\\', c]
  else
    match c.toNat with
    | 7 => ['\\', 'a']
    | 8 => ['\\', 'b']
    | 9 => ['\\', 't']
    | 10 => ['\\', 'n']
    | 11 => ['\\', 'v']
    | 12 => ['\\', 'f']
    | 13 => ['\\', 'r']
    | n =>
      if n < 32 ∨ n = 127 then ['\\', 'x', hexChar (n / 16), hexChar (n % 16)] else [c]

/-- `%q`. -/
def quote (s : String) : String :=
  String.ofList ('"' :: (s.toList.flatMap quoteChar ++ ['"']))

/-- Why a statement cannot be narrowed. -/
def notNarrowable (st : Statement) (i : ℕ) : Option Refusal :=
  match st.effect, st.actions with
  | .deny, _ => none
  | .allow, .notAction _ =>
    some ⟨.notNarrowable, "statement " ++ toString i ++ " (" ++ st.sid ++ ") uses NotAction"⟩
  | .allow, .action entries =>
    (entries.find? namespaceWildcard).map fun a =>
      ⟨.notNarrowable, "statement " ++ toString i ++ " (" ++ st.sid ++ ") uses " ++ quote a⟩

/-- What remains of a statement, and the record of it. -/
def narrowStatement (remove : List String) (st : Statement) (i : ℕ) :
    Except GoErr (NarrowedStatement × Option (Json Float64)) := do
  let removed := st.action.filter (namespaceRemoved remove)
  let remaining := st.action.filter (!namespaceRemoved remove ·)
  if st.effect = .deny ∨ removed = [] then
    let raw ← (parseJSON st.raw).mapError .notIJSON
    return (⟨i, st.sid, st.effect, .kept, []⟩, some raw)
  else if remaining = [] then
    return (⟨i, st.sid, st.effect, .deleted, removed⟩, none)
  else
    let m ← unmarshalObject st.raw
    return (⟨i, st.sid, st.effect, .narrowed, removed⟩,
      some (.obj (setMember "Action" (.arr (remaining.map .str)) m)))

/-- The text of a statement without its `Action`. -/
def withoutAction (raw : Bytes) : Bytes :=
  match unmarshalObject raw with
  | .error _ => 0 :: utf8 "invalid"
  | .ok m =>
    match canonicalizeRaw (.obj (deleteMember "Action" m)) with
    | .error _ => 0 :: utf8 "invalid"
    | .ok c => c

/-- The checks of `subsetProof`, along the records and the statements that survive. -/
def subsetWalk : List (NarrowedStatement × Statement) → List Statement → Bool
  | [], got => got.isEmpty
  | (record, o) :: rest, got =>
    if record.result = .deleted then subsetWalk rest got
    else
      match got with
      | [] => false
      | g :: got =>
        withoutAction o.raw == withoutAction g.raw && o.isNotAction == g.isNotAction &&
          g.action.isSublist o.action &&
            (record.result != .kept || g.action.length == o.action.length) &&
              subsetWalk rest got

def subsetProof (orig : PolicyDocument) (narrowed : Bytes) (n : List NarrowedStatement) : Bool :=
  match decodePolicyDocument narrowed with
  | .error _ => false
  | .ok got => subsetWalk (n.zip orig.statements) got.statements

def subsetError : GoErr :=
  .msg "igagov: narrowing produced a document that is not a subset of the original"

/-- The `Statement` element of the narrowed document. -/
def narrowedElement (old : Option (Json Float64)) (kept : List (Json Float64)) : Json Float64 :=
  match old, kept with
  | some (.obj _), [st] => st
  | _, _ => .arr kept

/-- The narrowed document, of which the statements `kept` remain. -/
def narrowedDocument (top : Members Float64) (kept : List (Json Float64)) :
    Json Float64 :=
  .obj (setMember "Statement"
    (narrowedElement ((top.find? (·.1 == "Statement")).map Prod.snd) kept) top)

/-- What is left to do when the statements are narrowed. -/
def finishNarrowing (doc : PolicyDocument) (top : Members Float64)
    (results : List (NarrowedStatement × Option (Json Float64))) :
    Except GoErr (Except Refusal (Bytes × Narrowing)) :=
  if results.filterMap Prod.snd = [] then
    return .error ⟨.narrowedEmpty, "every statement of the boundary would be deleted"⟩
  else do
    let c ← canonicalizeRaw (narrowedDocument top (results.filterMap Prod.snd))
    checkStorable c
    if subsetProof doc c (results.map Prod.fst) then
      return .ok (c, ⟨results.map Prod.fst, (results.map Prod.fst).any (·.result != .kept), true⟩)
    else
      .error subsetError

/-- `NarrowCustomerBoundary`: a refusal, or the canonical text of the narrowed document, whose
content hash it returns as well, with the record. -/
def narrowCustomerBoundary (text : Bytes) (remove : List String) :
    Except GoErr (Except Refusal (Bytes × Narrowing)) := do
  let doc ← decodePolicyDocument text
  match doc.statements.zipIdx.findSome? fun st => notNarrowable st.1 st.2 with
  | some refusal => return .error refusal
  | none =>
    let raw ← decodePolicyText text
    let top ← unmarshalObject raw
    let results ← doc.statements.zipIdx.mapM fun st => narrowStatement remove st.1 st.2
    finishNarrowing doc top results

end AuthSec

import AuthSec.Policy.Narrow

/-!
# Boundary documents

The document of an AuthSec boundary, which allows everything but the removed namespaces, and the
comparison of two boundaries over a list of namespaces.
-/

namespace AuthSec

/-! ## Size -/

/-- Counts the characters that are no spaces, in at most `n` rounds; a byte that starts no character
counts for itself. -/
def policyCharsLoop : ℕ → Bytes → ℕ
  | 0, _ => 0
  | _ + 1, [] => 0
  | n + 1, b :: bs =>
    match decodeRune (b :: bs) with
    | some (c, rest) => policyCharsLoop n rest + if isSpace c then 0 else 1
    | none => policyCharsLoop n bs + 1

/-- `PolicyChars`. -/
def policyChars (text : Bytes) : ℕ :=
  policyCharsLoop text.length text

/-- `MaxPolicyChars`. -/
def maxPolicyChars : ℕ := 6144

/-! ## The AuthSec boundary -/

/-- `AuthSecBoundarySid`. -/
def authSecBoundarySid : String := "AuthSecAllowAllExceptRemoved"

/-- `PolicyVersion20121017`. -/
def policyVersion20121017 : String := "2012-10-17"

/-- The `NotAction` entry of a removed namespace. -/
def excludedAction (s : String) : Except GoErr String :=
  if reService (toLower (trimSpace s)) then .ok (toLower (trimSpace s) ++ ":*")
  else .error (.msg ("igagov: " ++ quote s ++ " is not an IAM service namespace"))

/-- The document that allows everything but `actions`. -/
def excludeOnlyValue (actions : List String) : Json GoNum :=
  .obj [("Statement", .arr [.obj [("Effect", .str Effect.allow.text),
      ("NotAction", .arr (actions.map .str)), ("Resource", .str "*"),
      ("Sid", .str authSecBoundarySid)]]),
    ("Version", .str policyVersion20121017)]

/-- `ExcludeOnlyDocument`: the canonical text, whose content hash it returns as well. -/
def excludeOnlyDocument (remove : List String) : Except GoErr Bytes :=
  if remove = [] then
    .error (.msg "igagov: an exclusion-only boundary needs at least one removed namespace")
  else do
    let actions ← remove.mapM excludedAction
    canonField (excludeOnlyValue (sortedUnique actions))

/-! ## Comparing two boundaries -/

/-- What `ExclusionChanges` returns. -/
structure ExclusionChanges where
  newly : List String := []
  already : List String := []
  unexcluded : List String := []
  deriving DecidableEq

/-- The document of a boundary, if there is one. -/
def decodeBoundary (text : Option Bytes) : Except GoErr (Option PolicyDocument) :=
  match text with
  | none => .ok none
  | some t => (decodePolicyDocument t).map some

/-- The boundary excludes the namespace; no boundary excludes nothing. -/
def excludes (doc : Option PolicyDocument) (ns : String) : Bool :=
  doc.any (boundaryExcludes · ns)

/-- `ExclusionChanges`. -/
def exclusionChanges (beforeText afterText : Option Bytes) (candidates : List String) :
    Except GoErr ExclusionChanges := do
  let b ← decodeBoundary beforeText
  let a ← decodeBoundary afterText
  return { newly := (sortedUnique candidates).filter fun ns => !excludes b ns && excludes a ns
           already := (sortedUnique candidates).filter fun ns => excludes b ns && excludes a ns
           unexcluded := (sortedUnique candidates).filter fun ns => excludes b ns && !excludes a ns }

/-- The literal namespace of an entry, in lower case. -/
def literalNamespace (entry : String) : Option String :=
  match splitAction entry with
  | some (ns, _) => if containsAny ns ['*', '?'] then none else some (toLower ns)
  | none => none

/-- `notActionNamespaces`. -/
def notActionNamespaces (text : Option Bytes) : List String :=
  match text.map decodePolicyDocument with
  | some (.ok d) =>
    d.statements.flatMap fun st =>
      match st.effect, st.actions with
      | .allow, .notAction entries => entries.filterMap literalNamespace
      | _, _ => []
  | _ => []

end AuthSec

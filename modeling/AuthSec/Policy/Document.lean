import AuthSec.Canonical.Hash
import AuthSec.Go.Collections
import AuthSec.Go.Strings
import Mathlib.Data.Prod.Lex

/-!
# Policy documents

Decoding of an IAM policy document as AWS returns it, and its canonical text and hash.  A statement
has either an `Action` or a `NotAction` element; the type of its actions says which.

A loop of the source over the members of an object reads every member in turn, and stops at the
first one it cannot read; what a member sets does not depend on the others.  The loops are written
so: the members are read, then what they set is applied.
-/

namespace AuthSec

/-! ## Documents -/

/-- The effect of a statement. -/
inductive Effect where
  | allow
  | deny
  deriving DecidableEq

def Effect.text : Effect → String
  | allow => "Allow"
  | deny => "Deny"

/-- Everyone, or values by their kinds. -/
structure Principal where
  wildcard : Bool
  values : GoMap (List String)

structure ConditionEntry where
  operator : String
  key : String
  values : List String
  deriving DecidableEq

/-- The key by which the entries of a `Condition` are sorted. -/
def ConditionEntry.sortKey (e : ConditionEntry) : String ×ₗ String :=
  toLex (e.operator, e.key)

/-- The `Action` or the `NotAction` element of a statement. -/
inductive Actions where
  | action (entries : List String)
  | notAction (entries : List String)
  deriving DecidableEq

/-- A decoded statement. -/
structure Statement where
  sid : String
  effect : Effect
  actions : Actions
  resource : Option (List String)
  notResource : Option (List String)
  principal : Option Principal
  notPrincipal : Option Principal
  conditions : List ConditionEntry
  /-- the canonical text of the statement -/
  raw : Bytes
  unknown : List String

/-- The field `Action`. -/
def Statement.action (st : Statement) : List String :=
  match st.actions with
  | .action entries => entries
  | .notAction _ => []

/-- The field `NotAction`. -/
def Statement.notAction (st : Statement) : List String :=
  match st.actions with
  | .action _ => []
  | .notAction entries => entries

def Statement.isNotAction (st : Statement) : Bool :=
  match st.actions with
  | .action _ => false
  | .notAction _ => true

/-- A decoded policy. -/
structure PolicyDocument where
  version : String
  id : String
  statements : List Statement

/-! ## Elements of a statement -/

def stringOrArray (v : Json Float64) (name : String) : Except String (List String) :=
  match v with
  | .str s => .ok [s]
  | .arr els =>
    els.mapM fun el =>
      match el with
      | .str s => .ok s
      | _ => .error (name ++ " has a non-string entry")
  | _ => .error (name ++ " is neither a string nor an array")

def decodePrincipal (v : Json Float64) (name : String) : Except String Principal :=
  match v with
  | .str s => if s = "*" then .ok ⟨true, ∅⟩ else .error (name ++ " string must be \"*\"")
  | .obj ms => do
    let vals ← ms.mapM fun m =>
      (stringOrArray m.2 (name ++ "." ++ m.1)).map fun l => (m.1, l)
    return ⟨vals.any fun e => e.1 == "AWS" && e.2.contains "*", GoMap.ofList vals⟩
  | _ => .error (name ++ " is neither \"*\" nor an object")

/-- The string of an ASCII text. -/
def asciiString (bs : Bytes) : String :=
  String.ofList (bs.map fun b => Char.ofNat b.toNat)

def conditionValueText : Json Float64 → Except String String
  | .str s => .ok s
  | .arr _ => .error "condition value must be a scalar"
  | .obj _ => .error "condition value must be a scalar"
  | v => .ok (asciiString (writeCanonical v))

def conditionValues : Json Float64 → Except String (List String)
  | .arr els => els.mapM conditionValueText
  | v => (conditionValueText v).map fun s => [s]

/-- The entries of one operator of a `Condition`. -/
def conditionOperator (op : String × Json Float64) : Except String (List ConditionEntry) :=
  match op.2 with
  | .obj ks => ks.mapM fun k => (conditionValues k.2).map fun vals => ⟨op.1, k.1, vals⟩
  | _ => .error ("Condition operator " ++ op.1 ++ " is not an object")

def decodeCondition (v : Json Float64) : Except String (List ConditionEntry) :=
  match v with
  | .obj ops => do
    let entries ← ops.mapM conditionOperator
    return sortOn ConditionEntry.sortKey entries.flatten
  | _ => .error "Condition is not an object"

/-! ## Statements -/

/-- A statement while its members are read. -/
structure StatementDraft where
  sid : String := ""
  effect : Option Effect := none
  action : Option (List String) := none
  notAction : Option (List String) := none
  resource : Option (List String) := none
  notResource : Option (List String) := none
  principal : Option Principal := none
  notPrincipal : Option Principal := none
  conditions : List ConditionEntry := []

def decodeEffect : Json Float64 → Except String Effect
  | .str s =>
    if s = "Allow" then .ok .allow
    else if s = "Deny" then .ok .deny
    else .error "Effect must be Allow or Deny"
  | _ => .error "Effect must be Allow or Deny"

/-- The members that the decoder interprets. -/
inductive Element where
  | sid
  | effect
  | action
  | notAction
  | resource
  | notResource
  | principal
  | notPrincipal
  | condition
  deriving DecidableEq

def Element.name : Element → String
  | sid => "Sid"
  | effect => "Effect"
  | action => "Action"
  | notAction => "NotAction"
  | resource => "Resource"
  | notResource => "NotResource"
  | principal => "Principal"
  | notPrincipal => "NotPrincipal"
  | condition => "Condition"

def Element.all : List Element :=
  [sid, effect, action, notAction, resource, notResource, principal, notPrincipal, condition]

def Element.ofName? (k : String) : Option Element :=
  all.find? (·.name == k)

/-- What the value of a member sets. -/
def readElement (e : Element) (v : Json Float64) :
    Except String (StatementDraft → StatementDraft) :=
  match e with
  | .sid =>
    match v with
    | .str s => .ok fun d => { d with sid := s }
    | _ => .error "Sid is not a string"
  | .effect => (decodeEffect v).map fun x d => { d with effect := some x }
  | .action => (stringOrArray v "Action").map fun l d => { d with action := some l }
  | .notAction => (stringOrArray v "NotAction").map fun l d => { d with notAction := some l }
  | .resource => (stringOrArray v "Resource").map fun l d => { d with resource := some l }
  | .notResource => (stringOrArray v "NotResource").map fun l d => { d with notResource := some l }
  | .principal => (decodePrincipal v "Principal").map fun p d => { d with principal := some p }
  | .notPrincipal =>
    (decodePrincipal v "NotPrincipal").map fun p d => { d with notPrincipal := some p }
  | .condition => (decodeCondition v).map fun cs d => { d with conditions := cs }

def statementMember (m : String × Json Float64) :
    Except String (StatementDraft → StatementDraft) :=
  match Element.ofName? m.1 with
  | some e => readElement e m.2
  | none => .ok id

/-- The draft behind the loop over the members. -/
def readMembers (ms : Members Float64) : Except String StatementDraft :=
  runSets statementMember ms {}

def StatementDraft.actions (d : StatementDraft) : Except String Actions :=
  match d.action, d.notAction with
  | some entries, none => .ok (.action entries)
  | none, some entries => .ok (.notAction entries)
  | _, _ => .error "exactly one of Action and NotAction is required"

/-- The checks behind the last member. -/
def StatementDraft.finish (d : StatementDraft) (raw : Bytes) (unknown : List String) :
    Except String Statement := do
  let some effect := d.effect | .error "no Effect"
  let actions ← d.actions
  if d.principal.isSome && d.notPrincipal.isSome then
    .error "Principal and NotPrincipal are mutually exclusive"
  else if d.resource.isSome && d.notResource.isSome then
    .error "Resource and NotResource are mutually exclusive"
  else
    return { sid := d.sid, effect, actions, resource := d.resource, notResource := d.notResource,
             principal := d.principal, notPrincipal := d.notPrincipal,
             conditions := d.conditions, raw, unknown }

/-- The names of the other members. -/
def unknownMembers (ms : Members Float64) : List String :=
  sortOn id ((ms.map Prod.fst).filter fun k => (Element.ofName? k).isNone)

def decodeStatement (v : Json Float64) : Except String Statement :=
  match v with
  | .obj ms => do
    let d ← readMembers ms
    d.finish (writeCanonical v) (unknownMembers ms)
  | _ => .error "statement is not an object"

/-! ## Texts -/

/-- `url.PathUnescape`; it fails with the bad escape. -/
def pathUnescape : Bytes → Except Bytes Bytes
  | [] => .ok []
  | b :: bs =>
    if b = ascii '%' then
      match bs with
      | h :: l :: rest =>
        match JsonParser.hexVal h, JsonParser.hexVal l with
        | some x, some y => (pathUnescape rest).map fun u => UInt8.ofNat (x * 16 + y) :: u
        | _, _ => .error [b, h, l]
      | _ => .error (b :: bs)
    else (pathUnescape bs).map fun u => b :: u

/-- `DecodePolicyText`. -/
def decodePolicyText (text : Bytes) : Except GoErr Bytes :=
  let t := trimSpaceBytes text
  if t.head? = some (ascii '{') then .ok t
  else ((pathUnescape t).mapError .urlDecode).map trimSpaceBytes

/-- The `Statement` element, `Version` and `Id` of a document. -/
structure DocumentDraft where
  version : String := ""
  id : String := ""
  stmts : Option (Json Float64) := none

/-- What one member of a document sets. -/
def documentMember (m : String × Json Float64) : Except String (DocumentDraft → DocumentDraft) :=
  if m.1 = "Version" then
    match m.2 with
    | .str s => .ok fun d => { d with version := s }
    | _ => .error "Version is not a string"
  else if m.1 = "Id" then
    match m.2 with
    | .str s => .ok fun d => { d with id := s }
    | _ => .error "Id is not a string"
  else if m.1 = "Statement" then .ok fun d => { d with stmts := some m.2 }
  else .ok id

def readDocument (ms : Members Float64) : Except String DocumentDraft :=
  runSets documentMember ms {}

/-- The statements of a `Statement` element. -/
def statementList : Json Float64 → Except String (List (Json Float64))
  | .obj ms => .ok [.obj ms]
  | .arr els => .ok els
  | _ => .error "Statement is neither an object nor an array"

/-- Decodes the statement number `i`. -/
def decodeStatementAt (sv : Json Float64 × ℕ) : Except String Statement :=
  (decodeStatement sv.1).mapError fun e => "statement " ++ toString sv.2 ++ ": " ++ e

/-- The document of a parsed text. -/
def decodeDocument (v : Json Float64) : Except String PolicyDocument :=
  match v with
  | .obj ms => do
    let d ← readDocument ms
    let some stmts := d.stmts | .error "no Statement"
    let list ← statementList stmts
    let statements ← list.zipIdx.mapM decodeStatementAt
    return ⟨d.version, d.id, statements⟩
  | _ => .error "document is not an object"

/-- `DecodePolicyDocument`. -/
def decodePolicyDocument (text : Bytes) : Except GoErr PolicyDocument := do
  let raw ← decodePolicyText text
  let v ← (parseJSON raw).mapError .policyJSON
  (decodeDocument v).mapError .policyDocument

/-! ## Canonical texts -/

/-- The escape that the database refuses. -/
def nulEscape : Bytes :=
  utf8 "\\u0000"

/-- `checkStorable`. -/
def checkStorable (canonical : Bytes) : Except GoErr Unit :=
  if nulEscape <:+: canonical then .error .notStorable else .ok ()

/-- The canonical text of `CanonicalDocument`; the hash it returns is the text's content hash. -/
def canonicalDocument (text : Bytes) : Except GoErr Bytes := do
  let raw ← decodePolicyText text
  let c ← (canonicalize raw).mapError .notIJSON
  checkStorable c
  return c

/-- `DocumentHash`. -/
def documentHash [Sha256] (text : Bytes) : Except GoErr String :=
  (canonicalDocument text).map contentHash

end AuthSec

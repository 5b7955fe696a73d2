import AuthSec.Discovery.Documents
import AuthSec.Lib.Glob
import AuthSec.Lib.Lists

/-!
# Trust documents

`ParseTrustDocument` reads who may assume a role: the statements of a trust document, each on its own,
with those that cannot be read named by their position.  `Subjects` normalises the principals of a
statement to the far endpoints that they name.

* `parseTrustDocument_perm`: a document with its statements in another order has the same
  statements, under other positions.
-/

namespace AuthSec

/-! ## Conditions -/

/-- `conditionBlock`: operator, condition key, string values. -/
abbrev ConditionBlock := GoMap (GoMap (List String))

/-- The string values of the keys of an operator; other values are left out. -/
def stringValues (ms : Members Float64) : GoMap (List String) :=
  GoMap.ofList ((GoMap.ofList ms).sortedPairs.filterMap fun m =>
    match intoStringOrSlice m.2 [] with
    | .ok values => some (m.1, values)
    | .error _ => none)

/-- `decodeConditions` of a block that is there. -/
def decodeConditions (v : Json Float64) : Except String ConditionBlock := do
  let ms ← objectMembers v
  let ops ← ms.mapM fun m => do return (m.1, stringValues (← objectMembers m.2))
  return GoMap.ofList ops

/-- `operatorBody`: without a set operator in front and `IfExists` behind. -/
def operatorBody (op : String) : List Char :=
  let body := (op.toList.reverse.takeWhile (· ≠ ':')).reverse
  if "IfExists".toList <:+ body then body.take (body.length - 8) else body

/-- `negatedOperator`. -/
def negatedOperator (op : String) : Bool :=
  "Not".toList <:+: operatorBody op

/-- `stringOperator`. -/
def stringOperator (op : String) : Bool :=
  "String".toList <+: operatorBody op

/-- `subValues`: the values that a positive operator requires of a key, in order of the operators
and keys. -/
def ConditionBlock.subValues (c : ConditionBlock) (accepted : String → Bool) : List String :=
  firsts id [] (c.sortedPairs.flatMap fun op =>
    if stringOperator op.1 && !negatedOperator op.1 then
      (op.2.sortedPairs.filter fun k => accepted k.1).flatMap Prod.snd
    else [])

/-! ## Statements -/

/-- The keys of a principal block, and the literal `*`. -/
inductive PrincipalType where
  | aws
  | service
  | federated
  | anyone
deriving DecidableEq

def PrincipalType.text : PrincipalType → String
  | .aws => "AWS"
  | .service => "Service"
  | .federated => "Federated"
  | .anyone => "*"

/-- `TrustPrincipalEntry`. -/
structure TrustPrincipalEntry where
  type : PrincipalType
  value : String
deriving DecidableEq

inductive TrustEffect where
  | allow
  | deny
deriving DecidableEq

def TrustEffect.text : TrustEffect → String
  | .allow => "allow"
  | .deny => "deny"

/-- `TrustStatement`. -/
structure TrustStatement where
  index : ℕ
  sid : String
  effect : TrustEffect
  actions : List String
  notActions : List String
  principals : List TrustPrincipalEntry
  notPrincipal : Option (Json Float64)
  condition : Option (Json Float64)
  cond : ConditionBlock

/-- The values of the entries of each type that there is. -/
def principalMembers (entries : List TrustPrincipalEntry) : Members Float64 :=
  ([PrincipalType.aws, .service, .federated, .anyone].filter fun t =>
    entries.any (·.type = t)).map fun t =>
      (t.text, jsonStrings (canonicalList ((entries.filter (·.type = t)).map (·.value))))

/-- What `ContentHash` hashes of a statement. -/
def TrustStatement.content (st : TrustStatement) : Json Float64 :=
  .obj ([("Effect", .str st.effect.text),
    ("Principal", .obj (principalMembers st.principals)),
    ("Action", jsonStrings (canonicalList st.actions)),
    ("NotAction", jsonStrings (canonicalList st.notActions))] ++
    elementMember "NotPrincipal" st.notPrincipal ++ elementMember "Condition" st.condition)

/-- `TrustStatement.ContentHash`. -/
def TrustStatement.contentHash [Sha256] (st : TrustStatement) : String :=
  jsonHash st.content

/-! ## Reading a document -/

/-- `present`: an absent element and an explicit null are alike. -/
def presentElement : Option (Json Float64) → Option (Json Float64)
  | some .null => none
  | v => v

/-- The last member with exactly this name, as a map of raw values keeps it. -/
def lastMember (name : String) (ms : Members Float64) : Option (Json Float64) :=
  (GoMap.ofList ms).get? name

/-- `decodeActions`. -/
def decodeActions (name : String) (v : Json Float64) : Except String (List String) := do
  let actions ← (intoStringOrSlice v []).mapError (name ++ ": " ++ ·)
  if actions = [] then .error (name ++ ": names no action") else return actions

/-- The entries of one type. -/
def decodeEntries (ms : Members Float64) (t : PrincipalType) :
    Except String (List TrustPrincipalEntry) :=
  match presentElement (lastMember t.text ms) with
  | none => .ok []
  | some v => do
      let values ← (intoStringOrSlice v []).mapError (t.text ++ ": " ++ ·)
      values.mapM fun value =>
        if trimSpace value = "" then .error (t.text ++ ": empty entry") else .ok ⟨t, value⟩

/-- `decodePrincipalBlock`. -/
def decodePrincipalBlock (v : Json Float64) : Except String (List TrustPrincipalEntry) :=
  match v with
  | .str s =>
    if s ≠ "*" then .error ("the only string form is \"*\", got " ++ s) else .ok [⟨.anyone, "*"⟩]
  | .obj ms =>
    match ms.find? fun m => m.1 ∉ ["AWS", "Service", "Federated"] with
    | some m => .error ("unsupported principal type " ++ m.1)
    | none => do
        let entries ← [PrincipalType.aws, .service, .federated].mapM (decodeEntries ms)
        if entries.flatten = [] then .error "names no principal" else return entries.flatten
  | _ => cannotUnmarshal "map[string]json.RawMessage"

/-- The identifier of a statement, if it has one. -/
def decodeTrustSid (v : Option (Json Float64)) : Except String String :=
  match presentElement v with
  | none => .ok ""
  | some v => (intoString v "").mapError ("Sid: " ++ ·)

/-- The effect of a statement. -/
def decodeTrustEffect (v : Option (Json Float64)) : Except String TrustEffect :=
  match presentElement v with
  | none => .error "no Effect"
  | some v => do
      let effect ← (intoString v "").mapError ("Effect: " ++ ·)
      if toLower effect = "allow" then return .allow
      else if toLower effect = "deny" then return .deny
      else .error ("Effect " ++ effect ++ " is neither Allow nor Deny")

/-- The actions of a statement: those it names, and those it excludes. -/
def decodeTrustActions (action notAction : Option (Json Float64)) :
    Except String (List String × List String) :=
  match presentElement action, presentElement notAction with
  | some _, some _ => .error "both Action and NotAction"
  | some v, none => do return (← decodeActions "Action" v, [])
  | none, some v => do return ([], ← decodeActions "NotAction" v)
  | none, none => .error "neither Action nor NotAction"

/-- The principals of a statement, and the block of those it excludes. -/
def decodeTrustPrincipals (principal notPrincipal : Option (Json Float64)) :
    Except String (List TrustPrincipalEntry × Option (Json Float64)) :=
  match presentElement principal, presentElement notPrincipal with
  | some _, some _ => .error "both Principal and NotPrincipal"
  | some v, none => do
      let entries ← (decodePrincipalBlock v).mapError ("Principal: " ++ ·)
      return (entries, none)
  | none, some v => do
      let _ ← (decodePrincipalBlock v).mapError ("NotPrincipal: " ++ ·)
      return ([], some v)
  | none, none => .error "neither Principal nor NotPrincipal"

/-- The conditions of a statement, as they are read and as they stand. -/
def decodeTrustCondition (v : Option (Json Float64)) :
    Except String (ConditionBlock × Option (Json Float64)) :=
  match presentElement v with
  | none => .ok (∅, none)
  | some v => do return (← (decodeConditions v).mapError ("Condition: " ++ ·), some v)

/-- A statement without its position. -/
def decodeTrustStatement (v : Json Float64) : Except String TrustStatement := do
  let ms ← (objectMembers v).mapError ("not an object: " ++ ·)
  let sid ← decodeTrustSid (rawElement "Sid" ms)
  let effect ← decodeTrustEffect (rawElement "Effect" ms)
  let (actions, notActions) ←
    decodeTrustActions (rawElement "Action" ms) (rawElement "NotAction" ms)
  let (principals, notPrincipal) ←
    decodeTrustPrincipals (rawElement "Principal" ms) (rawElement "NotPrincipal" ms)
  let (cond, condition) ← decodeTrustCondition (rawElement "Condition" ms)
  return ⟨0, sid, effect, actions, notActions, principals, notPrincipal, condition, cond⟩

/-- `parseTrustStatement`. -/
def parseTrustStatement (index : ℕ) (v : Json Float64) : Except String TrustStatement :=
  (decodeTrustStatement v).map fun st => { st with index := index }

/-- `TrustDocument`: the statements, and position and reason of those that could not be read. -/
structure TrustDocument where
  statements : List TrustStatement
  skipped : List (ℕ × String)

/-- The elements of the statement list of a trust document. -/
def trustElements (doc : Json Float64) : Except String (List (Json Float64)) := do
  let ms ← objectMembers doc
  match presentElement (lastMember "Statement" ms) with
  | none => .error "no Statement"
  | some (.obj ms) => return [.obj ms]
  | some (.arr els) => return els
  | some _ => .error "Statement is neither an object nor a list"

/-- The statements of the elements that can be read. -/
def readStatements (els : List (Json Float64)) : List TrustStatement :=
  els.zipIdx.filterMap fun e => (parseTrustStatement e.2 e.1).toOption

/-- The elements that cannot be read. -/
def skippedStatements (els : List (Json Float64)) : List (ℕ × String) :=
  els.zipIdx.filterMap fun e =>
    match parseTrustStatement e.2 e.1 with
    | .ok _ => none
    | .error reason => some (e.2, reason)

/-- `ParseTrustDocument`. -/
def parseTrustDocument (doc : Json Float64) : Except String TrustDocument := do
  let els ← trustElements doc
  return ⟨readStatements els, skippedStatements els⟩

/-! ## Statements in another order -/

/-- The statement wherever it stands. -/
def TrustStatement.anywhere (st : TrustStatement) : TrustStatement :=
  { st with index := 0 }

lemma decodeTrustStatement_index {v : Json Float64} {st : TrustStatement}
    (h : decodeTrustStatement v = .ok st) : st.index = 0 := by
  unfold decodeTrustStatement at h
  simp only [bind_eq_ok, pure_eq_ok, Except.ok.injEq] at h
  obtain ⟨_, _, _, _, _, _, _, _, _, _, _, _, rfl⟩ := h
  rfl

lemma map_anywhere_readStatements (els : List (Json Float64)) :
    (readStatements els).map (·.anywhere) =
      els.filterMap fun v => (decodeTrustStatement v).toOption := by
  have hfst : els.zipIdx.map Prod.fst = els := List.zipIdx_map_fst ..
  conv_rhs => rw [← hfst]
  rw [readStatements, List.filterMap_map, List.map_filterMap]
  congr 1
  funext e
  cases h : decodeTrustStatement e.1 with
  | error reason => simp [parseTrustStatement, h, Except.toOption]
  | ok st =>
      have hindex := decodeTrustStatement_index h
      simp [parseTrustStatement, h, Except.toOption, TrustStatement.anywhere, ← hindex]

lemma lastMember_append {front back : Members Float64} {name n : String}
    {v : Json Float64} : lastMember n (front ++ (name, v) :: back) =
      (lastMember n back).or (if name = n then some v else lastMember n front) := by
  simp only [lastMember, GoMap.get?_ofList_eq, List.filter_append, List.getLast?_append]
  cases hback : (back.filter (·.1 = n)).getLast? <;> by_cases hname : name = n <;>
    simp [hname, List.getLast?_cons, hback]

/-- The elements of a reordered document. -/
lemma trustElements_perm {doc doc' : Json Float64} (hdocs : Reordered doc doc')
    {els : List (Json Float64)} (h : trustElements doc = .ok els) :
    ∃ els', trustElements doc' = .ok els' ∧ els.Perm els' := by
  cases hdocs with
  | same => exact ⟨els, h, List.Perm.refl els⟩
  | list front back name hperm =>
      simp only [trustElements, objectMembers, ok_bind, lastMember_append] at h ⊢
      cases hback : lastMember "Statement" back with
      | some v =>
          rw [hback, Option.some_or] at h
          exact ⟨els, h, List.Perm.refl els⟩
      | none =>
          rw [hback, Option.none_or] at h
          rw [Option.none_or]
          by_cases hname : name = "Statement"
          · rw [if_pos hname] at h ⊢
            obtain rfl := Except.ok.inj h
            exact ⟨_, rfl, hperm⟩
          · rw [if_neg hname] at h ⊢
            exact ⟨els, h, List.Perm.refl els⟩

/-- The statements of a reordered document are the same. -/
theorem parseTrustDocument_perm {doc doc' : Json Float64} (hdocs : Reordered doc doc')
    {d : TrustDocument} (h : parseTrustDocument doc = .ok d) :
    ∃ d', parseTrustDocument doc' = .ok d' ∧
      (d.statements.map (·.anywhere)).Perm (d'.statements.map (·.anywhere)) := by
  obtain ⟨els, hels, h⟩ := bind_eq_ok.1 h
  obtain ⟨els', hels', hperm⟩ := trustElements_perm hdocs hels
  obtain rfl := Except.ok.inj h
  refine ⟨⟨readStatements els', skippedStatements els'⟩, ?_, ?_⟩
  · rw [parseTrustDocument, hels', ok_bind, pure_eq_ok]
  · rw [map_anywhere_readStatements, map_anywhere_readStatements]
    exact hperm.filterMap _

end AuthSec

import AuthSec.Canonical.Hash
import AuthSec.Go.Collections
import AuthSec.Go.Decode
import AuthSec.Go.JsonText

/-!
# Statements of policy documents

`ParsePolicyDocument` reads the statements of a permission policy.  A document is a JSON value here;
its members stand as in the text, and where a name stands twice the later one counts.

* `parsePolicyDocument_perm`: a document with its statements in another order has the same
  statements, under other positions.
-/

namespace AuthSec

open List

/-! ## Elements -/

/-- `stringOrSlice`: a string or a list of strings.  A missing value is an empty string, which is
refused. -/
def intoStringOrSlice : Decoder (List String)
  | .str s, _ => if s = "" then .error "principal value is an empty string" else .ok [s]
  | .null, _ => .error "principal value is an empty string"
  | .arr els, _ => els.mapM fun v => intoString v ""
  | _, _ => cannotUnmarshal "[]string"

/-- What a field of type `json.RawMessage` holds: the last value as it is. -/
def rawElement (name : String) (ms : Members Float64) : Option (Json Float64) :=
  (memberValues name ms).getLast?

/-- `decodeResourceField`. -/
def decodeResourceField (resource : Option (Json Float64)) : List String :=
  match resource.map (intoStringOrSlice · []) with
  | some (.ok values) => values
  | _ => []

/-- `canonicalList`. -/
def canonicalList (l : List String) : List String :=
  sortedUnique l

mutual

/-- The value as it is read into an interface: of members with one name the last counts. -/
def Json.asAny {N : Type} : Json N → Json N
  | .null => .null
  | .bool b => .bool b
  | .num n => .num n
  | .str s => .str s
  | .arr els => .arr (asAnyElements els)
  | .obj ms => .obj (GoMap.ofList (asAnyMembers ms)).sortedPairs

def Json.asAnyElements {N : Type} : List (Json N) → List (Json N)
  | [] => []
  | v :: vs => v.asAny :: asAnyElements vs

def Json.asAnyMembers {N : Type} : Members N → Members N
  | [] => []
  | (k, v) :: ms => (k, v.asAny) :: asAnyMembers ms

end

/-- A list of strings as a value. -/
def jsonStrings (l : List String) : Json Float64 :=
  .arr (l.map .str)

/-- A member for an element that a statement has. -/
def elementMember (name : String) (v : Option (Json Float64)) : Members Float64 :=
  (v.map fun v => (name, v.asAny)).toList

/-- The hash of the text of a value. -/
def jsonHash [Sha256] (v : Json Float64) : String :=
  hexEncode (Sha256.sum (marshal floatBytes v))

/-! ## Statements -/

/-- `permissionStatement`: a statement as it is decoded. -/
structure PermissionStatement where
  sid : String
  effect : String
  action : List String
  notAction : List String
  resource : Option (Json Float64)
  notResource : Option (Json Float64)
  condition : Option (Json Float64)

/-- `PolicyStatement`. -/
structure PolicyStatement where
  index : ℕ
  sid : String
  effect : String
  actions : List String
  notActions : List String
  resources : List String
  notResources : List String
  condition : Option (Json Float64)

/-- Decodes a statement. -/
def decodePermission (v : Json Float64) : Except String PermissionStatement := do
  let ms ← objectMembers v
  return {
    sid := ← fieldInto intoString "Sid" ms ""
    effect := ← fieldInto intoString "Effect" ms ""
    action := ← fieldInto intoStringOrSlice "Action" ms []
    notAction := ← fieldInto intoStringOrSlice "NotAction" ms []
    resource := rawElement "Resource" ms
    notResource := rawElement "NotResource" ms
    condition := rawElement "Condition" ms }

/-- `permissionStatementList.UnmarshalJSON`: one statement with an effect, or a list of statements. -/
def intoPermissions (v : Json Float64) (_ : List PermissionStatement) :
    Except String (List PermissionStatement) :=
  match decodePermission v with
  | .ok one => if one.effect ≠ "" then .ok [one] else many
  | .error _ => many
where
  many : Except String (List PermissionStatement) :=
    match v with
    | .arr els => els.mapM decodePermission
    | .null => .ok []
    | _ => cannotUnmarshal "[]json.RawMessage"

/-- A statement without an effect or without actions is skipped. -/
def PermissionStatement.usable (st : PermissionStatement) : Bool :=
  st.effect ≠ "" ∧ (st.action ≠ [] ∨ st.notAction ≠ [])

/-- The statement at a position. -/
def PermissionStatement.normal (st : PermissionStatement) (index : ℕ) : PolicyStatement where
  index := index
  sid := st.sid
  effect := toLower st.effect
  actions := st.action
  notActions := st.notAction
  resources := decodeResourceField st.resource
  notResources := decodeResourceField st.notResource
  condition := st.condition

/-- The statements that are kept, each with its position among all of them. -/
def usableStatements (parsed : List PermissionStatement) : List PolicyStatement :=
  (parsed.zipIdx.filter (·.1.usable)).map fun e => e.1.normal e.2

/-- `ParsePolicyDocument`: the statements, and how many were skipped. -/
def parsePolicyDocument (doc : Json Float64) : Except String (List PolicyStatement × ℕ) := do
  let ms ← objectMembers doc
  let parsed ← fieldInto intoPermissions "Statement" ms []
  return (usableStatements parsed, parsed.countP (!·.usable))

/-- What `ContentHash` hashes of a statement. -/
def PolicyStatement.content (st : PolicyStatement) : Json Float64 :=
  .obj ([("Effect", .str (toLower st.effect)),
    ("Action", jsonStrings (canonicalList st.actions)),
    ("NotAction", jsonStrings (canonicalList st.notActions)),
    ("Resource", jsonStrings (canonicalList st.resources)),
    ("NotResource", jsonStrings (canonicalList st.notResources))] ++
    elementMember "Condition" st.condition)

/-- `PolicyStatement.ContentHash`. -/
def PolicyStatement.contentHash [Sha256] (st : PolicyStatement) : String :=
  jsonHash st.content

/-! ## Statements in another order -/

/-- The documents are alike but for the order of the elements of one list. -/
inductive Reordered : Json Float64 → Json Float64 → Prop
  | same (doc : Json Float64) : Reordered doc doc
  | list (front back : Members Float64) (name : String)
      {els els' : List (Json Float64)} (hperm : els.Perm els') :
      Reordered (.obj (front ++ (name, .arr els) :: back))
        (.obj (front ++ (name, .arr els') :: back))

/-- The statement wherever it stands. -/
def PolicyStatement.anywhere (st : PolicyStatement) : PolicyStatement :=
  { st with index := 0 }

lemma intoPermissions_arr {els els' : List (Json Float64)} (hperm : els.Perm els')
    {cur sts : List PermissionStatement} (h : intoPermissions (.arr els) cur = .ok sts) :
    ∃ sts', intoPermissions (.arr els') cur = .ok sts' ∧ sts.Perm sts' := by
  have hmany : els.mapM decodePermission = .ok sts := h
  obtain ⟨sts', hsts', hperm'⟩ := mapM_perm hperm.symm hmany
  exact ⟨sts', hsts', hperm'.symm⟩

/-- A later list replaces an earlier one. -/
lemma foldlM_intoPermissions {vs : List (Json Float64)} {cur cur' sts : List PermissionStatement}
    (hperm : cur.Perm cur') (h : vs.foldlM (fun cur v => intoPermissions v cur) cur = .ok sts) :
    ∃ sts', vs.foldlM (fun cur v => intoPermissions v cur) cur' = .ok sts' ∧ sts.Perm sts' := by
  cases vs with
  | nil =>
      obtain rfl := Except.ok.inj h
      exact ⟨cur', rfl, hperm⟩
  | cons v vs => exact ⟨sts, h, List.Perm.refl sts⟩

lemma fieldInto_intoPermissions {front back : Members Float64} {name : String}
    {els els' : List (Json Float64)} (hperm : els.Perm els') {sts : List PermissionStatement}
    (h : fieldInto intoPermissions "Statement" (front ++ (name, .arr els) :: back) [] = .ok sts) :
    ∃ sts', fieldInto intoPermissions "Statement" (front ++ (name, .arr els') :: back) [] = .ok sts' ∧
      sts.Perm sts' := by
  simp only [fieldInto, memberValues, filter_append, map_append, filter_cons] at h ⊢
  split_ifs at h ⊢
  · rw [foldlM_append] at h ⊢
    obtain ⟨cur, hcur, h⟩ := bind_eq_ok.1 h
    rw [hcur, ok_bind]
    rw [map_cons, foldlM_cons] at h ⊢
    obtain ⟨first, hfirst, h⟩ := bind_eq_ok.1 h
    obtain ⟨first', hfirst', hfirsts⟩ := intoPermissions_arr hperm hfirst
    rw [hfirst', ok_bind]
    exact foldlM_intoPermissions hfirsts h
  · exact ⟨sts, h, List.Perm.refl sts⟩

lemma map_anywhere (parsed : List PermissionStatement) :
    (usableStatements parsed).map PolicyStatement.anywhere =
      (parsed.filter (·.usable)).map (·.normal 0) := by
  have hfst : parsed.zipIdx.map Prod.fst = parsed := zipIdx_map_fst ..
  conv_rhs => rw [← hfst]
  rw [usableStatements, filter_map, List.map_map, List.map_map]
  rfl

/-- The statements of a reordered document are the same, and as many are skipped. -/
theorem parsePolicyDocument_perm {doc doc' : Json Float64} (hdocs : Reordered doc doc')
    {sts : List PolicyStatement} {skipped : ℕ} (h : parsePolicyDocument doc = .ok (sts, skipped)) :
    ∃ sts', parsePolicyDocument doc' = .ok (sts', skipped) ∧
      (sts.map (·.anywhere)).Perm (sts'.map (·.anywhere)) := by
  cases hdocs with
  | same => exact ⟨sts, h, List.Perm.refl _⟩
  | list front back name hperm =>
      obtain ⟨ms, hms, h⟩ := bind_eq_ok.1 h
      obtain rfl := Except.ok.inj hms
      obtain ⟨parsed, hparsed, h⟩ := bind_eq_ok.1 h
      obtain ⟨parsed', hparsed', hperm'⟩ := fieldInto_intoPermissions hperm hparsed
      obtain ⟨rfl, rfl⟩ := ok_pair_inj h
      refine ⟨usableStatements parsed', ?_, ?_⟩
      · rw [parsePolicyDocument, objectMembers, ok_bind, hparsed', ok_bind, hperm'.countP_eq,
          pure_eq_ok]
      · rw [map_anywhere, map_anywhere]
        exact (hperm'.filter _).map _

end AuthSec

import AuthSec.Canonical.Hash
import AuthSec.Terraform.Scanner

/-!
# Literal values of Terraform

Literal strings and policy documents in attribute values, and the expressions that are written for a
document: a `jsonencode` call or a heredoc.  A number keeps its text, as a `json.Number` does.

`json.Unmarshal` is `parseJSON` here: the texts that are given to it are canonical.
-/

namespace AuthSec

/-! ## Pieces of texts -/

/-- The text in front of the first `sep` and the text behind it. -/
def cutAt (sep : UInt8) (bs : Bytes) : Option (Bytes × Bytes) :=
  if sep ∈ bs then some (bs.takeWhile (· != sep), (bs.dropWhile (· != sep)).tail) else none

/-- The text in front of the last `sep` and the text behind it. -/
def cutAtLast (sep : UInt8) (bs : Bytes) : Option (Bytes × Bytes) :=
  (cutAt sep bs.reverse).map fun p => (p.2.reverse, p.1.reverse)

/-- `strings.TrimPrefix`. -/
def trimFront (p bs : Bytes) : Bytes :=
  if p <+: bs then bs.drop p.length else bs

/-- The opening of a template sequence. -/
def opening (sign : Char) : Bytes :=
  [ascii sign, ascii '{']

/-- The escape of an opening. -/
def escaped (sign : Char) : Bytes :=
  [ascii sign, ascii sign, ascii '{']

/-! ## Literal strings -/

/-- `literalString`. -/
def literalString (text : Bytes) : Option Bytes :=
  let raw := trimSpaceBytes text
  if raw.length < 2 ∨ raw.head? ≠ some (ascii '"') ∨ raw.getLast? ≠ some (ascii '"') then none
  else if opening '$' <:+: deleteAll (escaped '%') (deleteAll (escaped '$') raw) ∨
      opening '%' <:+: deleteAll (escaped '%') raw then none
  else (unquote raw).map fun v =>
    replaceAll (escaped '%') (opening '%') (replaceAll (escaped '$') (opening '$') v)

/-! ## Literal values -/

namespace LitParser

open TfScanner

/-- What is left behind a comment. -/
def afterComment : Bytes → Bytes
  | [] => []
  | b :: bs => if [ascii '*', ascii '/'] <+: b :: bs then bs.tail else afterComment bs

/-- `ws`: blanks and comments. -/
def ws : ℕ → Bytes → Bytes
  | 0, bs => bs
  | _ + 1, [] => []
  | n + 1, c :: bs =>
    if JsonParser.isWS c then ws n bs
    else if c = ascii '#' ∨ [ascii '/', ascii '/'] <+: c :: bs then
      ws n (bs.dropWhile (· != ascii '\n'))
    else if [ascii '/', ascii '*'] <+: c :: bs then ws n (afterComment bs.tail)
    else c :: bs

def skip (bs : Bytes) : Bytes :=
  ws bs.length bs

/-- A string of a literal, from its opening quote. -/
def string (bs : Bytes) : Except TfErr (String × Bytes) := do
  let rest ← str bs.length bs.tail
  match literalString (bs.take (bs.length - rest.length)) with
  | none => .error .notLiteral
  | some v => return (decodeText v, rest)

/-- The exponent of a text for `strconv.ParseFloat`. -/
def floatExp : Bytes → Option (Bool × List ℕ)
  | [] => some (false, [])
  | b :: bs =>
    if b = ascii 'e' ∨ b = ascii 'E' then
      let (neg, rest) := scanSign bs
      let (ds, rest) := digits rest
      if ds = [] ∨ rest ≠ [] then none else some (neg, ds)
    else none

/-- The fraction of a text for `strconv.ParseFloat`. -/
def floatFrac : Bytes → List ℕ × Bytes
  | [] => ([], [])
  | b :: bs => if b = ascii '.' then digits bs else ([], b :: bs)

/-- The parts of a text that `strconv.ParseFloat` reads. -/
def floatText (bs : Bytes) : Option NumberText :=
  let (neg, rest) := scanMinus bs
  let (int, rest) := digits rest
  let (frac, rest) := floatFrac rest
  if int = [] ∧ frac = [] then none
  else (floatExp rest).map fun e => ⟨neg, int, frac, e.1, e.2⟩

/-- `strconv.ParseFloat` succeeds. -/
def isFloat (bs : Bytes) : Bool :=
  ((floatText bs).bind parseFloat).isSome

def isNumberByte (b : UInt8) : Bool :=
  b ∈ utf8 "0123456789.eE+-"

/-- A number, from its first byte. -/
def number (c : UInt8) (bs : Bytes) : Except TfErr (Json Bytes × Bytes) :=
  let text := c :: bs.takeWhile isNumberByte
  if isFloat text then .ok (.num text, bs.dropWhile isNumberByte) else .error .notLiteral

/-- `true`, `false` or `null`. -/
def word (bs : Bytes) : Except TfErr (Json Bytes × Bytes) :=
  let name := bs.takeWhile isIdentChar
  let rest := bs.dropWhile isIdentChar
  if name = utf8 "true" then .ok (.bool true, rest)
  else if name = utf8 "false" then .ok (.bool false, rest)
  else if name = utf8 "null" then .ok (.null, rest)
  else .error .notLiteral

/-- The key of an object element. -/
def key (bs : Bytes) : Except TfErr (String × Bytes) :=
  if [ascii '"'] <+: bs then string bs
  else if bs.head?.any isIdentStart then
    .ok (decodeText (bs.takeWhile isIdentChar), bs.dropWhile isIdentChar)
  else .error .notLiteral

/-- A key of the map and its value. -/
def setMember (out : Members Bytes) (k : String) (v : Json Bytes) :
    Members Bytes :=
  if k ∈ out.map Prod.fst then out.map fun m => if m.1 = k then (k, v) else m else out ++ [(k, v)]

/-- What is left behind a comma, if there is one. -/
def comma (bs : Bytes) : Bytes :=
  trimFront [ascii ','] bs

mutual

/-- `value`. -/
def value : ℕ → Bytes → Except TfErr (Json Bytes × Bytes)
  | 0, _ => .error .notLiteral
  | _ + 1, [] => .error .notLiteral
  | n + 1, c :: bs =>
    if c = ascii '{' then (object n [] bs).map fun r => (.obj r.1, r.2)
    else if c = ascii '[' then (tuple n bs).map fun r => (.arr r.1, r.2)
    else if c = ascii '"' then (string (c :: bs)).map fun r => (.str r.1, r.2)
    else if c = ascii '-' ∨ isDigit c then number c bs
    else if isIdentStart c then word (c :: bs)
    else .error .notLiteral

/-- `object`, behind the opening brace, with the members so far. -/
def object : ℕ → Members Bytes → Bytes →
    Except TfErr (Members Bytes × Bytes)
  | 0, _, _ => .error .notLiteral
  | n + 1, out, bs =>
    match skip bs with
    | [] => .error .notLiteral
    | c :: bs =>
      if c = ascii '}' then .ok (out, bs)
      else do
        let (k, rest) ← key (c :: bs)
        match skip rest with
        | [] => .error .notLiteral
        | e :: rest =>
          if e ≠ ascii '=' ∧ e ≠ ascii ':' then .error .notLiteral
          else do
            let (v, rest) ← value n (skip rest)
            object n (setMember out k v) (comma (skip rest))

/-- `tuple`, behind the opening bracket. -/
def tuple : ℕ → Bytes → Except TfErr (List (Json Bytes) × Bytes)
  | 0, _ => .error .notLiteral
  | n + 1, bs =>
    match skip bs with
    | [] => .error .notLiteral
    | c :: bs =>
      if c = ascii ']' then .ok ([], bs)
      else do
        let (v, rest) ← value n (c :: bs)
        let (vs, rest) ← tuple n (comma (skip rest))
        return (v :: vs, rest)

end

end LitParser

/-- `parseLiteral`. -/
def parseLiteral (src : Bytes) : Except TfErr (Json Bytes) := do
  let (v, rest) ← LitParser.value (src.length + 1) (LitParser.skip src)
  require (LitParser.skip rest = []) TfErr.notLiteral
  return v

/-! ## Policy documents -/

mutual

/-- All numbers of the value are as `p` says. -/
def Json.allNumbers {N : Type} (p : N → Bool) : Json N → Bool
  | .num n => p n
  | .arr els => allNumbersElements p els
  | .obj ms => allNumbersMembers p ms
  | _ => true

def Json.allNumbersElements {N : Type} (p : N → Bool) : List (Json N) → Bool
  | [] => true
  | v :: vs => v.allNumbers p && allNumbersElements p vs

def Json.allNumbersMembers {N : Type} (p : N → Bool) : Members N → Bool
  | [] => true
  | (_, v) :: ms => v.allNumbers p && allNumbersMembers p ms

end

/-- The text is a number of JSON. -/
def isJSONNumber (text : Bytes) : Bool :=
  match number text with
  | .ok (_, []) => true
  | _ => false

/-- `json.Marshal` of a literal. -/
def marshalLiteral (v : Json Bytes) : Except TfErr Bytes :=
  if v.allNumbers isJSONNumber then .ok (marshal id v) else .error .invalidNumber

/-- The forms of a policy document. -/
inductive DocForm where
  | jsonencode
  | heredoc
  | string
  deriving DecidableEq

/-- The marker of a heredoc, from its first line. -/
def heredocMark (head : Bytes) : Bytes :=
  trimSpaceBytes (trimFront [ascii '-'] (trimFront [ascii '<', ascii '<'] head))

/-- `heredocBody`. -/
def heredocBody (raw : Bytes) : Option Bytes :=
  match cutAt (ascii '\n') raw with
  | none => none
  | some (head, rest) =>
    match cutAtLast (ascii '\n') rest with
    | some (body, last) =>
        if trimSpaceBytes last = heredocMark head then some body
        else if trimSpaceBytes rest = heredocMark head then some [] else none
    | none => if trimSpaceBytes rest = heredocMark head then some [] else none

/-- The document in a heredoc. -/
def heredocDocument (raw : Bytes) : Except TfErr Bytes :=
  match heredocBody raw with
  | none => .error .notLiteral
  | some body =>
    if opening '$' <:+: deleteAll (escaped '$') body then .error .notLiteral
    else .ok (replaceAll (escaped '$') (opening '$') body)

/-- The document in a `jsonencode` call, from its argument. -/
def jsonencodeDocument (arg : Bytes) : Except TfErr Bytes := do
  let v ← parseLiteral arg
  marshalLiteral v

def jsonencodeCall : Bytes :=
  utf8 "jsonencode("

/-- `policyDocument`. -/
def policyDocument (text : Bytes) : Except TfErr (Bytes × DocForm) :=
  let raw := trimSpaceBytes text
  if jsonencodeCall <+: raw ∧ [ascii ')'] <:+ raw then
    (jsonencodeDocument (raw.drop jsonencodeCall.length).dropLast).map (·, .jsonencode)
  else if [ascii '<', ascii '<'] <+: raw then (heredocDocument raw).map (·, .heredoc)
  else if [ascii '"'] <+: raw then
    match literalString raw with
    | none => .error .notLiteral
    | some s => .ok (s, .string)
  else .error .notLiteral

/-! ## Rendering -/

/-- `hclEscape`. -/
def hclEscape (bs : Bytes) : Bytes :=
  replaceAll (opening '%') (escaped '%') (replaceAll (opening '$') (escaped '$') bs)

/-- `jsonencodeExpr`. -/
def jsonencodeExpr (canonical indent : Bytes) : Except GoErr Bytes := do
  let v ← (parseJSON canonical).mapError .notIJSON
  return jsonencodeCall ++ hclEscape (marshalIndent floatBytes indent (utf8 "  ") v) ++ [ascii ')']

/-- `heredocExpr`; an old expression without a line break makes it panic. -/
def heredocExpr (canonical oldRaw : Bytes) : Except GoErr Bytes := do
  let v ← (parseJSON canonical).mapError .notIJSON
  match cutAt (ascii '\n') oldRaw with
  | none => .error (.msg "slice bounds out of range [:-1]")
  | some (line, _) =>
      let head := trimSpaceBytes line
      return head ++ ascii '\n' :: (hclEscape (marshalIndent floatBytes [] (utf8 "  ") v) ++
        ascii '\n' :: heredocMark head)

end AuthSec

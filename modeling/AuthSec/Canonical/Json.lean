import AuthSec.Canonical.Number
import AuthSec.Lib.Sorting

/-!
# Canonical JSON

The strict JSON parser and the RFC 8785 writer of the package.  Every loop of the parser consumes
at least one byte in each round, so its fuel is the number of bytes left; with no fuel there are
no bytes left, and the loop answers what the source answers there: the end of the input, unless
the parser of the elements fails for its own reason first.
-/

namespace AuthSec

/-! ## Values -/

/-- A JSON value whose numbers are of type `N`. -/
inductive Json (N : Type) where
  | null
  | bool (b : Bool)
  | num (n : N)
  | str (s : String)
  | arr (els : List (Json N))
  | obj (members : List (String × Json N))

/-- The members of an object, in the order of the text. -/
abbrev Members (N : Type) :=
  List (String × Json N)

/-- `maxJSONDepth`. -/
def maxJSONDepth : ℕ := 512

namespace JsonParser

/-! ## Strings -/

def isWS (b : UInt8) : Bool :=
  b = ascii ' ' ∨ b = ascii '\t' ∨ b = ascii '\n' ∨ b = ascii '\r'

def skipWS : Bytes → Bytes
  | [] => []
  | b :: bs => if isWS b then skipWS bs else b :: bs

def hexVal (c : UInt8) : Option ℕ :=
  if 48 ≤ c.toNat ∧ c.toNat ≤ 57 then some (c.toNat - 48)
  else if 97 ≤ c.toNat ∧ c.toNat ≤ 102 then some (c.toNat - 97 + 10)
  else if 65 ≤ c.toNat ∧ c.toNat ≤ 70 then some (c.toNat - 65 + 10)
  else none

def hex4 (bs : Bytes) : Except ParseFail (ℕ × Bytes) :=
  match bs with
  | a :: b :: c :: d :: rest =>
    match hexVal a, hexVal b, hexVal c, hexVal d with
    | some w, some x, some y, some z => .ok (((w * 16 + x) * 16 + y) * 16 + z, rest)
    | _, _, _, _ => fail bs .invalidHex
  | _ => fail bs .shortEscape

/-- The character of a `\u` escape; a high surrogate takes the escape behind it along. -/
def unicodeEscape (bs : Bytes) : Except ParseFail (Char × Bytes) := do
  let (r, rest) ← hex4 bs
  if 0xD800 ≤ r ∧ r < 0xE000 then
    match rest with
    | b :: u :: low =>
      if r ≥ 0xDC00 ∨ b ≠ ascii '\\' ∨ u ≠ ascii 'u' then fail rest .loneSurrogate
      else
        let (r₂, rest) ← hex4 low
        if 0xDC00 ≤ r₂ ∧ r₂ < 0xE000 then
          return (Char.ofNat ((r - 0xD800) * 0x400 + (r₂ - 0xDC00) + 0x10000), rest)
        else fail rest .loneSurrogate
    | _ => fail rest .loneSurrogate
  else return (Char.ofNat r, rest)

/-- The character behind a backslash. -/
def escape (bs : Bytes) : Except ParseFail (Char × Bytes) :=
  match bs with
  | [] => fail bs .unterminatedEscape
  | e :: rest =>
    if e = ascii '"' ∨ e = ascii '\\' ∨ e = ascii '/' then .ok (Char.ofNat e.toNat, rest)
    else if e = ascii 'b' then .ok ('\x08', rest)
    else if e = ascii 'f' then .ok ('\x0c', rest)
    else if e = ascii 'n' then .ok ('\n', rest)
    else if e = ascii 'r' then .ok ('\r', rest)
    else if e = ascii 't' then .ok ('\t', rest)
    else if e = ascii 'u' then unicodeEscape rest
    else fail rest (.invalidEscape e)

/-- One round of the string loop: a character, or `none` for the closing quote. -/
def stringStep (bs : Bytes) : Except ParseFail (Option Char × Bytes) :=
  match bs with
  | [] => fail bs .unterminatedString
  | c :: rest =>
    if c = ascii '"' then .ok (none, rest)
    else if c = ascii '\\' then (escape rest).map fun r => (some r.1, r.2)
    else if c.toNat < 0x20 then fail bs .controlCharacter
    else match decodeRune bs with
      | some (r, rest) => .ok (some r, rest)
      | none => fail bs .invalidUTF8

def stringLoop : ℕ → Bytes → Except ParseFail (List Char × Bytes)
  | 0, bs => fail bs .unterminatedString
  | n + 1, bs => do
    match ← stringStep bs with
    | (none, rest) => return ([], rest)
    | (some c, rest) =>
      let (cs, rest) ← stringLoop n rest
      return (c :: cs, rest)

/-- `jsonParser.string`, behind the opening quote. -/
def string (bs : Bytes) : Except ParseFail (String × Bytes) := do
  let (cs, rest) ← stringLoop bs.length bs
  return (String.ofList cs, rest)

/-! ## Arrays and objects -/

section

variable (el : Bytes → Except ParseFail (Json Float64 × Bytes))

def arrayLoop : ℕ → Bytes → Except ParseFail (List (Json Float64) × Bytes)
  | 0, bs => (el (skipWS bs)).bind fun _ => fail bs .endOfInput
  | n + 1, bs => do
    let (v, rest) ← el (skipWS bs)
    match skipWS rest with
    | [] => fail [] .unterminatedArray
    | c :: rest =>
      if c = ascii ',' then
        let (vs, rest) ← arrayLoop n rest
        return (v :: vs, rest)
      else if c = ascii ']' then return ([v], rest)
      else fail (c :: rest) .expectedCommaOrBracket

/-- `jsonParser.array`, behind the opening bracket, with the parser of its elements. -/
def array (bs : Bytes) : Except ParseFail (Json Float64 × Bytes) :=
  if (skipWS bs).head? = some (ascii ']') then .ok (.arr [], (skipWS bs).tail)
  else do
    let (els, rest) ← arrayLoop el (skipWS bs).length (skipWS bs)
    return (.arr els, rest)

/-- A member name that is not among those seen, and the colon behind it. -/
def memberName (seen : List String) (bs : Bytes) : Except ParseFail (String × Bytes) := do
  match skipWS bs with
  | [] => fail [] .expectedMemberName
  | q :: rest =>
    if q ≠ ascii '"' then fail (q :: rest) .expectedMemberName
    else
      let (k, rest) ← string rest
      if k ∈ seen then fail rest (.duplicateMember k)
      else match skipWS rest with
        | [] => fail [] .expectedColon
        | c :: rest => if c ≠ ascii ':' then fail (c :: rest) .expectedColon else return (k, rest)

def objectLoop : ℕ → List String → Bytes →
    Except ParseFail (Members Float64 × Bytes)
  | 0, _, bs => fail bs .expectedMemberName
  | n + 1, seen, bs => do
    let (k, rest) ← memberName seen bs
    let (v, rest) ← el (skipWS rest)
    match skipWS rest with
    | [] => fail [] .unterminatedObject
    | c :: rest =>
      if c = ascii ',' then
        let (ms, rest) ← objectLoop n (k :: seen) rest
        return ((k, v) :: ms, rest)
      else if c = ascii '}' then return ([(k, v)], rest)
      else fail (c :: rest) .expectedCommaOrBrace

/-- `jsonParser.object`, behind the opening brace, with the parser of its member values. -/
def object (bs : Bytes) : Except ParseFail (Json Float64 × Bytes) :=
  if (skipWS bs).head? = some (ascii '}') then .ok (.obj [], (skipWS bs).tail)
  else do
    let (ms, rest) ← objectLoop el (skipWS bs).length [] (skipWS bs)
    return (.obj ms, rest)

end

def literal (word : String) (v : Json Float64) (bs : Bytes) :
    Except ParseFail (Json Float64 × Bytes) :=
  if (utf8 word).isPrefixOf bs then .ok (v, bs.drop (utf8 word).length)
  else fail bs .invalidLiteral

/-- `jsonParser.value` at depth `maxJSONDepth + 1 - room`. -/
def value : ℕ → Bytes → Except ParseFail (Json Float64 × Bytes)
  | 0, bs => fail bs .nesting
  | room + 1, bs =>
    match bs with
    | [] => fail bs .endOfInput
    | c :: rest =>
      if c = ascii '{' then object (value room) rest
      else if c = ascii '[' then array (value room) rest
      else if c = ascii '"' then (string rest).map fun r => (.str r.1, r.2)
      else if c = ascii 't' then literal "true" (.bool true) bs
      else if c = ascii 'f' then literal "false" (.bool false) bs
      else if c = ascii 'n' then literal "null" .null bs
      else if c = ascii '-' ∨ isDigit c then (number bs).map fun r => (.num r.1, r.2)
      else fail bs (.unexpectedCharacter c)

end JsonParser

/-- `parseJSON`. -/
def parseJSON (data : Bytes) : Except ParseFail (Json Float64) := do
  let (v, rest) ← JsonParser.value (maxJSONDepth + 1) (JsonParser.skipWS data)
  if JsonParser.skipWS rest = [] then return v
  else fail (JsonParser.skipWS rest) .trailingData

/-! ## The writer -/

/-- `lessUTF16`: the order of UTF-16 code units. -/
def lessUTF16 (a b : String) : Prop :=
  utf16 a < utf16 b

instance : DecidableRel lessUTF16 :=
  fun a b => inferInstanceAs (Decidable (utf16 a < utf16 b))

/-- The stable sort of the writer: by member name, in the order `lessUTF16`. -/
def sortMembers {α : Type} (ms : List (String × α)) : List (String × α) :=
  sortOn (fun m => utf16 m.1) ms

/-- What `writeCanonicalString` writes for one byte. -/
def escapeByte (c : UInt8) : Bytes :=
  if c = ascii '"' then [ascii '\\', ascii '"']
  else if c = ascii '\\' then [ascii '\\', ascii '\\']
  else if c = 0x08 then [ascii '\\', ascii 'b']
  else if c = 0x0c then [ascii '\\', ascii 'f']
  else if c = ascii '\n' then [ascii '\\', ascii 'n']
  else if c = ascii '\r' then [ascii '\\', ascii 'r']
  else if c = ascii '\t' then [ascii '\\', ascii 't']
  else if c.toNat < 0x20 then
    utf8 "\\u00" ++ [hexDigit (c.toNat / 16), hexDigit (c.toNat % 16)]
  else [c]
where
  /-- The lower-case hexadecimal digit of a number below sixteen. -/
  hexDigit (n : ℕ) : UInt8 := if n < 10 then UInt8.ofNat (48 + n) else UInt8.ofNat (87 + n)

def writeCanonicalString (s : String) : Bytes :=
  ascii '"' :: (utf8 s).flatMap escapeByte ++ [ascii '"']

/-- Texts separated by commas. -/
def commaSep (texts : List Bytes) : Bytes :=
  (texts.intersperse [ascii ',']).flatten

mutual

/-- `jsonValue.writeCanonical`. The members are written first and then put in order. -/
def writeCanonical : Json Float64 → Bytes
  | .null => utf8 "null"
  | .bool true => utf8 "true"
  | .bool false => utf8 "false"
  | .num n => formatNumberES6 n
  | .str s => writeCanonicalString s
  | .arr els => ascii '[' :: commaSep (writeElements els) ++ [ascii ']']
  | .obj ms => ascii '{' ::
      commaSep ((sortMembers (writeMembers ms)).map fun m =>
        writeCanonicalString m.1 ++ ascii ':' :: m.2) ++ [ascii '}']

def writeElements : List (Json Float64) → List Bytes
  | [] => []
  | v :: vs => writeCanonical v :: writeElements vs

def writeMembers : Members Float64 → List (String × Bytes)
  | [] => []
  | (k, v) :: ms => (k, writeCanonical v) :: writeMembers ms

end

/-- `Canonicalize`. -/
def canonicalize (data : Bytes) : Except ParseFail Bytes :=
  (parseJSON data).map writeCanonical

end AuthSec

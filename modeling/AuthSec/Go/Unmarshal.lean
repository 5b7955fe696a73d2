import AuthSec.Canonical.Json
import AuthSec.Go.Decode
import AuthSec.Go.Quote

/-!
# `json.Unmarshal`

The reader of `encoding/json`, which takes more than the parser of the canonical form.

**Scanning.**  `scanText` reads a whole text.  Ten thousand arrays and objects may stand in each
other, a name may stand in an object more than once, and numbers are scanned but not converted, so
that a member nobody asks for may hold a number of any size.  In strings, a byte that is no UTF-8
and half a surrogate pair become the replacement character.

**Decoding.**  The scanned value keeps all members in their order, and the decoders of `Go.Decode`
take them in turn: a field keeps what its last member leaves in it.  For a slice that is not what the
last member says alone, since `null` leaves the element that the array already holds (`intoSlice`).
-/

namespace AuthSec

namespace Unmarshal

open JsonParser (skipWS)

/-- The limit of the scanner for arrays and objects that stand in each other. -/
def maxNestingDepth : ℕ := 10000

/-! ## Scalars -/

/-- The character behind a backslash. -/
def escape (bs : Bytes) : Option (Char × Bytes) :=
  match JsonParser.escape bs with
  | .ok r => some r
  | .error _ =>
    -- four hexadecimal digits that are half a surrogate pair
    match bs with
    | u :: rest => if u = ascii 'u' then (hexRun 4 rest).map fun r => ('�', r.2) else none
    | [] => none

/-- The characters up to the closing quote; every round takes a byte. -/
def characters : ℕ → Bytes → Option (List Char × Bytes)
  | 0, _ => none
  | _ + 1, [] => none
  | n + 1, c :: bs =>
    if c = ascii '"' then some ([], bs)
    else do
      let (r, rest) ←
        if c = ascii '\\' then escape bs
        else if c.toNat < 0x20 then none
        else some (nextRune (c :: bs))
      let (rs, rest) ← characters n rest
      return (r :: rs, rest)

/-- A string, behind the opening quote. -/
def string (bs : Bytes) : Option (String × Bytes) :=
  (characters bs.length bs).map fun r => (String.ofList r.1, r.2)

/-- A number, which stays a text. -/
def number (bs : Bytes) : Option (NumberText × Bytes) := do
  let (neg, rest) := scanMinus bs
  let (int, rest) ← (scanInt rest).toOption
  let (frac, rest) ← (scanFrac rest).toOption
  let (expNeg, exp, rest) ← (scanExp rest).toOption
  return (⟨neg, int, frac, expNeg, exp⟩, rest)

def word (w : String) (v : Json NumberText) (bs : Bytes) : Option (Json NumberText × Bytes) :=
  if (utf8 w).isPrefixOf bs then some (v, bs.drop (utf8 w).length) else none

def scalar (bs : Bytes) : Option (Json NumberText × Bytes) :=
  match bs with
  | [] => none
  | c :: rest =>
    if c = ascii '"' then (string rest).map fun r => (.str r.1, r.2)
    else if c = ascii 't' then word "true" (.bool true) bs
    else if c = ascii 'f' then word "false" (.bool false) bs
    else if c = ascii 'n' then word "null" .null bs
    else (number bs).map fun r => (.num r.1, r.2)

/-! ## Arrays and objects -/

section

variable {α : Type} (item : Bytes → Option (α × Bytes)) (close : UInt8)

/-- Items with commas between them, up to the closing byte; every round takes a byte. -/
def items : ℕ → Bytes → Option (List α × Bytes)
  | 0, _ => none
  | n + 1, bs => do
    let (a, rest) ← item (skipWS bs)
    match skipWS rest with
    | [] => none
    | c :: rest =>
      if c = close then return ([a], rest)
      else if c = ascii ',' then
        let (as, rest) ← items n rest
        return (a :: as, rest)
      else none

/-- The items of an array or an object, behind the opening byte. -/
def allItems (bs : Bytes) : Option (List α × Bytes) :=
  if (skipWS bs).head? = some close then some ([], (skipWS bs).tail)
  else items item close bs.length bs

end

/-- A member of an object, with the scanner of its value. -/
def member (value : Bytes → Option (Json NumberText × Bytes)) (bs : Bytes) :
    Option ((String × Json NumberText) × Bytes) := do
  match bs with
  | [] => none
  | q :: rest =>
    if q ≠ ascii '"' then none
    else
      let (k, rest) ← string rest
      match skipWS rest with
      | [] => none
      | c :: rest =>
        if c ≠ ascii ':' then none
        else
          let (v, rest) ← value (skipWS rest)
          return ((k, v), rest)

/-- A value in which so many arrays and objects may stand in each other. -/
def value : ℕ → Bytes → Option (Json NumberText × Bytes)
  | 0, bs => scalar bs
  | room + 1, bs =>
    match bs with
    | [] => none
    | c :: rest =>
      if c = ascii '{' then
        (allItems (member (value room)) (ascii '}') rest).map fun r => (.obj r.1, r.2)
      else if c = ascii '[' then
        (allItems (value room) (ascii ']') rest).map fun r => (.arr r.1, r.2)
      else scalar bs

/-- A whole text. -/
def scanText (data : Bytes) : Option (Json NumberText) := do
  let (v, rest) ← value maxNestingDepth (skipWS data)
  if skipWS rest = [] then return v else none

/-! ## Slices -/

/-- A slice of strings, nil or not, and what its array holds behind it. -/
structure Slice where
  strings : Option (List String) := none
  behind : List String := []

/-- The strings that the array of a slice holds. -/
def Slice.held (s : Slice) : List String :=
  s.strings.getD [] ++ s.behind

/-- Into a slice of strings.  The elements go into the array of the slice as far as it reaches. -/
def intoSlice {N : Type} : DecoderOf N Slice
  | .arr [], _ => .ok { strings := some [] }
  | .arr els, cur => do
    let strings ← els.zipIdx.mapM fun (v, i) => intoString v (cur.held.getD i "")
    return { strings := some strings, behind := cur.held.drop els.length }
  | .null, _ => .ok {}
  | _, _ => cannotUnmarshal "[]string"

end Unmarshal

end AuthSec

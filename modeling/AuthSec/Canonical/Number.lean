import AuthSec.Lib.Rounding
import AuthSec.Lib.Unicode

/-!
# Numbers of canonical JSON

The scanner of JSON numbers, `strconv.ParseFloat` and shortest `strconv.FormatFloat` on finite
doubles, and `FormatNumberES6`.  A finite double is kept as its sign and its magnitude, an exact
rational, so that both conversions are computed and no property of them is assumed.

Scanners return what they read and the bytes left; a failure carries the number of bytes left
where the source reports its offset.
-/

namespace AuthSec

/-! ## Failures of the JSON parser -/

/-- Why an input is not I-JSON, one constructor for each message of the parser. -/
inductive NotIJSON where
  | nesting
  | endOfInput
  | unexpectedCharacter (c : UInt8)
  | invalidLiteral
  | invalidNumber
  | invalidFraction
  | invalidExponent
  | notDouble (text : Bytes)
  | shortEscape
  | invalidHex
  | unterminatedString
  | unterminatedEscape
  | loneSurrogate
  | invalidEscape (e : UInt8)
  | controlCharacter
  | invalidUTF8
  | unterminatedArray
  | expectedCommaOrBracket
  | expectedMemberName
  | duplicateMember (key : String)
  | expectedColon
  | unterminatedObject
  | expectedCommaOrBrace
  | trailingData
  deriving DecidableEq

/-- A failure, with the number of bytes left at the position of the parser. -/
structure ParseFail where
  left : ℕ
  reason : NotIJSON
  deriving DecidableEq

/-- Fail in front of the bytes `bs`. -/
def fail {α : Type} (bs : Bytes) (reason : NotIJSON) : Except ParseFail α :=
  .error ⟨bs.length, reason⟩

/-- The byte of an ASCII character. -/
def ascii (c : Char) : UInt8 :=
  UInt8.ofNat c.toNat

/-! ## Doubles -/

/-- A finite IEEE 754 double. -/
structure Float64 where
  neg : Bool
  mag : ℚ
  representable : Representable 53 (-1074) mag
  lt_top : mag < 2 ^ 1024
  deriving DecidableEq

/-- The number a double denotes; both zeros denote `0`. -/
def Float64.toRat (x : Float64) : ℚ :=
  if x.neg then -x.mag else x.mag

/-- The double of a sign and a magnitude, unless the magnitude rounds beyond the range. -/
def Float64.round (neg : Bool) (q : ℚ) (hq : 0 ≤ q) : Option Float64 :=
  if h : nearest 53 (-1074) q < 2 ^ 1024 then
    some ⟨neg, nearest 53 (-1074) q, representable_nearest (by decide) hq, h⟩
  else none

/-- The parts of a JSON number text, digits as numbers. -/
structure NumberText where
  neg : Bool
  int : List ℕ
  frac : List ℕ
  expNeg : Bool
  exp : List ℕ
  deriving DecidableEq

/-- The exponent as `strconv` reads it: it stops counting from `10000` on. -/
def readExp (ds : List ℕ) : ℕ :=
  ds.foldl (fun e d => if e < 10000 then e * 10 + d else e) 0

/-- The decimal exponent of a number text. -/
def NumberText.expVal (t : NumberText) : ℤ :=
  if t.expNeg then -readExp t.exp else readExp t.exp

/-- The magnitude of a number text. -/
def NumberText.magnitude (t : NumberText) : ℚ :=
  decVal (t.int ++ t.frac) * 10 ^ (t.expVal - t.frac.length)

lemma NumberText.magnitude_nonneg (t : NumberText) : 0 ≤ t.magnitude := by
  rw [magnitude]
  positivity

/-- `strconv.ParseFloat(text, 64)`; `none` is its range error. -/
def parseFloat (t : NumberText) : Option Float64 :=
  Float64.round t.neg t.magnitude t.magnitude_nonneg

/-! ## Scanning -/

def isDigit (b : UInt8) : Bool :=
  48 ≤ b.toNat && b.toNat ≤ 57

/-- The longest run of digits. -/
def digits : Bytes → List ℕ × Bytes
  | [] => ([], [])
  | b :: bs => if isDigit b then ((b.toNat - 48) :: (digits bs).1, (digits bs).2) else ([], b :: bs)

/-- A minus sign, if there is one. -/
def scanMinus (bs : Bytes) : Bool × Bytes :=
  match bs with
  | b :: rest => if b = ascii '-' then (true, rest) else (false, bs)
  | [] => (false, bs)

/-- `0`, or a run of digits. -/
def scanInt (bs : Bytes) : Except ParseFail (List ℕ × Bytes) :=
  match bs with
  | b :: rest =>
    if b = ascii '0' then .ok ([0], rest)
    else if (digits bs).1 = [] then fail bs .invalidNumber
    else .ok (digits bs)
  | [] => fail bs .invalidNumber

/-- A point and a run of digits, if there is a point. -/
def scanFrac (bs : Bytes) : Except ParseFail (List ℕ × Bytes) :=
  match bs with
  | b :: rest =>
    if b = ascii '.' then
      if (digits rest).1 = [] then fail rest .invalidFraction else .ok (digits rest)
    else .ok ([], bs)
  | [] => .ok ([], bs)

/-- The sign of an exponent. -/
def scanSign (bs : Bytes) : Bool × Bytes :=
  match bs with
  | b :: rest => if b = ascii '+' then (false, rest) else if b = ascii '-' then (true, rest)
    else (false, bs)
  | [] => (false, bs)

/-- `e` or `E`, a sign and a run of digits, if there is an `e`. -/
def scanExp (bs : Bytes) : Except ParseFail (Bool × List ℕ × Bytes) :=
  match bs with
  | b :: rest =>
    if b = ascii 'e' ∨ b = ascii 'E' then
      let (neg, rest) := scanSign rest
      if (digits rest).1 = [] then fail rest .invalidExponent
      else .ok (neg, digits rest)
    else .ok (false, [], bs)
  | [] => .ok (false, [], bs)

/-- `jsonParser.number`. -/
def number (bs : Bytes) : Except ParseFail (Float64 × Bytes) := do
  let (neg, rest) := scanMinus bs
  let (int, rest) ← scanInt rest
  let (frac, rest) ← scanFrac rest
  let (expNeg, exp, rest) ← scanExp rest
  match parseFloat ⟨neg, int, frac, expNeg, exp⟩ with
  | some f => return (f, rest)
  | none => fail rest (.notDouble (bs.take (bs.length - rest.length)))

/-! ## Printing -/

/-- The byte of a decimal digit. -/
def digitByte (d : ℕ) : UInt8 :=
  UInt8.ofNat (48 + d)

/-- The decimal text of a natural number. -/
def decimalText (n : ℕ) : Bytes :=
  if n = 0 then [ascii '0'] else (Nat.digits 10 n).reverse.map digitByte

/-- `strconv.Itoa`. -/
def itoa (n : ℤ) : Bytes :=
  if n < 0 then ascii '-' :: decimalText n.natAbs else decimalText n.natAbs

/-- `strconv.FormatFloat(f, 'e', -1, 64)` of a positive double: its shortest digits and the
exponent of the first of them. -/
def formatFloat (mag : ℚ) : List ℕ × ℤ :=
  let e := Int.log 10 mag
  let d := shortest (nearest 53 (-1074)) mag (e + 1074).toNat e
  (sigDigits d.1, d.2 + (Nat.digits 10 d.1).length - 1)

/-- The switch of `FormatNumberES6`: lay out the digits of `0.digits × 10 ^ n`. -/
def layoutES6 (digits : Bytes) (n : ℤ) : Bytes :=
  let k := digits.length
  if k ≤ n ∧ n ≤ 21 then
    digits ++ List.replicate (n - k).toNat (ascii '0')
  else if 0 < n ∧ n ≤ 21 then
    digits.take n.toNat ++ ascii '.' :: digits.drop n.toNat
  else if -6 < n ∧ n ≤ 0 then
    ascii '0' :: ascii '.' :: (List.replicate (-n).toNat (ascii '0') ++ digits)
  else
    digits.take 1 ++ (if k > 1 then ascii '.' :: digits.drop 1 else []) ++
      ascii 'e' :: ((if 0 ≤ n - 1 then [ascii '+'] else []) ++ itoa (n - 1))

/-- `FormatNumberES6`. -/
def formatNumberES6 (f : Float64) : Bytes :=
  if f.mag = 0 then [ascii '0']
  else (if f.neg then [ascii '-'] else []) ++
    layoutES6 ((formatFloat f.mag).1.map digitByte) ((formatFloat f.mag).2 + 1)

end AuthSec

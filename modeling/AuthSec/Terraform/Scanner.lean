import AuthSec.Go.Quote

/-!
# The Terraform scanner

The scanner of HCL: what a text is at a place is what is left of it there.  Every loop takes at least
one byte in each round, so the number of bytes left is fuel enough.
-/

namespace AuthSec

/-- Why a Terraform text is not read. -/
inductive TfErr where
  /-- `errNotLiteral` -/
  | notLiteral
  | newlineInString
  | unterminatedString
  | unterminatedTemplate
  /-- a value that `encoding/json` refuses -/
  | invalidNumber
  deriving DecidableEq

namespace TfScanner

/-- The sign of a template sequence. -/
def isSign (c : UInt8) : Bool :=
  c = ascii '$' ∨ c = ascii '%'

mutual

/-- `str`, behind the opening quote: what is left behind the closing one. -/
def str : ℕ → Bytes → Except TfErr Bytes
  | 0, _ => .error .unterminatedString
  | _ + 1, [] => .error .unterminatedString
  | n + 1, c :: bs =>
    if c = ascii '\\' then str n (bs.drop 1)
    else if c = ascii '"' then .ok bs
    else if c = ascii '\n' then .error .newlineInString
    else if isSign c ∧ [c, ascii '{'] <+: bs then str n (bs.drop 2)
    else if isSign c ∧ [ascii '{'] <+: bs then do
      let rest ← templateExpr n 0 (bs.drop 1)
      str n rest
    else str n bs

/-- `templateExpr`: what is left behind the closing brace. -/
def templateExpr : ℕ → ℤ → Bytes → Except TfErr Bytes
  | 0, _, _ => .error .unterminatedTemplate
  | _ + 1, _, [] => .error .unterminatedTemplate
  | n + 1, depth, c :: bs =>
    if c = ascii '"' then do
      let rest ← str n bs
      templateExpr n depth rest
    else if c = ascii '{' ∨ c = ascii '(' ∨ c = ascii '[' then templateExpr n (depth + 1) bs
    else if c = ascii ')' ∨ c = ascii ']' then templateExpr n (depth - 1) bs
    else if c = ascii '}' then
      if depth = 0 then .ok bs else templateExpr n (depth - 1) bs
    else templateExpr n depth bs

end

/-- `isIdentStart`: an underscore or a letter of Latin-1. -/
def isIdentStart (c : UInt8) : Bool :=
  c = ascii '_' || (65 ≤ c.toNat && c.toNat ≤ 90) || (97 ≤ c.toNat && c.toNat ≤ 122) ||
    c.toNat == 0xaa || c.toNat == 0xb5 || c.toNat == 0xba ||
    (0xc0 ≤ c.toNat && c.toNat ≠ 0xd7 && c.toNat ≠ 0xf7)

/-- `isIdentChar`. -/
def isIdentChar (c : UInt8) : Bool :=
  isIdentStart c || c = ascii '-' || isDigit c

end TfScanner

end AuthSec

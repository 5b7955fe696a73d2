import AuthSec.Terraform.Literals

/-!
# Blocks of a Terraform file

`parseTerraform` finds the top-level blocks of a file, with their labels, attributes and nested blocks
as byte ranges of the source.  A place in the source is what is left of it there, and its position is
the number of bytes in front of it.
-/

namespace AuthSec

/-- An attribute of a block. -/
structure TfAttr where
  name : Bytes
  /-- start of the line that holds the name -/
  lineStart : ℕ
  valStart : ℕ
  valEnd : ℕ
  /-- behind the newline that ends the attribute, or behind the value -/
  lineEnd : ℕ
  raw : Bytes
  deriving DecidableEq

/-- A block; a nested one starts with its line. -/
structure TfBlock where
  file : String
  type : Bytes
  labels : List Bytes
  start : ℕ
  openAt : ℕ
  closeAt : ℕ
  /-- behind the newline after the closing brace, or behind the brace -/
  endAt : ℕ
  attrs : List TfAttr
  nested : List TfBlock

/-- Why the blocks of a file are not read. -/
inductive TfFail where
  | scan (e : TfErr)
  | unterminatedComment
  | unbalanced
  | badHeredoc
  | unterminatedHeredoc (mark : Bytes)
  | unexpectedEnd (type : Bytes)
  | label (type : Bytes)
  | unexpected (type : Bytes) (c : UInt8)
  | missingBrace (type : Bytes)
  | inAttr (name : Bytes) (e : TfFail)
  | unexpectedContent (type : Bytes)
  | contentAt (i : ℕ)
  | inFile (path : String) (e : TfFail)
  deriving DecidableEq

namespace TfScanner

open LitParser

/-- A blank inside a line. -/
def isBlank (c : UInt8) : Bool :=
  c = ascii ' ' || c = ascii '\t' || c = ascii '\r'

/-- `skipSpace`: blanks and comments, newlines too if `nl`. -/
def skipSpace (nl : Bool) : ℕ → Bytes → Bytes
  | 0, bs => bs
  | _ + 1, [] => []
  | n + 1, c :: bs =>
    if isBlank c then skipSpace nl n bs
    else if c = ascii '\n' then
      if nl then skipSpace nl n bs else c :: bs
    else if c = ascii '#' ∨ [ascii '/', ascii '/'] <+: c :: bs then
      skipSpace nl n (bs.dropWhile (· != ascii '\n'))
    else if [ascii '/', ascii '*'] <+: c :: bs then skipSpace nl n (afterComment bs.tail)
    else c :: bs

/-- What is left behind blanks and comments. -/
def space (nl : Bool) (bs : Bytes) : Bytes :=
  skipSpace nl bs.length bs

/-- `ident`, with what is left behind it. -/
def ident (bs : Bytes) : Bytes × Bytes :=
  if bs.head?.any isIdentStart then (bs.takeWhile isIdentChar, bs.dropWhile isIdentChar) else ([], bs)

/-! ## Expressions -/

/-- The lines of a heredoc, up to the one with its mark. -/
def heredocLines (mark : Bytes) : ℕ → Bytes → Except TfFail Bytes
  | 0, _ => .error (.unterminatedHeredoc mark)
  | n + 1, bs =>
    let line := bs.takeWhile (· != ascii '\n')
    if bs = [] then .error (.unterminatedHeredoc mark)
    else if trimSpaceBytes line = mark then
      .ok (bs.drop (line.reverse.dropWhile (· == ascii '\r')).length)
    else if ascii '\n' ∉ bs then .error (.unterminatedHeredoc mark)
    else heredocLines mark n (bs.dropWhile (· != ascii '\n')).tail

/-- `heredoc`, behind the two signs. -/
def heredoc (bs : Bytes) : Except TfFail Bytes :=
  let (mark, rest) := ident (trimFront [ascii '-'] bs)
  if mark = [] ∨ ascii '\n' ∉ rest then .error .badHeredoc
  else
    let lines := (rest.dropWhile (· != ascii '\n')).tail
    heredocLines mark lines.length lines

/-- The text starts a heredoc. -/
def startsHeredoc : Bytes → Bool
  | a :: b :: c :: bs => a = ascii '<' && b = ascii '<' &&
      (isIdentStart c || (c = ascii '-' && bs.head?.any isIdentStart))
  | _ => false

/-- `expr`: what is left behind an expression, at a newline or bracket of its own depth. -/
def expr : ℕ → ℕ → Bytes → Except TfFail Bytes
  | _, depth, [] => if depth ≠ 0 then .error .unbalanced else .ok []
  | 0, _, _ :: _ => .error .unbalanced
  | n + 1, depth, c :: bs =>
    if c = ascii '"' then do
      let rest ← (str (c :: bs).length bs).mapError .scan
      expr n depth rest
    else if startsHeredoc (c :: bs) then do
      let rest ← heredoc bs.tail
      expr n depth rest
    else if c = ascii '#' ∨ [ascii '/', ascii '/'] <+: c :: bs then
      if depth = 0 then .ok (c :: bs) else expr n depth (bs.dropWhile (· != ascii '\n'))
    else if [ascii '/', ascii '*'] <+: c :: bs then
      if [ascii '*', ascii '/'] <:+: bs.tail then expr n depth (afterComment bs.tail)
      else .error .unterminatedComment
    else if c = ascii '(' ∨ c = ascii '[' ∨ c = ascii '{' then expr n (depth + 1) bs
    else if c = ascii ')' ∨ c = ascii ']' ∨ c = ascii '}' then
      if depth = 0 then .ok (c :: bs) else expr n (depth - 1) bs
    else if c = ascii '\n' then
      if depth = 0 then .ok (c :: bs) else expr n depth bs
    else expr n depth bs

/-! ## Blocks -/

/-- The labels of a block, and what is left from its opening brace on. -/
def labels (type : Bytes) : ℕ → Bytes → Except TfFail (List Bytes × Bytes)
  | 0, _ => .error (.unexpectedEnd type)
  | n + 1, bs =>
    match space false bs with
    | [] => .error (.unexpectedEnd type)
    | c :: rest =>
      if c = ascii '"' then do
        let after ← (str (c :: rest).length rest).mapError .scan
        match unquote ((c :: rest).take ((c :: rest).length - after.length)) with
        | none => .error (.label type)
        | some l =>
          let (ls, left) ← labels type n after
          return (l :: ls, left)
      else if isIdentStart c then do
        let (ls, left) ← labels type n (ident (c :: rest)).2
        return ((ident (c :: rest)).1 :: ls, left)
      else if c = ascii '{' then return ([], c :: rest)
      else .error (.unexpected type c)

section

variable (path : String) (src : Bytes)

/-- The position of what is left. -/
def pos (bs : Bytes) : ℕ :=
  src.length - bs.length

/-- The start of the line at whose end `front` ends. -/
def lineStart (front : Bytes) : ℕ :=
  front.length - (front.reverse.takeWhile (· != ascii '\n')).length

/-- The end of a block, with what is left behind its closing brace. -/
def blockEnd (rest : Bytes) : ℕ :=
  let line := rest.dropWhile isBlank
  if line.head? = some (ascii '\n') then pos src line.tail else pos src rest

/-- An attribute, behind its equals sign. -/
def attr (name : Bytes) (start : ℕ) (bs : Bytes) : Except TfFail (TfAttr × Bytes) := do
  let value := space false bs
  let rest ← (expr value.length 0 value).mapError (.inAttr name)
  let raw := ((value.take (value.length - rest.length)).reverse.dropWhile isBlank).reverse
  let left := space false rest
  let newline := left.head? = some (ascii '\n')
  return ({ name, lineStart := start, valStart := pos src value, valEnd := pos src value + raw.length,
            lineEnd := if newline then pos src left.tail else pos src rest, raw },
          if newline then left.tail else left)

/-- What stands in a block, and the positions of its end. -/
structure Body where
  attrs : List TfAttr
  nested : List TfBlock
  closeAt : ℕ
  endAt : ℕ

mutual

/-- `block`: none if there is no name. -/
def block : ℕ → Bytes → Except TfFail (Option TfBlock × Bytes)
  | 0, _ => .error (.unexpectedEnd [])
  | n + 1, bs =>
    let (type, after) := ident bs
    if type = [] then .ok (none, bs)
    else do
      let (ls, left) ← labels type after.length after
      let (b, rest) ← body type n left.tail
      return (some { file := path, type, labels := ls, start := pos src bs, openAt := pos src left,
                     closeAt := b.closeAt, endAt := b.endAt, attrs := b.attrs,
                     nested := b.nested }, rest)

/-- `body`, behind the opening brace. -/
def body (type : Bytes) : ℕ → Bytes → Except TfFail (Body × Bytes)
  | 0, _ => .error (.missingBrace type)
  | n + 1, bs =>
    match space true bs with
    | [] => .error (.missingBrace type)
    | c :: rest =>
      let here := c :: rest
      if c = ascii '}' then .ok (⟨[], [], pos src here, blockEnd src rest⟩, rest)
      else
        let start := lineStart (src.take (pos src here))
        let (name, after) := ident here
        if name = [] then .error (.unexpected type c)
        else
          let left := space false after
          if [ascii '='] <+: left ∧ ¬ [ascii '=', ascii '='] <+: left then do
            let (a, next) ← attr src name start left.tail
            let (b, final) ← body type n next
            return ({ b with attrs := a :: b.attrs }, final)
          else do
            let (nb, next) ← block n here
            match nb with
            | none => .error (.unexpectedContent type)
            | some nb =>
              let (b, final) ← body type n next
              return ({ b with nested := { nb with start } :: b.nested }, final)

end

/-- The loop of `parseTerraform`. -/
def blocks : ℕ → Bytes → Except TfFail (List TfBlock)
  | 0, bs => .error (.contentAt (pos src bs))
  | n + 1, bs =>
    match space true bs with
    | [] => .ok []
    | c :: rest => do
      let (b, next) ← block path src (src.length + 1) (c :: rest)
      match b with
      | none => .error (.contentAt (pos src next))
      | some b =>
        let bs ← blocks n next
        return b :: bs

end

end TfScanner

/-- `parseTerraform`. -/
def parseTerraform (path : String) (src : Bytes) : Except TfFail (List TfBlock) :=
  (TfScanner.blocks path src (src.length + 1) src).mapError (.inFile path)

end AuthSec

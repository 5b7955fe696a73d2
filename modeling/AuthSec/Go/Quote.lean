import AuthSec.Go.JsonText
import AuthSec.Go.Strings

/-!
# Quoted strings of Go

`strconv.Unquote` of a text in double quotes, and the runes of a text that need not be UTF-8.  What
`encoding/json` writes for a string is unquoted to that string (`unquote_goString`).
-/

namespace AuthSec

open List

/-! ## Unquoting -/

/-- The value of `n` hexadecimal digits. -/
def hexRun : ℕ → Bytes → Option (ℕ × Bytes)
  | 0, bs => some (0, bs)
  | _ + 1, [] => none
  | n + 1, b :: bs => do
    let x ← JsonParser.hexVal b
    let (v, rest) ← hexRun n bs
    return (x * 16 ^ n + v, rest)

/-- A character that an escape names. -/
def runeBytes (v : ℕ) (rest : Bytes) : Option (Bytes × Bytes) :=
  if v.isValidChar then some (String.utf8EncodeChar (Char.ofNat v), rest) else none

/-- The value of an octal digit. -/
def octVal (b : UInt8) : Option ℕ :=
  if 48 ≤ b.toNat ∧ b.toNat ≤ 55 then some (b.toNat - 48) else none

/-- An escape in double quotes. -/
def unquoteEscape (c : UInt8) (bs : Bytes) : Option (Bytes × Bytes) :=
  if c = ascii 'a' then some ([0x07], bs)
  else if c = ascii 'b' then some ([0x08], bs)
  else if c = ascii 'f' then some ([0x0c], bs)
  else if c = ascii 'n' then some ([ascii '\n'], bs)
  else if c = ascii 'r' then some ([ascii '\r'], bs)
  else if c = ascii 't' then some ([ascii '\t'], bs)
  else if c = ascii 'v' then some ([0x0b], bs)
  else if c = ascii 'x' then (hexRun 2 bs).map fun r => ([UInt8.ofNat r.1], r.2)
  else if c = ascii 'u' then (hexRun 4 bs).bind fun r => runeBytes r.1 r.2
  else if c = ascii 'U' then (hexRun 8 bs).bind fun r => runeBytes r.1 r.2
  else if c = ascii '\\' ∨ c = ascii '"' then some ([c], bs)
  else
    match octVal c, bs with
    | some x, b₁ :: b₂ :: bs => do
      let v := (x * 8 + (← octVal b₁)) * 8 + (← octVal b₂)
      if v ≤ 255 then some ([UInt8.ofNat v], bs) else none
    | _, _ => none

/-- What stands behind a backslash, with the letter of the escape. -/
def unquoteBackslash : Bytes → Option (Bytes × Bytes)
  | [] => none
  | c :: bs => unquoteEscape c bs

/-- The rune in front of a text; a byte that is none becomes the replacement character. -/
def nextRune (bs : Bytes) : Char × Bytes :=
  (decodeRune bs).getD ('�', bs.tail)

/-- `strconv.UnquoteChar` for a double quote: the bytes that are added. -/
def unquoteChar : Bytes → Option (Bytes × Bytes)
  | [] => none
  | c :: bs =>
    if c = ascii '"' then none
    else if 0x80 ≤ c.toNat then
      some (String.utf8EncodeChar (nextRune (c :: bs)).1, (nextRune (c :: bs)).2)
    else if c ≠ ascii '\\' then some ([c], bs)
    else unquoteBackslash bs

/-- The loop of `strconv.Unquote`; every round takes a byte. -/
def unquoteLoop : ℕ → Bytes → Option (Bytes × Bytes)
  | 0, _ => none
  | _ + 1, [] => none
  | n + 1, c :: bs =>
    if c = ascii '"' then some ([], bs)
    else if c = ascii '\n' then none
    else do
      let (t, rest) ← unquoteChar (c :: bs)
      let (ts, rest) ← unquoteLoop n rest
      return (t ++ ts, rest)

/-- `strconv.Unquote` of a text that starts with a double quote. -/
def unquote : Bytes → Option Bytes
  | [] => none
  | _ :: bs =>
    match unquoteLoop bs.length bs with
    | some (t, []) => some t
    | _ => none

/-- The runes of a text. -/
def runes : ℕ → Bytes → List Char
  | 0, _ => []
  | _ + 1, [] => []
  | n + 1, b :: bs => (nextRune (b :: bs)).1 :: runes n (nextRune (b :: bs)).2

/-- A text as a string, with the replacement character for what is not UTF-8. -/
def decodeText (bs : Bytes) : String :=
  String.ofList (runes bs.length bs)

/-! ## What `encoding/json` writes -/

lemma nextRune_encode (c : Char) (rest : Bytes) :
    nextRune (String.utf8EncodeChar c ++ rest) = (c, rest) := by
  rw [nextRune, decodeRune_encode]
  rfl

/-- A `\u00xx` escape is unquoted to the character with that code. -/
lemma unquoteChar_hex {n : ℕ} (h : n < 128) (rest : Bytes) :
    unquoteChar (utf8 "\\u00" ++ [escapeByte.hexDigit (n / 16), escapeByte.hexDigit (n % 16)] ++
      rest) = some (String.utf8EncodeChar (Char.ofNat n), rest) := by
  have hsplit : n / 16 * 16 + n % 16 = n := by omega
  have hvalid : n.isValidChar := Or.inl (by omega)
  have hrun : hexRun 4 (48 :: 48 :: escapeByte.hexDigit (n / 16) :: escapeByte.hexDigit (n % 16) ::
      rest) = some (n, rest) := by
    simp [hexRun, hexVal_hexDigit (show n / 16 < 16 by omega),
      hexVal_hexDigit (show n % 16 < 16 by omega), show JsonParser.hexVal 48 = some 0 by decide,
      hsplit]
  simp only [show utf8 "\\u00" = [92, 117, 48, 48] by decide, cons_append, nil_append,
    unquoteChar, unquoteBackslash, unquoteEscape]
  simp [ascii, hrun, runeBytes, hvalid]

lemma unquoteChar_encode {c : Char} (rest : Bytes) (h : 0x80 ≤ c.toNat) :
    unquoteChar (String.utf8EncodeChar c ++ rest) = some (String.utf8EncodeChar c, rest) := by
  have hnext := nextRune_encode c rest
  have hhigh := encode_not_ascii h
  cases htext : String.utf8EncodeChar c with
  | nil => exact absurd htext String.utf8EncodeChar_ne_nil
  | cons b bs =>
      rw [htext, cons_append] at hnext
      rw [htext] at hhigh
      have hb := hhigh b (by simp)
      have hquote : b ≠ ascii '"' := by
        rintro rfl
        exact absurd hb (by decide)
      rw [cons_append, unquoteChar, if_neg hquote, if_pos hb, hnext, htext]

/-- A byte is written as itself, as a short escape or by its code. -/
lemma escapeByte_cases : ∀ n < 128,
    (escapeByte (UInt8.ofNat n) = [UInt8.ofNat n] ∧ UInt8.ofNat n ≠ ascii '"' ∧
      UInt8.ofNat n ≠ ascii '\\') ∨
    n ∈ [34, 92, 8, 12, 10, 13, 9] ∨
    escapeByte (UInt8.ofNat n) =
      utf8 "\\u00" ++ [escapeByte.hexDigit (n / 16), escapeByte.hexDigit (n % 16)] := by
  decide +kernel

lemma unquoteChar_escapeByte {n : ℕ} (h : n < 128) (rest : Bytes) :
    unquoteChar (escapeByte (UInt8.ofNat n) ++ rest) = some ([UInt8.ofNat n], rest) := by
  have hval : (UInt8.ofNat n).toNat = n := toNat_uint8_ofNat (by omega)
  rcases escapeByte_cases n h with ⟨htext, hquote, hback⟩ | hshort | htext
  · rw [htext, cons_append, nil_append, unquoteChar, if_neg hquote, if_neg (by omega), if_pos hback]
  · simp only [mem_cons, not_mem_nil, or_false] at hshort
    rcases hshort with rfl | rfl | rfl | rfl | rfl | rfl | rfl <;>
      simp [escapeByte, unquoteChar, unquoteBackslash, unquoteEscape, ascii]
  · have htoNat : (Char.ofNat n).toNat = n := char_toNat_ofNat (Or.inl (by omega))
    rw [htext, unquoteChar_hex h, encode_ascii (by omega), htoNat]

/-- One character of a string that `encoding/json` writes. -/
lemma unquoteChar_goEscape (c : Char) (rest : Bytes) :
    unquoteChar (goEscape c ++ rest) = some (String.utf8EncodeChar c, rest) := by
  rw [goEscape]
  split_ifs with hhtml hls hps
  · have hlt : c.toNat < 128 := by rcases hhtml with rfl | rfl | rfl <;> decide
    have hchar := unquoteChar_hex hlt rest
    rwa [Char.ofNat_toNat] at hchar
  · subst hls
    rw [show utf8 "\\u2028" = [92, 117, 50, 48, 50, 56] by decide]
    simp [unquoteChar, unquoteBackslash, unquoteEscape, hexRun, JsonParser.hexVal, ascii, runeBytes, Nat.isValidChar]
  · subst hps
    rw [show utf8 "\\u2029" = [92, 117, 50, 48, 50, 57] by decide]
    simp [unquoteChar, unquoteBackslash, unquoteEscape, hexRun, JsonParser.hexVal, ascii, runeBytes, Nat.isValidChar]
  · rcases Nat.lt_or_ge c.toNat 0x80 with h | h
    · rw [jcsEscape_low h, encode_ascii h]
      exact unquoteChar_escapeByte h rest
    · rw [jcsEscape_high h]
      exact unquoteChar_encode rest h

/-- No text of a character starts with a quote or a line break. -/
lemma goEscape_head (c : Char) : ∃ b bs, goEscape c = b :: bs ∧ b ≠ ascii '"' ∧ b ≠ ascii '\n' := by
  obtain ⟨b, bs, hbs⟩ := exists_cons_of_ne_nil (goJson.escape_ne_nil c)
  have hstep := stringStep_goEscape c []
  refine ⟨b, bs, hbs, ?_, ?_⟩
  · rintro rfl
    rw [show goEscape c = _ from hbs] at hstep
    simp [JsonParser.stringStep] at hstep
  · rintro rfl
    rw [show goEscape c = _ from hbs] at hstep
    simp [JsonParser.stringStep, ascii, fail] at hstep

lemma unquoteLoop_goEscape (cs : List Char) (rest : Bytes) (n : ℕ) (hn : cs.length < n) :
    unquoteLoop n (cs.flatMap goEscape ++ ascii '"' :: rest) =
      some (cs.flatMap String.utf8EncodeChar, rest) := by
  induction cs generalizing n with
  | nil =>
      obtain ⟨n, rfl⟩ := Nat.exists_eq_succ_of_ne_zero (Nat.ne_zero_of_lt hn)
      simp [unquoteLoop]
  | cons c cs ih =>
      obtain ⟨n, rfl⟩ := Nat.exists_eq_succ_of_ne_zero (Nat.ne_zero_of_lt hn)
      have hchar := unquoteChar_goEscape c (cs.flatMap goEscape ++ ascii '"' :: rest)
      have ih := ih n (by simpa using hn)
      obtain ⟨b, bs, hc, hquote, hnl⟩ := goEscape_head c
      simp only [flatMap_cons, append_assoc]
      rw [hc, cons_append] at hchar ⊢
      rw [unquoteLoop, if_neg hquote, if_neg hnl, hchar]
      simp [ih]

/-- A string that `encoding/json` writes is unquoted to its bytes. -/
theorem unquote_goEscape (cs : List Char) :
    unquote (ascii '"' :: (cs.flatMap goEscape ++ [ascii '"'])) =
      some (cs.flatMap String.utf8EncodeChar) := by
  have hlen := length_le_flatMap goJson.escape_ne_nil cs
  rw [unquote, unquoteLoop_goEscape]
  rw [length_append, length_singleton]
  exact Nat.lt_succ_of_le hlen

lemma runes_encode (cs : List Char) (n : ℕ) (hn : cs.length ≤ n) :
    runes n (cs.flatMap String.utf8EncodeChar) = cs := by
  induction cs generalizing n with
  | nil => cases n <;> rfl
  | cons c cs ih =>
      obtain ⟨n, rfl⟩ : ∃ m, n = m + 1 := ⟨n - 1, by simp at hn; omega⟩
      have hnext := nextRune_encode c (cs.flatMap String.utf8EncodeChar)
      obtain ⟨b, bs, hc⟩ := exists_cons_of_ne_nil (String.utf8EncodeChar_ne_nil (c := c))
      rw [flatMap_cons]
      rw [hc, cons_append] at hnext ⊢
      rw [runes, hnext, ih n (by simpa using hn)]

/-- The text of a string is decoded to the string. -/
@[simp]
theorem decodeText_utf8 (s : String) : decodeText (utf8 s) = s := by
  have hlen : s.toList.length ≤ (s.toList.flatMap String.utf8EncodeChar).length :=
    length_le_flatMap (fun _ => String.utf8EncodeChar_ne_nil) _
  rw [decodeText, utf8, runes_encode _ _ hlen, String.ofList_toList]

end AuthSec

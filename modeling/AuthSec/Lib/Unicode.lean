import Mathlib.Data.List.Basic
import Mathlib.Order.Lattice

/-!
# UTF-8 and UTF-16

Strings are sequences of Unicode scalar values; texts on the wire are lists of bytes.

* `decodeRune_encode`: decoding the encoding of a character gives the character back.
* `utf8_injective`, `utf16_injective`: a string is determined by its bytes and by its UTF-16
  code units.
-/

namespace AuthSec

open List

section

variable {α : Type*} (p : α → Prop) [DecidablePred p] (l : List α)

-- a statement about the elements of a list is decided along the list, also where their type is finite
instance (priority := 2000) decidableForallMem : Decidable (∀ a ∈ l, p a) :=
  List.decidableBAll p l

instance (priority := 2000) decidableExistsMem : Decidable (∃ a ∈ l, p a) :=
  List.decidableBEx p l

end

/-- A text as its bytes. -/
abbrev Bytes := List UInt8

/-- The UTF-8 encoding of a string. -/
def utf8 (s : String) : Bytes :=
  s.toList.flatMap String.utf8EncodeChar

/-! ## Decoding one character -/

/-- A continuation byte, whose first bits are `10`. -/
def isContinuation (b : UInt8) : Bool :=
  0x80 ≤ b.toNat && b.toNat ≤ 0xBF

/-- The character that starts a text and the text after it.  Refused are a stray continuation
byte, an overlong form, a surrogate, a value above U+10FFFF and a text cut short. -/
def decodeRune : Bytes → Option (Char × Bytes)
  | [] => none
  | a :: rest =>
    if a.toNat < 0x80 then some (Char.ofNat a.toNat, rest)
    else if 0xC2 ≤ a.toNat ∧ a.toNat ≤ 0xDF then
      match rest with
      | b :: rest =>
        if isContinuation b then
          some (Char.ofNat ((a.toNat - 0xC0) * 64 + (b.toNat - 0x80)), rest)
        else none
      | _ => none
    else if 0xE0 ≤ a.toNat ∧ a.toNat ≤ 0xEF then
      match rest with
      | b :: c :: rest =>
        if isContinuation b ∧ isContinuation c ∧
            (a.toNat = 0xE0 → 0xA0 ≤ b.toNat) ∧ (a.toNat = 0xED → b.toNat ≤ 0x9F) then
          some (Char.ofNat ((a.toNat - 0xE0) * 4096 + (b.toNat - 0x80) * 64 + (c.toNat - 0x80)),
            rest)
        else none
      | _ => none
    else if 0xF0 ≤ a.toNat ∧ a.toNat ≤ 0xF4 then
      match rest with
      | b :: c :: d :: rest =>
        if isContinuation b ∧ isContinuation c ∧ isContinuation d ∧
            (a.toNat = 0xF0 → 0x90 ≤ b.toNat) ∧ (a.toNat = 0xF4 → b.toNat ≤ 0x8F) then
          some (Char.ofNat ((a.toNat - 0xF0) * 262144 + (b.toNat - 0x80) * 4096 +
            (c.toNat - 0x80) * 64 + (d.toNat - 0x80)), rest)
        else none
      | _ => none
    else none

lemma toNat_lt_of_char (c : Char) :
    c.toNat < 0xD800 ∨ 0xDFFF < c.toNat ∧ c.toNat < 0x110000 := by
  simpa [UInt32.isValidChar, Nat.isValidChar] using c.valid

section

variable {a b c d : UInt8} (rest : Bytes)

lemma decodeRune_one (ha : a.toNat < 0x80) :
    decodeRune (a :: rest) = some (Char.ofNat a.toNat, rest) := by
  simp [decodeRune, ha]

lemma decodeRune_two (ha : 0xC2 ≤ a.toNat ∧ a.toNat ≤ 0xDF) (hb : isContinuation b) :
    decodeRune (a :: b :: rest) =
      some (Char.ofNat ((a.toNat - 0xC0) * 64 + (b.toNat - 0x80)), rest) := by
  simp [decodeRune, ha, hb, show ¬ a.toNat < 128 by omega]

lemma decodeRune_three (ha : 0xE0 ≤ a.toNat ∧ a.toNat ≤ 0xEF) (hb : isContinuation b)
    (hc : isContinuation c) (hlow : a.toNat = 0xE0 → 0xA0 ≤ b.toNat)
    (hsurr : a.toNat = 0xED → b.toNat ≤ 0x9F) :
    decodeRune (a :: b :: c :: rest) =
      some (Char.ofNat ((a.toNat - 0xE0) * 4096 + (b.toNat - 0x80) * 64 + (c.toNat - 0x80)),
        rest) := by
  rw [decodeRune, if_neg (by omega), if_neg (by omega), if_pos ha]
  exact if_pos ⟨hb, hc, hlow, hsurr⟩

lemma decodeRune_four (ha : 0xF0 ≤ a.toNat ∧ a.toNat ≤ 0xF4) (hb : isContinuation b)
    (hc : isContinuation c) (hd : isContinuation d) (hlow : a.toNat = 0xF0 → 0x90 ≤ b.toNat)
    (hhigh : a.toNat = 0xF4 → b.toNat ≤ 0x8F) :
    decodeRune (a :: b :: c :: d :: rest) =
      some (Char.ofNat ((a.toNat - 0xF0) * 262144 + (b.toNat - 0x80) * 4096 +
        (c.toNat - 0x80) * 64 + (d.toNat - 0x80)), rest) := by
  rw [decodeRune, if_neg (by omega), if_neg (by omega), if_neg (by omega), if_pos ha]
  exact if_pos ⟨hb, hc, hd, hlow, hhigh⟩

end

/-- The bytes of a character are read alike in front of anything. -/
lemma decodeRune_local {bs rest : Bytes} {c : Char} (h : decodeRune bs = some (c, rest)) :
    ∃ b t, bs = b :: t ++ rest ∧ ∀ rest', decodeRune (b :: t ++ rest') = some (c, rest') := by
  cases bs with
  | nil => cases h
  | cons a bs =>
      rw [decodeRune.eq_def] at h
      simp only at h
      split_ifs at h with hone htwo hthree hfour
      · cases h
        exact ⟨a, [], rfl, fun rest' => decodeRune_one rest' hone⟩
      · split at h
        · split_ifs at h with hb
          obtain ⟨rfl, rfl⟩ := Prod.mk.inj (Option.some.inj h)
          exact ⟨a, [_], rfl, fun rest' => decodeRune_two rest' htwo hb⟩
        · cases h
      · split at h
        · split_ifs at h with hbc
          obtain ⟨rfl, rfl⟩ := Prod.mk.inj (Option.some.inj h)
          exact ⟨a, [_, _], rfl, fun rest' => decodeRune_three rest' hthree hbc.1 hbc.2.1
            hbc.2.2.1 hbc.2.2.2⟩
        · cases h
      · split at h
        · split_ifs at h with hbcd
          obtain ⟨rfl, rfl⟩ := Prod.mk.inj (Option.some.inj h)
          exact ⟨a, [_, _, _], rfl, fun rest' => decodeRune_four rest' hfour hbcd.1 hbcd.2.1
            hbcd.2.2.1 hbcd.2.2.2.1 hbcd.2.2.2.2⟩
        · cases h

lemma toNat_uint8_ofNat {n : ℕ} (h : n < 256) : (UInt8.ofNat n).toNat = n := by
  simp [Nat.mod_eq_of_lt h]

/-- An ASCII character is its own byte. -/
lemma encode_ascii {c : Char} (h : c.toNat < 0x80) :
    String.utf8EncodeChar c = [UInt8.ofNat c.toNat] := by
  have hle : c.val.toNat ≤ 0x7f := Nat.le_of_lt_succ h
  rw [String.utf8EncodeChar]
  simp only [hle, if_true]
  rfl

/-- No byte of a longer encoding is an ASCII byte. -/
lemma encode_not_ascii {c : Char} (h : 0x80 ≤ c.toNat) :
    ∀ b ∈ String.utf8EncodeChar c, 0x80 ≤ b.toNat := by
  have hhigh (n m : ℕ) (hm : 0x80 ≤ m ∧ m + n < 256) : 0x80 ≤ (UInt8.ofNat (n + m)).toNat := by
    rw [toNat_uint8_ofNat (by omega)]
    omega
  have hval : ¬ c.val.toNat ≤ 0x7f := Nat.not_le_of_lt h
  rw [String.utf8EncodeChar]
  simp only [hval, if_false]
  intro b hb
  split_ifs at hb <;>
    (simp only [mem_cons, not_mem_nil, or_false] at hb
     rcases hb with rfl | rfl | rfl | rfl <;> exact hhigh _ _ (by omega))

/-- A character is decoded from its own bytes. -/
theorem decodeRune_encode (c : Char) (rest : Bytes) :
    decodeRune (String.utf8EncodeChar c ++ rest) = some (c, rest) := by
  have hc := toNat_lt_of_char c
  have hof : Char.ofNat c.toNat = c := Char.ofNat_toNat c
  have hval : c.val.toNat = c.toNat := rfl
  have hcont (n : ℕ) : isContinuation (UInt8.ofNat (n % 64 + 128)) := by
    simp only [isContinuation, toNat_uint8_ofNat (show n % 64 + 128 < 256 by omega)]
    simp
    omega
  simp only [String.utf8EncodeChar, hval]
  generalize c.toNat = v at hc hof
  subst hof
  split_ifs with h1 h2 h3
  · have ha := toNat_uint8_ofNat (show v < 256 by omega)
    rw [cons_append, decodeRune_one _ (by omega), ha, nil_append]
  · have ha := toNat_uint8_ofNat (show v / 64 % 32 + 192 < 256 by omega)
    have hb := toNat_uint8_ofNat (show v % 64 + 128 < 256 by omega)
    simp only [cons_append, nil_append]
    rw [decodeRune_two _ (by omega) (hcont _), ha, hb]
    exact congrArg (fun n => some (Char.ofNat n, rest)) (by omega)
  · have ha := toNat_uint8_ofNat (show v / 4096 % 16 + 224 < 256 by omega)
    have hb := toNat_uint8_ofNat (show v / 64 % 64 + 128 < 256 by omega)
    have hd := toNat_uint8_ofNat (show v % 64 + 128 < 256 by omega)
    simp only [cons_append, nil_append]
    rw [decodeRune_three _ (by omega) (hcont _) (hcont _) (by omega) (by omega), ha, hb, hd]
    exact congrArg (fun n => some (Char.ofNat n, rest)) (by omega)
  · have ha := toNat_uint8_ofNat (show v / 262144 % 8 + 240 < 256 by omega)
    have hb := toNat_uint8_ofNat (show v / 4096 % 64 + 128 < 256 by omega)
    have hd := toNat_uint8_ofNat (show v / 64 % 64 + 128 < 256 by omega)
    have he := toNat_uint8_ofNat (show v % 64 + 128 < 256 by omega)
    simp only [cons_append, nil_append]
    rw [decodeRune_four _ (by omega) (hcont _) (hcont _) (hcont _) (by omega) (by omega),
      ha, hb, hd, he]
    exact congrArg (fun n => some (Char.ofNat n, rest)) (by omega)

/-! ## Encodings determine the string -/

/-- An encoding of characters that can be read off the front of a text is injective. -/
lemma flatMap_injective_of_decode {α β : Type*} {enc : α → List β}
    (dec : List β → Option (α × List β)) (hdec : ∀ a rest, dec (enc a ++ rest) = some (a, rest))
    (hne : dec [] = none) : Function.Injective (fun as : List α => as.flatMap enc) := by
  intro as bs h
  simp only at h
  induction as generalizing bs with
  | nil =>
      cases bs with
      | nil => rfl
      | cons b bs =>
          have := hdec b (bs.flatMap enc)
          rw [flatMap_nil, flatMap_cons] at h
          rw [← h, hne] at this
          cases this
  | cons a as ih =>
      rw [flatMap_cons] at h
      cases bs with
      | nil =>
          have := hdec a (as.flatMap enc)
          rw [h, flatMap_nil, hne] at this
          cases this
      | cons b bs =>
          rw [flatMap_cons] at h
          have hab := (hdec a (as.flatMap enc)).symm.trans (h ▸ hdec b (bs.flatMap enc))
          simp only [Option.some.injEq, Prod.mk.injEq] at hab
          rw [hab.1, ih hab.2]

/-- Two strings with the same bytes are the same. -/
theorem utf8_injective : Function.Injective utf8 := by
  intro s t h
  exact String.toList_injective (flatMap_injective_of_decode decodeRune decodeRune_encode rfl h)

/-- The UTF-16 code units of a character: itself, or a surrogate pair. -/
def utf16Char (c : Char) : List ℕ :=
  if c.toNat < 0x10000 then [c.toNat]
  else [0xD800 + (c.toNat - 0x10000) / 0x400, 0xDC00 + (c.toNat - 0x10000) % 0x400]

/-- The UTF-16 encoding of a string. -/
def utf16 (s : String) : List ℕ :=
  s.toList.flatMap utf16Char

/-- Read one character off a list of UTF-16 code units. -/
def decodeUnits : List ℕ → Option (Char × List ℕ)
  | [] => none
  | u :: rest =>
    if 0xD800 ≤ u ∧ u < 0xDC00 then
      match rest with
      | w :: rest => some (Char.ofNat (0x10000 + (u - 0xD800) * 0x400 + (w - 0xDC00)), rest)
      | [] => none
    else some (Char.ofNat u, rest)

lemma decodeUnits_encode (c : Char) (rest : List ℕ) :
    decodeUnits (utf16Char c ++ rest) = some (c, rest) := by
  have hc := toNat_lt_of_char c
  have hof : Char.ofNat c.toNat = c := Char.ofNat_toNat c
  rw [utf16Char]
  split_ifs with h
  · simp only [cons_append, nil_append, decodeUnits]
    rw [if_neg (by omega), hof]
  · simp only [cons_append, nil_append, decodeUnits]
    rw [if_pos (by omega), show 0x10000 + (0xD800 + (c.toNat - 0x10000) / 0x400 - 0xD800) * 0x400 +
      (0xDC00 + (c.toNat - 0x10000) % 0x400 - 0xDC00) = c.toNat by omega, hof]

/-- Two strings with the same code units are the same. -/
theorem utf16_injective : Function.Injective utf16 := by
  intro s t h
  exact String.toList_injective (flatMap_injective_of_decode decodeUnits decodeUnits_encode rfl h)

end AuthSec

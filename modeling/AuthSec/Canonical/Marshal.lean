import AuthSec.Canonical.NormalForm
import Mathlib.Data.Int.Basic

/-!
# Canonical text of Go values

`CanonicalizeValue` marshals a Go value with `encoding/json` and canonicalises the text.  A Go
value is modelled as the JSON value that `encoding/json` writes for it, with its struct fields in
order and the omitted ones left out; the text is the print of that value by `goJson`.

`canonicalizeValue_eq` says what comes out: the canonical text of the value, if it nests no deeper
than the parser goes and has no member name twice, and an error otherwise.  `goText_eq_iff` is
the injectivity of canonical texts.
-/

namespace AuthSec

/-! ## Numbers of Go values -/

/-- A number in a Go value: an integer, or a finite double. -/
inductive GoNum where
  | int (n : Int64)
  | float (x : Float64)

lemma representable_two_pow (k : ℕ) : Representable 53 (-1074) (2 ^ k) :=
  ⟨1, k, by norm_num, by omega, by simp⟩

lemma nearest_int64_lt (n : Int64) : nearest 53 (-1074) n.toInt.natAbs < 2 ^ 1024 := by
  have hbound : ((n.toInt.natAbs : ℕ) : ℚ) ≤ 2 ^ 63 := by
    have hlow := n.le_toInt
    have hhigh := n.toInt_lt
    have hnat : n.toInt.natAbs ≤ 2 ^ 63 := by omega
    exact_mod_cast hnat
  have hle := nearest_le (by positivity) (representable_two_pow 63) hbound
  refine hle.trans_lt (pow_lt_pow_right₀ one_lt_two (by decide))

/-- The double that a printed integer is read as. -/
def Float64.ofInt64 (n : Int64) : Float64 where
  neg := decide (n.toInt < 0)
  mag := nearest 53 (-1074) n.toInt.natAbs
  representable := representable_nearest (by decide) (by positivity)
  lt_top := nearest_int64_lt n

/-- The double that a printed number is read as. -/
def GoNum.toFloat : GoNum → Float64
  | .int n => Float64.ofInt64 n
  | .float x => x

/-- The text `encoding/json` writes for a number; for a double it is the text of ECMAScript,
except that the sign of a negative zero is kept. -/
def goNumber : GoNum → Bytes
  | .int n => itoa n.toInt
  | .float x => if x.mag = 0 ∧ x.neg then [ascii '-', ascii '0'] else formatNumberES6 x

/-- Integers up to `2 ^ 53` are doubles. -/
lemma Float64.toRat_ofInt64 {n : Int64} (hn : n.toInt.natAbs ≤ 2 ^ 53) :
    (Float64.ofInt64 n).toRat = n.toInt := by
  have hrep : Representable 53 (-1074) n.toInt.natAbs := by
    rcases hn.eq_or_lt with heq | hlt
    · rw [heq]
      exact_mod_cast representable_two_pow 53
    · exact ⟨n.toInt.natAbs, 0, hlt, by decide, by simp⟩
  simp only [toRat, ofInt64, nearest_of_representable hrep, decide_eq_true_eq]
  have habs : ((n.toInt.natAbs : ℕ) : ℚ) = |(n.toInt : ℚ)| := by
    rw [← Int.cast_abs, Int.abs_eq_natAbs]
    simp
  rw [habs]
  split_ifs with hneg
  · rw [abs_of_neg (by exact_mod_cast hneg), neg_neg]
  · exact abs_of_nonneg (by exact_mod_cast not_lt.1 hneg)

/-- The digits of a printed natural number. -/
def intDigits (n : ℕ) : List ℕ :=
  if n = 0 then [0] else (Nat.digits 10 n).reverse

lemma decimalText_eq (n : ℕ) : decimalText n = (intDigits n).map digitByte := by
  rw [decimalText, intDigits]
  split_ifs <;> rfl

lemma decVal_intDigits (n : ℕ) : decVal (intDigits n) = n := by
  rw [intDigits]
  split_ifs with hzero
  · simp [hzero, decVal_cons]
  · exact decVal_digits n

lemma intDigits_lt {n d : ℕ} (h : d ∈ intDigits n) : d < 10 := by
  rw [intDigits] at h
  split_ifs at h
  · rw [List.mem_singleton.1 h]
    decide
  · exact Nat.digits_lt_base (by decide) (List.mem_reverse.1 h)

lemma intDigits_head (n : ℕ) : intDigits n = [0] ∨ ∃ d ds, intDigits n = d :: ds ∧ d ≠ 0 := by
  rw [intDigits]
  split_ifs with hzero
  · exact Or.inl rfl
  · right
    have hne : Nat.digits 10 n ≠ [] := Nat.digits_ne_nil_iff_ne_zero.2 hzero
    refine ⟨_, (Nat.digits 10 n).dropLast.reverse, ?_, Nat.getLast_digit_ne_zero 10 hzero⟩
    conv_lhs => rw [← List.dropLast_append_getLast hne]
    simp

/-- The parts of a printed integer. -/
def intParts (n : ℤ) : NumberText :=
  ⟨decide (n < 0), intDigits n.natAbs, [], false, []⟩

lemma itoa_eq_text (n : ℤ) : itoa n = (intParts n).text := by
  simp only [itoa, decimalText_eq, intParts, NumberText.text, fracText, expText]
  split_ifs with hneg <;> simp [hneg]

lemma intParts_wellFormed (n : ℤ) : (intParts n).WellFormed :=
  ⟨fun _ hd => intDigits_lt hd, by simp [intParts], by simp [intParts], intDigits_head _,
    by simp [intParts]⟩

lemma intParts_magnitude (n : ℤ) : (intParts n).magnitude = n.natAbs := by
  simp [NumberText.magnitude, NumberText.expVal, intParts, readExp, decVal_intDigits]

lemma number_itoa (n : Int64) {rest : Bytes} (hrest : NumberEnd rest) :
    number (itoa n.toInt ++ rest) = .ok (Float64.ofInt64 n, rest) := by
  rw [itoa_eq_text]
  refine number_text (intParts_wellFormed _) hrest ?_
  rw [parseFloat, Float64.round_mag (Float64.ofInt64 n)]
  · rfl
  · rw [intParts_magnitude]
    rfl

lemma number_goNumber (n : GoNum) (rest : Bytes) (hrest : NumberEnd rest) :
    number (goNumber n ++ rest) = .ok (n.toFloat, rest) := by
  cases n with
  | int n => exact number_itoa n hrest
  | float x =>
      rw [goNumber]
      split_ifs with hzero
      · have htext : [ascii '-', ascii '0'] = (⟨true, [0], [], false, []⟩ : NumberText).text := rfl
        rw [htext]
        refine number_text ⟨by simp, by simp, by simp, Or.inl rfl, by simp⟩ hrest ?_
        rw [parseFloat, Float64.round_mag x]
        · simp [GoNum.toFloat, ← hzero.2]
        · simp [NumberText.magnitude, hzero.1, decVal_cons, nearest_zero]
      · have hprinted : x.printed = x := by
          obtain ⟨neg, mag, hrep, htop⟩ := x
          simp only [Float64.printed, Float64.mk.injEq, and_true]
          cases neg <;> simp_all
        rw [number_formatNumberES6 x hrest, hprinted]
        rfl

/-! ## The printer of `encoding/json` -/

/-- What `encoding/json` writes for one character of a string, HTML escaping included. -/
def goEscape (c : Char) : Bytes :=
  if c = '<' ∨ c = '>' ∨ c = '&' then
    utf8 "\\u00" ++ [escapeByte.hexDigit (c.toNat / 16), escapeByte.hexDigit (c.toNat % 16)]
  else if c = '\u2028' then utf8 "\\u2028"
  else if c = '\u2029' then utf8 "\\u2029"
  else jcsEscape c

lemma stringStep_goEscape (c : Char) (rest : Bytes) :
    JsonParser.stringStep (goEscape c ++ rest) = .ok (some c, rest) := by
  rw [goEscape]
  split_ifs with hhtml hls hps
  · have hlt : c.toNat < 128 := by rcases hhtml with rfl | rfl | rfl <;> decide
    have hstep := stringStep_hex hlt rest
    rwa [Char.ofNat_toNat] at hstep
  · exact JsonParser.stringStep_append (by subst hls; decide +kernel) rest
  · exact JsonParser.stringStep_append (by subst hps; decide +kernel) rest
  · exact stringStep_jcsEscape c rest

/-- The writer of `encoding/json`. -/
def goJson : Printer GoNum where
  escape := goEscape
  number := goNumber
  read := GoNum.toFloat
  escape_read := stringStep_goEscape
  number_read := number_goNumber

/-- `CanonicalizeValue` of a Go value that `encoding/json` writes as `v`. -/
def canonicalizeValue (v : Json GoNum) : Except ParseFail Bytes :=
  canonicalize (goJson.render v)

/-- The canonical text of a Go value. -/
def goText (v : Json GoNum) : Bytes :=
  writeCanonical (v.map GoNum.toFloat)

/-- Two Go values are the same I-JSON value: objects up to the order of their members, and numbers
as the doubles that they are read as.  Two integers beyond `2 ^ 53` may be alike and not equal. -/
def Json.Alike (v w : Json GoNum) : Prop :=
  (v.map GoNum.toFloat).Same (w.map GoNum.toFloat)

section

variable {v w : Json GoNum} {out : Bytes}

@[simp]
lemma Json.fits_map {N M : Type} {f : N → M} {v : Json N} {room : ℕ} :
    (v.map f).Fits room ↔ v.Fits room := by
  induction v using Json.ind generalizing room with
  | arr els ih =>
      cases room with
      | zero => simp
      | succ room => simpa [Json.map] using forall₂_congr fun x hx => ih x hx
  | obj ms ih =>
      cases room with
      | zero => simp
      | succ room =>
          simp only [Json.map, Json.mapMembers_eq, Json.fits_obj, List.map_map, List.forall_mem_map]
          exact and_congr Iff.rfl (forall₂_congr fun m hm => ih m hm)
  | _ => cases room <;> simp [Json.map]

lemma Json.Alike.fits {room : ℕ} (h : v.Alike w) (hv : v.Fits room) : w.Fits room :=
  Json.fits_map.1 (Json.Same.fits h (Json.fits_map.2 hv))

/-- A Go value that nests too deep or has a member name twice has no canonical text. -/
lemma fits_of_canonicalizeValue (h : canonicalizeValue v = .ok out) :
    v.Fits (maxJSONDepth + 1) := by
  by_contra hbad
  have hread := goJson.value_render v (maxJSONDepth + 1) [] (by simp [NumberEnd])
  obtain ⟨e, he⟩ := hread.exists_error hbad
  have hws := goJson.skipWS_render v []
  rw [List.append_nil] at he hws
  rw [canonicalizeValue, canonicalize, parseJSON, hws, he] at h
  cases h

lemma canonicalizeValue_of_fits (h : v.Fits (maxJSONDepth + 1)) :
    canonicalizeValue v = .ok (goText v) := by
  rw [canonicalizeValue, canonicalize, parseJSON_render goJson h]
  rfl

/-- A Go value has a canonical text exactly when it fits, and it is the text of the value. -/
theorem canonicalizeValue_eq :
    canonicalizeValue v = .ok out ↔ v.Fits (maxJSONDepth + 1) ∧ goText v = out := by
  constructor
  · intro h
    have hfits := fits_of_canonicalizeValue h
    rw [canonicalizeValue_of_fits hfits] at h
    exact ⟨hfits, Except.ok.inj h⟩
  · rintro ⟨hfits, rfl⟩
    exact canonicalizeValue_of_fits hfits

/-- The canonical text determines the value up to the order of members. -/
theorem goText_eq_iff (hv : v.Fits (maxJSONDepth + 1)) (hw : w.Fits (maxJSONDepth + 1)) :
    goText v = goText w ↔ v.Alike w :=
  writeCanonical_eq_iff (Json.fits_map.2 hv) (Json.fits_map.2 hw)

end

end AuthSec

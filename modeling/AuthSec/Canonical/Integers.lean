import AuthSec.Canonical.Marshal

/-!
# Integers in canonical texts

An integer field of a Go struct becomes a double in the canonical text.  When the text is decoded
again the field is read by `strconv.ParseInt` from what the double is printed as, which succeeds
exactly when the integer is not among the last 512 at an end of its range
(`rereadInt64_isSome_iff`).
-/

namespace AuthSec

/-- An integer of the range of `int64`. -/
def toInt64? (n : ℤ) : Option Int64 :=
  if -2 ^ 63 ≤ n ∧ n < 2 ^ 63 then some (Int64.ofInt n) else none

/-- `strconv.ParseInt(text, 10, 64)` of the text of a JSON number. -/
def parseInt64 (text : Bytes) : Option Int64 :=
  let (neg, rest) := scanMinus text
  let (ds, rest) := digits rest
  if ds = [] ∨ rest ≠ [] then none
  else toInt64? (if neg then -(decVal ds : ℤ) else decVal ds)

/-- An integer as it is read back from a canonical text. -/
def rereadInt64 (n : Int64) : Option Int64 :=
  parseInt64 (formatNumberES6 (Float64.ofInt64 n))

/-! ## The print of a natural number -/

lemma parseInt64_text {neg : Bool} {ds : List ℕ} (hds : ∀ d ∈ ds, d < 10) (hne : ds ≠ []) :
    parseInt64 ((⟨neg, ds, [], false, []⟩ : NumberText).text) =
      toInt64? (if neg then -(decVal ds : ℤ) else decVal ds) := by
  have hminus := scanMinus_append [] neg hds hne
  have hdigits := @digits_append ds [] hds (by simp [NoDigit])
  rw [List.append_nil] at hminus hdigits
  simp only [parseInt64, NumberText.text, fracText, expText, if_true, List.append_nil, hminus,
    hdigits]
  simp [hne]

/-- The print of a natural number below `10 ^ 20` has at most 21 digits. -/
lemma length_add_le_of_shortest {x : ℚ} {m c k : ℕ} (hx : x = m) (hm : m ≠ 0) (hlt : m < 10 ^ 20)
    (hc0 : c ≠ 0) (h : shortest (nearest 53 (-1074)) x (Int.log 10 x + 1074).toNat (Int.log 10 x) =
      (c, (k : ℤ))) : k + (Nat.digits 10 c).length ≤ 21 := by
  obtain ⟨-, hk, hc⟩ := shortest_bounds (nearest 53 (-1074)) x (Int.log 10 x + 1074).toNat
    (Int.log 10 x)
  rw [h] at hk hc
  simp only [hx] at hk hc
  have hpow : 10 ^ k ≤ m := by
    have hle := (Int.zpow_le_iff_le_log (b := 10) (r := (m : ℚ)) (by decide)
      (by exact_mod_cast Nat.pos_of_ne_zero hm)).2 hk
    exact_mod_cast hle
  have hfloor : ⌊(m : ℚ) / 10 ^ (k : ℤ)⌋₊ * 10 ^ k ≤ m := by
    have hle := Nat.floor_le (a := (m : ℚ) / 10 ^ (k : ℤ)) (by positivity)
    rw [le_div_iff₀ (by positivity), zpow_natCast] at hle
    exact_mod_cast hle
  have hcm : c * 10 ^ k ≤ 2 * m := by
    calc c * 10 ^ k ≤ (⌊(m : ℚ) / 10 ^ (k : ℤ)⌋₊ + 1) * 10 ^ k := Nat.mul_le_mul_right _ hc
      _ ≤ 2 * m := by rw [add_mul, one_mul]; omega
  by_contra hgt
  have hlong : 10 ^ 22 ≤ 10 ^ (k + (Nat.digits 10 c).length) :=
    Nat.pow_le_pow_right (by decide) (by omega)
  have hdigits : 10 ^ (Nat.digits 10 c).length ≤ 10 * c :=
    Nat.base_pow_length_digits_le 10 c (by decide) hc0
  rw [pow_add] at hlong
  have hbound : 10 ^ k * 10 ^ (Nat.digits 10 c).length ≤ 10 * (2 * m) := by
    calc 10 ^ k * 10 ^ (Nat.digits 10 c).length ≤ 10 ^ k * (10 * c) := Nat.mul_le_mul_left _ hdigits
      _ = 10 * (c * 10 ^ k) := by ring
      _ ≤ 10 * (2 * m) := Nat.mul_le_mul_left _ hcm
  omega

/-- A natural number that is a double is printed as a natural number that rounds to it. -/
lemma formatNumberES6_nat (x : Float64) {m : ℕ} (hmag : x.mag = m) (hm : m ≠ 0)
    (hlt : m < 10 ^ 20) : ∃ ds : List ℕ,
      formatNumberES6 x = (⟨x.neg, ds, [], false, []⟩ : NumberText).text ∧ (∀ d ∈ ds, d < 10) ∧
        ds ≠ [] ∧ nearest 53 (-1074) (decVal ds) = m := by
  have hpos : 0 < x.mag := by
    rw [hmag]
    exact_mod_cast Nat.pos_of_ne_zero hm
  obtain ⟨c, p, hcp, hc0, hround, -⟩ := shortest_significand x.representable hpos x.lt_top
  have hlog : 0 ≤ Int.log 10 x.mag := by
    rw [hmag, Int.log_natCast]
    exact Int.natCast_nonneg _
  have hp : 0 ≤ p := by
    have hrep : nearest 53 (-1074) (m : ℚ) = m := nearest_of_representable (hmag ▸ x.representable)
    have hnonneg := shortest_nonneg hrep (Int.log 10 x.mag + 1074).toNat (Int.log 10 x.mag) hlog
      (by omega)
    rwa [← hmag, hcp] at hnonneg
  obtain ⟨k, rfl⟩ := Int.eq_ofNat_of_zero_le hp
  obtain ⟨d, ds, hds, hd⟩ := sigDigits_eq_cons hc0
  obtain ⟨j, hj⟩ : ∃ j, (Nat.digits 10 c).length = (sigDigits c).length + j :=
    Nat.exists_eq_add_of_le (length_sigDigits_le c)
  have hlen := length_add_le_of_shortest hmag hm hlt hc0 hcp
  have hparts : es6Parts x.neg (sigDigits c) (k + (Nat.digits 10 c).length - 1 + 1) =
      ⟨x.neg, sigDigits c ++ List.replicate (j + k) 0, [], false, []⟩ := by
    rw [es6Parts, if_pos (by omega),
      show ((k : ℤ) + (Nat.digits 10 c).length - 1 + 1 - (sigDigits c).length).toNat = j + k by omega]
  have hval : decVal (sigDigits c ++ List.replicate (j + k) 0) = c * 10 ^ k := by
    have hsig := decVal_sigDigits c
    rw [hj, Nat.add_sub_cancel_left] at hsig
    rw [decVal_append, decVal_replicate_zero, List.length_replicate, pow_add, ← mul_assoc, hsig,
      add_zero]
  refine ⟨sigDigits c ++ List.replicate (j + k) 0, ?_, fun e he => ?_, by simp [hds], ?_⟩
  · rw [formatNumberES6_eq hpos.ne', formatFloat, hcp, hparts]
  · rcases List.mem_append.1 he with he | he
    · exact sigDigits_lt he
    · rw [List.eq_of_mem_replicate he]
      decide
  · rw [hval, ← hmag, ← hround]
    push_cast
    rw [zpow_natCast]

/-! ## Integers near the ends of the range -/

/-- A natural number rounds to a natural number. -/
lemma nearest_natCast (n : ℕ) : ∃ m : ℕ, nearest 53 (-1074) (n : ℚ) = m := by
  by_cases hn : n < 2 ^ 53
  · exact ⟨n, nearest_of_representable ⟨n, 0, hn, by decide, by simp⟩⟩
  · have hlog : 52 ≤ Nat.log 2 n := by
      refine (Nat.le_log_iff_pow_le (by decide) (by omega)).2 ?_
      omega
    have hplace : lastPlace 53 (-1074) (n : ℚ) = ((Nat.log 2 n - 52 : ℕ) : ℤ) := by
      rw [lastPlace, Int.log_natCast]
      omega
    rw [nearest, hplace, zpow_natCast]
    exact ⟨roundHalfEven (n / 2 ^ (Nat.log 2 n - 52)) * 2 ^ (Nat.log 2 n - 52), by push_cast; rfl⟩

/-- In the last 1024 numbers below `2 ^ 63` rounding goes to one of the ends. -/
lemma nearest_below_two_pow {f : ℕ} (hf : f < 1024) :
    nearest 53 (-1074) ((2 ^ 63 - 1024 + f : ℕ) : ℚ) =
      if f < 512 then (2 ^ 63 - 1024 : ℕ) else (2 ^ 63 : ℕ) := by
  have hlog : Nat.log 2 (2 ^ 63 - 1024 + f) = 62 := by
    rw [Nat.log_eq_iff (by norm_num)]
    omega
  have hplace : lastPlace 53 (-1074) ((2 ^ 63 - 1024 + f : ℕ) : ℚ) = (10 : ℕ) := by
    rw [lastPlace, Int.log_natCast, hlog]
    rfl
  have hdiv : ((2 ^ 63 - 1024 + f : ℕ) : ℚ) / 2 ^ 10 = (2 ^ 53 - 1 : ℕ) + (f : ℚ) / 1024 := by
    push_cast
    norm_num
    ring
  have hfrac : (f : ℚ) / 1024 < 1 := by
    rw [div_lt_one (by norm_num)]
    exact_mod_cast hf
  have hfloor : ⌊((2 ^ 53 - 1 : ℕ) : ℚ) + (f : ℚ) / 1024⌋₊ = 2 ^ 53 - 1 := by
    rw [add_comm, Nat.floor_add_natCast (by positivity), Nat.floor_eq_zero.2 hfrac, zero_add]
  have hround : roundHalfEven ((2 ^ 53 - 1 : ℕ) + (f : ℚ) / 1024) =
      if f < 512 then 2 ^ 53 - 1 else 2 ^ 53 := by
    simp only [roundHalfEven, hfloor, add_sub_cancel_left]
    have hhalf : (f : ℚ) / 1024 < 1 / 2 ↔ f < 512 := by
      rw [div_lt_div_iff₀ (by norm_num) (by norm_num), one_mul]
      constructor
      · intro h
        have h' : f * 2 < 1024 := by exact_mod_cast h
        omega
      · intro h
        have h' : f * 2 < 1024 := by omega
        exact_mod_cast h'
    have hodd : ¬(2 ^ 53 - 1) % 2 = 0 := by norm_num
    simp only [hhalf, if_neg hodd, ite_self]
    split_ifs <;> norm_num
  rw [nearest, hplace, zpow_natCast, hdiv, hround]
  split_ifs <;> norm_num

lemma representable_two_pow_sub : Representable 53 (-1074) ((2 ^ 63 - 1024 : ℕ) : ℚ) :=
  ⟨2 ^ 53 - 1, 10, by norm_num, by decide, by norm_num⟩

/-- Rounding reaches `2 ^ 63` from the last 512 numbers below it on. -/
lemma nearest_lt_iff {n : ℕ} (hn : n ≤ 2 ^ 63) :
    nearest 53 (-1074) (n : ℚ) < 2 ^ 63 ↔ n < 2 ^ 63 - 512 := by
  rcases lt_or_ge n (2 ^ 63 - 1024) with hlow | hhigh
  · have hle := nearest_le (q := (n : ℚ)) (by positivity) representable_two_pow_sub
      (by exact_mod_cast hlow.le)
    refine iff_of_true (hle.trans_lt (by norm_num)) (by omega)
  · obtain ⟨f, rfl⟩ := Nat.exists_eq_add_of_le hhigh
    rcases eq_or_ne f 1024 with rfl | hne
    · have hself := nearest_of_representable (representable_two_pow 63)
      rw [show ((2 ^ 63 - 1024 + 1024 : ℕ) : ℚ) = 2 ^ 63 by norm_num, hself]
      simp
    · rw [nearest_below_two_pow (by omega)]
      split_ifs with hf
      · refine iff_of_true (by norm_num) (by omega)
      · refine iff_of_false (by norm_num) (by omega)

/-! ## Reading integers back -/

lemma formatFloat_two_pow :
    formatFloat (2 ^ 63) = ([9, 2, 2, 3, 3, 7, 2, 0, 3, 6, 8, 5, 4, 7, 7, 6], 18) := by
  decide +kernel

/-- At the ends of the range the printed number is beyond it. -/
lemma rereadInt64_of_two_pow {n : Int64} (h : (Float64.ofInt64 n).mag = 2 ^ 63) :
    rereadInt64 n = none := by
  have hne : (Float64.ofInt64 n).mag ≠ 0 := by
    rw [h]
    norm_num
  have hparts : ∀ neg, es6Parts neg [9, 2, 2, 3, 3, 7, 2, 0, 3, 6, 8, 5, 4, 7, 7, 6] (18 + 1) =
      ⟨neg, [9, 2, 2, 3, 3, 7, 2, 0, 3, 6, 8, 5, 4, 7, 7, 6, 0, 0, 0], [], false, []⟩ := by
    intro neg
    rfl
  rw [rereadInt64, formatNumberES6_eq hne, h, formatFloat_two_pow, hparts,
    parseInt64_text (by decide) (by decide)]
  cases (Float64.ofInt64 n).neg <;> decide

lemma rereadInt64_zero : rereadInt64 0 = some 0 := by
  decide +kernel

/-- Elsewhere the printed number is within the range. -/
lemma rereadInt64_of_lt {n : Int64} (h : (Float64.ofInt64 n).mag < 2 ^ 63) :
    (rereadInt64 n).isSome = true := by
  obtain ⟨m, hm⟩ := nearest_natCast n.toInt.natAbs
  have hmag : (Float64.ofInt64 n).mag = m := hm
  by_cases hzero : m = 0
  · have hn : n.toInt.natAbs = 0 := by
      by_contra hne
      have hone := le_nearest (by decide) (representable_two_pow 0)
        (show (2 : ℚ) ^ 0 ≤ n.toInt.natAbs by exact_mod_cast Nat.one_le_iff_ne_zero.2 hne)
      rw [hm, hzero] at hone
      norm_num at hone
    have hn0 : n = 0 := Int64.toInt_inj.1 (by simpa using Int.natAbs_eq_zero.1 hn)
    rw [hn0, rereadInt64_zero]
    rfl
  · have hlt : m < 2 ^ 63 := by
      rw [hmag] at h
      exact_mod_cast h
    obtain ⟨ds, htext, hds, hne, hround⟩ := formatNumberES6_nat (Float64.ofInt64 n) hmag hzero
      (hlt.trans (by norm_num))
    have hval : decVal ds < 2 ^ 63 := by
      by_contra hge
      have hle := le_nearest (by decide) (representable_two_pow 63)
        (show (2 : ℚ) ^ 63 ≤ decVal ds by exact_mod_cast not_lt.1 hge)
      rw [hround] at hle
      exact absurd (show 2 ^ 63 ≤ m by exact_mod_cast hle) (not_le.2 hlt)
    rw [rereadInt64, htext, parseInt64_text hds hne, toInt64?, if_pos]
    · rfl
    · split_ifs <;> omega

/-- The integers that can be read back. -/
theorem rereadInt64_isSome_iff (n : Int64) :
    (rereadInt64 n).isSome = true ↔ n.toInt.natAbs < 2 ^ 63 - 512 := by
  have hle : n.toInt.natAbs ≤ 2 ^ 63 := by
    have hlow := n.le_toInt
    have hhigh := n.toInt_lt
    omega
  rw [← nearest_lt_iff hle]
  constructor
  · intro hsome
    by_contra hge
    have hmag : (Float64.ofInt64 n).mag = 2 ^ 63 :=
      le_antisymm (nearest_le (by positivity) (representable_two_pow 63) (by exact_mod_cast hle))
        (not_lt.1 hge)
    rw [rereadInt64_of_two_pow hmag] at hsome
    cases hsome
  · intro hlt
    exact rereadInt64_of_lt hlt

end AuthSec

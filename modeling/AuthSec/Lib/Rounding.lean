import Mathlib.Algebra.Order.Field.Power
import Mathlib.Data.Int.Log
import Mathlib.Data.List.TakeWhile
import Mathlib.Data.Nat.Digits.Lemmas
import Mathlib.Data.Rat.Floor
import Mathlib.Tactic.FieldSimp
import Mathlib.Tactic.Linarith
import Mathlib.Tactic.Positivity

/-!
# Rounding rationals to a binary floating point format

A format is given by a precision `prec` and a least exponent `emin`.  A nonnegative rational is
**representable** when it is `m * 2 ^ e` with `m < 2 ^ prec` and `emin ≤ e`; `nearest` rounds
half to even.  The upper end of the range is left to the user of the library.

* `nearest_of_representable`: rounding fixes what is representable.
* `representable_nearest`: rounding lands on a representable number.
* `shortest_spec`: the shortest decimal that rounds back to a number rounds back to it.
-/

namespace AuthSec

open List

/-! ## Rounding half to even -/

/-- The natural number nearest to `x ≥ 0`; a tie goes to the even one. -/
def roundHalfEven (x : ℚ) : ℕ :=
  let f := ⌊x⌋₊
  if x - f < 1 / 2 then f
  else if 1 / 2 < x - f then f + 1
  else if f % 2 = 0 then f else f + 1

lemma roundHalfEven_natCast (n : ℕ) : roundHalfEven n = n := by
  simp [roundHalfEven]

lemma roundHalfEven_le {x : ℚ} {n : ℕ} (hx : 0 ≤ x) (h : x ≤ n) : roundHalfEven x ≤ n := by
  rcases Nat.lt_or_ge ⌊x⌋₊ n with hlt | hge
  · simp only [roundHalfEven]
    split_ifs <;> omega
  · obtain rfl : x = n := le_antisymm h ((Nat.le_floor_iff hx).1 hge)
    exact (roundHalfEven_natCast n).le

lemma le_roundHalfEven {x : ℚ} {n : ℕ} (h : n ≤ x) : n ≤ roundHalfEven x := by
  have hfloor : n ≤ ⌊x⌋₊ := Nat.le_floor h
  simp only [roundHalfEven]
  split_ifs <;> omega

/-! ## Representable numbers -/

/-- `x` is `m * 2 ^ e` for a significand of at most `prec` bits and an exponent from `emin` on. -/
def Representable (prec : ℕ) (emin : ℤ) (x : ℚ) : Prop :=
  ∃ m : ℕ, ∃ e : ℤ, m < 2 ^ prec ∧ emin ≤ e ∧ x = m * 2 ^ e

/-- The exponent of the last place of the numbers around `q`. -/
def lastPlace (prec : ℕ) (emin : ℤ) (q : ℚ) : ℤ :=
  max emin (Int.log 2 q + 1 - prec)

/-- Round `q ≥ 0` to the nearest representable number, ties to even. -/
def nearest (prec : ℕ) (emin : ℤ) (q : ℚ) : ℚ :=
  roundHalfEven (q / 2 ^ lastPlace prec emin q) * 2 ^ lastPlace prec emin q

section

variable {prec : ℕ} {emin : ℤ} {x q : ℚ}

lemma Representable.nonneg (h : Representable prec emin x) : 0 ≤ x := by
  obtain ⟨m, e, -, -, rfl⟩ := h
  positivity

lemma nearest_zero : nearest prec emin 0 = 0 := by
  simp [nearest, roundHalfEven]

lemma lastPlace_le (m : ℕ) (e : ℤ) (hm : 0 < m) (hlt : m < 2 ^ prec) (he : emin ≤ e) :
    lastPlace prec emin (m * 2 ^ e : ℚ) ≤ e := by
  have hpos : (0 : ℚ) < m * 2 ^ e := by positivity
  have hlog : (2 : ℚ) ^ Int.log 2 (m * 2 ^ e : ℚ) < 2 ^ ((prec : ℤ) + e) := by
    refine lt_of_le_of_lt (by exact_mod_cast Int.zpow_log_le_self (b := 2) (by decide) hpos) ?_
    rw [zpow_add₀ two_ne_zero, zpow_natCast]
    gcongr
    exact_mod_cast hlt
  have := (zpow_lt_zpow_iff_right₀ one_lt_two).1 hlog
  simp only [lastPlace, max_le_iff]
  omega

/-- A number with an exponent from `l` on is a multiple of `2 ^ l`. -/
lemma exists_multiple (m : ℕ) {e l : ℤ} (h : l ≤ e) : ∃ k : ℕ, (m : ℚ) * 2 ^ e = k * 2 ^ l := by
  obtain ⟨n, hn⟩ := Int.eq_ofNat_of_zero_le (sub_nonneg.2 h)
  obtain rfl : e = n + l := by omega
  refine ⟨m * 2 ^ n, ?_⟩
  rw [zpow_add₀ two_ne_zero, zpow_natCast]
  push_cast
  ring

/-- Rounding fixes what is representable. -/
theorem nearest_of_representable (h : Representable prec emin x) : nearest prec emin x = x := by
  obtain ⟨m, e, hlt, he, rfl⟩ := h
  rcases Nat.eq_zero_or_pos m with rfl | hm
  · simp [nearest_zero]
  obtain ⟨k, hk⟩ := exists_multiple m (lastPlace_le m e hm hlt he)
  rw [nearest]
  generalize lastPlace prec emin (m * 2 ^ e : ℚ) = l at hk ⊢
  rw [hk, mul_div_cancel_right₀ _ (by positivity), roundHalfEven_natCast]

/-- Rounding lands on a representable number. -/
theorem representable_nearest (hprec : 0 < prec) (hq : 0 ≤ q) :
    Representable prec emin (nearest prec emin q) := by
  rcases hq.eq_or_lt with rfl | hpos
  · exact ⟨0, emin, by positivity, le_rfl, by simp [nearest_zero]⟩
  set l := lastPlace prec emin q with hl
  have hlog : q < 2 ^ (Int.log 2 q + 1) := by
    exact_mod_cast Int.lt_zpow_succ_log_self (b := 2) (by decide) q
  have hlt : q / 2 ^ l ≤ (2 ^ prec : ℕ) := by
    rw [div_le_iff₀ (by positivity)]
    push_cast
    rw [← zpow_natCast, ← zpow_add₀ two_ne_zero]
    refine hlog.le.trans (zpow_le_zpow_right₀ one_le_two ?_)
    have := le_max_right emin (Int.log 2 q + 1 - prec)
    simp only [lastPlace] at hl
    omega
  have hround := roundHalfEven_le (by positivity) hlt
  have hmin : emin ≤ l := le_max_left _ _
  rw [nearest, ← hl]
  -- a significand that rounds up to `2 ^ prec` moves to the next exponent
  rcases hround.eq_or_lt with heq | hlt'
  · refine ⟨1, prec + l, Nat.one_lt_two_pow hprec.ne', by omega, ?_⟩
    rw [heq, zpow_add₀ two_ne_zero, zpow_natCast]
    push_cast
    ring
  · exact ⟨_, l, hlt', hmin, rfl⟩

/-- Rounding does not pass a representable number. -/
lemma nearest_le (hq : 0 ≤ q) (hx : Representable prec emin x) (hle : q ≤ x) :
    nearest prec emin q ≤ x := by
  rcases hq.eq_or_lt with rfl | hpos
  · rw [nearest_zero]
    exact hle
  obtain ⟨m, e, hlt, he, rfl⟩ := hx
  set l := lastPlace prec emin q with hl
  -- the last place of `q` is not finer than needed for `x`
  have hle' : l ≤ e := by
    by_contra hgt
    have hlog : (2 : ℚ) ^ Int.log 2 q ≤ q := by
      exact_mod_cast Int.zpow_log_le_self (b := 2) (by decide) hpos
    have hm : (m : ℚ) * 2 ^ e < 2 ^ ((prec : ℤ) + e) := by
      rw [zpow_add₀ two_ne_zero, zpow_natCast]
      gcongr
      exact_mod_cast hlt
    have := (zpow_lt_zpow_iff_right₀ one_lt_two).1 (hlog.trans_lt (hle.trans_lt hm))
    rw [hl, lastPlace] at hgt
    omega
  obtain ⟨k, hk⟩ := exists_multiple m hle'
  rw [hk] at hle ⊢
  rw [nearest, ← hl]
  have hround := roundHalfEven_le (by positivity) ((div_le_iff₀ (by positivity)).2 hle)
  gcongr

/-- Rounding stays above a representable number. -/
lemma le_nearest (hprec : 0 < prec) (hx : Representable prec emin x) (hle : x ≤ q) :
    x ≤ nearest prec emin q := by
  rcases hx.nonneg.eq_or_lt with rfl | hpos
  · rw [nearest]
    positivity
  have hq : 0 < q := hpos.trans_le hle
  obtain ⟨m, e, hlt, he, rfl⟩ := hx
  set l := lastPlace prec emin q with hl
  -- multiples of the last place below `q` stay below
  have hmultiple : ∀ k : ℕ, (k : ℚ) * 2 ^ l ≤ q → (k : ℚ) * 2 ^ l ≤ nearest prec emin q := by
    intro k hk
    rw [nearest, ← hl]
    have hround := le_roundHalfEven ((le_div_iff₀ (by positivity)).2 hk)
    gcongr
  rcases le_or_gt l e with hle' | hgt
  · obtain ⟨k, hk⟩ := exists_multiple m hle'
    rw [hk] at hle ⊢
    exact hmultiple k hle
  · have hlog : l = Int.log 2 q + 1 - prec := by
      rw [hl, lastPlace] at hgt ⊢
      omega
    have hpow : (2 : ℚ) ^ Int.log 2 q = (2 ^ (prec - 1) : ℕ) * 2 ^ l := by
      rw [Nat.cast_pow, Nat.cast_ofNat, ← zpow_natCast, ← zpow_add₀ two_ne_zero]
      congr 1
      omega
    have hbelow : (2 : ℚ) ^ Int.log 2 q ≤ q := by
      exact_mod_cast Int.zpow_log_le_self (b := 2) (by decide) hq
    calc (m : ℚ) * 2 ^ e ≤ 2 ^ prec * 2 ^ e := by
          gcongr
          exact_mod_cast hlt.le
      _ = 2 ^ ((prec : ℤ) + e) := by rw [zpow_add₀ two_ne_zero, zpow_natCast]
      _ ≤ 2 ^ Int.log 2 q := zpow_le_zpow_right₀ one_le_two (by omega)
      _ ≤ nearest prec emin q := by
          rw [hpow] at hbelow ⊢
          exact hmultiple _ hbelow

/-- A number of the format has finitely many decimals, as many as its least exponent says. -/
lemma Representable.decimal (h : Representable prec emin x) (hmin : emin ≤ 0) :
    ∃ n : ℕ, x = n * 10 ^ emin := by
  obtain ⟨m, e, -, he, rfl⟩ := h
  obtain ⟨k, rfl⟩ := Int.exists_eq_neg_ofNat hmin
  obtain ⟨j, hj⟩ := Int.eq_ofNat_of_zero_le (sub_nonneg.2 he)
  obtain rfl : e = j - k := by omega
  refine ⟨m * 2 ^ j * 5 ^ k, ?_⟩
  have : (10 : ℚ) = 2 * 5 := by norm_num
  push_cast
  rw [this, zpow_sub₀ two_ne_zero, zpow_neg, mul_zpow]
  simp only [zpow_natCast]
  field_simp

end

/-! ## Decimal digits -/

/-- The number a list of decimal digits denotes, the most significant first. -/
def decVal (ds : List ℕ) : ℕ :=
  Nat.ofDigits 10 ds.reverse

/-- The decimal digits of `c`, the most significant first, without trailing zeros. -/
def sigDigits (c : ℕ) : List ℕ :=
  ((Nat.digits 10 c).dropWhile (· = 0)).reverse

@[simp]
lemma decVal_nil : decVal [] = 0 := rfl

lemma decVal_append (as bs : List ℕ) :
    decVal (as ++ bs) = decVal as * 10 ^ bs.length + decVal bs := by
  simp only [decVal, reverse_append, Nat.ofDigits_append, length_reverse]
  ring

lemma decVal_cons (d : ℕ) (ds : List ℕ) : decVal (d :: ds) = d * 10 ^ ds.length + decVal ds := by
  simpa [decVal] using decVal_append [d] ds

lemma decVal_digits (n : ℕ) : decVal (Nat.digits 10 n).reverse = n := by
  rw [decVal, reverse_reverse, Nat.ofDigits_digits]

lemma decVal_replicate_zero (n : ℕ) : decVal (List.replicate n 0) = 0 := by
  simp [decVal, Nat.ofDigits_replicate_zero]

lemma ofDigits_dropWhile_zero (ds : List ℕ) :
    Nat.ofDigits 10 ds =
      10 ^ (ds.length - (ds.dropWhile (· = 0)).length) *
        Nat.ofDigits 10 (ds.dropWhile (· = 0)) := by
  induction ds with
  | nil => simp
  | cons d ds ih =>
      by_cases hd : d = 0
      · have hle := (dropWhile_suffix (l := ds) (· = 0)).length_le
        simp only [hd, dropWhile_cons, decide_true, if_true, length_cons,
          Nat.ofDigits_cons, Nat.succ_sub hle, pow_succ]
        rw [ih]
        ring
      · simp [hd]

lemma length_sigDigits_le (c : ℕ) : (sigDigits c).length ≤ (Nat.digits 10 c).length := by
  simpa [sigDigits] using (dropWhile_suffix (l := Nat.digits 10 c) (· = 0)).length_le

lemma decVal_sigDigits (c : ℕ) :
    decVal (sigDigits c) * 10 ^ ((Nat.digits 10 c).length - (sigDigits c).length) = c := by
  have h := ofDigits_dropWhile_zero (Nat.digits 10 c)
  rw [Nat.ofDigits_digits] at h
  simp only [decVal, sigDigits, reverse_reverse, length_reverse]
  rw [mul_comm]
  exact h.symm

lemma sigDigits_lt {c d : ℕ} (h : d ∈ sigDigits c) : d < 10 := by
  refine Nat.digits_lt_base (m := c) (by decide) ?_
  exact (dropWhile_suffix _).subset (mem_reverse.1 h)

lemma reverse_dropWhile_zero {l : List ℕ} (hne : l ≠ []) (hlast : l.getLast hne ≠ 0) :
    ∃ d ds, (l.dropWhile (· = 0)).reverse = d :: ds ∧ d ≠ 0 := by
  obtain ⟨t, ht⟩ := dropWhile_suffix (l := l) (fun d => decide (d = 0))
  have hdrop : l.dropWhile (· = 0) ≠ [] := by
    intro hnil
    have hall := dropWhile_eq_nil_iff.1 hnil _ (getLast_mem hne)
    exact hlast (by simpa using hall)
  generalize l.dropWhile (· = 0) = r at ht hdrop ⊢
  subst ht
  refine ⟨r.getLast hdrop, r.dropLast.reverse, ?_, ?_⟩
  · conv_lhs => rw [← dropLast_append_getLast hdrop]
    simp
  · rwa [getLast_append_of_ne_nil _ hdrop] at hlast

/-- The digits of a positive number start with one that is not zero. -/
lemma sigDigits_eq_cons {c : ℕ} (hc : c ≠ 0) : ∃ d ds, sigDigits c = d :: ds ∧ d ≠ 0 :=
  reverse_dropWhile_zero (Nat.digits_ne_nil_iff_ne_zero.2 hc) (Nat.getLast_digit_ne_zero 10 hc)

/-! ## The shortest decimal that rounds back -/

/-- Of the two decimals of exponent `p` around `x`, the one that `rnd` takes back to `x`, and
if both are, the nearer one; a tie goes to the even one. -/
def decimalAt (rnd : ℚ → ℚ) (x : ℚ) (p : ℤ) : Option ℕ :=
  let lo := ⌊x / 10 ^ p⌋₊
  let below := x - lo * 10 ^ p
  let above := (lo + 1 : ℕ) * 10 ^ p - x
  if rnd (lo * 10 ^ p) = x then
    if rnd ((lo + 1 : ℕ) * 10 ^ p) = x ∧ (above < below ∨ above = below ∧ lo % 2 = 1) then
      some (lo + 1)
    else some lo
  else if rnd ((lo + 1 : ℕ) * 10 ^ p) = x then some (lo + 1)
  else none

/-- Try the exponents `p`, `p - 1`, … in turn, at most `n` of them. -/
def shortest (rnd : ℚ → ℚ) (x : ℚ) : ℕ → ℤ → ℕ × ℤ
  | 0, p => (⌊x / 10 ^ p⌋₊, p)
  | n + 1, p =>
    match decimalAt rnd x p with
    | some c => (c, p)
    | none => shortest rnd x n (p - 1)

lemma decimalAt_spec {rnd : ℚ → ℚ} {x : ℚ} {p : ℤ} {c : ℕ} (h : decimalAt rnd x p = some c) :
    rnd (c * 10 ^ p) = x := by
  simp only [decimalAt] at h
  split_ifs at h with hlo hboth hhi <;> cases h
  · exact hboth.1
  · exact hlo
  · exact hhi

lemma decimalAt_le {rnd : ℚ → ℚ} {x : ℚ} {p : ℤ} {c : ℕ} (h : decimalAt rnd x p = some c) :
    c ≤ ⌊x / 10 ^ p⌋₊ + 1 := by
  simp only [decimalAt] at h
  split_ifs at h <;> cases h <;> omega

/-- The exponents tried, and how far the significand can be from the number. -/
lemma shortest_bounds (rnd : ℚ → ℚ) (x : ℚ) (n : ℕ) (p : ℤ) :
    p - n ≤ (shortest rnd x n p).2 ∧ (shortest rnd x n p).2 ≤ p ∧
      (shortest rnd x n p).1 ≤ ⌊x / 10 ^ (shortest rnd x n p).2⌋₊ + 1 := by
  induction n generalizing p with
  | zero => simp [shortest]
  | succ n ih =>
      simp only [shortest]
      split
      · next c hc => exact ⟨by push_cast; omega, le_rfl, decimalAt_le hc⟩
      · obtain ⟨hlow, hhigh, hc⟩ := ih (p - 1)
        exact ⟨by push_cast; omega, by omega, hc⟩

/-- A natural number is printed without decimals. -/
lemma shortest_nonneg {rnd : ℚ → ℚ} {m : ℕ} (hm : rnd m = m) (n : ℕ) (p : ℤ) (hp : 0 ≤ p)
    (hn : p < n) : 0 ≤ (shortest rnd m n p).2 := by
  induction n generalizing p with
  | zero => omega
  | succ n ih =>
      simp only [shortest]
      split
      · exact hp
      · next hnone =>
          refine ih (p - 1) ?_ (by push_cast at hn; omega)
          -- at the exponent zero the number itself would have been found
          by_contra hneg
          obtain rfl : p = 0 := by omega
          simp only [decimalAt, zpow_zero, div_one, mul_one, Nat.floor_natCast, hm, if_true] at hnone
          split_ifs at hnone

/-- The decimal found rounds to `x`, if `x` has finitely many decimals in reach. -/
theorem shortest_spec {rnd : ℚ → ℚ} {x : ℚ} (hx : rnd x = x) (n : ℕ) (p : ℤ)
    (hdec : ∃ m : ℕ, x = m * 10 ^ (p - n)) :
    rnd ((shortest rnd x n p).1 * 10 ^ (shortest rnd x n p).2) = x := by
  induction n generalizing p with
  | zero =>
      obtain ⟨m, hm⟩ := hdec
      simp only [Nat.cast_zero, sub_zero] at hm
      have hpos : (10 : ℚ) ^ p ≠ 0 := by positivity
      have hfloor : ⌊x / 10 ^ p⌋₊ = m := by
        rw [hm, mul_div_cancel_right₀ _ hpos, Nat.floor_natCast]
      simp only [shortest, hfloor]
      rw [← hm, hx]
  | succ n ih =>
      simp only [shortest]
      split
      · next c hc => exact decimalAt_spec hc
      · refine ih (p - 1) ?_
        simpa [sub_sub, add_comm] using hdec

end AuthSec

import AuthSec.Canonical.Number

/-!
# Printing and reading numbers back

`number_text` reads the text of a `NumberText` back as its parts; `formatNumberES6_eq` shows that
`FormatNumberES6` prints such a text; `number_formatNumberES6` puts them together: the scanner
reads a printed double as the same double, with `-0` read as `0`.
-/

namespace AuthSec

open List

/-! ## Digits and what follows them -/

lemma toNat_digitByte {d : ℕ} (h : d < 10) : (digitByte d).toNat = 48 + d :=
  toNat_uint8_ofNat (by omega)

lemma isDigit_digitByte {d : ℕ} (h : d < 10) : isDigit (digitByte d) = true := by
  simp only [isDigit, toNat_digitByte h, Bool.and_eq_true, decide_eq_true_eq]
  omega

lemma digitByte_eq_ascii_zero {d : ℕ} (h : d < 10) : digitByte d = ascii '0' ↔ d = 0 := by
  constructor
  · intro heq
    have hval : (digitByte d).toNat = 48 := by rw [heq]; rfl
    rw [toNat_digitByte h] at hval
    omega
  · rintro rfl
    rfl

/-- The next byte, if there is one, is not a digit. -/
def NoDigit (bs : Bytes) : Prop :=
  ∀ b ∈ bs.head?, isDigit b = false

/-- The next byte, if there is one, cannot continue a number. -/
def NumberEnd (bs : Bytes) : Prop :=
  ∀ b ∈ bs.head?, isDigit b = false ∧ b ≠ ascii '.' ∧ b ≠ ascii 'e' ∧ b ≠ ascii 'E'

lemma NumberEnd.noDigit {bs : Bytes} (h : NumberEnd bs) : NoDigit bs :=
  fun b hb => (h b hb).1

lemma noDigit_cons {b : UInt8} {bs : Bytes} (h : isDigit b = false) : NoDigit (b :: bs) := by
  intro c hc
  simp only [head?_cons, Option.mem_some_iff] at hc
  exact hc ▸ h

lemma digits_of_noDigit {bs : Bytes} (h : NoDigit bs) : digits bs = ([], bs) := by
  cases bs with
  | nil => rfl
  | cons b bs => simp [digits, h b rfl]

lemma digits_append {ds : List ℕ} {rest : Bytes} (hds : ∀ d ∈ ds, d < 10) (hrest : NoDigit rest) :
    digits (ds.map digitByte ++ rest) = (ds, rest) := by
  induction ds with
  | nil => exact digits_of_noDigit hrest
  | cons d ds ih =>
      have hd : d < 10 := hds d (by simp)
      have ih := ih fun e he => hds e (by simp [he])
      simp only [map_cons, cons_append, digits, isDigit_digitByte hd, if_true, ih,
        toNat_digitByte hd]
      simp

/-! ## Scanning the text of a number -/

/-- The text of a fraction, if there are digits for one. -/
def fracText (frac : List ℕ) : Bytes :=
  if frac = [] then [] else ascii '.' :: frac.map digitByte

/-- The text of an exponent, if there are digits for one. -/
def expText (neg : Bool) (exp : List ℕ) : Bytes :=
  if exp = [] then [] else ascii 'e' :: ascii (if neg then '-' else '+') :: exp.map digitByte

/-- The text of a number. -/
def NumberText.text (t : NumberText) : Bytes :=
  (if t.neg then [ascii '-'] else []) ++ t.int.map digitByte ++ fracText t.frac ++
    expText t.expNeg t.exp

/-- The parts are decimal digits, and the integer part has no superfluous zero. -/
structure NumberText.WellFormed (t : NumberText) : Prop where
  int_digit : ∀ d ∈ t.int, d < 10
  frac_digit : ∀ d ∈ t.frac, d < 10
  exp_digit : ∀ d ∈ t.exp, d < 10
  int_head : t.int = [0] ∨ ∃ d ds, t.int = d :: ds ∧ d ≠ 0
  exp_sign : t.exp = [] → t.expNeg = false

/-- The bytes that the text of a number is made of. -/
lemma NumberText.WellFormed.mem_text {t : NumberText} (ht : t.WellFormed) {b : UInt8}
    (hb : b ∈ t.text) : b ∈ "0123456789+-.e".toList.map ascii := by
  have hdigit : ∀ d < 10, digitByte d ∈ "0123456789+-.e".toList.map ascii := by decide
  have hdigits {ds : List ℕ} (hds : ∀ d ∈ ds, d < 10) (hb : b ∈ ds.map digitByte) :
      b ∈ "0123456789+-.e".toList.map ascii := by
    obtain ⟨d, hd, rfl⟩ := mem_map.1 hb
    exact hdigit d (hds d hd)
  simp only [NumberText.text, mem_append] at hb
  rcases hb with ((hb | hb) | hb) | hb
  · split_ifs at hb
    · obtain rfl := mem_singleton.1 hb
      decide
    · exact absurd hb not_mem_nil
  · exact hdigits ht.int_digit hb
  · rw [fracText] at hb
    split_ifs at hb
    · exact absurd hb not_mem_nil
    · rcases mem_cons.1 hb with rfl | hb
      · decide
      · exact hdigits ht.frac_digit hb
  · rw [expText] at hb
    split at hb
    · exact absurd hb not_mem_nil
    · rcases mem_cons.1 hb with rfl | hb
      · decide
      rcases mem_cons.1 hb with rfl | hb
      · cases t.expNeg <;> decide
      · exact hdigits ht.exp_digit hb

section

variable {rest : Bytes}

lemma scanInt_append {ds : List ℕ} (hds : ∀ d ∈ ds, d < 10)
    (hhead : ds = [0] ∨ ∃ d es, ds = d :: es ∧ d ≠ 0) (hrest : NoDigit rest) :
    scanInt (ds.map digitByte ++ rest) = .ok (ds, rest) := by
  rcases hhead with rfl | ⟨d, es, rfl, hd⟩
  · simp [scanInt, digitByte, ascii]
  · have hscan := digits_append hds hrest
    have hlt : d < 10 := hds d (by simp)
    simp only [map_cons, cons_append] at hscan ⊢
    simp [scanInt, digitByte_eq_ascii_zero hlt, hd, hscan]

lemma scanMinus_append (rest : Bytes) {ds : List ℕ} (neg : Bool) (hds : ∀ d ∈ ds, d < 10)
    (hne : ds ≠ []) :
    scanMinus ((if neg then [ascii '-'] else []) ++ (ds.map digitByte ++ rest)) =
      (neg, ds.map digitByte ++ rest) := by
  cases neg with
  | true => simp [scanMinus]
  | false =>
      obtain ⟨d, es, rfl⟩ := exists_cons_of_ne_nil hne
      have hd : d < 10 := hds d (by simp)
      have hminus : digitByte d ≠ ascii '-' := by
        intro heq
        have hval : (digitByte d).toNat = 45 := by rw [heq]; rfl
        rw [toNat_digitByte hd] at hval
        omega
      simp [scanMinus, hminus]

lemma scanFrac_fracText {ds : List ℕ} (hds : ∀ d ∈ ds, d < 10) (hrest : NoDigit rest)
    (hpoint : ∀ b ∈ rest.head?, b ≠ ascii '.') :
    scanFrac (fracText ds ++ rest) = .ok (ds, rest) := by
  rw [fracText]
  split_ifs with h
  · subst h
    cases rest with
    | nil => rfl
    | cons b bs => simp [scanFrac, hpoint b rfl]
  · simp [scanFrac, digits_append hds hrest, h]

lemma scanSign_cons (neg : Bool) :
    scanSign (ascii (if neg then '-' else '+') :: rest) = (neg, rest) := by
  cases neg
  · simp [scanSign]
  · simp [scanSign, show ascii '-' ≠ ascii '+' by decide]

lemma scanExp_expText {neg : Bool} {ds : List ℕ} (hds : ∀ d ∈ ds, d < 10)
    (hneg : ds = [] → neg = false) (hrest : NumberEnd rest) :
    scanExp (expText neg ds ++ rest) = .ok (neg, ds, rest) := by
  by_cases h : ds = []
  · subst h
    cases rest with
    | nil => simp [expText, scanExp, hneg rfl]
    | cons b bs =>
        have hb := hrest b rfl
        simp [expText, scanExp, hneg rfl, hb.2.2.1, hb.2.2.2]
  · simp only [expText, h, if_false, cons_append]
    simp [scanExp, scanSign_cons, digits_append hds hrest.noDigit, h]

lemma noDigit_expText (neg : Bool) (ds : List ℕ) (hrest : NumberEnd rest) :
    NoDigit (expText neg ds ++ rest) ∧ ∀ b ∈ (expText neg ds ++ rest).head?, b ≠ ascii '.' := by
  by_cases h : ds = []
  · simp only [expText, h, if_true, nil_append]
    exact ⟨hrest.noDigit, fun b hb => (hrest b hb).2.1⟩
  · simp only [expText, h, if_false, cons_append]
    refine ⟨noDigit_cons (by decide), fun b hb => ?_⟩
    simp only [head?_cons, Option.mem_some_iff] at hb
    exact hb ▸ by decide

lemma noDigit_fracText (ds : List ℕ) (hrest : NoDigit rest) : NoDigit (fracText ds ++ rest) := by
  rw [fracText]
  split_ifs
  · exact hrest
  · exact noDigit_cons (by decide)

/-- A number starts with a sign or a digit. -/
lemma number_head {bs : Bytes} {r : Float64 × Bytes} (h : number bs = .ok r) :
    ∃ b rest, bs = b :: rest ∧ (b = ascii '-' ∨ isDigit b = true) := by
  cases bs with
  | nil => cases h
  | cons b bs =>
      refine ⟨b, bs, rfl, ?_⟩
      by_contra hb
      rw [not_or, Bool.not_eq_true] at hb
      have hzero : b ≠ ascii '0' := by
        rintro rfl
        exact absurd hb.2 (by decide)
      have hscan : scanInt (b :: bs) = fail (b :: bs) .invalidNumber := by
        simp [scanInt, hzero, digits, hb.2]
      simp only [number, scanMinus, hb.1, if_false, hscan] at h
      cases h

/-- The scanner reads the text of a number as its parts. -/
theorem number_text {t : NumberText} {f : Float64} (ht : t.WellFormed)
    (hrest : NumberEnd rest) (hf : parseFloat t = some f) :
    number (t.text ++ rest) = .ok (f, rest) := by
  obtain ⟨hexpDigit, hexpPoint⟩ := noDigit_expText t.expNeg t.exp hrest
  have hint : t.int ≠ [] := by
    rcases ht.int_head with h | ⟨d, ds, h, -⟩ <;> simp [h]
  have hminus := scanMinus_append (fracText t.frac ++ (expText t.expNeg t.exp ++ rest))
    t.neg ht.int_digit hint
  have hscanInt := scanInt_append ht.int_digit ht.int_head (noDigit_fracText t.frac hexpDigit)
  have hscanFrac := scanFrac_fracText ht.frac_digit hexpDigit hexpPoint
  have hscanExp := scanExp_expText ht.exp_digit ht.exp_sign hrest
  simp only [NumberText.text, append_assoc, number]
  simp only [hminus, hscanInt, hscanFrac, hscanExp, bind, Except.bind, hf]
  rfl

end

/-! ## The parts of a printed double -/

/-- The parts that `FormatNumberES6` prints for the digits `ds` and the point position `n`. -/
def es6Parts (neg : Bool) (ds : List ℕ) (n : ℤ) : NumberText :=
  if ds.length ≤ n ∧ n ≤ 21 then
    ⟨neg, ds ++ List.replicate (n - ds.length).toNat 0, [], false, []⟩
  else if 0 < n ∧ n ≤ 21 then
    ⟨neg, ds.take n.toNat, ds.drop n.toNat, false, []⟩
  else if -6 < n ∧ n ≤ 0 then
    ⟨neg, [0], List.replicate (-n).toNat 0 ++ ds, false, []⟩
  else
    ⟨neg, ds.take 1, ds.drop 1, decide (n - 1 < 0), (Nat.digits 10 (n - 1).natAbs).reverse⟩

lemma itoa_eq_cons {m : ℤ} (hm : m ≠ 0) :
    (if 0 ≤ m then [ascii '+'] else []) ++ itoa m =
      ascii (if decide (m < 0) then '-' else '+') ::
        ((Nat.digits 10 m.natAbs).reverse.map digitByte) := by
  rcases lt_or_ge m 0 with hneg | hpos
  · simp [itoa, decimalText, hneg, hm]
  · simp [itoa, decimalText, hpos, hm, hpos.not_gt]

lemma digits_reverse_ne_nil {m : ℕ} (hm : m ≠ 0) : (Nat.digits 10 m).reverse ≠ [] := by
  simpa [Nat.digits_ne_nil_iff_ne_zero] using hm

lemma layoutES6_eq (neg : Bool) (ds : List ℕ) (n : ℤ) :
    (if neg then [ascii '-'] else []) ++ layoutES6 (ds.map digitByte) n =
      (es6Parts neg ds n).text := by
  have hzero (m : ℕ) : List.replicate m (ascii '0') = (List.replicate m 0).map digitByte := by
    rw [map_replicate]
    rfl
  simp only [layoutES6, length_map, hzero]
  by_cases h1 : ds.length ≤ n ∧ n ≤ 21
  · simp [h1, es6Parts, NumberText.text, fracText, expText]
  by_cases h2 : 0 < n ∧ n ≤ 21
  · -- there are digits behind the point, since the first case does not hold
    have hdrop : ds.drop n.toNat ≠ [] := by
      rw [ne_eq, drop_eq_nil_iff]
      omega
    simp only [es6Parts, if_neg h1, if_pos h2, NumberText.text, fracText, expText, if_neg hdrop]
    simp
  by_cases h3 : -6 < n ∧ n ≤ 0
  · have hne : List.replicate (-n).toNat 0 ++ ds ≠ [] := by
      intro h
      simp only [append_eq_nil_iff] at h
      have : ds.length = 0 := by rw [h.2]; rfl
      have : (-n).toNat = 0 := by simpa using congrArg List.length h.1
      omega
    simp only [es6Parts, if_neg h1, if_neg h2, if_pos h3, NumberText.text, fracText, expText,
      if_neg hne]
    simp [digitByte, ascii]
  · have hn : n - 1 ≠ 0 := by omega
    have hexp := digits_reverse_ne_nil (Int.natAbs_ne_zero.2 hn)
    simp only [es6Parts, if_neg h1, if_neg h2, if_neg h3, NumberText.text, fracText, expText,
      if_neg hexp, itoa_eq_cons hn]
    by_cases hk : ds.length > 1
    · have hdrop : ds.drop 1 ≠ [] := by
        rw [ne_eq, drop_eq_nil_iff]
        omega
      rw [if_pos hk, if_neg hdrop]
      simp
    · have hdrop : ds.drop 1 = [] := drop_eq_nil_iff.2 (by omega)
      rw [if_neg hk, if_pos hdrop]
      simp

lemma formatNumberES6_eq {f : Float64} (hf : f.mag ≠ 0) :
    formatNumberES6 f =
      (es6Parts f.neg (formatFloat f.mag).1 ((formatFloat f.mag).2 + 1)).text := by
  rw [formatNumberES6, if_neg hf, layoutES6_eq]

section

variable {neg : Bool} {ds : List ℕ} {n : ℤ}

lemma es6Parts_neg : (es6Parts neg ds n).neg = neg := by
  rw [es6Parts]
  split_ifs <;> rfl

lemma es6Parts_wellFormed (hds : ∀ d ∈ ds, d < 10) (hhead : ∃ d es, ds = d :: es ∧ d ≠ 0) :
    (es6Parts neg ds n).WellFormed := by
  obtain ⟨d, es, rfl, hd⟩ := hhead
  have htake (m : ℕ) : ∀ e ∈ (d :: es).take m, e < 10 :=
    fun e he => hds e (mem_of_mem_take he)
  have hdrop (m : ℕ) : ∀ e ∈ (d :: es).drop m, e < 10 :=
    fun e he => hds e (mem_of_mem_drop he)
  have hzero {m : ℕ} : ∀ e ∈ List.replicate m 0, e < 10 := by
    intro e he
    rw [eq_of_mem_replicate he]
    decide
  rw [es6Parts]
  split_ifs with h1 h2 h3
  · refine ⟨fun e he => ?_, by simp, by simp, Or.inr ⟨d, _, rfl, hd⟩, by simp⟩
    rcases mem_append.1 he with he | he
    · exact hds e he
    · exact hzero e he
  · refine ⟨htake _, hdrop _, by simp, Or.inr ?_, by simp⟩
    obtain ⟨m, hm⟩ : ∃ m, n.toNat = m + 1 := ⟨n.toNat - 1, by omega⟩
    exact ⟨d, es.take m, by simp [hm], hd⟩
  · refine ⟨by simp, fun e he => ?_, by simp, Or.inl rfl, by simp⟩
    rcases mem_append.1 he with he | he
    · exact hzero e he
    · exact hds e he
  · refine ⟨htake _, hdrop _, fun e he => ?_, Or.inr ⟨d, [], rfl, hd⟩, fun hnil => ?_⟩
    · exact Nat.digits_lt_base (by decide) (mem_reverse.1 he)
    · exact absurd hnil (digits_reverse_ne_nil (by omega))

/-- Reading an exponent that stays below the bound of `strconv` gives its value. -/
lemma readExp_eq (ds : List ℕ) (hds : decVal ds < 100000) : readExp ds = decVal ds := by
  have key : ∀ (es : List ℕ) (a : ℕ), a * 10 ^ es.length + decVal es < 100000 →
      es.foldl (fun e d => if e < 10000 then e * 10 + d else e) a =
        a * 10 ^ es.length + decVal es := by
    intro es
    induction es with
    | nil => simp
    | cons e es ih =>
        intro a ha
        have hstep : a * 10 ^ (e :: es).length + decVal (e :: es) =
            (a * 10 + e) * 10 ^ es.length + decVal es := by
          rw [decVal_cons, length_cons, pow_succ]
          ring
        have hone : 1 ≤ 10 ^ es.length := Nat.one_le_pow _ _ (by decide)
        have hlt : a < 10000 := by nlinarith
        rw [foldl_cons, if_pos hlt, hstep]
        exact ih _ (hstep ▸ ha)
  simpa [readExp] using key ds 0 (by simpa using hds)

lemma es6Parts_magnitude (hne : ds ≠ []) (hn : (n - 1).natAbs < 100000) :
    (es6Parts neg ds n).magnitude = decVal ds * 10 ^ (n - ds.length) := by
  have hten : (10 : ℚ) ≠ 0 := by norm_num
  rw [es6Parts]
  split_ifs with h1 h2 h3
  · obtain ⟨m, hm⟩ := Int.eq_ofNat_of_zero_le (sub_nonneg.2 h1.1)
    simp only [NumberText.magnitude, NumberText.expVal, readExp, hm]
    simp [decVal_append, decVal_replicate_zero]
  · simp only [NumberText.magnitude, NumberText.expVal, readExp, take_append_drop, length_drop]
    congr 2
    simp
    omega
  · simp only [NumberText.magnitude, NumberText.expVal, readExp]
    simp [decVal_cons, decVal_append, decVal_replicate_zero]
    omega
  · have hexp := readExp_eq (Nat.digits 10 (n - 1).natAbs).reverse
      (by rwa [decVal_digits])
    rw [decVal_digits] at hexp
    simp only [NumberText.magnitude, NumberText.expVal, hexp, take_append_drop, length_drop]
    congr 2
    have hpos : 0 < ds.length := length_pos_of_ne_nil hne
    rcases lt_or_ge (n - 1) 0 with hneg | hpos'
    · simp only [hneg, decide_true, if_true]
      omega
    · simp only [hpos'.not_gt, decide_false, Bool.false_eq_true, if_false]
      omega

end

/-! ## Reading a printed double -/

/-- The double read back from the print of `x`: `-0` is printed as `0`. -/
def Float64.printed (x : Float64) : Float64 :=
  { x with neg := x.neg && x.mag != 0 }

lemma Float64.round_mag (x : Float64) (neg : Bool) (q : ℚ) (hq : 0 ≤ q)
    (h : nearest 53 (-1074) q = x.mag) : Float64.round neg q hq = some { x with neg := neg } := by
  simp [Float64.round, h, x.lt_top]

section

variable {x : ℚ}

lemma two_pow_le_ten_pow : 2 ^ 1024 ≤ 10 ^ 342 :=
  calc 2 ^ 1024 ≤ 2 ^ (3 * 342) := Nat.pow_le_pow_right (by decide) (by decide)
    _ = (2 ^ 3) ^ 342 := by rw [pow_mul]
    _ ≤ 10 ^ 342 := Nat.pow_le_pow_left (by decide) _

/-- The exponents a positive double can have. -/
lemma log_bounds (hx : Representable 53 (-1074) x) (hpos : 0 < x) (htop : x < 2 ^ 1024) :
    -1074 ≤ Int.log 10 x ∧ Int.log 10 x < 342 := by
  constructor
  · obtain ⟨m, hm⟩ := hx.decimal (by decide)
    have hm' : 1 ≤ m := by
      rw [Nat.one_le_iff_ne_zero]
      rintro rfl
      simp [hm] at hpos
    refine (Int.zpow_le_iff_le_log (by decide) hpos).1 ?_
    rw [hm]
    exact_mod_cast le_mul_of_one_le_left (by positivity : (0 : ℚ) ≤ 10 ^ (-1074 : ℤ))
      (by exact_mod_cast hm')
  · refine (Int.lt_zpow_iff_log_lt (by decide) hpos).1 (htop.trans_le ?_)
    exact_mod_cast two_pow_le_ten_pow

/-- The decimal that a positive double is printed from rounds to the double. -/
lemma shortest_significand (hx : Representable 53 (-1074) x) (hpos : 0 < x)
    (htop : x < 2 ^ 1024) : ∃ c p,
      shortest (nearest 53 (-1074)) x (Int.log 10 x + 1074).toNat (Int.log 10 x) = (c, p) ∧
        c ≠ 0 ∧ nearest 53 (-1074) (c * 10 ^ p) = x ∧ -1074 ≤ p ∧ p < 342 ∧ c < 10 ^ 1417 := by
  obtain ⟨c, p, h⟩ : ∃ c p, shortest (nearest 53 (-1074)) x
      (Int.log 10 x + 1074).toNat (Int.log 10 x) = (c, p) := ⟨_, _, rfl⟩
  obtain ⟨hlow, hhigh⟩ := log_bounds hx hpos htop
  have hfuel : Int.log 10 x - ((Int.log 10 x + 1074).toNat : ℕ) = -1074 := by omega
  have hspec := shortest_spec (nearest_of_representable hx) (Int.log 10 x + 1074).toNat
    (Int.log 10 x) (hfuel ▸ hx.decimal (by decide))
  obtain ⟨hp1, hp2, hc⟩ := shortest_bounds (nearest 53 (-1074)) x (Int.log 10 x + 1074).toNat
    (Int.log 10 x)
  rw [hfuel] at hp1
  rw [h] at hspec hp1 hp2 hc
  simp only at hspec hp1 hp2 hc
  have hc0 : c ≠ 0 := by
    rintro rfl
    simp only [Nat.cast_zero, zero_mul, nearest_zero] at hspec
    exact hpos.ne hspec
  refine ⟨c, p, h, hc0, hspec, hp1, by omega, ?_⟩
  have hscale : x / 10 ^ p ≤ (10 ^ 1416 : ℕ) := by
    rw [div_le_iff₀ (by positivity)]
    have hone : (1 : ℚ) ≤ 10 ^ 1074 * 10 ^ p := by
      rw [← zpow_natCast, ← zpow_add₀ (by norm_num)]
      exact one_le_zpow₀ (by norm_num) (by push_cast; omega)
    have htwo : (2 : ℚ) ^ 1024 ≤ 10 ^ 342 := by exact_mod_cast two_pow_le_ten_pow
    calc x ≤ 10 ^ 342 * 1 := by rw [mul_one]; exact htop.le.trans htwo
      _ ≤ 10 ^ 342 * (10 ^ 1074 * 10 ^ p) := by gcongr
      _ = (10 ^ 1416 : ℕ) * 10 ^ p := by rw [← mul_assoc, ← pow_add, Nat.cast_pow, Nat.cast_ofNat]
  have hfloor : ⌊x / 10 ^ p⌋₊ ≤ 10 ^ 1416 := Nat.floor_le_of_le hscale
  calc c ≤ 10 ^ 1416 + 1 := by omega
    _ < 10 ^ 1416 * 10 := by
        have : 1 ≤ 10 ^ 1416 := Nat.one_le_pow _ _ (by decide)
        omega
    _ = 10 ^ 1417 := by rw [← pow_succ]

end

/-- A printed double is the text of parts that are read as the same double. -/
lemma formatNumberES6_text (x : Float64) :
    ∃ t : NumberText, formatNumberES6 x = t.text ∧ t.WellFormed ∧ parseFloat t = some x.printed := by
  by_cases hzero : x.mag = 0
  · refine ⟨⟨false, [0], [], false, []⟩, ?_,
      ⟨by simp, by simp, by simp, Or.inl rfl, by simp⟩, ?_⟩
    · rw [formatNumberES6, if_pos hzero]
      rfl
    · rw [parseFloat, Float64.round_mag x]
      · simp [Float64.printed, hzero]
      · simp [NumberText.magnitude, hzero, decVal_cons, nearest_zero]
  · have hpos : 0 < x.mag := lt_of_le_of_ne x.representable.nonneg (Ne.symm hzero)
    obtain ⟨c, p, hcp, hc0, hround, hlow, hhigh, hc⟩ :=
      shortest_significand x.representable hpos x.lt_top
    have hlen : (Nat.digits 10 c).length ≤ 1417 := (Nat.digits_length_le_iff (by decide) c).2 hc
    obtain ⟨d, ds, hds, hd⟩ := sigDigits_eq_cons hc0
    have hformat : formatFloat x.mag = (sigDigits c, p + (Nat.digits 10 c).length - 1) := by
      simp only [formatFloat, hcp]
    refine ⟨_, formatNumberES6_eq hzero, ?_, ?_⟩
    · rw [hformat]
      exact es6Parts_wellFormed (fun e he => sigDigits_lt he) ⟨d, ds, hds, hd⟩
    rw [hformat]
    have hle := length_sigDigits_le c
    obtain ⟨k, hk⟩ : ∃ k, (Nat.digits 10 c).length = (sigDigits c).length + k :=
      Nat.exists_eq_add_of_le hle
    have hmag : (es6Parts x.neg (sigDigits c) (p + (Nat.digits 10 c).length - 1 + 1)).magnitude =
        c * 10 ^ p := by
      rw [es6Parts_magnitude (by simp [hds]) (by omega), hk,
        show p + ((sigDigits c).length + k : ℕ) - 1 + 1 - (sigDigits c).length = k + p by
          push_cast; ring, zpow_add₀ (by norm_num), zpow_natCast, ← mul_assoc]
      have hval := decVal_sigDigits c
      rw [hk, Nat.add_sub_cancel_left] at hval
      exact_mod_cast congrArg (fun m : ℕ => (m : ℚ) * 10 ^ p) hval
    have hneg : (es6Parts x.neg (sigDigits c) (p + (Nat.digits 10 c).length - 1 + 1)).neg =
        x.printed.neg := by
      rw [es6Parts_neg]
      simp [Float64.printed, hzero]
    rw [parseFloat, Float64.round_mag x _ _ _ (by rw [hmag, hround]), hneg]
    rfl

/-- A printed double is read back as the same double. -/
theorem number_formatNumberES6 (x : Float64) {rest : Bytes} (hrest : NumberEnd rest) :
    number (formatNumberES6 x ++ rest) = .ok (x.printed, rest) := by
  obtain ⟨t, htext, hwf, hparse⟩ := formatNumberES6_text x
  rw [htext]
  exact number_text hwf hrest hparse

end AuthSec

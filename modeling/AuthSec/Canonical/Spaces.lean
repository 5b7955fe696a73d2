import AuthSec.Go.JsonText
import AuthSec.Go.Strings

/-!
# Spaces around a JSON text

`decodePolicyText` trims a policy text before it is parsed.  The bytes of a space are control
characters or not ASCII, so no value ends with one and no number goes on with one: a parser that
reads a text with such a byte behind it reads the text without it and leaves the byte (`Cuts`).
Strings are the exception, where such a byte is read like any other; there the closing quote
decides, and what stands in front of it does not depend on what follows (`string_local`).

**Parsers in front of a space**
* `Cuts`: the parser leaves the byte behind the text.
* `number_cuts`, `arrayLoop_cuts`, `objectLoop_cuts`: the parts of a value.
* `value_cuts`: every value.

**Whole texts**
* `parseJSON_trimSpaceBytes`: trimming a JSON text does not change what is read.
-/

namespace AuthSec

open List

namespace JsonParser

/-- The bytes of spaces are among these: no JSON text has them outside its strings and blanks. -/
def dull (w : UInt8) : Bool :=
  w.toNat ≤ 0x20 || 0x80 ≤ w.toNat

lemma ne_of_dull {w b : UInt8} (hw : dull w = true) (hb : dull b = false) : w ≠ b := by
  rintro rfl
  exact absurd hw (by simp [hb])

lemma dull_of_isDigit {b : UInt8} (h : isDigit b = true) : dull b = false := by
  simp only [isDigit, Bool.and_eq_true, decide_eq_true_eq] at h
  simp only [dull, Bool.or_eq_false_iff, decide_eq_false_iff_not]
  omega

lemma not_isDigit_of_dull {w : UInt8} (hw : dull w = true) : isDigit w = false :=
  Bool.eq_false_iff.2 fun h => absurd hw (by simp [dull_of_isDigit h])

lemma not_isWS_of_dull {b : UInt8} (h : dull b = false) : isWS b = false := by
  refine Bool.eq_false_iff.2 fun hws => ?_
  simp only [isWS, decide_eq_true_eq] at hws
  rcases hws with rfl | rfl | rfl | rfl <;> exact absurd h (by decide)

/-- What `p` reads of `bs` with `w` behind it, it reads of `bs`, and `w` is left. -/
def Cuts {α : Type} (w : UInt8) (p : Bytes → Except ParseFail (α × Bytes)) (bs : Bytes) : Prop :=
  ∀ a r, p (bs ++ [w]) = .ok (a, r) → ∃ r', r = r' ++ [w] ∧ r' <:+ bs ∧ p bs = .ok (a, r')

/-! ## Strings -/

section

variable {w : UInt8} (hw : dull w = true) {bs rest : Bytes}

include hw

lemma string_cuts (bs : Bytes) : Cuts w string bs := by
  intro s r h
  obtain ⟨t, hbs, hread⟩ := string_local h
  rcases eq_nil_or_concat' r with rfl | ⟨r, b, rfl⟩
  · obtain ⟨-, hlast⟩ := append_inj' hbs rfl
    exact absurd (List.cons.inj hlast).1 (ne_of_dull hw (by decide))
  · rw [← cons_append, ← append_assoc] at hbs
    obtain ⟨rfl, hlast⟩ := append_inj' hbs rfl
    obtain ⟨rfl, -⟩ := List.cons.inj hlast
    exact ⟨r, rfl, ⟨t ++ [ascii '"'], by simp⟩, hread r⟩

/-! ## Numbers -/

lemma digits_snoc (bs : Bytes) : digits (bs ++ [w]) = ((digits bs).1, (digits bs).2 ++ [w]) := by
  induction bs with
  | nil => simp [digits, not_isDigit_of_dull hw]
  | cons b bs ih => cases hb : isDigit b <;> simp [digits, hb, ih]

omit hw in
lemma digits_suffix (bs : Bytes) : (digits bs).2 <:+ bs := by
  induction bs with
  | nil => exact suffix_rfl
  | cons b bs ih =>
      cases hb : isDigit b with
      | false => simp [digits, hb]
      | true => simpa [digits, hb] using ih.trans (suffix_cons b bs)

lemma scanMinus_snoc (bs : Bytes) :
    scanMinus (bs ++ [w]) = ((scanMinus bs).1, (scanMinus bs).2 ++ [w]) := by
  cases bs with
  | nil => simp [scanMinus, ne_of_dull hw (by decide : dull (ascii '-') = false)]
  | cons b bs =>
      simp only [cons_append, scanMinus]
      split_ifs <;> rfl

omit hw in
lemma scanMinus_suffix (bs : Bytes) : (scanMinus bs).2 <:+ bs := by
  cases bs with
  | nil => exact suffix_rfl
  | cons b bs =>
      rw [scanMinus]
      split_ifs
      · exact suffix_cons b bs
      · exact suffix_rfl

lemma scanInt_cuts (bs : Bytes) : Cuts w scanInt bs := by
  intro ds r h
  cases bs with
  | nil =>
      simp [scanInt, digits, not_isDigit_of_dull hw, fail,
        ne_of_dull hw (by decide : dull (ascii '0') = false)] at h
  | cons b bs =>
      rw [cons_append, scanInt, ← cons_append, digits_snoc hw] at h
      rw [scanInt]
      split_ifs at h ⊢ with hzero hnone
      · cases h
        exact ⟨bs, rfl, suffix_cons b bs, rfl⟩
      · cases h
      · cases h
        exact ⟨_, rfl, digits_suffix _, rfl⟩

lemma scanFrac_cuts (bs : Bytes) : Cuts w scanFrac bs := by
  intro ds r h
  cases bs with
  | nil =>
      rw [nil_append, scanFrac, if_neg (ne_of_dull hw (by decide : dull (ascii '.') = false))] at h
      cases h
      exact ⟨[], rfl, suffix_rfl, rfl⟩
  | cons b bs =>
      rw [cons_append, scanFrac, digits_snoc hw] at h
      rw [scanFrac]
      split_ifs at h ⊢ with hpoint hnone
      · cases h
      · cases h
        exact ⟨_, rfl, (digits_suffix bs).trans (suffix_cons b bs), rfl⟩
      · cases h
        exact ⟨b :: bs, rfl, suffix_rfl, rfl⟩

lemma scanSign_snoc (bs : Bytes) :
    scanSign (bs ++ [w]) = ((scanSign bs).1, (scanSign bs).2 ++ [w]) := by
  cases bs with
  | nil =>
      simp [scanSign, ne_of_dull hw (by decide : dull (ascii '+') = false),
        ne_of_dull hw (by decide : dull (ascii '-') = false)]
  | cons b bs =>
      simp only [cons_append, scanSign]
      split_ifs <;> rfl

omit hw in
lemma scanSign_suffix (bs : Bytes) : (scanSign bs).2 <:+ bs := by
  cases bs with
  | nil => exact suffix_rfl
  | cons b bs =>
      rw [scanSign]
      split_ifs
      · exact suffix_cons b bs
      · exact suffix_cons b bs
      · exact suffix_rfl

lemma scanExp_cuts {r : Bytes} {neg : Bool} {ds : List ℕ}
    (h : scanExp (bs ++ [w]) = .ok (neg, ds, r)) :
    ∃ r', r = r' ++ [w] ∧ r' <:+ bs ∧ scanExp bs = .ok (neg, ds, r') := by
  cases bs with
  | nil =>
      simp only [nil_append, scanExp, ne_of_dull hw (by decide : dull (ascii 'e') = false),
        ne_of_dull hw (by decide : dull (ascii 'E') = false), or_self, if_false] at h
      cases h
      exact ⟨[], rfl, suffix_rfl, rfl⟩
  | cons b bs =>
      rw [cons_append, scanExp] at h
      rw [scanExp]
      simp only [scanSign_snoc hw, digits_snoc hw] at h ⊢
      split_ifs at h ⊢ with he hnone
      · cases h
      · cases h
        refine ⟨_, rfl, (digits_suffix _).trans ?_, rfl⟩
        exact (scanSign_suffix bs).trans (suffix_cons b bs)
      · cases h
        exact ⟨b :: bs, rfl, suffix_rfl, rfl⟩

lemma number_cuts (bs : Bytes) : Cuts w AuthSec.number bs := by
  intro f r h
  rw [AuthSec.number, scanMinus_snoc hw] at h
  obtain ⟨⟨int, r₁⟩, hint, h₁⟩ := bind_eq_ok.1 h
  obtain ⟨⟨frac, r₂⟩, hfrac, h₂⟩ := bind_eq_ok.1 h₁
  obtain ⟨⟨expNeg, exp, r₃⟩, hexp, h₃⟩ := bind_eq_ok.1 h₂
  obtain ⟨s₁, rfl, hs₁, hint'⟩ := scanInt_cuts hw _ _ _ hint
  obtain ⟨s₂, rfl, hs₂, hfrac'⟩ := scanFrac_cuts hw _ _ _ hfrac
  obtain ⟨s₃, rfl, hs₃, hexp'⟩ := scanExp_cuts hw hexp
  simp only [AuthSec.number, hint', hfrac', hexp', ok_bind]
  cases hfloat : parseFloat ⟨(scanMinus bs).1, int, frac, expNeg, exp⟩ with
  | none =>
      simp only [hfloat] at h₃
      cases h₃
  | some x =>
      simp only [hfloat] at h₃
      obtain ⟨rfl, rfl⟩ := ok_pair_inj h₃
      exact ⟨s₃, rfl, hs₃.trans (hs₂.trans (hs₁.trans (scanMinus_suffix bs))), rfl⟩

/-! ## Arrays and objects -/

omit hw in
lemma skipWS_suffix (bs : Bytes) : skipWS bs <:+ bs := by
  induction bs with
  | nil => exact suffix_rfl
  | cons b bs ih =>
      cases hb : isWS b with
      | false => simp [skipWS, hb]
      | true => simpa [skipWS, hb] using ih.trans (suffix_cons b bs)

omit hw in
/-- A byte behind a text is left, or it is a blank behind blanks. -/
lemma skipWS_snoc (bs : Bytes) :
    skipWS (bs ++ [w]) = skipWS bs ++ [w] ∨ skipWS bs = [] ∧ skipWS (bs ++ [w]) = [] := by
  induction bs with
  | nil => cases hb : isWS w <;> simp [skipWS, hb]
  | cons b bs ih =>
      cases hb : isWS b with
      | false => simp [skipWS, hb]
      | true => simpa [skipWS, hb] using ih

omit hw in
lemma skipWS_append_eq_nil {g : Bytes} (h : skipWS (bs ++ g) = []) : skipWS bs = [] := by
  induction bs with
  | nil => rfl
  | cons b bs ih =>
      cases hb : isWS b with
      | false => simp [skipWS, hb] at h
      | true =>
          simp only [cons_append, skipWS, hb, if_true] at h ⊢
          exact ih h

lemma skipWS_snoc_cons {after : Bytes} {c : UInt8} (hc : dull c = false)
    (h : skipWS (bs ++ [w]) = c :: after) :
    ∃ after', after = after' ++ [w] ∧ skipWS bs = c :: after' := by
  rcases skipWS_snoc bs with hskip | ⟨-, hskip⟩
  · rw [hskip] at h
    cases hbs : skipWS bs with
    | nil =>
        rw [hbs] at h
        exact absurd (List.cons.inj h).1 (ne_of_dull hw hc)
    | cons b l =>
        rw [hbs] at h
        obtain ⟨rfl, rfl⟩ := List.cons.inj h
        exact ⟨l, rfl, rfl⟩
  · rw [hskip] at h
    cases h

/-- What is asked of the parser of values: it leaves the byte, and it reads something. -/
def CutsValue (w : UInt8) (el : Bytes → Except ParseFail (Json Float64 × Bytes)) : Prop :=
  (∀ bs, Cuts w el bs) ∧ ∀ r, el [] ≠ .ok r

/-- A loop leaves the byte, and rounds as many as the text has bytes are enough for it. -/
def CutsLoop {α : Type} (w : UInt8) (loop : ℕ → Bytes → Except ParseFail (α × Bytes)) : Prop :=
  ∀ n bs a r, loop n (bs ++ [w]) = .ok (a, r) →
    ∃ r', r = r' ++ [w] ∧ r' <:+ bs ∧ ∀ m, bs.length ≤ m → loop m bs = .ok (a, r')

/-- A list between brackets, behind the opening one. -/
lemma opened_cuts {close : UInt8} (hclose : dull close = false) (empty : Json Float64)
    {loop : ℕ → Bytes → Except ParseFail (Json Float64 × Bytes)} (hloop : CutsLoop w loop)
    (hzero : ∀ bs r, loop 0 bs ≠ .ok r) (bs : Bytes) :
    Cuts w (fun bs => if (skipWS bs).head? = some close then .ok (empty, (skipWS bs).tail)
      else loop (skipWS bs).length (skipWS bs)) bs := by
  intro v r h
  simp only at h ⊢
  by_cases hempty : (skipWS (bs ++ [w])).head? = some close
  · obtain ⟨after, hafter⟩ := head?_eq_some_iff.1 hempty
    obtain ⟨after', rfl, hskip⟩ := skipWS_snoc_cons hw hclose hafter
    rw [if_pos hempty, hafter] at h
    cases h
    refine ⟨after', rfl, (suffix_cons close after').trans ?_, by simp [hskip]⟩
    exact hskip ▸ skipWS_suffix bs
  · rw [if_neg hempty] at h
    rcases skipWS_snoc bs with hskip | ⟨-, hskip⟩
    · rw [hskip] at h hempty
      obtain ⟨r', rfl, hr', hread⟩ := hloop _ _ _ _ h
      have hne : (skipWS bs).head? ≠ some close := fun hhead => hempty (by simp [hhead])
      exact ⟨r', rfl, hr'.trans (skipWS_suffix bs), by rw [if_neg hne, hread _ le_rfl]⟩
    · rw [hskip] at h
      exact absurd h (hzero _ _)

section

variable {el : Bytes → Except ParseFail (Json Float64 × Bytes)} (hel : CutsValue w el)

include hel

/-- A value behind blanks, and a sign behind more blanks. -/
lemma element_cuts {after : Bytes} {v : Json Float64} {c : UInt8}
    (hv : el (skipWS (bs ++ [w])) = .ok (v, rest)) (hafter : skipWS rest = c :: after)
    (hc : dull c = false) :
    ∃ rest' after', after = after' ++ [w] ∧ c :: after' <:+ bs ∧
      el (skipWS bs) = .ok (v, rest') ∧ skipWS rest' = c :: after' := by
  rcases skipWS_snoc bs with hskip | ⟨-, hskip⟩
  · rw [hskip] at hv
    obtain ⟨rest', rfl, hrest', hread⟩ := hel.1 _ _ _ hv
    obtain ⟨after', rfl, hafter'⟩ := skipWS_snoc_cons hw hc hafter
    refine ⟨rest', after', rfl, ?_, hread, hafter'⟩
    exact hafter' ▸ (skipWS_suffix rest').trans (hrest'.trans (skipWS_suffix bs))
  · rw [hskip] at hv
    exact absurd hv (hel.2 _)

lemma arrayLoop_cuts : CutsLoop w (arrayLoop el) := by
  intro n bs vs r h
  induction n generalizing bs vs r with
  | zero =>
      obtain ⟨_, _, h₁⟩ := bind_eq_ok.1 h
      cases h₁
  | succ n ih =>
      rw [arrayLoop] at h
      obtain ⟨⟨v, rest⟩, hv, h₁⟩ := bind_eq_ok.1 h
      simp only at h₁
      cases hafter : skipWS rest with
      | nil =>
          rw [hafter] at h₁
          cases h₁
      | cons c after =>
          rw [hafter] at h₁
          simp only at h₁
          split_ifs at h₁ with hcomma hclose
          · obtain ⟨⟨vs', r'⟩, hloop, h₂⟩ := bind_eq_ok.1 h₁
            cases h₂
            obtain ⟨rest', after', rfl, hsuffix, hv', hskip⟩ :=
              element_cuts hw hel hv hafter (by rw [hcomma]; decide)
            obtain ⟨r', rfl, hr', hmore⟩ := ih _ _ _ hloop
            have hlength := hsuffix.length_le
            refine ⟨r', rfl, hr'.trans ((suffix_cons c after').trans hsuffix), fun m hm => ?_⟩
            obtain ⟨m, rfl⟩ := Nat.exists_eq_add_of_lt (Nat.lt_of_lt_of_le hlength hm)
            rw [arrayLoop, hv', ok_bind]
            simp only [hskip, if_pos hcomma]
            rw [hmore _ (Nat.le_add_right _ _)]
            rfl
          · cases h₁
            obtain ⟨rest', after', rfl, hsuffix, hv', hskip⟩ :=
              element_cuts hw hel hv hafter (by rw [hclose]; decide)
            refine ⟨after', rfl, (suffix_cons c after').trans hsuffix, fun m hm => ?_⟩
            obtain ⟨m, rfl⟩ := Nat.exists_eq_add_of_lt (Nat.lt_of_lt_of_le hsuffix.length_le hm)
            rw [arrayLoop, hv', ok_bind]
            simp only [hskip, if_neg hcomma, if_pos hclose]
            rfl
          · cases h₁

omit hel in
lemma memberName_cuts (seen : List String) (bs : Bytes) : Cuts w (memberName seen) bs := by
  intro k r h
  rw [memberName] at h
  cases hquote : skipWS (bs ++ [w]) with
  | nil =>
      rw [hquote] at h
      cases h
  | cons q after =>
      rw [hquote] at h
      simp only at h
      split_ifs at h with hq
      · cases h
      · obtain ⟨⟨k', rest⟩, hname, h₁⟩ := bind_eq_ok.1 h
        simp only at h₁
        split_ifs at h₁ with hseen
        · cases h₁
        · cases hcolon : skipWS rest with
          | nil =>
              rw [hcolon] at h₁
              cases h₁
          | cons c after₁ =>
              rw [hcolon] at h₁
              simp only at h₁
              split_ifs at h₁ with hc
              · cases h₁
              · obtain ⟨rfl, rfl⟩ := ok_pair_inj h₁
                obtain ⟨after', rfl, hskip⟩ :=
                  skipWS_snoc_cons hw (by rw [not_ne_iff.1 hq]; decide) hquote
                obtain ⟨rest', rfl, hrest', hname'⟩ := string_cuts hw _ _ _ hname
                obtain ⟨after₁', rfl, hskip'⟩ :=
                  skipWS_snoc_cons hw (by rw [not_ne_iff.1 hc]; decide) hcolon
                refine ⟨after₁', rfl, ?_, ?_⟩
                · have hfront : q :: after' <:+ bs := hskip ▸ skipWS_suffix bs
                  have hback : c :: after₁' <:+ rest' := hskip' ▸ skipWS_suffix rest'
                  exact (suffix_cons c after₁').trans
                    (hback.trans (hrest'.trans ((suffix_cons q after').trans hfront)))
                · rw [memberName, hskip]
                  simp only [if_neg hq, hname', ok_bind, if_neg hseen, hskip', if_neg hc]
                  rfl

lemma objectLoop_cuts (seen : List String) : CutsLoop w fun n => objectLoop el n seen := by
  intro n bs ms r h
  simp only at h ⊢
  induction n generalizing seen bs ms r with
  | zero => cases h
  | succ n ih =>
      rw [objectLoop] at h
      obtain ⟨⟨k, rest₀⟩, hname, h₀⟩ := bind_eq_ok.1 h
      obtain ⟨⟨v, rest⟩, hv, h₁⟩ := bind_eq_ok.1 h₀
      obtain ⟨rest₀, rfl, hrest₀, hname'⟩ := memberName_cuts hw _ _ _ _ hname
      simp only at h₁
      cases hafter : skipWS rest with
      | nil =>
          rw [hafter] at h₁
          cases h₁
      | cons c after =>
          rw [hafter] at h₁
          simp only at h₁
          split_ifs at h₁ with hcomma hclose
          · obtain ⟨⟨ms', r'⟩, hloop, h₂⟩ := bind_eq_ok.1 h₁
            cases h₂
            obtain ⟨rest', after', rfl, hsuffix, hv', hskip⟩ :=
              element_cuts hw hel hv hafter (by rw [hcomma]; decide)
            obtain ⟨r', rfl, hr', hmore⟩ := ih _ _ _ _ hloop
            have hsuffix := hsuffix.trans hrest₀
            have hlength := hsuffix.length_le
            refine ⟨r', rfl, hr'.trans ((suffix_cons c after').trans hsuffix), fun m hm => ?_⟩
            obtain ⟨m, rfl⟩ := Nat.exists_eq_add_of_lt (Nat.lt_of_lt_of_le hlength hm)
            rw [objectLoop, hname', ok_bind]
            simp only [hv', ok_bind, hskip, if_pos hcomma]
            rw [hmore _ (Nat.le_add_right _ _)]
            rfl
          · cases h₁
            obtain ⟨rest', after', rfl, hsuffix, hv', hskip⟩ :=
              element_cuts hw hel hv hafter (by rw [hclose]; decide)
            have hsuffix := hsuffix.trans hrest₀
            refine ⟨after', rfl, (suffix_cons c after').trans hsuffix, fun m hm => ?_⟩
            obtain ⟨m, rfl⟩ := Nat.exists_eq_add_of_lt (Nat.lt_of_lt_of_le hsuffix.length_le hm)
            rw [objectLoop, hname', ok_bind]
            simp only [hv', ok_bind, hskip, if_neg hcomma, if_pos hclose]
            rfl
          · cases h₁

omit hel hw in
/-- What a loop reads, made a value. -/
lemma CutsLoop.map {α : Type} {loop : ℕ → Bytes → Except ParseFail (α × Bytes)}
    (hloop : CutsLoop w loop) (f : α → Json Float64) :
    CutsLoop w fun n bs => loop n bs >>= fun read => .ok (f read.1, read.2) := by
  intro n bs v r h
  obtain ⟨⟨a, r₁⟩, hread, h₁⟩ := bind_eq_ok.1 h
  obtain ⟨rfl, rfl⟩ := ok_pair_inj h₁
  obtain ⟨r', rfl, hr', hmore⟩ := hloop _ _ _ _ hread
  exact ⟨r', rfl, hr', fun m hm => by simp only [hmore m hm]; rfl⟩

lemma array_cuts (bs : Bytes) : Cuts w (array el) bs := by
  refine opened_cuts hw (by decide) (.arr []) ((arrayLoop_cuts hw hel).map .arr) ?_ bs
  intro bs r h
  obtain ⟨_, hread, _⟩ := bind_eq_ok.1 h
  obtain ⟨_, _, h₁⟩ := bind_eq_ok.1 hread
  cases h₁

lemma object_cuts (bs : Bytes) : Cuts w (object el) bs := by
  refine opened_cuts hw (by decide) (.obj []) ((objectLoop_cuts hw hel []).map .obj) ?_ bs
  intro bs r h
  cases h

end

/-! ## Values and whole texts -/

lemma literal_cuts {word : String} (hword : ∀ b ∈ utf8 word, dull b = false) (v : Json Float64)
    (bs : Bytes) : Cuts w (literal word v) bs := by
  intro u r h
  rw [literal] at h
  split_ifs at h with hpre
  · obtain ⟨rfl, rfl⟩ := ok_pair_inj h
    rcases prefix_concat_iff.1 (List.isPrefixOf_iff_prefix.1 hpre) with heq | hpre'
    · exact absurd hw (by simp [hword w (by simp [heq])])
    · refine ⟨_, drop_append_of_le_length hpre'.length_le, drop_suffix _ _, ?_⟩
      rw [literal, if_pos (List.isPrefixOf_iff_prefix.2 hpre')]
  · cases h

omit hw in
lemma Cuts.map {α β : Type} {p : Bytes → Except ParseFail (α × Bytes)} (hp : Cuts w p bs)
    (f : α → β) : Cuts w (fun bs => (p bs).map fun read => (f read.1, read.2)) bs := by
  intro b r h
  obtain ⟨⟨a, r₁⟩, hread, hpair⟩ := map_eq_ok.1 h
  obtain ⟨rfl, rfl⟩ := Prod.mk.inj hpair
  obtain ⟨r', rfl, hr', hread'⟩ := hp _ _ hread
  exact ⟨r', rfl, hr', by simp only [hread']; rfl⟩

omit hw in
lemma value_head {room : ℕ} {v : Json Float64} (h : value room bs = .ok (v, rest)) :
    ∃ c cs, bs = c :: cs ∧ dull c = false := by
  cases room with
  | zero => cases h
  | succ room =>
      cases bs with
      | nil => cases h
      | cons c bs =>
          refine ⟨c, bs, rfl, ?_⟩
          rw [value] at h
          split_ifs at h with hobject harray hstring htrue hfalse hnull hnumber
          · rw [hobject]; decide
          · rw [harray]; decide
          · rw [hstring]; decide
          · rw [htrue]; decide
          · rw [hfalse]; decide
          · rw [hnull]; decide
          · rcases hnumber with hminus | hdigit
            · rw [hminus]; decide
            · exact dull_of_isDigit hdigit
          · cases h

/-- The parser of values leaves a dull byte behind the value. -/
theorem value_cuts (room : ℕ) : CutsValue w (value room) := by
  induction room with
  | zero =>
      refine ⟨fun bs v r h => ?_, fun r h => ?_⟩
      · cases h
      · cases h
  | succ room ih =>
      refine ⟨fun bs v r h => ?_, nofun⟩
      cases bs with
      | nil =>
          obtain ⟨c, cs, hcs, hc⟩ := value_head h
          exact absurd (cons.inj hcs).1 (ne_of_dull hw hc)
      | cons c bs =>
          have hbehind {p : Bytes → Except ParseFail (Json Float64 × Bytes)} (hp : Cuts w p bs)
              (h : p (bs ++ [w]) = .ok (v, r)) :
              ∃ r', r = r' ++ [w] ∧ r' <:+ c :: bs ∧ p bs = .ok (v, r') := by
            obtain ⟨r', hr, hr', hread⟩ := hp _ _ h
            exact ⟨r', hr, hr'.trans (suffix_cons c bs), hread⟩
          rw [cons_append, value, ← cons_append] at h
          rw [value]
          split_ifs at h ⊢ with hobject harray hstring htrue hfalse hnull hnumber
          · exact hbehind (object_cuts hw ih bs) h
          · exact hbehind (array_cuts hw ih bs) h
          · exact hbehind ((string_cuts hw bs).map Json.str) h
          · exact literal_cuts hw (by decide) _ _ _ _ h
          · exact literal_cuts hw (by decide) _ _ _ _ h
          · exact literal_cuts hw (by decide) _ _ _ _ h
          · exact (number_cuts hw _).map Json.num _ _ h
          · cases h

end

lemma value_append {room : ℕ} {r : Bytes} {v : Json Float64} (g : Bytes)
    (hg : ∀ w ∈ g, dull w = true) (h : value room (bs ++ g) = .ok (v, r)) :
    ∃ r', r = r' ++ g ∧ value room bs = .ok (v, r') := by
  induction g using List.reverseRecOn generalizing r with
  | nil => exact ⟨r, by simp, by simpa using h⟩
  | append_singleton g w ih =>
      rw [← append_assoc] at h
      obtain ⟨r₁, rfl, -, h₁⟩ := (value_cuts (hg w (by simp)) room).1 _ _ _ h
      obtain ⟨r', rfl, hread⟩ := ih (fun b hb => hg b (by simp [hb])) h₁
      exact ⟨r', by simp, hread⟩

lemma dull_of_mem_spaceTexts : ∀ p ∈ spaceTexts, p ≠ [] ∧ ∀ w ∈ p, dull w = true := by
  decide +kernel

/-- The texts that are dropped in front, byte for byte. -/
lemma exists_dropSeps {seps : List Bytes} (hseps : ∀ p ∈ seps, ∀ w ∈ p, dull w = true) (n : ℕ)
    (bs : Bytes) : ∃ g, (∀ w ∈ g, dull w = true) ∧ bs = g ++ dropSeps seps n bs := by
  induction n generalizing bs with
  | zero => exact ⟨[], by simp, rfl⟩
  | succ n ih =>
      cases hfind : seps.find? (·.isPrefixOf bs) with
      | none => exact ⟨[], by simp, by simp [dropSeps, hfind]⟩
      | some p =>
          obtain ⟨g, hg, hrest⟩ := ih (bs.drop p.length)
          have hpre : p.isPrefixOf bs = true := by simpa using find?_some hfind
          obtain ⟨after, rfl⟩ := List.isPrefixOf_iff_prefix.1 hpre
          refine ⟨p ++ g, fun w hw => ?_, ?_⟩
          · rcases mem_append.1 hw with hw | hw
            · exact hseps p (mem_of_find?_eq_some hfind) w hw
            · exact hg w hw
          · rw [drop_left] at hrest
            rw [dropSeps, hfind, append_assoc]
            simp only [drop_left, ← hrest]

/-- The blanks in front of a JSON text are spaces, and it starts with none. -/
lemma dropSeps_skipWS {cs : Bytes} {c : UInt8} (hc : dull c = false) (hbs : skipWS bs = c :: cs)
    {n : ℕ} (hn : bs.length ≤ n) : dropSeps spaceTexts n bs = skipWS bs := by
  induction bs generalizing n with
  | nil => cases hbs
  | cons b bs ih =>
      obtain ⟨n, rfl⟩ := Nat.exists_eq_add_of_lt hn
      cases hb : isWS b with
      | false =>
          simp only [skipWS, hb] at hbs ⊢
          obtain ⟨rfl, rfl⟩ := List.cons.inj hbs
          refine dropSeps_cons _ _ fun p hp => ?_
          obtain ⟨hne, hdull⟩ := dull_of_mem_spaceTexts p hp
          obtain ⟨w, q, rfl⟩ := exists_cons_of_ne_nil hne
          exact ⟨w, q, rfl, ne_of_dull (hdull w (by simp)) hc⟩
      | true =>
          have hfind : spaceTexts.find? (·.isPrefixOf (b :: bs)) = some [b] := by
            simp only [isWS, decide_eq_true_eq] at hb
            rcases hb with rfl | rfl | rfl | rfl <;> rfl
          simp only [skipWS, hb, if_true] at hbs ⊢
          rw [dropSeps, hfind]
          exact ih hbs (by simp)

end JsonParser

open JsonParser in
/-- A JSON text without the spaces around it reads the same. -/
theorem parseJSON_trimSpaceBytes {text : Bytes} {v : Json Float64} (h : parseJSON text = .ok v) :
    parseJSON (trimSpaceBytes text) = .ok v := by
  obtain ⟨⟨w, rest⟩, hvalue, hrest⟩ := bind_eq_ok.1 h
  simp only at hrest
  split_ifs at hrest with hblank
  · obtain rfl := Except.ok.inj hrest
    obtain ⟨c, cs, hcs, hc⟩ := value_head hvalue
    have hfront := dropSeps_skipWS hc hcs le_rfl
    -- what is dropped behind is left by the parser
    have hback : ∀ p ∈ spaceTexts.map List.reverse, ∀ b ∈ p, dull b = true := by
      intro p hp b hb
      obtain ⟨q, hq, rfl⟩ := mem_map.1 hp
      exact (dull_of_mem_spaceTexts q hq).2 b (mem_reverse.1 hb)
    obtain ⟨g, hg, hrev⟩ := exists_dropSeps hback (skipWS text).length (skipWS text).reverse
    have htrim : skipWS text = trimSpaceBytes text ++ g.reverse := by
      rw [trimSpaceBytes, hfront, ← reverse_append, ← hrev, reverse_reverse]
    rw [htrim] at hvalue
    obtain ⟨r', rfl, hread⟩ := value_append g.reverse (by simpa using hg) hvalue
    obtain ⟨d, ds, hds, hd⟩ := value_head hread
    have hskip : skipWS (trimSpaceBytes text) = trimSpaceBytes text := by
      rw [hds]
      exact Printer.skipWS_cons _ (not_isWS_of_dull hd)
    rw [parseJSON, hskip, hread, ok_bind]
    exact if_pos (skipWS_append_eq_nil hblank)
  · cases hrest

end AuthSec

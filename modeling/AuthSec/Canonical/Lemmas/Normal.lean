import AuthSec.Canonical.Lemmas.Render

/-!
# Canonical JSON is a normal form

The canonical text of a value is the print of its `normal` form, in which the members of every
object are in UTF-16 order.  Since the parser reads a print back, the canonical text determines
the normal form, and two values have one normal form exactly when they are the `Same` value up to
the order of members.
-/

namespace AuthSec

open List

/-! ## What the parser accepts fits -/

namespace JsonParser

section

variable {el : Bytes → Except ParseFail (Json Float64 × Bytes)} {P : Json Float64 → Prop}

lemma arrayLoop_forall (hel : ∀ bs v rest, el bs = .ok (v, rest) → P v) (n : ℕ) :
    ∀ {bs vs rest}, arrayLoop el n bs = .ok (vs, rest) → ∀ v ∈ vs, P v := by
  induction n with
  | zero =>
      intro bs vs rest h
      simp only [arrayLoop] at h
      cases hel' : el (skipWS bs) with
      | error e => rw [hel'] at h; cases h
      | ok r => rw [hel'] at h; cases h
  | succ n ih =>
      intro bs vs rest h
      rw [arrayLoop, bind_eq_ok] at h
      obtain ⟨⟨v, rest₁⟩, hv, h⟩ := h
      have hPv : P v := hel _ _ _ hv
      simp only at h
      split at h
      · cases h
      · split_ifs at h with hcomma hclose
        · rw [bind_eq_ok] at h
          obtain ⟨⟨ws, rest₂⟩, hws, h⟩ := h
          cases h
          intro w hw
          rcases mem_cons.1 hw with rfl | hw
          · exact hPv
          · exact ih hws w hw
        · cases h
          intro w hw
          rw [mem_singleton.1 hw]
          exact hPv
        · cases h

lemma memberName_fresh {seen : List String} {bs rest : Bytes} {k : String}
    (h : memberName seen bs = .ok (k, rest)) : k ∉ seen := by
  rw [memberName] at h
  split at h
  · cases h
  · split_ifs at h with hquote
    · cases h
    · rw [bind_eq_ok] at h
      obtain ⟨⟨k', rest₁⟩, -, h⟩ := h
      simp only at h
      split_ifs at h with hk
      · cases h
      · split at h
        · cases h
        · split_ifs at h <;> cases h
          exact hk

lemma objectLoop_forall (hel : ∀ bs v rest, el bs = .ok (v, rest) → P v) (n : ℕ) :
    ∀ {seen bs ms rest}, objectLoop el n seen bs = .ok (ms, rest) →
      (∀ m ∈ ms, P m.2 ∧ m.1 ∉ seen) ∧ (ms.map Prod.fst).Nodup := by
  induction n with
  | zero =>
      intro seen bs ms rest h
      cases h
  | succ n ih =>
      intro seen bs ms rest h
      rw [objectLoop, bind_eq_ok] at h
      obtain ⟨⟨k, rest₁⟩, hk, h⟩ := h
      have hfresh := memberName_fresh hk
      rw [bind_eq_ok] at h
      obtain ⟨⟨v, rest₂⟩, hv, h⟩ := h
      have hPv : P v := hel _ _ _ hv
      simp only at h
      split at h
      · cases h
      · split_ifs at h with hcomma hclose
        · rw [bind_eq_ok] at h
          obtain ⟨⟨ms', rest₃⟩, hms, h⟩ := h
          cases h
          obtain ⟨hall, hnodup⟩ := ih hms
          refine ⟨?_, ?_⟩
          · intro m hm
            rcases mem_cons.1 hm with rfl | hm
            · exact ⟨hPv, hfresh⟩
            · exact ⟨(hall m hm).1, fun hmem => (hall m hm).2 (List.mem_cons_of_mem _ hmem)⟩
          · rw [map_cons, nodup_cons]
            refine ⟨fun hmem => ?_, hnodup⟩
            obtain ⟨m, hm, rfl⟩ := mem_map.1 hmem
            exact (hall m hm).2 (by simp)
        · cases h
          simp [hPv, hfresh]
        · cases h

end

/-- What the parser returns nests no deeper than it goes and has distinct member names. -/
theorem value_fits (room : ℕ) :
    ∀ bs v rest, value room bs = .ok (v, rest) → v.Fits room := by
  induction room with
  | zero =>
      intro bs v rest h
      cases h
  | succ room ih =>
      intro bs v rest h
      rw [value.eq_def] at h
      simp only at h
      split at h
      · cases h
      · split_ifs at h
        · rw [object] at h
          split_ifs at h
          · cases h
            exact .obj room [] (by simp) (by simp)
          · rw [bind_eq_ok] at h
            obtain ⟨⟨ms, rest'⟩, hms, h⟩ := h
            cases h
            obtain ⟨hall, hkeys⟩ := objectLoop_forall ih _ hms
            exact .obj room ms hkeys fun m hm => (hall m hm).1
        · rw [array] at h
          split_ifs at h
          · cases h
            exact .arr room [] (by simp)
          · rw [bind_eq_ok] at h
            obtain ⟨⟨els, rest'⟩, hels, h⟩ := h
            cases h
            exact .arr room els (arrayLoop_forall ih _ hels)
        · obtain ⟨r, -, h⟩ := map_eq_ok.1 h
          cases h
          exact .str room _
        · rw [literal] at h
          split_ifs at h <;> cases h
          exact .bool room _
        · rw [literal] at h
          split_ifs at h <;> cases h
          exact .bool room _
        · rw [literal] at h
          split_ifs at h <;> cases h
          exact .null room
        · obtain ⟨r, -, h⟩ := map_eq_ok.1 h
          cases h
          exact .num room _
        · cases h

/-! ## What follows a string -/

section

variable {bs rest : Bytes}

lemma hex4_local {n : ℕ} (h : hex4 bs = .ok (n, rest)) :
    ∃ t, bs = t ++ rest ∧ ∀ rest', hex4 (t ++ rest') = .ok (n, rest') := by
  rw [hex4.eq_def] at h
  split at h
  · split at h
    · rename_i a b c d rest₁ _ _ _ _ w x y z hw hx hy hz
      cases h
      exact ⟨[a, b, c, d], rfl, fun rest' => by simp [hex4, hw, hx, hy, hz]⟩
    · cases h
  · cases h

lemma unicodeEscape_local {c : Char} (h : unicodeEscape bs = .ok (c, rest)) :
    ∃ t, bs = t ++ rest ∧ ∀ rest', unicodeEscape (t ++ rest') = .ok (c, rest') := by
  rw [unicodeEscape] at h
  obtain ⟨⟨r, rest₁⟩, hr, h₁⟩ := bind_eq_ok.1 h
  obtain ⟨t, rfl, hread⟩ := hex4_local hr
  simp only at h₁
  split_ifs at h₁ with hsurrogate
  · split at h₁
    · rename_i b u low
      split_ifs at h₁ with hlone
      · cases h₁
      · obtain ⟨⟨r₂, rest₂⟩, hr₂, h₂⟩ := bind_eq_ok.1 h₁
        obtain ⟨t₂, rfl, hread₂⟩ := hex4_local hr₂
        simp only at h₂
        split_ifs at h₂ with hlow
        · obtain ⟨rfl, rfl⟩ := ok_pair_inj h₂
          refine ⟨t ++ (b :: u :: t₂), by simp, fun rest' => ?_⟩
          rw [unicodeEscape, append_assoc, hread]
          simp only [ok_bind, cons_append, if_pos hsurrogate, if_neg hlone, hread₂, if_pos hlow]
          rfl
        · cases h₂
    · cases h₁
  · cases h₁
    refine ⟨t, rfl, fun rest' => ?_⟩
    rw [unicodeEscape, hread, ok_bind]
    exact if_neg hsurrogate

lemma escape_local {c : Char} (h : escape bs = .ok (c, rest)) :
    ∃ t, bs = t ++ rest ∧ ∀ rest', escape (t ++ rest') = .ok (c, rest') := by
  cases bs with
  | nil => cases h
  | cons e bs =>
      by_cases hu : e = ascii 'u'
      · subst hu
        have hescape : ∀ bs, escape (ascii 'u' :: bs) = unicodeEscape bs := fun bs => rfl
        rw [hescape] at h
        obtain ⟨t, rfl, hread⟩ := unicodeEscape_local h
        exact ⟨ascii 'u' :: t, rfl, hread⟩
      · rw [escape] at h
        -- the other escapes are one byte
        refine ⟨[e], ?_, fun rest' => ?_⟩
        · split_ifs at h <;> first
            | exact congrArg (e :: ·) (ok_pair_inj h).2
            | cases h
        · rw [singleton_append, escape]
          split_ifs at h ⊢ <;> first
            | exact congrArg (fun c => Except.ok (c, rest')) (ok_pair_inj h).1
            | cases h

/-- One round of the string loop: the closing quote, or some bytes for a character. -/
lemma stringStep_local {c : Option Char} (h : stringStep bs = .ok (c, rest)) :
    ∃ b t, bs = b :: t ++ rest ∧ (∀ rest', stringStep (b :: t ++ rest') = .ok (c, rest')) ∧
      (c = none → b :: t = [ascii '"']) := by
  cases bs with
  | nil => cases h
  | cons b bs =>
      rw [stringStep] at h
      split_ifs at h with hquote hslash hcontrol
      · cases h
        exact ⟨b, [], rfl, fun rest' => by simp [stringStep, hquote], fun _ => by rw [hquote]⟩
      · obtain ⟨⟨d, rest₁⟩, hd, hpair⟩ := map_eq_ok.1 h
        obtain ⟨rfl, rfl⟩ := Prod.mk.inj hpair
        obtain ⟨t, rfl, hread⟩ := escape_local hd
        refine ⟨b, t, rfl, fun rest' => ?_, by simp⟩
        rw [cons_append, stringStep, if_neg hquote, if_pos hslash, hread]
        rfl
      · cases h
      · cases hrune : decodeRune (b :: bs) with
        | none =>
            rw [hrune] at h
            cases h
        | some r =>
            rw [hrune] at h
            obtain ⟨rfl, rfl⟩ := ok_pair_inj h
            obtain ⟨b', t, hbs, hread⟩ := decodeRune_local hrune
            refine ⟨b', t, hbs, fun rest' => ?_, by simp⟩
            obtain ⟨rfl, -⟩ := List.cons.inj hbs
            have hrune' := hread rest'
            rw [cons_append] at hrune' ⊢
            rw [stringStep, if_neg hquote, if_neg hslash, if_neg hcontrol, hrune']

lemma stringStep_append {c : Option Char} (h : stringStep bs = .ok (c, [])) (rest : Bytes) :
    stringStep (bs ++ rest) = .ok (c, rest) := by
  obtain ⟨b, t, rfl, hread, -⟩ := stringStep_local h
  rw [append_nil]
  exact hread rest

lemma length_lt (t : Bytes) (b : UInt8) (rest : Bytes) : t.length < (t ++ b :: rest).length := by
  simp

/-- A loop reads the same with any rounds that are enough. -/
lemma stringLoop_local {n : ℕ} {cs : List Char} (h : stringLoop n bs = .ok (cs, rest)) :
    ∃ t, bs = t ++ ascii '"' :: rest ∧ ∀ m rest', t.length < m →
      stringLoop m (t ++ ascii '"' :: rest') = .ok (cs, rest') := by
  induction n generalizing bs cs with
  | zero => cases h
  | succ n ih =>
      rw [stringLoop] at h
      obtain ⟨⟨c, rest₁⟩, hstep, h₁⟩ := bind_eq_ok.1 h
      obtain ⟨b, t, rfl, hread, hnone⟩ := stringStep_local hstep
      cases c with
      | none =>
          cases h₁
          rw [hnone rfl] at hread ⊢
          refine ⟨[], rfl, fun m rest' hm => ?_⟩
          obtain ⟨m, rfl⟩ := Nat.exists_eq_add_of_lt hm
          rw [stringLoop, show [] ++ ascii '"' :: rest' = [ascii '"'] ++ rest' from rfl, hread]
          rfl
      | some c =>
          obtain ⟨⟨cs', rest₂⟩, hloop, h₂⟩ := bind_eq_ok.1 h₁
          cases h₂
          obtain ⟨u, rfl, hrest⟩ := ih hloop
          refine ⟨b :: t ++ u, by simp, fun m rest' hm => ?_⟩
          obtain ⟨m, rfl⟩ := Nat.exists_eq_add_of_lt hm
          rw [stringLoop, append_assoc, hread]
          simp only [ok_bind]
          rw [hrest _ rest' (by simp only [length_append, length_cons]; omega)]
          rfl

lemma string_local {s : String} (h : string bs = .ok (s, rest)) :
    ∃ t, bs = t ++ ascii '"' :: rest ∧
      ∀ rest', string (t ++ ascii '"' :: rest') = .ok (s, rest') := by
  rw [string] at h
  obtain ⟨⟨cs, rest₁⟩, hloop, h₁⟩ := bind_eq_ok.1 h
  obtain ⟨rfl, rfl⟩ := ok_pair_inj h₁
  obtain ⟨t, hbs, hread⟩ := stringLoop_local hloop
  refine ⟨t, hbs, fun rest' => ?_⟩
  rw [string, hread _ rest' (length_lt t _ rest')]
  rfl

end

end JsonParser

/-! ## The canonical printer -/

section

open JsonParser

lemma hexVal_hexDigit {n : ℕ} (h : n < 16) : hexVal (escapeByte.hexDigit n) = some n := by
  interval_cases n <;> decide

/-- A `\u00xx` escape is read as the character with that code. -/
lemma stringStep_hex {n : ℕ} (h : n < 128) (rest : Bytes) :
    stringStep (utf8 "\\u00" ++ [escapeByte.hexDigit (n / 16), escapeByte.hexDigit (n % 16)] ++ rest) =
      .ok (some (Char.ofNat n), rest) := by
  have hall : ∀ n < 128, stringStep (utf8 "\\u00" ++ [escapeByte.hexDigit (n / 16),
      escapeByte.hexDigit (n % 16)]) = .ok (some (Char.ofNat n), []) := by decide +kernel
  exact stringStep_append (hall n h) rest

lemma escapeByte_high {b : UInt8} (h : 0x80 ≤ b.toNat) : escapeByte b = [b] := by
  have hne (d : UInt8) (hd : d.toNat < 0x80) : b ≠ d := by
    rintro rfl
    omega
  rw [escapeByte, if_neg (hne _ (by decide)), if_neg (hne _ (by decide)), if_neg (hne _ (by decide)),
    if_neg (hne _ (by decide)), if_neg (hne _ (by decide)), if_neg (hne _ (by decide)),
    if_neg (hne _ (by decide)), if_neg (by omega)]

/-- A byte that starts a character other than the quote, the backslash and the controls. -/
lemma stringStep_plain {b : UInt8} {bs rest : Bytes} {c : Char} (hquote : b ≠ ascii '"')
    (hback : b ≠ ascii '\\') (hctl : ¬ b.toNat < 0x20)
    (hdec : decodeRune (b :: bs) = some (c, rest)) :
    stringStep (b :: bs) = .ok (some c, rest) := by
  simp [stringStep, hquote, hback, hctl, hdec]

lemma stringStep_encode {c : Char} (rest : Bytes) (h : 0x80 ≤ c.toNat) :
    stringStep (String.utf8EncodeChar c ++ rest) = .ok (some c, rest) := by
  have hdec := decodeRune_encode c rest
  have hhigh := encode_not_ascii h
  cases htext : String.utf8EncodeChar c with
  | nil => exact absurd htext String.utf8EncodeChar_ne_nil
  | cons b bs =>
      rw [htext] at hdec hhigh
      have hb := hhigh b (by simp)
      refine stringStep_plain ?_ ?_ (by omega) hdec
      · rintro rfl
        exact absurd hb (by decide)
      · rintro rfl
        exact absurd hb (by decide)

lemma stringStep_escapeByte {n : ℕ} (h : n < 0x80) (rest : Bytes) :
    stringStep (escapeByte (UInt8.ofNat n) ++ rest) = .ok (some (Char.ofNat n), rest) := by
  have hall : ∀ n < 0x80, stringStep (escapeByte (UInt8.ofNat n)) = .ok (some (Char.ofNat n), []) := by
    decide +kernel
  exact stringStep_append (hall n h) rest

/-- The escapes of the canonical writer, character by character. -/
def jcsEscape (c : Char) : Bytes :=
  (String.utf8EncodeChar c).flatMap escapeByte

lemma jcsEscape_high {c : Char} (h : 0x80 ≤ c.toNat) : jcsEscape c = String.utf8EncodeChar c := by
  rw [jcsEscape]
  conv_rhs => rw [← flatMap_singleton' (String.utf8EncodeChar c)]
  exact flatMap_congr fun b hb => escapeByte_high (encode_not_ascii h b hb)

lemma jcsEscape_low {c : Char} (h : c.toNat < 0x80) :
    jcsEscape c = escapeByte (UInt8.ofNat c.toNat) := by
  rw [jcsEscape, encode_ascii h, flatMap_singleton]

lemma stringStep_jcsEscape (c : Char) (rest : Bytes) :
    stringStep (jcsEscape c ++ rest) = .ok (some c, rest) := by
  rcases Nat.lt_or_ge c.toNat 0x80 with h | h
  · have hstep := stringStep_escapeByte h rest
    rw [Char.ofNat_toNat] at hstep
    rw [jcsEscape_low h]
    exact hstep
  · rw [jcsEscape_high h]
    exact stringStep_encode rest h

/-- The canonical writer. -/
def jcs : Printer Float64 where
  escape := jcsEscape
  number := formatNumberES6
  read := Float64.printed
  escape_read := stringStep_jcsEscape
  number_read x _ hrest := number_formatNumberES6 x hrest

lemma writeCanonicalString_eq (s : String) : writeCanonicalString s = jcs.string s := by
  simp only [writeCanonicalString, Printer.string, utf8, flatMap_assoc]
  rfl

end

/-! ## Normal forms -/

section

variable {N M : Type}

mutual

/-- The value with the members of every object in order. -/
def Json.normal : Json N → Json N
  | .null => .null
  | .bool b => .bool b
  | .num n => .num n
  | .str s => .str s
  | .arr els => .arr (normalElements els)
  | .obj ms => .obj (sortMembers (normalMembers ms))

def Json.normalElements : List (Json N) → List (Json N)
  | [] => []
  | v :: vs => v.normal :: normalElements vs

def Json.normalMembers : Members N → Members N
  | [] => []
  | (k, v) :: ms => (k, v.normal) :: normalMembers ms

end

@[simp]
lemma Json.normalElements_eq (els : List (Json N)) : normalElements els = els.map normal := by
  induction els with
  | nil => simp [normalElements]
  | cons v vs ih => simp [normalElements, ih]

@[simp]
lemma Json.normalMembers_eq (ms : Members N) :
    normalMembers ms = ms.map fun m => (m.1, m.2.normal) := by
  induction ms with
  | nil => simp [normalMembers]
  | cons m ms ih => simp [normalMembers, ih]

end

@[simp]
lemma writeElements_eq (els : List (Json Float64)) :
    writeElements els = els.map writeCanonical := by
  induction els with
  | nil => simp [writeElements]
  | cons v vs ih => simp [writeElements, ih]

@[simp]
lemma writeMembers_eq (ms : Members Float64) :
    writeMembers ms = ms.map fun m => (m.1, writeCanonical m.2) := by
  induction ms with
  | nil => simp [writeMembers]
  | cons m ms ih => simp [writeMembers, ih]

/-- Sorting members commutes with a change of their values. -/
lemma sortMembers_map {α β : Type} (f : α → β) (ms : List (String × α)) :
    sortMembers (ms.map fun m => (m.1, f m.2)) = (sortMembers ms).map fun m => (m.1, f m.2) :=
  (map_sortOn (fun _ => rfl) ms).symm

/-- The canonical text prints the value in its normal order. -/
theorem writeCanonical_eq (v : Json Float64) : writeCanonical v = jcs.render v.normal := by
  induction v using Json.ind with
  | null => simp [writeCanonical, Json.normal, Printer.render]
  | bool b => cases b <;> simp [writeCanonical, Json.normal, Printer.render]
  | num n => simp [writeCanonical, Json.normal, Printer.render, jcs]
  | str s => simp [writeCanonical, Json.normal, Printer.render, writeCanonicalString_eq]
  | arr els ih =>
      simp only [writeCanonical, Json.normal, Printer.render, writeElements_eq,
        Json.normalElements_eq, Printer.renderElements_eq, List.map_map]
      rw [map_congr_left (f := writeCanonical) (g := jcs.render ∘ Json.normal) ih]
  | obj ms ih =>
      have hms : ms.map (fun m => (m.1, writeCanonical m.2)) =
          (ms.map fun m => (m.1, m.2.normal)).map fun m => (m.1, jcs.render m.2) := by
        rw [List.map_map]
        exact map_congr_left fun m hm => by simp [ih m hm]
      simp only [writeCanonical, Json.normal, Printer.render, writeMembers_eq,
        Json.normalMembers_eq, Printer.renderMembers_eq, writeCanonicalString_eq]
      rw [hms, sortMembers_map jcs.render, List.map_map]
      rfl

end AuthSec

import AuthSec.Canonical.Spaces
import AuthSec.Policy.Lemmas.Decode

/-!
# Documents that cannot be stored

`checkStorable` looks for the escape of U+0000 in the canonical text.  The text has it for a string
with U+0000, and also for a string whose own characters spell it behind a backslash: that backslash
is doubled, and the second one stands in front of `u0000`.

* `nulEscape_infix_writeCanonical`: the strings whose texts have the escape;
* `canonicalDocument_notStorable`: the texts that are refused;
* `canonicalDocument_refuses_nul_iff`: when those are the texts with U+0000.
-/

namespace AuthSec

open List JsonWriter

/-! ## Escaped strings -/

/-- What follows the backslash of the escape. -/
def nulDigits : List Char :=
  ['u', '0', '0', '0', '0']

lemma nulEscape_eq : nulEscape = ascii '\\' :: nulDigits.map ascii := by
  decide

/-- Whether a text can start with the digits of the escape, by its first five bytes. -/
lemma not_nulDigits_prefix {r : Bytes}
    (h : r.length = 5 ∧ r ≠ nulDigits.map ascii ∨ ∃ b ∈ r.head?, b ≠ ascii 'u') (l : Bytes) :
    ¬ nulDigits.map ascii <+: r ++ l := by
  intro hpre
  rcases h with ⟨hlen, hne⟩ | ⟨b, hb, hne⟩
  · have hshort := prefix_of_prefix_length_le hpre (prefix_append r l)
      (by simp [nulDigits, hlen])
    exact hne (hshort.eq_of_length (by simp [nulDigits, hlen])).symm
  · obtain ⟨r, rfl⟩ := head?_eq_some_iff.1 hb
    exact hne (cons_prefix_cons.1 hpre).1.symm

/-- The text of any other character has nothing to do with the escape. -/
lemma nulEscape_infix_jcsEscape {c : Char} (hnul : c.toNat ≠ 0) (hback : c.toNat ≠ 92) (l : Bytes) :
    nulEscape <:+: jcsEscape c ++ l ↔ nulEscape <:+: l := by
  have hall : ∀ n ∈ List.range 0x80, n ≠ 0 → n ≠ 92 →
      ascii '\\' ∉ escapeByte (UInt8.ofNat n) ∨
      (escapeByte (UInt8.ofNat n)).head? = some (ascii '\\') ∧
        ascii '\\' ∉ (escapeByte (UInt8.ofNat n)).tail ∧
        ((escapeByte (UInt8.ofNat n)).tail.length = 5 ∧
          (escapeByte (UInt8.ofNat n)).tail ≠ nulDigits.map ascii ∨
        ∃ b ∈ (escapeByte (UInt8.ofNat n)).tail.head?, b ≠ ascii 'u') := by
    decide +kernel
  have hshape : ascii '\\' ∉ jcsEscape c ∨ (jcsEscape c).head? = some (ascii '\\') ∧
      ascii '\\' ∉ (jcsEscape c).tail ∧ ((jcsEscape c).tail.length = 5 ∧
        (jcsEscape c).tail ≠ nulDigits.map ascii ∨
      ∃ b ∈ (jcsEscape c).tail.head?, b ≠ ascii 'u') := by
    rcases Nat.lt_or_ge c.toNat 0x80 with hlow | hhigh
    · rw [jcsEscape_low hlow]
      exact hall c.toNat (mem_range.2 hlow) hnul hback
    · refine Or.inl fun hmem => ?_
      rw [jcsEscape_high hhigh] at hmem
      exact absurd (encode_not_ascii hhigh _ hmem) (by decide)
  rw [nulEscape_eq]
  rcases hshape with hnone | ⟨hhead, htail, hother⟩
  · exact infix_append_iff_of_notMem hnone
  · obtain ⟨r, hr⟩ := head?_eq_some_iff.1 hhead
    rw [hr, tail_cons] at htail hother
    rw [hr, cons_append, infix_cons_iff, cons_prefix_cons, infix_append_iff_of_notMem htail]
    exact or_iff_right fun hpre => not_nulDigits_prefix hother l hpre.2

/-- Only a letter of the escape starts like one. -/
lemma head_jcsEscape {a c : Char} (ha : a = 'u' ∨ a = '0')
    (h : (jcsEscape c).head? = some (ascii a)) : c = a := by
  have hall : ∀ n ∈ List.range 0x80, ∀ a ∈ ['u', '0'],
      (escapeByte (UInt8.ofNat n)).head? = some (ascii a) → n = a.toNat := by
    decide +kernel
  rcases Nat.lt_or_ge c.toNat 0x80 with hlow | hhigh
  · rw [jcsEscape_low hlow] at h
    exact Char.toNat_inj.1 (hall c.toNat (mem_range.2 hlow) a (by simpa using ha) h)
  · rw [jcsEscape_high hhigh] at h
    have hge := encode_not_ascii hhigh _ (mem_of_mem_head? h)
    rcases ha with rfl | rfl <;> exact absurd hge (by decide)

/-- The letters of the escape are written as they are. -/
lemma prefix_jcsEscape {old : List Char} (hold : ∀ a ∈ old, a = 'u' ∨ a = '0') (l : List Char) :
    old.map ascii <+: l.flatMap jcsEscape ↔ old <+: l := by
  induction old generalizing l with
  | nil => simp
  | cons a old ih =>
      have ha := hold a (by simp)
      have hself : jcsEscape a = [ascii a] := by rcases ha with rfl | rfl <;> decide
      cases l with
      | nil => simp
      | cons c l =>
          rw [flatMap_cons, map_cons, cons_prefix_cons]
          constructor
          · intro hpre
            obtain ⟨b, bs, hbs⟩ := exists_cons_of_ne_nil (jcs.escape_ne_nil c)
            have hbs' : jcsEscape c = b :: bs := hbs
            have hb : ascii a = b := by
              rw [hbs', cons_append, cons_prefix_cons] at hpre
              exact hpre.1
            obtain rfl := head_jcsEscape ha (by rw [hbs', hb]; rfl)
            rw [hself, singleton_append, cons_prefix_cons,
              ih fun a h => hold a (by simp [h])] at hpre
            exact ⟨rfl, hpre.2⟩
          · rintro ⟨rfl, hpre⟩
            rw [hself, singleton_append, cons_prefix_cons, ih fun a h => hold a (by simp [h])]
            exact ⟨rfl, hpre⟩

/-- The strings whose texts have the escape. -/
theorem nulEscape_infix_string (l : List Char) :
    nulEscape <:+: l.flatMap jcsEscape ↔
      Char.ofNat 0 ∈ l ∨ '\\' :: nulDigits <:+: l := by
  induction l with
  | nil => simp [nulEscape_eq]
  | cons c l ih =>
      rw [flatMap_cons, mem_cons, infix_cons_iff]
      by_cases hnul : c.toNat = 0
      · have hc : c = Char.ofNat 0 := Char.toNat_inj.1 hnul
        have htext : jcsEscape (Char.ofNat 0) = nulEscape := by decide
        rw [hc, htext]
        exact iff_of_true (prefix_append ..).isInfix (Or.inl (Or.inl rfl))
      have hne : Char.ofNat 0 ≠ c := fun heq => hnul (heq ▸ rfl)
      by_cases hback : c.toNat = 92
      · obtain rfl : c = '\\' := Char.toNat_inj.1 hback
        have htext : jcsEscape '\\' = [ascii '\\', ascii '\\'] := by decide
        have hfirst : ¬ nulEscape <+: ascii '\\' :: ascii '\\' :: l.flatMap jcsEscape := by
          rw [nulEscape_eq, cons_prefix_cons]
          exact not_nulDigits_prefix (r := [ascii '\\']) (Or.inr ⟨_, rfl, by decide⟩) _ ∘ And.right
        have hsecond : nulEscape <+: ascii '\\' :: l.flatMap jcsEscape ↔ '\\' :: nulDigits <+: '\\' :: l := by
          rw [nulEscape_eq, cons_prefix_cons, cons_prefix_cons, prefix_jcsEscape (by decide)]
          simp
        rw [htext, cons_append, cons_append, nil_append, infix_cons_iff,
          or_iff_right hfirst, infix_cons_iff, hsecond, ih]
        simp only [hne, false_or]
        tauto
      · have hother : ¬ '\\' :: nulDigits <+: c :: l := by
          rw [cons_prefix_cons]
          rintro ⟨rfl, -⟩
          exact hback rfl
        rw [nulEscape_infix_jcsEscape hnul hback, ih]
        simp [hne, hother]

/-! ## Canonical texts -/

/-- The layout of the canonical writer. -/
def canonicalWriter : JsonWriter Float64 where
  newline _ := []
  colon := [ascii ':']
  quote := inQuotes fun s => s.toList.flatMap jcsEscape
  num := formatNumberES6

lemma text_canonicalWriter (d : ℕ) (v : Json Float64) :
    canonicalWriter.text d v = jcs.render v :=
  jcs.text_writer d v

/-- Some string of the value, or the name of a member, has U+0000. -/
def Json.HasNul {N : Type} (v : Json N) : Prop :=
  ∃ s ∈ v.strings, Char.ofNat 0 ∈ s.toList

/-- Some string of the value, or the name of a member, spells the escape of U+0000. -/
def Json.SpellsNul {N : Type} (v : Json N) : Prop :=
  ∃ s ∈ v.strings, '\\' :: nulDigits <:+: s.toList

instance {N : Type} (v : Json N) : Decidable v.HasNul :=
  inferInstanceAs (Decidable (∃ s ∈ v.strings, Char.ofNat 0 ∈ s.toList))

instance {N : Type} (v : Json N) : Decidable v.SpellsNul :=
  inferInstanceAs (Decidable (∃ s ∈ v.strings, '\\' :: nulDigits <:+: s.toList))

/-- A canonical text has the escape of U+0000 exactly where a string has the character or spells its
escape. -/
theorem nulEscape_infix_writeCanonical (v : Json Float64) :
    nulEscape <:+: writeCanonical v ↔ v.HasNul ∨ v.SpellsNul := by
  have hmarks (m : Bytes) (hm : JsonPiece.mark m ∈ canonicalWriter.pieces 0 v.canon) :
      ascii '\\' ∉ m := by
    refine notMem_mark (by decide) (by simp [canonicalWriter]) (by decide) (fun x hmem => ?_) hm
    obtain ⟨t, htext, hwf, -⟩ := formatNumberES6_text x
    have hmem' : ascii '\\' ∈ formatNumberES6 x := hmem
    rw [htext] at hmem'
    exact absurd (hwf.mem_text hmem') (by decide)
  have hfind : nulEscape <:+: canonicalWriter.text 0 v.canon ↔
      ∃ s, JsonPiece.quoted s ∈ canonicalWriter.pieces 0 v.canon ∧
        nulEscape <:+: s.toList.flatMap jcsEscape := by
    rw [nulEscape_eq]
    exact infix_textOf (by decide) hmarks
  rw [writeCanonical_eq_canon, ← text_canonicalWriter 0, hfind]
  simp only [quoted_mem_pieces, v.strings_canon_perm.mem_iff, nulEscape_infix_string]
  simp only [Json.HasNul, Json.SpellsNul, and_or_left, exists_or]

/-! ## Documents -/

lemma pathUnescape_of_notMem {t : Bytes} (h : ascii '%' ∉ t) : pathUnescape t = .ok t := by
  induction t with
  | nil => rfl
  | cons b t ih =>
      have hb : b ≠ ascii '%' := fun heq => h (by simp [heq])
      rw [pathUnescape.eq_def]
      simp only [if_neg hb]
      rw [ih fun hmem => h (by simp [hmem])]
      rfl

lemma decodePolicyText_error {text : Bytes} {e : GoErr} (h : decodePolicyText text = .error e) :
    e ≠ .notStorable := by
  rw [decodePolicyText] at h
  split_ifs at h
  cases hdecode : pathUnescape (trimSpaceBytes text) with
  | error bad =>
      rw [hdecode] at h
      obtain rfl := Except.error.inj h
      simp
  | ok t =>
      rw [hdecode] at h
      cases h

/-- The texts that are refused. -/
theorem canonicalDocument_notStorable (text : Bytes) :
    canonicalDocument text = .error .notStorable ↔ ∃ raw w, decodePolicyText text = .ok raw ∧
      parseJSON raw = .ok w ∧ (w.HasNul ∨ w.SpellsNul) := by
  rw [canonicalDocument]
  cases hraw : decodePolicyText text with
  | error e =>
      have hne := decodePolicyText_error hraw
      refine iff_of_false (fun h => hne (Except.error.inj h)) ?_
      rintro ⟨raw, w, h, -⟩
      cases h
  | ok raw =>
      cases hparse : parseJSON raw with
      | error e =>
          refine iff_of_false (fun h => ?_) ?_
          · rw [ok_bind, canonicalize, hparse] at h
            cases h
          · rintro ⟨_, w, h, hw, -⟩
            obtain rfl := Except.ok.inj h
            rw [hparse] at hw
            cases hw
      | ok w =>
          have hcanonical : (canonicalize raw).mapError GoErr.notIJSON = .ok (writeCanonical w) := by
            rw [canonicalize, hparse]
            rfl
          have hexists : (∃ raw' w', Except.ok raw = (Except.ok raw' : Except GoErr Bytes) ∧
              parseJSON raw' = .ok w' ∧ (w'.HasNul ∨ w'.SpellsNul)) ↔ w.HasNul ∨ w.SpellsNul := by
            constructor
            · rintro ⟨_, w', h, hw', hnul⟩
              obtain rfl := Except.ok.inj h
              rw [hparse] at hw'
              exact Except.ok.inj hw' ▸ hnul
            · exact fun hnul => ⟨raw, w, rfl, hparse, hnul⟩
          rw [ok_bind, hcanonical, ok_bind, hexists, ← nulEscape_infix_writeCanonical, checkStorable]
          split_ifs with hinfix
          · exact iff_of_true rfl hinfix
          · exact iff_of_false (fun h => by cases h) hinfix

/-- The text is not URL-decoded, or decoding does not change it. -/
def TakenAsIs (text : Bytes) : Prop :=
  (trimSpaceBytes text).head? = some (ascii '\x7b') ∨ ascii '%' ∉ trimSpaceBytes text

instance (text : Bytes) : Decidable (TakenAsIs text) :=
  inferInstanceAs (Decidable (_ ∨ _))

/-- Such a text is read as it stands. -/
lemma TakenAsIs.parse {text : Bytes} (h : TakenAsIs text) {v : Json Float64}
    (hv : parseJSON text = .ok v) :
    ∃ raw, decodePolicyText text = .ok raw ∧ parseJSON raw = .ok v := by
  have htrim := parseJSON_trimSpaceBytes hv
  rw [decodePolicyText]
  split_ifs with hopen
  · exact ⟨_, rfl, htrim⟩
  · rw [pathUnescape_of_notMem (h.resolve_left hopen)]
    exact ⟨_, rfl, parseJSON_trimSpaceBytes htrim⟩

/-- For a JSON text that is taken as it is, the refusal says that a string has U+0000 unless the only
ones it finds spell the escape; for any other text it is about the value of the decoded text. -/
theorem canonicalDocument_refuses_nul_iff {text : Bytes} {v : Json Float64}
    (hv : parseJSON text = .ok v) :
    (TakenAsIs text → ((canonicalDocument text = .error .notStorable ↔ v.HasNul) ↔
      v.HasNul ∨ ¬ v.SpellsNul)) ∧
    (¬ TakenAsIs text → ((canonicalDocument text = .error .notStorable ↔ v.HasNul) ↔
      ((∃ t w, pathUnescape (trimSpaceBytes text) = .ok t ∧ parseJSON (trimSpaceBytes t) = .ok w ∧
        (w.HasNul ∨ w.SpellsNul)) ↔ v.HasNul))) := by
  rw [canonicalDocument_notStorable]
  constructor
  · intro has
    obtain ⟨raw, hraw, hparse⟩ := has.parse hv
    have hrefused : (∃ raw' w, decodePolicyText text = .ok raw' ∧ parseJSON raw' = .ok w ∧
        (w.HasNul ∨ w.SpellsNul)) ↔ v.HasNul ∨ v.SpellsNul := by
      constructor
      · rintro ⟨raw', w, hraw', hw, hnul⟩
        obtain rfl := Except.ok.inj (hraw.symm.trans hraw')
        exact Except.ok.inj (hparse.symm.trans hw) ▸ hnul
      · exact fun hnul => ⟨raw, v, hraw, hparse, hnul⟩
    rw [hrefused]
    tauto
  · intro has
    have hopen : (trimSpaceBytes text).head? ≠ some (ascii '\x7b') := fun h => has (Or.inl h)
    have hraw : decodePolicyText text =
        ((pathUnescape (trimSpaceBytes text)).mapError .urlDecode).map trimSpaceBytes := if_neg hopen
    have hrefused : (∃ raw w, decodePolicyText text = .ok raw ∧ parseJSON raw = .ok w ∧
        (w.HasNul ∨ w.SpellsNul)) ↔ ∃ t w, pathUnescape (trimSpaceBytes text) = .ok t ∧
        parseJSON (trimSpaceBytes t) = .ok w ∧ (w.HasNul ∨ w.SpellsNul) := by
      constructor
      · rintro ⟨raw, w, hdecode, hw, hnul⟩
        rw [hraw] at hdecode
        obtain ⟨t, ht, rfl⟩ := map_eq_ok.1 hdecode
        exact ⟨t, w, mapError_eq_ok.1 ht, hw, hnul⟩
      · rintro ⟨t, w, ht, hw, hnul⟩
        exact ⟨trimSpaceBytes t, w, by rw [hraw, ht]; rfl, hw, hnul⟩
    rw [hrefused]

/-- A policy document with a string of U+0000 is refused. -/
theorem canonicalDocument_refuses_nul_control :
    TakenAsIs (utf8 "\x7b\"a\":\"\\u0000\"\x7d") ∧
      canonicalDocument (utf8 "\x7b\"a\":\"\\u0000\"\x7d") = .error .notStorable := by
  have hparse : parseJSON (utf8 "\x7b\"a\":\"\\u0000\"\x7d") =
      .ok (.obj [("a", .str (String.ofList [Char.ofNat 0]))]) := by
    rfl
  have has : TakenAsIs (utf8 "\x7b\"a\":\"\\u0000\"\x7d") := by decide +kernel
  have hnul : (Json.obj [("a", .str (String.ofList [Char.ofNat 0]))] : Json Float64).HasNul := by
    decide +kernel
  exact ⟨has, (((canonicalDocument_refuses_nul_iff hparse).1 has).2 (Or.inl hnul)).2 hnul⟩

/-- A string of the six characters of the escape has no U+0000 and is refused as well. -/
theorem canonicalDocument_refuses_spelled :
    parseJSON (utf8 "\x7b\"a\":\"\\\\u0000\"\x7d") = .ok (.obj [("a", .str "\\u0000")]) ∧
      ¬ (Json.obj [("a", .str "\\u0000")] : Json Float64).HasNul ∧
      canonicalDocument (utf8 "\x7b\"a\":\"\\\\u0000\"\x7d") = .error .notStorable :=
  ⟨rfl, by decide +kernel, by decide +kernel⟩

end AuthSec

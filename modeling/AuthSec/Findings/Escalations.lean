import AuthSec.Findings.Catalogs
import AuthSec.Policy.Wildcards

/-!
# Escalations that a statement grants

`globsIntersect` compares bytes, and a statement may name an action in any characters.  The patterns
of the catalog are ASCII without `?`, so a text that both patterns match can be exchanged for bytes
that both match, and back: `Transcribed`.

* `globsIntersect_ascii`: for two ASCII patterns the recursion finds out whether some text matches
  both;
* `globsIntersect_plain`: so it does for any pattern and one of the catalog;
* `escalationsGranted_exact_iff`: when no escalation is missed;
* `foldedExcluded_of_no_long_s`: it is enough that no entry of `NotAction` has a long s.
-/

namespace AuthSec

open List

/-! ## Patterns over bytes -/

/-- The bytes that two symbols of patterns can both stand for. -/
def byteMeet (c d : UInt8) : Bool :=
  c = 63 || d = 63 || c = d

lemma globsMeet_eq (n : ℕ) (a b : Bytes) : globsMeet n a b = byteGlob.meets byteMeet n a b := by
  have hhead : ∀ p : Bytes, p.head?.any byteGlob.star = decide (p.head? = some 42) := by
    rintro (_ | ⟨c, p⟩)
    · rfl
    · simp [byteGlob, ascii, Bool.beq_eq_decide_eq]
  induction n generalizing a b with
  | zero => cases a <;> cases b <;> rfl
  | succ n ih =>
      rcases a with _ | ⟨c, a⟩ <;> rcases b with _ | ⟨d, b⟩ <;>
        simp only [globsMeet, Glob.meets, hhead, ih, byteMeet, decide_eq_true_eq]

lemma byteGlob_hits (d : UInt8) (_ : byteGlob.star d = false) : ∃ b, byteGlob.hit d b = true :=
  ⟨d, by simp [byteGlob]⟩

lemma byteMeet_iff (c d : UInt8) (_ : byteGlob.star c = false) (_ : byteGlob.star d = false) :
    byteMeet c d = true ↔ ∃ b, byteGlob.hit c b = true ∧ byteGlob.hit d b = true := by
  have hone : ascii '?' = 63 := rfl
  simp only [byteMeet, byteGlob, hone, Bool.or_eq_true, decide_eq_true_eq, beq_iff_eq]
  constructor
  · rintro ((rfl | rfl) | rfl)
    · exact ⟨d, Or.inl rfl, Or.inr rfl⟩
    · exact ⟨c, Or.inr rfl, Or.inl rfl⟩
    · exact ⟨c, Or.inr rfl, Or.inr rfl⟩
  · rintro ⟨b, rfl | rfl, rfl | rfl⟩ <;> simp

lemma globsIntersect_iff (a b : String) :
    globsIntersect a b = true ↔ byteGlob.Common (utf8 (toLower a)) (utf8 (toLower b)) := by
  rw [globsIntersect, globsMeet_eq]
  exact Glob.meets_iff byteGlob_hits byteMeet_iff (le_refl _)

/-! ## Case -/

/-- A text that matches two patterns without their case matches them in any case. -/
lemma common_lower {a b : List Char} :
    iamGlob.Common (a.map lowerChar) (b.map lowerChar) ↔ foldGlob.Common a b := by
  constructor
  · rintro ⟨s, ha, hb⟩
    have hlower : ∀ p : List Char, iamGlob.accepts (p.map lowerChar) s = true →
        foldGlob.accepts p s = true := by
      intro p h
      rw [← accepts_lower, Glob.accepts_iff_reads]
      have hmap : iamGlob.Reads ((p.map lowerChar).map id) (s.map lowerChar) := by
        refine (Glob.accepts_iff_reads.1 h).map id lowerChar (fun _ _ => rfl) fun c hc x _ hhit => ?_
        obtain ⟨d, -, rfl⟩ := mem_map.1 hc
        have hcases : lowerChar d = '?' ∨ lowerChar d = x := by simpa [iamGlob] using hhit
        rcases hcases with hone | rfl
        · simp [iamGlob, hone]
        · simp [iamGlob, lowerChar_lowerChar]
      simpa using hmap
    exact ⟨s, hlower a ha, hlower b hb⟩
  · rintro ⟨s, ha, hb⟩
    exact ⟨s.map lowerChar, by rwa [accepts_lower], by rwa [accepts_lower]⟩

/-- Some action matches both patterns. -/
lemma common_iff_exists {a b : String} :
    foldGlob.Common a.toList b.toList ↔
      ∃ x : String, foldGlob.Reads a.toList x.toList ∧ foldGlob.Reads b.toList x.toList := by
  simp only [Glob.Common, Glob.accepts_iff_reads]
  constructor
  · rintro ⟨s, ha, hb⟩
    exact ⟨String.ofList s, by simpa using ha, by simpa using hb⟩
  · rintro ⟨x, ha, hb⟩
    exact ⟨x.toList, ha, hb⟩

/-! ## ASCII patterns -/

/-- A byte as a character. -/
def latin (b : UInt8) : Char :=
  Char.ofNat b.toNat

/-- A character as a byte; beyond ASCII any byte that no ASCII pattern spells. -/
def byteOf (c : Char) : UInt8 :=
  if c.toNat < 128 then ascii c else 255

lemma latin_ascii {c : Char} (hc : c.toNat < 128) : latin (ascii c) = c := by
  rw [latin, ascii, toNat_uint8_ofNat (by omega), Char.ofNat_toNat]

/-- The bytes that an ASCII pattern matches are characters that it matches. -/
lemma reads_latin {p : List Char} {s : Bytes} (hp : ∀ c ∈ p, c.toNat < 128)
    (h : byteGlob.accepts (p.map ascii) s = true) : iamGlob.accepts p (s.map latin) = true := by
  have hmap : iamGlob.Reads ((p.map ascii).map latin) (s.map latin) := by
    refine (Glob.accepts_iff_reads.1 h).map latin latin (fun c hc => ?_) fun c hc b _ hhit => ?_
    · obtain ⟨d, hd, rfl⟩ := mem_map.1 hc
      have hstar := ascii_inj (hp d hd) (show ('*' : Char).toNat < 128 by decide)
      simp [iamGlob, byteGlob, latin_ascii (hp d hd), hstar]
    · obtain ⟨d, hd, rfl⟩ := mem_map.1 hc
      have hcases : ascii d = ascii '?' ∨ ascii d = b := by simpa [byteGlob] using hhit
      rw [latin_ascii (hp d hd)]
      rcases hcases with hone | rfl
      · simp [iamGlob, (ascii_inj (hp d hd) (by decide)).1 hone]
      · simp [iamGlob, latin_ascii (hp d hd)]
  have hback : (p.map ascii).map latin = p := by
    rw [List.map_map]
    exact (map_congr_left fun c hc => latin_ascii (hp c hc)).trans (List.map_id p)
  rwa [hback, ← Glob.accepts_iff_reads] at hmap

/-- The characters that an ASCII pattern matches are bytes that it matches. -/
lemma reads_byteOf {p s : List Char} (hp : ∀ c ∈ p, c.toNat < 128)
    (h : iamGlob.accepts p s = true) : byteGlob.accepts (p.map ascii) (s.map byteOf) = true := by
  rw [Glob.accepts_iff_reads] at h ⊢
  refine h.map ascii byteOf (fun c hc => ?_) fun c hc a _ hhit => ?_
  · have hstar := ascii_inj (hp c hc) (show ('*' : Char).toNat < 128 by decide)
    simp [iamGlob, byteGlob, hstar]
  · have hcases : c = '?' ∨ c = a := by simpa [iamGlob] using hhit
    rcases hcases with rfl | rfl
    · simp [byteGlob]
    · simp [byteGlob, byteOf, hp c hc]

/-- Two ASCII patterns meet exactly if some text matches both in any case. -/
theorem globsIntersect_ascii {a b : String} (ha : ∀ c ∈ a.toList, c.toNat < 128)
    (hb : ∀ c ∈ b.toList, c.toNat < 128) :
    globsIntersect a b = true ↔
      ∃ x : String, foldGlob.Reads a.toList x.toList ∧ foldGlob.Reads b.toList x.toList := by
  have ha' := ascii_toLower ha
  have hb' := ascii_toLower hb
  rw [globsIntersect_iff, utf8_ascii ha', utf8_ascii hb', ← common_iff_exists, ← common_lower,
    ← toList_toLower, ← toList_toLower]
  constructor
  · rintro ⟨s, hsa, hsb⟩
    exact ⟨s.map latin, reads_latin ha' hsa, reads_latin hb' hsb⟩
  · rintro ⟨s, hsa, hsb⟩
    exact ⟨s.map byteOf, reads_byteOf ha' hsa, reads_byteOf hb' hsb⟩

/-! ## Any pattern and a plain one -/

/-- Characters and bytes for them: an ASCII character is its byte, and any other character has some
bytes beyond ASCII. -/
inductive Transcribed : List Char → Bytes → Prop
  | nil : Transcribed [] []
  | ascii {c : Char} {x : List Char} {s : Bytes} (hc : c.toNat < 128) (h : Transcribed x s) :
      Transcribed (c :: x) (ascii c :: s)
  | other {c : Char} {w : Bytes} {x : List Char} {s : Bytes} (hc : 128 ≤ c.toNat) (hne : w ≠ [])
      (hw : ∀ b ∈ w, 128 ≤ b.toNat) (h : Transcribed x s) : Transcribed (c :: x) (w ++ s)

lemma toNat_ascii {c : Char} (hc : c.toNat < 128) : (ascii c).toNat = c.toNat := by
  rw [ascii, toNat_uint8_ofNat (by omega)]

namespace Transcribed

variable {x y : List Char} {s t v : Bytes} {c : Char}

lemma append (h : Transcribed x s) (h' : Transcribed y t) : Transcribed (x ++ y) (s ++ t) := by
  induction h with
  | nil => exact h'
  | ascii hc _ ih => exact .ascii hc ih
  | other hc hne hw _ ih =>
      rw [append_assoc]
      exact .other hc hne hw ih

/-- Some character for one byte. -/
lemma exists_char (b : UInt8) : ∃ c, Transcribed [c] [b] := by
  by_cases hb : b.toNat < 128
  · have hlatin : (latin b).toNat = b.toNat :=
      char_toNat_ofNat (Or.inl (lt_trans hb (by decide)))
    have hascii : AuthSec.ascii (latin b) = b := by
      rw [AuthSec.ascii, hlatin, UInt8.ofNat_toNat]
    refine ⟨latin b, ?_⟩
    have h : Transcribed [latin b] [AuthSec.ascii (latin b)] := .ascii (hlatin ▸ hb) .nil
    rwa [hascii] at h
  · refine ⟨'\u00e9', ?_⟩
    exact .other (w := [b]) (by decide) (cons_ne_nil b []) (by simpa using hb) .nil

/-- Some byte for one character. -/
lemma exists_byte (c : Char) : ∃ b, Transcribed [c] [b] := by
  by_cases hc : c.toNat < 128
  · exact ⟨_, .ascii hc .nil⟩
  · exact ⟨255, .other (w := [255]) (Nat.le_of_not_lt hc) (by decide) (by decide) .nil⟩

/-- The bytes of a character. -/
lemma encode (c : Char) : Transcribed [c] (String.utf8EncodeChar c) := by
  by_cases hc : c.toNat < 128
  · rw [encode_ascii hc]
    exact .ascii hc .nil
  · have hc' := Nat.le_of_not_lt hc
    rw [← append_nil (String.utf8EncodeChar c)]
    exact .other hc' String.utf8EncodeChar_ne_nil (encode_not_ascii hc') .nil

lemma exists_chars (s : Bytes) : ∃ x, Transcribed x s := by
  induction s with
  | nil => exact ⟨[], .nil⟩
  | cons b s ih =>
      obtain ⟨x, hx⟩ := ih
      obtain ⟨c, hc⟩ := exists_char b
      exact ⟨[c] ++ x, hc.append hx⟩

lemma exists_bytes (x : List Char) : ∃ s, Transcribed x s := by
  induction x with
  | nil => exact ⟨[], .nil⟩
  | cons c x ih =>
      obtain ⟨s, hs⟩ := ih
      obtain ⟨b, hb⟩ := exists_byte c
      exact ⟨[b] ++ s, hb.append hs⟩

/-- The bytes from some character on. -/
lemma suffix_chars (h : Transcribed x s) (hy : y <:+ x) : ∃ v, v <:+ s ∧ Transcribed y v := by
  induction h with
  | nil =>
      rw [suffix_nil] at hy
      subst hy
      exact ⟨[], nil_suffix, .nil⟩
  | @ascii c x s hc h ih =>
      rcases suffix_cons_iff.1 hy with rfl | hy
      · exact ⟨_, suffix_refl _, .ascii hc h⟩
      · obtain ⟨v, hv, htr⟩ := ih hy
        exact ⟨v, hv.trans (suffix_cons _ _), htr⟩
  | @other c w x s hc hne hw h ih =>
      rcases suffix_cons_iff.1 hy with rfl | hy
      · exact ⟨_, suffix_refl _, .other hc hne hw h⟩
      · obtain ⟨v, hv, htr⟩ := ih hy
        exact ⟨v, hv.trans (suffix_append w s), htr⟩

/-- The characters from some byte on, with the bytes in front that belong to the same character. -/
lemma suffix_bytes (h : Transcribed x s) (hv : v <:+ s) :
    ∃ w y, y <:+ x ∧ Transcribed y (w ++ v) ∧ (w = [] ∨ ∃ b ∈ v.head?, 128 ≤ b.toNat) := by
  induction h generalizing v with
  | nil =>
      rw [suffix_nil] at hv
      subst hv
      exact ⟨[], [], nil_suffix, .nil, Or.inl rfl⟩
  | @ascii c x s hc h ih =>
      rcases suffix_cons_iff.1 hv with rfl | hv
      · exact ⟨[], _, suffix_refl _, .ascii hc h, Or.inl rfl⟩
      · obtain ⟨w, y, hy, htr, hhead⟩ := ih hv
        exact ⟨w, y, hy.trans (suffix_cons c x), htr, hhead⟩
  | @other c w x s hc hne hw h ih =>
      obtain ⟨r, hr⟩ := hv
      rcases append_eq_append_iff.1 hr with ⟨u, rfl, rfl⟩ | ⟨u, rfl, rfl⟩
      · rcases u with _ | ⟨b, u⟩
        · obtain ⟨w', y, hy, htr, hhead⟩ := ih (suffix_refl s)
          exact ⟨w', y, hy.trans (suffix_cons c x), htr, hhead⟩
        · refine ⟨r, c :: x, suffix_refl _, ?_, Or.inr ⟨b, rfl, hw b (by simp)⟩⟩
          rw [← append_assoc]
          exact .other hc hne hw h
      · obtain ⟨w', y, hy, htr, hhead⟩ := ih (suffix_append u v)
        exact ⟨w', y, hy.trans (suffix_cons c x), htr, hhead⟩

lemma eq_nil_iff (h : Transcribed x s) : x = [] ↔ s = [] := by
  cases h with
  | nil => simp
  | ascii => simp
  | other _ hne => simp [hne]

/-- An ASCII character and its byte come together. -/
lemma cons_byte (hc : c.toNat < 128) (h : Transcribed x (AuthSec.ascii c :: s)) :
    ∃ y, x = c :: y ∧ Transcribed y s := by
  generalize ht : AuthSec.ascii c :: s = t at h
  cases h with
  | nil => cases ht
  | @ascii d y s' hd h =>
      obtain ⟨heq, rfl⟩ := List.cons.inj ht
      exact ⟨y, by rw [(ascii_inj hc hd).1 heq], h⟩
  | @other d w y s' hd hne hw h =>
      obtain ⟨b, w, rfl⟩ := exists_cons_of_ne_nil hne
      obtain ⟨rfl, -⟩ := List.cons.inj ht
      have hge := hw _ (mem_cons_self ..)
      rw [toNat_ascii hc] at hge
      omega

lemma cons_char (hc : c.toNat < 128) (h : Transcribed (c :: x) s) :
    ∃ t, s = AuthSec.ascii c :: t ∧ Transcribed x t := by
  cases h with
  | ascii _ h => exact ⟨_, rfl, h⟩
  | other hc' => omega

end Transcribed

/-- ASCII characters but `?`. -/
def Plain (p : List Char) : Prop :=
  ∀ c ∈ p, c.toNat < 128 ∧ c ≠ '?'

instance : DecidablePred Plain := fun p => inferInstanceAs (Decidable (∀ c ∈ p, _))

section

variable {p q x : List Char} {s v w : Bytes} {c : Char}

lemma byteGlob_star (hc : c.toNat < 128) : byteGlob.star (ascii c) = iamGlob.star c := by
  have hstar := ascii_inj hc (show ('*' : Char).toNat < 128 by decide)
  simp [byteGlob, iamGlob, hstar]

/-- A plain symbol stands for its own byte only. -/
lemma plain_hit {b : UInt8} (hc : c.toNat < 128 ∧ c ≠ '?') :
    byteGlob.hit (ascii c) b = true ↔ b = ascii c := by
  have hone := ascii_inj hc.1 (show ('?' : Char).toNat < 128 by decide)
  simp only [byteGlob, Bool.or_eq_true, beq_iff_eq, hone, hc.2, false_or]
  exact eq_comm

/-- Only a run can take a byte beyond ASCII, so it can take more of them. -/
lemma accepts_more (hp : Plain p) (hv : ∃ b ∈ v.head?, 128 ≤ b.toNat)
    (h : byteGlob.accepts (p.map ascii) v = true) :
    byteGlob.accepts (p.map ascii) (w ++ v) = true := by
  obtain ⟨b, hb, hhigh⟩ := hv
  obtain ⟨v, rfl⟩ : ∃ t, v = b :: t := by
    cases v with
    | nil => cases hb
    | cons a v => exact ⟨v, by rw [Option.some.inj hb]⟩
  cases p with
  | nil => cases h
  | cons c p =>
      have hc := hp c (mem_cons_self ..)
      rw [map_cons] at h ⊢
      cases hstar : byteGlob.star (ascii c) with
      | true => exact Glob.accepts_star_of_suffix hstar (suffix_append w _) h
      | false =>
          obtain ⟨a, t, heq, ha, -⟩ := (Glob.accepts_symbol hstar).1 h
          obtain ⟨rfl, rfl⟩ := List.cons.inj heq
          rw [(plain_hit hc).1 ha, toNat_ascii hc.1] at hhigh
          omega

/-- A plain pattern does not tell a text from a transcription of it. -/
lemma Transcribed.accepts_iff (h : Transcribed x s) (hp : Plain p) :
    byteGlob.accepts (p.map AuthSec.ascii) s = true ↔ iamGlob.accepts p x = true := by
  induction p generalizing x s with
  | nil => rw [map_nil, Glob.accepts_nil, Glob.accepts_nil, h.eq_nil_iff]
  | cons c p ih =>
      have hc := hp c (mem_cons_self ..)
      have hp' : Plain p := fun d hd => hp d (mem_cons_of_mem c hd)
      have hstar := byteGlob_star hc.1
      rw [map_cons]
      cases hrun : iamGlob.star c with
      | true =>
          rw [Glob.accepts_star hrun, Glob.accepts_star (hstar.trans hrun)]
          constructor
          · rintro ⟨v, hv, hacc⟩
            obtain ⟨w, y, hy, htr, hw⟩ := h.suffix_bytes hv
            refine ⟨y, hy, (ih htr hp').1 ?_⟩
            rcases hw with rfl | hhigh
            · exact hacc
            · exact accepts_more hp' hhigh hacc
          · rintro ⟨y, hy, hacc⟩
            obtain ⟨v, hv, htr⟩ := h.suffix_chars hy
            exact ⟨v, hv, (ih htr hp').2 hacc⟩
      | false =>
          rw [Glob.accepts_symbol hrun, Glob.accepts_symbol (hstar.trans hrun)]
          constructor
          · rintro ⟨b, t, rfl, hb, hacc⟩
            rw [(plain_hit hc).1 hb] at h
            obtain ⟨y, rfl, htr⟩ := h.cons_byte hc.1
            exact ⟨c, y, rfl, by simp [iamGlob], (ih htr hp').1 hacc⟩
          · rintro ⟨a, y, rfl, ha, hacc⟩
            have hac : c = a := by simpa [iamGlob, hc.2] using ha
            subst hac
            obtain ⟨t, rfl, htr⟩ := h.cons_char hc.1
            exact ⟨_, t, rfl, (plain_hit hc).2 rfl, (ih htr hp').2 hacc⟩

/-- The bytes of a character beyond ASCII stand for themselves. -/
lemma accepts_encode (hc : 128 ≤ c.toNat) :
    byteGlob.accepts (String.utf8EncodeChar c) s = true ↔ String.utf8EncodeChar c = s := by
  refine Glob.accepts_letters fun b hb => ?_
  have hhigh := encode_not_ascii hc b hb
  have hstar : b ≠ ascii '*' := by
    rintro rfl
    exact absurd hhigh (by decide)
  have hone : b ≠ ascii '?' := by
    rintro rfl
    exact absurd hhigh (by decide)
  simp [byteGlob, hstar, hone]

/-- Bytes that match the bytes of a pattern are bytes for some text that matches the pattern. -/
lemma exists_transcribed (h : byteGlob.accepts (p.flatMap String.utf8EncodeChar) s = true) :
    ∃ x, Transcribed x s ∧ iamGlob.accepts p x = true := by
  induction p generalizing s with
  | nil =>
      rw [Glob.accepts_nil.1 h]
      exact ⟨[], .nil, rfl⟩
  | cons c p ih =>
      rw [flatMap_cons] at h
      by_cases hc : c.toNat < 128
      · rw [encode_ascii hc, singleton_append] at h
        have hstar := byteGlob_star hc
        cases hrun : iamGlob.star c with
        | true =>
            obtain ⟨v, ⟨u, rfl⟩, hv⟩ := (Glob.accepts_star (hstar.trans hrun)).1 h
            obtain ⟨y, hy, hacc⟩ := ih hv
            obtain ⟨z, hz⟩ := Transcribed.exists_chars u
            exact ⟨z ++ y, hz.append hy, (Glob.accepts_star hrun).2 ⟨y, suffix_append z y, hacc⟩⟩
        | false =>
            obtain ⟨b, t, rfl, hb, ht⟩ := (Glob.accepts_symbol (hstar.trans hrun)).1 h
            obtain ⟨y, hy, hacc⟩ := ih ht
            have hcases : ascii c = ascii '?' ∨ ascii c = b := by simpa [byteGlob] using hb
            rcases hcases with hone | rfl
            · obtain ⟨d, hd⟩ := Transcribed.exists_char b
              refine ⟨[d] ++ y, hd.append hy, (Glob.accepts_symbol hrun).2 ⟨d, y, rfl, ?_, hacc⟩⟩
              simp [iamGlob, (ascii_inj hc (by decide)).1 hone]
            · exact ⟨c :: y, .ascii hc hy,
                (Glob.accepts_symbol hrun).2 ⟨c, y, rfl, by simp [iamGlob], hacc⟩⟩
      · have hc' := Nat.le_of_not_lt hc
        obtain ⟨u, v, rfl, hu, hv⟩ := Glob.accepts_append.1 h
        rw [accepts_encode hc'] at hu
        subst hu
        obtain ⟨y, hy, hacc⟩ := ih hv
        have hrun : iamGlob.star c = false := by
          have hne : c ≠ '*' := by
            rintro rfl
            exact hc (by decide)
          simpa [iamGlob] using hne
        exact ⟨[c] ++ y, (Transcribed.encode c).append hy,
          (Glob.accepts_symbol hrun).2 ⟨c, y, rfl, by simp [iamGlob], hacc⟩⟩

/-- A text that matches a pattern has bytes that match the bytes of the pattern. -/
lemma exists_transcription (h : iamGlob.accepts p x = true) :
    ∃ s, Transcribed x s ∧ byteGlob.accepts (p.flatMap String.utf8EncodeChar) s = true := by
  induction p generalizing x with
  | nil =>
      rw [Glob.accepts_nil.1 h]
      exact ⟨[], .nil, rfl⟩
  | cons c p ih =>
      rw [flatMap_cons]
      cases hrun : iamGlob.star c with
      | true =>
          have hc : c = '*' := by simpa [iamGlob] using hrun
          subst hc
          obtain ⟨y, ⟨z, rfl⟩, hy⟩ := (Glob.accepts_star hrun).1 h
          obtain ⟨v, hv, hacc⟩ := ih hy
          obtain ⟨u, hu⟩ := Transcribed.exists_bytes z
          exact ⟨u ++ v, hu.append hv,
            (Glob.accepts_star (c := ascii '*') rfl).2 ⟨v, suffix_append u v, hacc⟩⟩
      | false =>
          obtain ⟨a, y, rfl, ha, hy⟩ := (Glob.accepts_symbol hrun).1 h
          obtain ⟨v, hv, hacc⟩ := ih hy
          have hcases : c = '?' ∨ c = a := by simpa [iamGlob] using ha
          rcases hcases with rfl | rfl
          · obtain ⟨b, hb⟩ := Transcribed.exists_byte a
            exact ⟨[b] ++ v, hb.append hv,
              (Glob.accepts_symbol (c := ascii '?') rfl).2 ⟨b, v, rfl, rfl, hacc⟩⟩
          · refine ⟨String.utf8EncodeChar c ++ v, (Transcribed.encode c).append hv,
              Glob.accepts_append.2 ⟨_, v, rfl, ?_, hacc⟩⟩
            by_cases hc : c.toNat < 128
            · rw [encode_ascii hc]
              refine (Glob.accepts_symbol ((byteGlob_star hc).trans hrun)).2 ⟨_, [], rfl, ?_, rfl⟩
              simp [byteGlob, ascii]
            · exact (accepts_encode (Nat.le_of_not_lt hc)).2 rfl

/-- Any pattern and a plain one meet exactly if some text matches both in any case. -/
theorem globsIntersect_plain {a b : String} (hb : Plain (toLower b).toList) :
    globsIntersect a b = true ↔
      ∃ x : String, foldGlob.Reads a.toList x.toList ∧ foldGlob.Reads b.toList x.toList := by
  rw [globsIntersect_iff, utf8_ascii fun c hc => (hb c hc).1, utf8, ← common_iff_exists,
    ← common_lower, ← toList_toLower, ← toList_toLower]
  constructor
  · rintro ⟨s, hsa, hsb⟩
    obtain ⟨x, hx, hacc⟩ := exists_transcribed hsa
    exact ⟨x, hacc, (hx.accepts_iff hb).1 hsb⟩
  · rintro ⟨x, hxa, hxb⟩
    obtain ⟨s, hs, hacc⟩ := exists_transcription hxa
    exact ⟨s, hacc, (hs.accepts_iff hb).2 hxb⟩

end

/-! ## Statements -/

/-- The escalation counts for the resources of the statement. -/
def Statement.concerns (st : Statement) (e : EscalationAction) : Prop :=
  e.onWildcardResource = true → st.resourceIsWildcard = true

/-- The statement grants some action that the escalation names. -/
def Statement.reaches (st : Statement) (e : EscalationAction) : Prop :=
  ∃ x : String, foldGlob.Reads e.pattern.toList x.toList ∧ st.grants x = true

/-- No escalation is missed, and with `Action` none is listed for nothing. -/
structure Statement.EscalationsExact (st : Statement) : Prop where
  listed : ∀ e ∈ escalationCatalog, st.concerns e → st.reaches e →
    e.pattern ∈ escalationsGranted st
  only : st.isNotAction = false → ∀ e ∈ escalationCatalog, e.pattern ∈ escalationsGranted st →
    st.concerns e ∧ st.reaches e

/-- Where an entry of `NotAction` has the letters of an escalation by Unicode folding, the entries
exclude every action of the escalation. -/
def Statement.FoldedExcluded (st : Statement) : Prop :=
  ∀ e ∈ escalationCatalog, st.concerns e → ∀ n ∈ st.notAction, equalFoldASCII n e.pattern = true →
    ∀ x : String, foldGlob.Reads e.pattern.toList x.toList →
      ∃ m ∈ st.notAction, foldGlob.Reads m.toList x.toList

lemma catalog_plain : ∀ e ∈ escalationCatalog, Plain (toLower e.pattern).toList := by
  decide +kernel

lemma catalog_namespace : ∀ e ∈ escalationCatalog,
    (splitAction e.pattern).any (fun p => decide (IsNamespace p.1)) = true := by
  decide +kernel

lemma catalog_injective {e e' : EscalationAction} (he : e ∈ escalationCatalog)
    (he' : e' ∈ escalationCatalog) (h : e.pattern = e'.pattern) : e = e' :=
  inj_on_of_nodup_map
    (show (escalationCatalog.map EscalationAction.pattern).Nodup by decide +kernel) he he' h

section

variable {st : Statement} {e : EscalationAction} {n x : String}

lemma mem_escalationsGranted (hallow : st.effect = .allow) (he : e ∈ escalationCatalog) :
    e.pattern ∈ escalationsGranted st ↔ st.grantsEscalation e = true := by
  rw [escalationsGranted, if_neg (by simp [hallow]), mem_sortOn]
  constructor
  · intro h
    obtain ⟨e', he', heq⟩ := mem_map.1 h
    obtain ⟨hmem, hgrants⟩ := mem_filter.1 he'
    rwa [← catalog_injective hmem he heq]
  · exact fun h => mem_map.2 ⟨e, mem_filter.2 ⟨he, h⟩, rfl⟩

lemma grantsEscalation_action (hactions : st.isNotAction = false) :
    st.grantsEscalation e = true ↔
      st.concerns e ∧ ∃ p ∈ st.action, globsIntersect p e.pattern = true := by
  rw [Statement.grantsEscalation, Statement.concerns]
  cases e.onWildcardResource <;> cases st.resourceIsWildcard <;> simp [hactions]

lemma grantsEscalation_notAction (hactions : st.isNotAction = true) :
    st.grantsEscalation e = true ↔ st.concerns e ∧ ∀ n ∈ st.notAction,
      equalFoldASCII n e.pattern = false ∧
        patternCoversWholeNamespace n (((splitAction e.pattern).map Prod.fst).getD "") = false := by
  rw [Statement.grantsEscalation, Statement.concerns]
  cases e.onWildcardResource <;> cases st.resourceIsWildcard <;> simp [hactions]

lemma grants_action (hallow : st.effect = .allow) (hactions : st.isNotAction = false) :
    st.grants x = true ↔ ∃ p ∈ st.action, foldGlob.Reads p.toList x.toList := by
  simp only [← iamMatches_iff_reads, Statement.grants, Statement.action, hallow]
  cases hcases : st.actions with
  | action entries => simp
  | notAction entries => simp [Statement.isNotAction, hcases] at hactions

lemma grants_notAction (hallow : st.effect = .allow) (hactions : st.isNotAction = true) :
    st.grants x = true ↔ ∀ n ∈ st.notAction, ¬foldGlob.Reads n.toList x.toList := by
  simp only [← iamMatches_iff_reads, Statement.grants, Statement.notAction, hallow]
  cases hcases : st.actions with
  | action entries => simp [Statement.isNotAction, hcases] at hactions
  | notAction entries => simp

/-- A namespace matches itself only. -/
lemma accepts_namespace {ns : String} (hns : IsNamespace ns) {u : List Char}
    (h : iamGlob.accepts (ns.toList.map lowerChar) u = true) : u = ns.toList.map lowerChar := by
  refine ((Glob.accepts_letters fun c hc => ?_).1 h).symm
  obtain ⟨d, hd, rfl⟩ := mem_map.1 hc
  have hstar : lowerChar d ≠ '*' := by
    rw [Ne, lowerChar_eq_sign (by decide)]
    rintro rfl
    exact hns.2.2.1 hd
  have hone : lowerChar d ≠ '?' := by
    rw [Ne, lowerChar_eq_sign (by decide)]
    rintro rfl
    exact hns.2.2.2 hd
  simp [iamGlob, hstar, hone]

/-- An entry that covers the namespace of an escalation excludes all of it. -/
lemma reads_of_coversWhole (he : e ∈ escalationCatalog)
    (h : patternCoversWholeNamespace n (((splitAction e.pattern).map Prod.fst).getD "") = true)
    (hx : foldGlob.Reads e.pattern.toList x.toList) : foldGlob.Reads n.toList x.toList := by
  obtain ⟨⟨ns, act⟩, hsplit, hns⟩ := (Option.any_eq_true _ _).1 (catalog_namespace e he)
  rw [decide_eq_true_eq] at hns
  rw [hsplit] at h
  obtain ⟨htext, -, -⟩ := splitAction_eq_some hsplit
  rw [← iamMatches_iff_reads, iamMatches, toLower_append_colon htext] at hx
  obtain ⟨u, v, huv, hu, -⟩ := accepts_colon hx
  rw [accepts_namespace hns hu] at huv
  -- the action behind the colon, which has no case any more
  have hmatch := iamMatches_of_coversWhole (x := String.ofList v) hns h
  have hv : v.map lowerChar = v := by
    refine (map_congr_left fun c hc => ?_).trans (List.map_id v)
    have hmem : c ∈ (toLower x).toList := huv ▸ mem_append_right _ (mem_cons_of_mem _ hc)
    rw [toList_toLower] at hmem
    obtain ⟨d, -, rfl⟩ := mem_map.1 hmem
    exact lowerChar_lowerChar d
  rw [← iamMatches_iff_reads, iamMatches, huv]
  rwa [iamMatches, toLower_append_colon (toList_actionOf ns _), String.toList_ofList, hv] at hmatch

/-- With `Action`, what is listed is what can be granted. -/
lemma listed_action (hallow : st.effect = .allow) (hactions : st.isNotAction = false)
    (he : e ∈ escalationCatalog) :
    e.pattern ∈ escalationsGranted st ↔ st.concerns e ∧ st.reaches e := by
  rw [mem_escalationsGranted hallow he, grantsEscalation_action hactions, Statement.reaches]
  simp only [globsIntersect_plain (catalog_plain e he), grants_action hallow hactions]
  refine and_congr_right fun _ => ⟨?_, ?_⟩
  · rintro ⟨p, hp, x, hpx, hex⟩
    exact ⟨x, hex, p, hp, hpx⟩
  · rintro ⟨x, hex, p, hp, hpx⟩
    exact ⟨p, hp, x, hpx, hex⟩

/-- With `NotAction`, what is not listed is excluded, but for entries that only fold to it. -/
lemma listed_notAction (hallow : st.effect = .allow) (hactions : st.isNotAction = true)
    (he : e ∈ escalationCatalog) (hconcerns : st.concerns e) :
    (st.reaches e → e.pattern ∈ escalationsGranted st) ↔
      ∀ n ∈ st.notAction, equalFoldASCII n e.pattern = true →
        ∀ x : String, foldGlob.Reads e.pattern.toList x.toList →
          ∃ m ∈ st.notAction, foldGlob.Reads m.toList x.toList := by
  rw [mem_escalationsGranted hallow he, grantsEscalation_notAction hactions, Statement.reaches]
  simp only [grants_notAction hallow hactions]
  constructor
  · intro hlisted n hn hfold x hx
    by_contra hnone
    push Not at hnone
    have hnot := ((hlisted ⟨x, hx, hnone⟩).2 n hn).1
    rw [hfold] at hnot
    exact absurd hnot (by decide)
  · rintro hfolded ⟨x, hx, hnone⟩
    refine ⟨hconcerns, fun n hn => ⟨?_, ?_⟩⟩
    · rw [← Bool.not_eq_true]
      intro hfold
      obtain ⟨m, hm, hread⟩ := hfolded n hn hfold x hx
      exact hnone m hm hread
    · rw [← Bool.not_eq_true]
      exact fun hcovers => hnone n hn (reads_of_coversWhole he hcovers hx)

end

/-- Two ASCII patterns meet exactly if some text matches both.  The escalations of an `Allow`
statement are exact if and only if what its `NotAction` entries fold to is excluded. -/
theorem escalationsGranted_exact_iff (st : Statement) (hallow : st.effect = .allow) :
    (∀ a b : String, (∀ c ∈ a.toList, c.toNat < 128) → (∀ c ∈ b.toList, c.toNat < 128) →
      (globsIntersect a b = true ↔
        ∃ x : String, foldGlob.Reads a.toList x.toList ∧ foldGlob.Reads b.toList x.toList)) ∧
    (st.EscalationsExact ↔ st.FoldedExcluded) := by
  refine ⟨fun a b => globsIntersect_ascii, ?_⟩
  cases hactions : st.isNotAction with
  | false =>
      have hnone : st.notAction = [] := by
        rw [Statement.isNotAction] at hactions
        rw [Statement.notAction]
        cases hcases : st.actions with
        | action entries => rfl
        | notAction entries => simp [hcases] at hactions
      refine iff_of_true ⟨fun e he hconcerns hreaches => ?_, fun _ e he hlisted => ?_⟩ ?_
      · exact (listed_action hallow hactions he).2 ⟨hconcerns, hreaches⟩
      · exact (listed_action hallow hactions he).1 hlisted
      · intro e _ _ n hn
        rw [hnone] at hn
        exact absurd hn not_mem_nil
  | true =>
      constructor
      · intro hexact e he hconcerns
        exact (listed_notAction hallow hactions he hconcerns).1 (hexact.listed e he hconcerns)
      · intro hfolded
        refine ⟨fun e he hconcerns => ?_, fun hfalse => ?_⟩
        · exact (listed_notAction hallow hactions he hconcerns).2 (hfolded e he hconcerns)
        · rw [hactions] at hfalse
          exact absurd hfalse (by decide)

/-! ## Entries that only fold to an escalation -/

/-- Beyond ASCII, folding differs from dropping the case for the long s only. -/
lemma lowerChar_of_foldChar {c d : Char} (hd : d.toNat < 128) (hc : c ≠ '\u017f')
    (h : foldChar c = foldChar d) : lowerChar c = lowerChar d := by
  have hds : d ≠ '\u017f' := by
    rintro rfl
    exact absurd hd (by decide)
  have hdk : d ≠ '\u212a' := by
    rintro rfl
    exact absurd hd (by decide)
  rw [foldChar, if_neg hc, foldChar, if_neg hds, if_neg hdk, if_pos hd] at h
  split_ifs at h with hkelvin hascii
  · rw [hkelvin, ← h]
    decide +kernel
  · exact h
  · have hlow := toNat_lowerChar_lt hd
    rw [← h] at hlow
    exact absurd hlow hascii

lemma toLower_of_equalFold {n t : String} (ht : ∀ c ∈ t.toList, c.toNat < 128)
    (hn : '\u017f' ∉ n.toList) (h : equalFoldASCII n t = true) : toLower n = toLower t := by
  rw [equalFoldASCII, beq_iff_eq] at h
  have hlist : ∀ {as bs : List Char}, (∀ c ∈ bs, c.toNat < 128) → '\u017f' ∉ as →
      as.map foldChar = bs.map foldChar → as.map lowerChar = bs.map lowerChar := by
    intro as bs hbs has heq
    induction as generalizing bs with
    | nil =>
        rw [map_nil, eq_comm, map_eq_nil_iff] at heq
        rw [heq]
    | cons c as ih =>
        cases bs with
        | nil => cases heq
        | cons d bs =>
            rw [map_cons, map_cons, List.cons.injEq] at heq
            rw [mem_cons, not_or] at has
            rw [map_cons, map_cons, lowerChar_of_foldChar (hbs d (by simp))
              (Ne.symm has.1) heq.1, ih (fun c hc => hbs c (mem_cons_of_mem d hc)) has.2 heq.2]
  rw [toLower, toLower, hlist ht hn h]

/-- Without the long s, an entry that folds to an escalation is the escalation in another case. -/
theorem foldedExcluded_of_no_long_s {st : Statement}
    (h : ∀ n ∈ st.notAction, '\u017f' ∉ n.toList) : st.FoldedExcluded := by
  intro e he _ n hn hfold x hx
  refine ⟨n, hn, ?_⟩
  have hascii : ∀ e ∈ escalationCatalog, ∀ c ∈ e.pattern.toList, c.toNat < 128 := by decide +kernel
  rw [← iamMatches_iff_reads] at hx ⊢
  rwa [iamMatches, toLower_of_equalFold (hascii e he) (h n hn) hfold]

/-- An `Allow` statement on every resource. -/
def onEverything (actions : Actions) : Statement where
  sid := ""
  effect := .allow
  actions := actions
  resource := some ["*"]
  notResource := none
  principal := none
  notPrincipal := none
  conditions := []
  raw := []
  unknown := []

/-- Two entries, one with a run and one in another case. -/
theorem escalationsGranted_exact_roles :
    (onEverything (.notAction ["iam:*Role", "STS:assumerole"])).EscalationsExact := by
  refine (escalationsGranted_exact_iff _ rfl).2.2 (foldedExcluded_of_no_long_s ?_)
  decide +kernel

/-- An entry with a long s folds to `iam:PassRole`, and it does not meet it.  Whether or not the
entry is taken to match that action, one of the two statements grants the action without listing
it; by the rules for lowered texts it is the one with `NotAction`. -/
theorem escalationsGranted_long_s :
    "iam:PassRole" ∉ escalationsGranted (onEverything (.action ["iam:Pas\u017fRole"])) ∧
      "iam:PassRole" ∉ escalationsGranted (onEverything (.notAction ["iam:Pas\u017fRole"])) ∧
      ¬(onEverything (.notAction ["iam:Pas\u017fRole"])).EscalationsExact := by
  have hmissed :
      "iam:PassRole" ∉ escalationsGranted (onEverything (.notAction ["iam:Pas\u017fRole"])) := by
    decide +kernel
  refine ⟨by decide +kernel, hmissed, fun hexact => hmissed ?_⟩
  refine hexact.listed ⟨"iam:PassRole", true⟩ (mem_cons_self ..) (fun _ => rfl) ?_
  refine ⟨"iam:PassRole", iamMatches_iff_reads.1 ?_, ?_⟩ <;> decide +kernel

end AuthSec

import AuthSec.Terraform.Literals

/-!
# Strings between JSON and Terraform

`hclEscape` doubles the sign of every template opening in the text of a string, and the readers undo
it.  Both work on texts; here they are brought to the characters of the string, which the text keeps
(`keeps_goEscape`).

* `str_hclChars`: the scanner passes over an escaped string;
* `literalString_hclChars`: an escaped string is read back if it is `Quotable`, and refused otherwise.
-/

namespace AuthSec

open List

/-! ## Characters and their texts -/

/-- The characters that the readers look for. -/
def templateChars : List Char :=
  ['$', '%', '{']

lemma escapeByte_template : ∀ n < 128, n ∉ templateChars.map Char.toNat →
    ∀ c ∈ templateChars, ascii c ∉ escapeByte (UInt8.ofNat n) := by
  decide +kernel

lemma notMem_encode_high {c d : Char} (hc : 0x80 ≤ c.toNat) (hd : d ∈ templateChars) :
    ascii d ∉ String.utf8EncodeChar c := by
  intro h
  have hhigh := encode_not_ascii hc _ h
  have hlow : ∀ d ∈ templateChars, ¬ 0x80 ≤ (ascii d).toNat := by decide
  exact hlow d hd hhigh

/-- What `encoding/json` writes for a character: an escape of six bytes, or what the canonical writer
writes. -/
lemma goEscape_cases (c : Char) : goEscape c ∈ ["\\u003c", "\\u003e", "\\u0026", "\\u2028",
    "\\u2029"].map utf8 ∨ goEscape c = jcsEscape c := by
  unfold goEscape
  split_ifs with hhtml hls hps
  · left
    rcases hhtml with rfl | rfl | rfl <;> decide
  · exact Or.inl (by decide)
  · exact Or.inl (by decide)
  · exact Or.inr rfl

lemma keeps_goEscape : Keeps templateChars ascii goEscape where
  kept := by decide
  inj := by decide
  other c hc := by
    refine ⟨goJson.escape_ne_nil c, fun d hd => ?_⟩
    rcases goEscape_cases c with h | h
    · have hwords : ∀ t ∈ ["\\u003c", "\\u003e", "\\u0026", "\\u2028", "\\u2029"].map utf8,
          ∀ d ∈ templateChars, ascii d ∉ t := by decide
      exact hwords _ h d hd
    · rw [h]
      rcases Nat.lt_or_ge c.toNat 0x80 with hlow | hhigh
      · rw [jcsEscape_low hlow]
        refine escapeByte_template _ hlow (fun hmem => hc ?_) d hd
        obtain ⟨e, he, heq⟩ := mem_map.1 hmem
        exact Char.toNat_inj.1 heq ▸ he
      · rw [jcsEscape_high hhigh]
        exact notMem_encode_high hhigh hd

lemma keeps_utf8 : Keeps templateChars ascii String.utf8EncodeChar where
  kept := by decide
  inj := by decide
  other c hc := by
    refine ⟨String.utf8EncodeChar_ne_nil, fun d hd => ?_⟩
    rcases Nat.lt_or_ge c.toNat 0x80 with hlow | hhigh
    · rw [encode_ascii hlow, mem_singleton]
      intro heq
      have hd' : ∀ d ∈ templateChars, (ascii d).toNat = d.toNat := by decide
      have hnat := hd' d hd
      rw [heq, toNat_uint8_ofNat (by omega)] at hnat
      exact hc (Char.toNat_inj.1 hnat ▸ hd)
    · exact notMem_encode_high hhigh hd

/-! ## Escaped strings -/

/-- The characters of a string with the signs of its template openings doubled. -/
def hclChars (cs : List Char) : List Char :=
  double '{' '%' (double '{' '$' cs)

lemma hclEscape_goEscape (cs : List Char) :
    hclEscape (cs.flatMap goEscape) = (hclChars cs).flatMap goEscape := by
  have hdollar := keeps_goEscape.replaceAll_flatMap ['$', '{'] ['$', '$', '{'] cs (by simp)
    (by decide) (by decide)
  have hpercent := keeps_goEscape.replaceAll_flatMap ['%', '{'] ['%', '%', '{'] (double '{' '$' cs)
    (by simp) (by decide) (by decide)
  rw [hclEscape]
  exact (congrArg _ hdollar).trans hpercent

lemma hclChars_comm (cs : List Char) : hclChars cs = double '{' '$' (double '{' '%' cs) :=
  double_comm (by decide) (by decide) (by decide) cs

/-! ## The scanner -/

open TfScanner

/-- Bytes that the scanner does not pass one by one. -/
def scannedBytes : List UInt8 :=
  ['\\', '"', '\n', '$', '%'].map ascii

/-- A text that the scanner passes: an escape and then single bytes, or single bytes. -/
def Passed (t : Bytes) : Prop :=
  (t.head? = some (ascii '\\') ∧ 2 ≤ t.length ∧ ∀ b ∈ t.drop 2, b ∉ scannedBytes) ∨
    ∀ b ∈ t, b ∉ scannedBytes

instance (t : Bytes) : Decidable (Passed t) :=
  inferInstanceAs (Decidable (_ ∨ _))

lemma passed_escapeByte : ∀ n < 128, n ∉ [36, 37] → Passed (escapeByte (UInt8.ofNat n)) := by
  decide +kernel

lemma passed_goEscape {c : Char} (hdollar : c ≠ '$') (hpercent : c ≠ '%') : Passed (goEscape c) := by
  rcases goEscape_cases c with h | h
  · have hwords : ∀ t ∈ ["\\u003c", "\\u003e", "\\u0026", "\\u2028", "\\u2029"].map utf8,
        t.head? = some (ascii '\\') ∧ 2 ≤ t.length ∧ ∀ b ∈ t.drop 2, b ∉ scannedBytes := by
      decide
    exact Or.inl (hwords _ h)
  · rw [h]
    rcases Nat.lt_or_ge c.toNat 0x80 with hlow | hhigh
    · rw [jcsEscape_low hlow]
      refine passed_escapeByte _ hlow ?_
      have hsigns : ∀ m ∈ [36, 37], Char.ofNat m = '$' ∨ Char.ofNat m = '%' := by decide
      intro hmem
      have hsign := hsigns _ hmem
      rw [Char.ofNat_toNat] at hsign
      exact hsign.elim hdollar hpercent
    · rw [jcsEscape_high hhigh]
      refine Or.inr fun b hb hmem => ?_
      have hlow : ∀ b ∈ scannedBytes, ¬ 0x80 ≤ b.toNat := by decide
      exact hlow b hmem (encode_not_ascii hhigh b hb)

lemma str_cons {b : UInt8} (hb : b ∉ scannedBytes) (n : ℕ) (bs : Bytes) :
    str (n + 1) (b :: bs) = str n bs := by
  simp only [scannedBytes, map_cons, map_nil, mem_cons, not_mem_nil, or_false, not_or] at hb
  obtain ⟨hback, hquote, hnl, hdollar, hpercent⟩ := hb
  have hsign : isSign b = false := by simp [isSign, hdollar, hpercent]
  rw [str, if_neg hback, if_neg hquote, if_neg hnl]
  simp [hsign]

lemma str_append_of_notMem {t : Bytes} (ht : ∀ b ∈ t, b ∉ scannedBytes) (n : ℕ) (rest : Bytes) :
    str (n + t.length) (t ++ rest) = str n rest := by
  induction t with
  | nil => rfl
  | cons b t ih =>
      rw [length_cons, ← Nat.add_assoc, cons_append, str_cons (ht b (by simp)),
        ih fun c hc => ht c (by simp [hc])]

/-- The scanner passes the text, with some of its fuel. -/
lemma str_passed {t : Bytes} (h : Passed t) {n : ℕ} (hn : t.length ≤ n) (rest : Bytes) :
    ∃ m, n ≤ m + t.length ∧ str n (t ++ rest) = str m rest := by
  rcases h with ⟨hhead, hlen, hrest⟩ | hplain
  · match t, hhead, hlen with
    | b :: c :: t, hhead, _ =>
        obtain rfl : b = ascii '\\' := by simpa using hhead
        obtain ⟨m, rfl⟩ : ∃ m, n = (m + t.length) + 1 := ⟨n - (t.length + 1), by simp at hn; omega⟩
        refine ⟨m, by simp only [length_cons]; omega, ?_⟩
        rw [cons_append, str, if_pos rfl]
        exact str_append_of_notMem hrest m rest
  · refine ⟨n - t.length, by omega, ?_⟩
    have hpass := str_append_of_notMem hplain (n - t.length) rest
    rwa [Nat.sub_add_cancel hn] at hpass


lemma hclChars_dollar (l : List Char) : hclChars ('$' :: '{' :: l) = '$' :: '$' :: '{' :: hclChars l := by
  rw [hclChars, double_hit, double_cons_of_ne (by decide), double_cons_of_ne (by decide),
    double_cons_of_ne (by decide), hclChars]

lemma hclChars_percent (l : List Char) :
    hclChars ('%' :: '{' :: l) = '%' :: '%' :: '{' :: hclChars l := by
  rw [hclChars, double_cons_of_ne (x := '$') (a := '%') (by decide),
    double_cons_of_ne (x := '$') (a := '{') (by decide), double_hit, hclChars]

lemma head?_hclChars (l : List Char) : (hclChars l).head? = l.head? := by
  rw [hclChars, head?_double, head?_double]

lemma hclChars_cons {a : Char} {l : List Char} (hdollar : ¬ ['$', '{'] <+: a :: l)
    (hpercent : ¬ ['%', '{'] <+: a :: l) : hclChars (a :: l) = a :: hclChars l := by
  rw [hclChars, double_cons hdollar, double_cons (mt (pair_prefix_congr head?_double).1 hpercent),
    hclChars]

lemma not_prefix_hclChars {s : Char} (hs : s = '$' ∨ s = '%') (l : List Char) :
    ¬ [s, '{'] <+: hclChars l := by
  rcases hs with rfl | rfl
  · rw [hclChars_comm]
    exact not_prefix_double (by decide)
  · exact not_prefix_double (by decide)

/-- A part of template characters in front of a string stands in front of its characters. -/
lemma prefix_of_prefix_goEscape (old : List Char) {cs : List Char} (hold : ∀ a ∈ old, a ∈ templateChars)
    {rest : Bytes} (h : old.map ascii <+: cs.flatMap goEscape ++ ascii '"' :: rest) : old <+: cs := by
  have hquote : ascii '"' ∉ old.map ascii := by
    intro hmem
    obtain ⟨a, ha, heq⟩ := mem_map.1 hmem
    have hne : ∀ a ∈ templateChars, ascii a ≠ ascii '"' := by decide
    exact hne a (hold a ha) heq
  exact (keeps_goEscape.prefix_flatMap hold).1 (prefix_of_prefix_append hquote h)

/-- A sign that is not doubled is passed. -/
lemma str_sign {s : Char} (hs : s = '$' ∨ s = '%') {l : List Char} (hl : l.head? ≠ some '{') (n : ℕ)
    (rest : Bytes) :
    str (n + 1) (ascii s :: ((hclChars l).flatMap goEscape ++ ascii '"' :: rest)) =
      str n ((hclChars l).flatMap goEscape ++ ascii '"' :: rest) := by
  have hmem : s ∈ templateChars := by rcases hs with rfl | rfl <;> decide
  have hdouble : ¬ [ascii s, ascii '{'] <+: (hclChars l).flatMap goEscape ++ ascii '"' :: rest := by
    intro h
    refine not_prefix_hclChars hs l (prefix_of_prefix_goEscape [s, '{'] ?_ h)
    simpa using ⟨hmem, by decide⟩
  have hsingle : ¬ [ascii '{'] <+: (hclChars l).flatMap goEscape ++ ascii '"' :: rest := by
    intro h
    have hpre := prefix_of_prefix_goEscape ['{'] (by decide) h
    rw [singleton_prefix_iff_head?_eq_some, head?_hclChars] at hpre
    exact hl hpre
  rw [str]
  rcases hs with rfl | rfl
  · rw [if_neg (by decide), if_neg (by decide), if_neg (by decide), if_neg (fun h => hdouble h.2),
      if_neg (fun h => hsingle h.2)]
  · rw [if_neg (by decide), if_neg (by decide), if_neg (by decide), if_neg (fun h => hdouble h.2),
      if_neg (fun h => hsingle h.2)]

/-- A doubled sign is passed with its brace. -/
lemma str_doubled {s : Char} (hs : s = '$' ∨ s = '%') (n : ℕ) (rest : Bytes) :
    str (n + 1) (ascii s :: ascii s :: ascii '{' :: rest) = str n rest := by
  rcases hs with rfl | rfl
  · rw [str, if_neg (by decide), if_neg (by decide), if_neg (by decide), if_pos]
    · rfl
    · exact ⟨by decide, prefix_append [_, _] rest⟩
  · rw [str, if_neg (by decide), if_neg (by decide), if_neg (by decide), if_pos]
    · rfl
    · exact ⟨by decide, prefix_append [_, _] rest⟩

/-- The scanner ends behind an escaped string. -/
theorem str_hclChars (cs : List Char) {n : ℕ} (hn : ((hclChars cs).flatMap goEscape).length < n)
    (rest : Bytes) : str n ((hclChars cs).flatMap goEscape ++ ascii '"' :: rest) = .ok rest := by
  induction cs using signs_ind (o := '{') (x := '$') (y := '%') generalizing n with
  | nil =>
      obtain ⟨n, rfl⟩ : ∃ m, n = m + 1 := ⟨n - 1, by omega⟩
      exact (if_neg (by decide)).trans (if_pos rfl)
  | first l ih =>
      obtain ⟨n, rfl⟩ : ∃ m, n = m + 1 := ⟨n - 1, by omega⟩
      rw [hclChars_dollar] at hn ⊢
      have hdouble := str_doubled (Or.inl rfl) n ((hclChars l).flatMap goEscape ++ ascii '"' :: rest)
      refine hdouble.trans (ih ?_)
      simp only [flatMap_cons, length_append] at hn
      have hpos : 0 < (goEscape '$').length := by decide
      omega
  | second l ih =>
      obtain ⟨n, rfl⟩ : ∃ m, n = m + 1 := ⟨n - 1, by omega⟩
      rw [hclChars_percent] at hn ⊢
      have hdouble := str_doubled (Or.inr rfl) n ((hclChars l).flatMap goEscape ++ ascii '"' :: rest)
      refine hdouble.trans (ih ?_)
      simp only [flatMap_cons, length_append] at hn
      have hpos : 0 < (goEscape '%').length := by decide
      omega
  | cons a l hdollar hpercent ih =>
      rw [hclChars_cons hdollar hpercent, flatMap_cons] at hn ⊢
      rw [length_append] at hn
      by_cases ha : a = '$' ∨ a = '%'
      · have hbrace : l.head? ≠ some '{' := by
          intro h
          rcases ha with rfl | rfl
          · exact hdollar (pair_prefix_cons_iff.2 ⟨rfl, h⟩)
          · exact hpercent (pair_prefix_cons_iff.2 ⟨rfl, h⟩)
        have htext : goEscape a = [ascii a] := by rcases ha with rfl | rfl <;> decide
        obtain ⟨n, rfl⟩ : ∃ m, n = m + 1 := ⟨n - 1, by omega⟩
        rw [htext, singleton_append, cons_append, str_sign ha hbrace]
        rw [htext, length_singleton] at hn
        exact ih (by omega)
      · rw [not_or] at ha
        obtain ⟨m, hm, hpass⟩ := str_passed (passed_goEscape ha.1 ha.2) (n := n) (by omega)
          ((hclChars l).flatMap goEscape ++ ascii '"' :: rest)
        rw [append_assoc, hpass]
        exact ih (by omega)


/-! ## Literal strings -/

/-- Without the escapes, the text of the escaped string has no template opening left. -/
def Quotable (s : String) : Prop :=
  ¬ ['$', '{'] <:+: deleteAll ['%', '%', '{'] (deleteAll ['$', '{'] (double '{' '%' s.toList)) ∧
    ¬ ['%', '{'] <:+: deleteAll ['%', '{'] s.toList

instance (s : String) : Decidable (Quotable s) :=
  inferInstanceAs (Decidable (_ ∧ _))

lemma replaceAll_quoted {old new : Bytes} (hold : old ≠ []) (hq : ascii '"' ∉ old) (t : Bytes) :
    replaceAll old new (ascii '"' :: (t ++ [ascii '"'])) =
      ascii '"' :: (replaceAll old new t ++ [ascii '"']) := by
  have hfront : replaceAll old new ([] ++ ascii '"' :: (t ++ [ascii '"'])) = _ :=
    replaceAll_append_cons hold hq
  have hback : replaceAll old new (t ++ ascii '"' :: []) = _ := replaceAll_append_cons hold hq
  rw [nil_append] at hfront
  rw [hfront, hback]
  rfl

lemma infix_quoted {old : Bytes} (hold : old ≠ []) (hq : ascii '"' ∉ old) (t : Bytes) :
    old <:+: ascii '"' :: (t ++ [ascii '"']) ↔ old <:+: t := by
  have hfront := infix_append_cons_iff (p := []) (l := t ++ [ascii '"']) hold hq
  have hback := infix_append_cons_iff (p := t) (l := []) hold hq
  rw [nil_append] at hfront
  rw [hfront, hback]
  simp [hold]

lemma deleteAll_escaped {x : Char} (hx : x ∈ templateChars) (cs : List Char) :
    deleteAll (escaped x) (cs.flatMap goEscape) = (deleteAll [x, x, '{'] cs).flatMap goEscape :=
  keeps_goEscape.replaceAll_flatMap [x, x, '{'] [] cs (by simp) (by simpa using ⟨hx, by decide⟩)
    (by simp)

lemma infix_opening {x : Char} (hx : x ∈ templateChars) (cs : List Char) :
    opening x <:+: cs.flatMap goEscape ↔ [x, '{'] <:+: cs :=
  keeps_goEscape.infix_flatMap (cons_ne_nil x ['{']) (by simpa using ⟨hx, by decide⟩)

/-- The check for template sequences refuses what is not `Quotable`. -/
lemma template_iff_not_quotable (s : String) :
    (opening '$' <:+: deleteAll (escaped '%') (deleteAll (escaped '$')
        (ascii '"' :: ((hclChars s.toList).flatMap goEscape ++ [ascii '"']))) ∨
      opening '%' <:+: deleteAll (escaped '%')
        (ascii '"' :: ((hclChars s.toList).flatMap goEscape ++ [ascii '"']))) ↔ ¬ Quotable s := by
  have hquoted (x : Char) (hx : x = '$' ∨ x = '%') (t : Bytes) :
      deleteAll (escaped x) (ascii '"' :: (t ++ [ascii '"'])) =
        ascii '"' :: (deleteAll (escaped x) t ++ [ascii '"']) :=
    replaceAll_quoted (cons_ne_nil _ _) (by rcases hx with rfl | rfl <;> decide) t
  have hinfix (x : Char) (hx : x = '$' ∨ x = '%') (t : Bytes) :
      opening x <:+: ascii '"' :: (t ++ [ascii '"']) ↔ opening x <:+: t :=
    infix_quoted (cons_ne_nil _ _) (by rcases hx with rfl | rfl <;> decide) t
  have hdollar : deleteAll ['$', '$', '{'] (hclChars s.toList) =
      deleteAll ['$', '{'] (double '{' '%' s.toList) := by
    rw [hclChars_comm]
    exact replaceAll_double (by decide) [] _
  have hpercent : deleteAll ['%', '%', '{'] (hclChars s.toList) =
      deleteAll ['%', '{'] (double '{' '$' s.toList) :=
    replaceAll_double (by decide) [] _
  rw [hquoted '$' (by simp), hquoted '%' (by simp), hquoted '%' (by simp), hinfix '$' (by simp),
    hinfix '%' (by simp), deleteAll_escaped (by decide), deleteAll_escaped (by decide),
    deleteAll_escaped (by decide), infix_opening (by decide), infix_opening (by decide), hdollar,
    hpercent, infix_deleteAll_double (by decide) (by decide) (by decide), Quotable, not_and_or,
    not_not, not_not]

/-- An escaped string is read back if it is `Quotable`, and refused otherwise. -/
theorem literalString_hclChars (s : String) :
    literalString (ascii '"' :: ((hclChars s.toList).flatMap goEscape ++ [ascii '"'])) =
      if Quotable s then some (utf8 s) else none := by
  have hvalue : replaceAll (escaped '%') (opening '%') (replaceAll (escaped '$') (opening '$')
      ((hclChars s.toList).flatMap String.utf8EncodeChar)) = utf8 s := by
    have hdollar := keeps_utf8.replaceAll_flatMap ['$', '$', '{'] ['$', '{'] (hclChars s.toList)
      (by simp) (by decide) (by decide)
    have hpercent := keeps_utf8.replaceAll_flatMap ['%', '%', '{'] ['%', '{']
      (double '{' '%' s.toList) (by simp) (by decide) (by decide)
    rw [hclChars_comm, undouble_double (by decide)] at hdollar
    rw [undouble_double (by decide)] at hpercent
    rw [hclChars_comm]
    exact (congrArg _ hdollar).trans hpercent
  have hends : trimSpaceBytes (ascii '"' :: ((hclChars s.toList).flatMap goEscape ++ [ascii '"'])) =
      ascii '"' :: ((hclChars s.toList).flatMap goEscape ++ [ascii '"']) :=
    trimSpaceBytes_of_ends (by decide) (by decide) _
  have hlast : (ascii '"' :: ((hclChars s.toList).flatMap goEscape ++ [ascii '"'])).getLast? =
      some (ascii '"') := by
    rw [← cons_append, getLast?_concat]
  rw [literalString, hends, if_neg (by simp [hlast]), unquote_goEscape, Option.map_some, hvalue]
  by_cases hs : Quotable s
  · rw [if_pos hs, if_neg ((template_iff_not_quotable s).not.2 (not_not.2 hs))]
  · rw [if_neg hs, if_pos ((template_iff_not_quotable s).2 hs)]

end AuthSec

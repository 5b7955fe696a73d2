import AuthSec.Terraform.Strings

/-!
# Reading literal values back

The parser of literals reads the indented texts of JSON values, with the template openings of the
strings escaped.  What it reads of a number is the text of the number.

* `Layout.rereads`: a value is read back if all its strings are `Quotable`, and refused otherwise;
* `parseLiteral_text`: the same for a whole text.
-/

namespace AuthSec

open List

namespace LitParser

open JsonParser (isWS)
open JsonWriter

/-! ## Blanks -/

/-- A byte that ends blanks. -/
def Solid (c : UInt8) : Prop :=
  isWS c = false ∧ c ≠ ascii '#' ∧ c ≠ ascii '/'

instance (c : UInt8) : Decidable (Solid c) :=
  inferInstanceAs (Decidable (_ ∧ _))

lemma ws_blank {g : Bytes} (hg : Blank g) (n : ℕ) (l : Bytes) : ws (n + g.length) (g ++ l) = ws n l := by
  induction g with
  | nil => rfl
  | cons b g ih =>
      rw [length_cons, ← Nat.add_assoc, cons_append, ws, if_pos (hg b (by simp)),
        ih fun c hc => hg c (by simp [hc])]

variable {c : UInt8} {rest : Bytes} {ss : List String}

lemma ws_solid (hc : Solid c) (n : ℕ) (l : Bytes) : ws n (c :: l) = c :: l := by
  obtain ⟨hws, hhash, hslash⟩ := hc
  have hcomment (x : UInt8) : ¬ [ascii '/', x] <+: c :: l :=
    fun h => hslash (cons_prefix_cons.1 h).1.symm
  cases n with
  | zero => rfl
  | succ n =>
      rw [ws, if_neg (by simp [hws]), if_neg (by simp [hhash, hcomment]), if_neg (hcomment _)]

/-- Blanks in front of something are skipped. -/
lemma skip_blank {g : Bytes} (hg : Blank g) (hc : Solid c) (l : Bytes) :
    skip (g ++ c :: l) = c :: l := by
  rw [skip, length_append, Nat.add_comm, ws_blank hg, ws_solid hc]

lemma skip_solid (hc : Solid c) (l : Bytes) : skip (c :: l) = c :: l :=
  ws_solid hc _ l

/-! ## Parts -/

/-- What may stand behind a value. -/
def ValueEnd (rest : Bytes) : Prop :=
  ∀ b ∈ rest.head?, b ∈ [',', ']', '}', ' ', '\n', '\t', '\r'].map ascii

/-- The text of an escaped string. -/
def hclQuote : String → Bytes :=
  inQuotes fun s => (hclChars s.toList).flatMap goEscape

lemma string_hclQuote (s : String) (rest : Bytes) :
    string (hclQuote s ++ rest) = if Quotable s then .ok (s, rest) else .error .notLiteral := by
  have htext : hclQuote s ++ rest = ascii '"' :: ((hclChars s.toList).flatMap goEscape ++
      ascii '"' :: rest) := by
    simp [hclQuote, inQuotes]
  have hscan : TfScanner.str (hclQuote s ++ rest).length (hclQuote s ++ rest).tail = .ok rest := by
    rw [htext]
    refine str_hclChars s.toList ?_ rest
    simp only [length_cons, length_append]
    omega
  have htake : (hclQuote s ++ rest).take ((hclQuote s ++ rest).length - rest.length) = hclQuote s := by
    rw [length_append, Nat.add_sub_cancel, take_left]
  rw [string, hscan, ok_bind, htake, show literalString (hclQuote s) = _ from
    literalString_hclChars s]
  split_ifs with hs
  · exact congrArg (fun t => Except.ok (t, rest)) (decodeText_utf8 s)
  · rfl

/-! ## Numbers -/

lemma floatBytes_text (x : Float64) :
    ∃ t : NumberText, floatBytes x = t.text ∧ t.WellFormed ∧ parseFloat t = some x := by
  rw [floatBytes, goNumber]
  split_ifs with hzero
  · refine ⟨⟨true, [0], [], false, []⟩, rfl, ⟨by simp, by simp, by simp, Or.inl rfl, by simp⟩, ?_⟩
    rw [parseFloat, Float64.round_mag x]
    · simp [← hzero.2]
    · simp [NumberText.magnitude, hzero.1, decVal_cons, nearest_zero]
  · obtain ⟨t, htext, hwf, hparse⟩ := formatNumberES6_text x
    have hprinted : x.printed = x := by
      obtain ⟨neg, mag, hrep, htop⟩ := x
      simp only [Float64.printed, Float64.mk.injEq, and_true]
      cases neg <;> simp_all
    exact ⟨t, htext, hwf, by rw [hparse, hprinted]⟩

lemma floatFrac_fracText {ds : List ℕ} (hds : ∀ d ∈ ds, d < 10) (hrest : NoDigit rest)
    (hpoint : ∀ b ∈ rest.head?, b ≠ ascii '.') : floatFrac (fracText ds ++ rest) = (ds, rest) := by
  rw [fracText]
  split_ifs with h
  · subst h
    cases rest with
    | nil => rfl
    | cons b bs => simp [floatFrac, hpoint b rfl]
  · simp [floatFrac, digits_append hds hrest]

lemma floatExp_expText {neg : Bool} {ds : List ℕ} (hds : ∀ d ∈ ds, d < 10)
    (hneg : ds = [] → neg = false) : floatExp (expText neg ds) = some (neg, ds) := by
  by_cases h : ds = []
  · subst h
    simp [expText, floatExp, hneg rfl]
  · have hdigits : digits (ds.map digitByte ++ []) = _ := digits_append hds (by simp [NoDigit])
    rw [append_nil] at hdigits
    simp only [expText, h, if_false]
    simp [floatExp, scanSign_cons, hdigits, h]

/-- `strconv.ParseFloat` reads the text of a number as its parts. -/
lemma floatText_text {t : NumberText} (ht : t.WellFormed) : floatText t.text = some t := by
  have hend : NumberEnd [] := by simp [NumberEnd]
  obtain ⟨hexpDigit, hexpPoint⟩ := noDigit_expText t.expNeg t.exp hend
  rw [append_nil] at hexpDigit hexpPoint
  have hint : t.int ≠ [] := by
    rcases ht.int_head with h | ⟨d, ds, h, -⟩ <;> simp [h]
  have hminus := scanMinus_append (fracText t.frac ++ expText t.expNeg t.exp) t.neg ht.int_digit hint
  have hdigits := digits_append ht.int_digit (noDigit_fracText t.frac hexpDigit)
  have hfrac := floatFrac_fracText ht.frac_digit hexpDigit hexpPoint
  have hexp := floatExp_expText ht.exp_digit ht.exp_sign
  simp only [NumberText.text, append_assoc, floatText, hminus, hdigits, hfrac, hexp]
  simp [hint]

lemma isFloat_floatBytes (x : Float64) : isFloat (floatBytes x) = true := by
  obtain ⟨t, htext, hwf, hparse⟩ := floatBytes_text x
  rw [isFloat, htext, floatText_text hwf]
  simp [hparse]

lemma isNumberByte_text {t : NumberText} (ht : t.WellFormed) {b : UInt8} (hb : b ∈ t.text) :
    isNumberByte b = true := by
  have hall : ∀ b ∈ "0123456789+-.e".toList.map ascii, isNumberByte b = true := by decide
  exact hall b (ht.mem_text hb)

/-- The text of a number is read as it stands. -/
lemma value_floatBytes (x : Float64) (n : ℕ) (hrest : ValueEnd rest) :
    value (n + 1) (floatBytes x ++ rest) = .ok (.num (floatBytes x), rest) := by
  obtain ⟨t, htext, hwf, -⟩ := floatBytes_text x
  have hread := number_goNumber (.float x) [] (by simp [NumberEnd])
  rw [append_nil] at hread
  obtain ⟨b, bs, hbs, hb⟩ := number_head hread
  have hbytes : ∀ c ∈ bs, isNumberByte c = true := by
    intro c hc
    refine isNumberByte_text hwf ?_
    rw [← htext, floatBytes, hbs]
    exact mem_cons_of_mem b hc
  have hstop : ∀ c ∈ rest.head?, isNumberByte c = false := by
    have hends : ∀ c ∈ [',', ']', '}', ' ', '\n', '\t', '\r'].map ascii, isNumberByte c = false := by
      decide
    exact fun c hc => hends c (hrest c hc)
  obtain ⟨htake, hdrop⟩ := takeWhile_run hbytes hstop
  have hfloat := isFloat_floatBytes x
  rw [floatBytes, hbs] at hfloat ⊢
  have hstart : b ≠ ascii '{' ∧ b ≠ ascii '[' ∧ b ≠ ascii '"' := by
    refine ⟨?_, ?_, ?_⟩ <;>
    · rintro rfl
      exact absurd hb (by decide)
  rw [cons_append, value, if_neg hstart.1, if_neg hstart.2.1, if_neg hstart.2.2, if_pos hb,
    LitParser.number, htake, hdrop, if_pos hfloat]

/-- A word is read up to its end. -/
lemma value_word {cs : Bytes} {v : Json Bytes} (hc : c ∈ ['t', 'f', 'n'].map ascii)
    (hcs : ∀ b ∈ c :: cs, TfScanner.isIdentChar b = true) (hword : word (c :: cs) = .ok (v, []))
    (n : ℕ) (hrest : ValueEnd rest) : value (n + 1) (c :: cs ++ rest) = .ok (v, rest) := by
  have hstop : ∀ b ∈ rest.head?, TfScanner.isIdentChar b = false := by
    have hends : ∀ b ∈ [',', ']', '}', ' ', '\n', '\t', '\r'].map ascii,
        TfScanner.isIdentChar b = false := by
      decide
    exact fun b hb => hends b (hrest b hb)
  obtain ⟨htake, hdrop⟩ := takeWhile_run hcs hstop
  have hend : ∀ b ∈ ([] : Bytes).head?, TfScanner.isIdentChar b = false := by simp
  obtain ⟨htake', hdrop'⟩ := takeWhile_run hcs hend
  rw [append_nil] at htake' hdrop'
  have hstart : ∀ c ∈ ['t', 'f', 'n'].map ascii, c ≠ ascii '{' ∧ c ≠ ascii '[' ∧ c ≠ ascii '"' ∧
      ¬ (c = ascii '-' ∨ isDigit c = true) ∧ TfScanner.isIdentStart c = true := by
    decide
  obtain ⟨hobj, harr, hstr, hnum, hident⟩ := hstart c hc
  rw [cons_append, value, if_neg hobj, if_neg harr, if_neg hstr, if_neg hnum, if_pos hident,
    ← cons_append, word, htake, hdrop]
  rw [word, htake', hdrop'] at hword
  split_ifs at hword ⊢ with htrue hfalse hnull
  · rw [(ok_pair_inj hword).1]
  · rw [(ok_pair_inj hword).1]
  · rw [(ok_pair_inj hword).1]

/-! ## Values -/

/-- A layout that the parser takes for blanks, with escaped strings and the numbers of JSON. -/
structure Layout (w : JsonWriter Float64) : Prop where
  newline : ∀ d, Blank (w.newline d)
  colon : ∃ g, w.colon = ascii ':' :: g ∧ Blank g
  quote : w.quote = hclQuote
  num : w.num = floatBytes

/-- What is read of a value. -/
def readAgain {α : Type} (strings : List String) (r : α) : Except TfErr α :=
  if ∀ s ∈ strings, Quotable s then .ok r else .error .notLiteral

/-- The text of the value is read back, with enough fuel and whatever stands behind it. -/
def Rereads (w : JsonWriter Float64) (d : ℕ) (v : Json Float64) : Prop :=
  ∀ n rest, (w.text d v).length ≤ n → ValueEnd rest →
    value n (w.text d v ++ rest) = readAgain v.strings (v.map floatBytes, rest)

lemma readAgain_append {α β : Type} {ts : List String} {a : α} {b : β} {f : α → Except TfErr β}
    (hf : f a = readAgain ts b) : (readAgain ss a >>= f) = readAgain (ss ++ ts) b := by
  rw [readAgain]
  split_ifs with h
  · rw [ok_bind, hf, readAgain, readAgain]
    refine if_congr ?_ rfl rfl
    simp only [mem_append]
    exact ⟨fun ht s hs => hs.elim (h s) (ht s), fun ht s hs => ht s (Or.inr hs)⟩
  · rw [readAgain, if_neg fun hall => h fun s hs => hall s (mem_append_left ts hs)]
    rfl

lemma readAgain_bind_pure {α β : Type} {a : α} (f : α → β) :
    (readAgain ss a >>= fun r => pure (f r)) = readAgain ss (f a) := by
  rw [readAgain, readAgain]
  split_ifs <;> rfl

lemma readAgain_map {α β : Type} {a : α} (f : α → β) :
    (readAgain ss a).map f = readAgain ss (f a) := by
  rw [readAgain, readAgain]
  split_ifs <;> rfl

section

variable (w : JsonWriter Float64) (d : ℕ) (g close : Bytes)

/-- The text of elements behind the opening bracket. -/
def elementsText : List (Json Float64) → Bytes
  | [] => close ++ [ascii ']']
  | v :: vs => g ++ (w.text d v ++ (w.laterElements d vs ++ (close ++ [ascii ']'])))

/-- The text of members behind the opening brace. -/
def membersText : Members Float64 → Bytes
  | [] => close ++ [ascii '}']
  | m :: ms => g ++ (w.member d m ++ (w.laterMembers d ms ++ (close ++ [ascii '}'])))

end

section

variable {w : JsonWriter Float64} {d : ℕ} {g close : Bytes}

lemma valueEnd_cons (hc : c ∈ [',', ']', '}', ' ', '\n', '\t', '\r'].map ascii)
    (rest : Bytes) : ValueEnd (c :: rest) := by
  intro b hb
  obtain rfl : c = b := by simpa using hb
  exact hc

lemma valueEnd_blank (hg : Blank g) (hc : c = ascii ']' ∨ c = ascii '}') (rest : Bytes) :
    ValueEnd (g ++ c :: rest) := by
  cases g with
  | nil =>
      refine valueEnd_cons ?_ rest
      rcases hc with rfl | rfl <;> decide
  | cons b g =>
      have hb := hg b (by simp)
      simp only [isWS, Bool.decide_or, Bool.or_eq_true, decide_eq_true_eq] at hb
      refine valueEnd_cons ?_ _
      rcases hb with rfl | rfl | rfl | rfl <;> decide

lemma Layout.text_head (hw : Layout w) (d : ℕ) (v : Json Float64) :
    ∃ b bs, w.text d v = b :: bs ∧ Solid b ∧ b ≠ ascii ']' := by
  cases v with
  | null => exact ⟨_, _, rfl, by decide, by decide⟩
  | bool b => cases b <;> exact ⟨_, _, rfl, by decide, by decide⟩
  | num x =>
      have hread := number_goNumber (.float x) [] (by simp [NumberEnd])
      rw [append_nil] at hread
      obtain ⟨b, bs, hbs, hb⟩ := number_head hread
      refine ⟨b, bs, ?_, ?_, ?_⟩
      · simpa [text, pieces, hw.num, floatBytes] using hbs
      · refine ⟨?_, ?_, ?_⟩
        · by_contra hws
          simp only [isWS, Bool.decide_or, Bool.not_eq_false, Bool.or_eq_true,
            decide_eq_true_eq] at hws
          rcases hws with rfl | rfl | rfl | rfl <;> exact absurd hb (by decide)
        · rintro rfl
          exact absurd hb (by decide)
        · rintro rfl
          exact absurd hb (by decide)
      · rintro rfl
        exact absurd hb (by decide)
  | str s =>
      refine ⟨ascii '"', (hclChars s.toList).flatMap goEscape ++ [ascii '"'], ?_, by decide, by decide⟩
      simp [text, pieces, hw.quote, hclQuote, inQuotes]
  | arr els => exact ⟨_, _, rfl, by decide, by decide⟩
  | obj ms => exact ⟨_, _, rfl, by decide, by decide⟩

/-- What follows an element: the other elements, behind a comma if there are any. -/
lemma next_elements (hclose : Blank close) (vs : List (Json Float64))
    (rest : Bytes) :
    ∃ close', Blank close' ∧
      (elementsText w d (w.newline d) close' vs).length ≤
        (w.laterElements d vs).length + close.length + 1 ∧
      ValueEnd (w.laterElements d vs ++ (close ++ ascii ']' :: rest)) ∧
      comma (skip (w.laterElements d vs ++ (close ++ ascii ']' :: rest))) =
        elementsText w d (w.newline d) close' vs ++ rest := by
  cases vs with
  | nil =>
      refine ⟨[], by simp [Blank], by simp [elementsText], ?_, ?_⟩
      · exact valueEnd_blank hclose (Or.inl rfl) rest
      · rw [laterElements_nil, nil_append, skip_blank hclose (by decide)]
        rfl
  | cons u us =>
      refine ⟨close, hclose, ?_, ?_, ?_⟩
      · simp only [elementsText, laterElements_cons, length_append, length_cons,
          length_nil]
        omega
      · rw [laterElements_cons]
        exact valueEnd_cons (by decide) _
      · rw [laterElements_cons, cons_append, skip_solid (by decide)]
        simp [comma, trimFront, elementsText]

lemma Layout.tuple_text (hw : Layout w) {els : List (Json Float64)} (hel : ∀ v ∈ els, Rereads w d v)
    (hg : Blank g) (hclose : Blank close) {n : ℕ} (hn : (elementsText w d g close els).length ≤ n)
    (rest : Bytes) :
    tuple n (elementsText w d g close els ++ rest) =
      readAgain (els.flatMap Json.strings) (els.map (Json.map floatBytes), rest) := by
  induction els generalizing g close n with
  | nil =>
      obtain ⟨n, rfl⟩ : ∃ m, n = m + 1 := ⟨n - 1, by simp [elementsText] at hn; omega⟩
      rw [elementsText, append_assoc, singleton_append, tuple, skip_blank hclose (by decide)]
      simp [readAgain]
  | cons v vs ih =>
      obtain ⟨b, bs, htext, hsolid, hb⟩ := hw.text_head d v
      obtain ⟨close', hclose', hlen, hend, hnext⟩ := next_elements (w := w) (d := d) hclose vs rest
      have hpos : 0 < (w.text d v).length := by rw [htext]; simp
      simp only [elementsText, length_append, length_singleton] at hn
      obtain ⟨n, rfl⟩ : ∃ m, n = m + 1 := ⟨n - 1, by omega⟩
      have hvalue := hel v (by simp) n _ (by omega) hend
      have ih := ih (fun x hx => hel x (mem_cons_of_mem v hx)) (hw.newline d) hclose'
        (n := n) (by omega)
      have hskip : skip (elementsText w d g close (v :: vs) ++ rest) =
          b :: (bs ++ (w.laterElements d vs ++ (close ++ ascii ']' :: rest))) := by
        simp only [elementsText, htext, append_assoc, cons_append]
        exact skip_blank hg hsolid _
      rw [htext, cons_append] at hvalue
      rw [tuple, hskip]
      simp only [hb, if_false, hvalue]
      rw [flatMap_cons, map_cons]
      refine readAgain_append ?_
      simp only [hnext, ih]
      exact readAgain_bind_pure fun r : List (Json Bytes) × Bytes => (v.map floatBytes :: r.1, r.2)

/-- What follows a member: the other members, behind a comma if there are any. -/
lemma next_members (hclose : Blank close) (ms : Members Float64) (rest : Bytes) :
    ∃ close', Blank close' ∧
      (membersText w d (w.newline d) close' ms).length ≤
        (w.laterMembers d ms).length + close.length + 1 ∧
      ValueEnd (w.laterMembers d ms ++ (close ++ ascii '}' :: rest)) ∧
      comma (skip (w.laterMembers d ms ++ (close ++ ascii '}' :: rest))) =
        membersText w d (w.newline d) close' ms ++ rest := by
  cases ms with
  | nil =>
      refine ⟨[], by simp [Blank], by simp [membersText], ?_, ?_⟩
      · exact valueEnd_blank hclose (Or.inr rfl) rest
      · rw [laterMembers_nil, nil_append, skip_blank hclose (by decide)]
        rfl
  | cons u us =>
      refine ⟨close, hclose, ?_, ?_, ?_⟩
      · simp only [membersText, laterMembers_cons, length_append, length_cons,
          length_nil]
        omega
      · rw [laterMembers_cons]
        exact valueEnd_cons (by decide) _
      · rw [laterMembers_cons, cons_append, skip_solid (by decide)]
        simp [comma, trimFront, membersText]

lemma key_hclQuote (s : String) (rest : Bytes) :
    key (hclQuote s ++ rest) = readAgain [s] (s, rest) := by
  have hquote : [ascii '"'] <+: hclQuote s ++ rest := ⟨_, rfl⟩
  rw [key, if_pos hquote, string_hclQuote, readAgain]
  simp

lemma setMember_fresh {out : Members Bytes} {k : String} (hk : k ∉ out.map Prod.fst)
    (v : Json Bytes) : setMember out k v = out ++ [(k, v)] :=
  if_neg hk

lemma Layout.object_text (hw : Layout w) {ms : Members Float64}
    (hel : ∀ m ∈ ms, Rereads w d m.2) (hg : Blank g) (hclose : Blank close)
    (out : Members Bytes) (hkeys : (out.map Prod.fst ++ ms.map Prod.fst).Nodup) {n : ℕ}
    (hn : (membersText w d g close ms).length ≤ n) (rest : Bytes) :
    object n out (membersText w d g close ms ++ rest) =
      readAgain (ms.flatMap fun m => m.1 :: m.2.strings)
        (out ++ ms.map fun m => (m.1, m.2.map floatBytes), rest) := by
  induction ms generalizing g close n out with
  | nil =>
      obtain ⟨n, rfl⟩ : ∃ m, n = m + 1 := ⟨n - 1, by simp [membersText] at hn; omega⟩
      rw [membersText, append_assoc, singleton_append, object, skip_blank hclose (by decide)]
      simp [readAgain]
  | cons m ms ih =>
      obtain ⟨blank, hcolon, hblank⟩ := hw.colon
      obtain ⟨b, bs, htext, hsolid, -⟩ := hw.text_head d m.2
      obtain ⟨close', hclose', hlen, hend, hnext⟩ := next_members (w := w) (d := d) hclose ms rest
      simp only [membersText, member, length_append, hw.quote, hcolon, length_cons] at hn
      obtain ⟨n, rfl⟩ : ∃ k, n = k + 1 := ⟨n - 1, by omega⟩
      have hvalue := hel m (by simp) n _ (by omega) hend
      have hfresh : m.1 ∉ out.map Prod.fst := by
        intro hmem
        exact (nodup_append.1 hkeys).2.2 _ hmem _ (by simp) rfl
      have hkeys' : ((out ++ [(m.1, m.2.map floatBytes)]).map Prod.fst ++ ms.map Prod.fst).Nodup := by
        simpa using hkeys
      have ih := ih (fun x hx => hel x (mem_cons_of_mem m hx)) (hw.newline d) hclose' _ hkeys'
        (n := n) (by omega)
      have hskip : skip (membersText w d g close (m :: ms) ++ rest) = hclQuote m.1 ++
          (ascii ':' :: (blank ++ (w.text d m.2 ++ (w.laterMembers d ms ++
            (close ++ ascii '}' :: rest))))) := by
        simp only [membersText, member, hw.quote, hcolon, append_assoc,
          cons_append, nil_append]
        exact skip_blank hg (by decide) _
      have hskipText : skip (blank ++ (w.text d m.2 ++ (w.laterMembers d ms ++
          (close ++ ascii '}' :: rest)))) = w.text d m.2 ++ (w.laterMembers d ms ++
            (close ++ ascii '}' :: rest)) := by
        rw [htext]
        exact skip_blank hblank hsolid _
      have hquote (l : Bytes) : hclQuote m.1 ++ l = ascii '"' ::
          (((hclChars m.1.toList).flatMap goEscape ++ [ascii '"']) ++ l) := rfl
      rw [object, hskip, hquote]
      simp only [show ascii '"' ≠ ascii '}' by decide, if_false]
      have hstrings : ((m :: ms).flatMap fun m => m.1 :: m.2.strings) =
          [m.1] ++ (m.2.strings ++ ms.flatMap fun m => m.1 :: m.2.strings) := rfl
      rw [← hquote, key_hclQuote, hstrings]
      refine readAgain_append ?_
      simp only [skip_solid (show Solid (ascii ':') by decide), ne_eq, not_true_eq_false, and_false,
        if_false, hskipText, hvalue]
      refine readAgain_append ?_
      simp only [setMember_fresh hfresh, hnext, ih, append_assoc, singleton_append, map_cons]

lemma Layout.rereads_arr (hw : Layout w) {els : List (Json Float64)}
    (hel : ∀ v ∈ els, Rereads w (d + 1) v) : Rereads w d (.arr els) := by
  intro n rest hn hrest
  have htext : ∃ g close, Blank g ∧ Blank close ∧
      w.text d (.arr els) = ascii '[' :: elementsText w (d + 1) g close els := by
    cases els with
    | nil => exact ⟨[], [], by simp [Blank], by simp [Blank], w.text_arr_nil d⟩
    | cons v vs => exact ⟨_, _, hw.newline (d + 1), hw.newline d, w.text_arr_cons d v vs⟩
  obtain ⟨g, close, hg, hclose, htext⟩ := htext
  rw [htext, length_cons] at hn
  obtain ⟨n, rfl⟩ : ∃ m, n = m + 1 := ⟨n - 1, by omega⟩
  have htuple := hw.tuple_text hel hg hclose (n := n) (by omega) rest
  rw [htext, cons_append, value, if_neg (by decide), if_pos rfl, htuple, readAgain_map,
    Json.strings, Json.stringsElements_eq, Json.map, Json.mapElements_eq]

lemma Layout.rereads_obj (hw : Layout w) {ms : Members Float64}
    (hel : ∀ m ∈ ms, Rereads w (d + 1) m.2) (hkeys : (ms.map Prod.fst).Nodup) :
    Rereads w d (.obj ms) := by
  intro n rest hn hrest
  have htext : ∃ g close, Blank g ∧ Blank close ∧
      w.text d (.obj ms) = ascii '{' :: membersText w (d + 1) g close ms := by
    cases ms with
    | nil => exact ⟨[], [], by simp [Blank], by simp [Blank], w.text_obj_nil d⟩
    | cons m ms => exact ⟨_, _, hw.newline (d + 1), hw.newline d, w.text_obj_cons d m ms⟩
  obtain ⟨g, close, hg, hclose, htext⟩ := htext
  rw [htext, length_cons] at hn
  obtain ⟨n, rfl⟩ : ∃ m, n = m + 1 := ⟨n - 1, by omega⟩
  have hobject := hw.object_text hel hg hclose [] (by simpa using hkeys) (n := n)
    (by omega) rest
  rw [htext, cons_append, value, if_pos rfl, hobject, readAgain_map, Json.strings,
    Json.stringsMembers_eq, Json.map, Json.mapMembers_eq]
  rfl

lemma rereads_word {v : Json Float64} {s : String} (htext : w.text d v = utf8 s)
    (hs : s ∈ ["true", "false", "null"]) (hword : word (utf8 s) = .ok (v.map floatBytes, []))
    (hstrings : v.strings = []) : Rereads w d v := by
  have hchars : ∀ s ∈ ["true", "false", "null"],
      (utf8 s).head?.any (· ∈ ['t', 'f', 'n'].map ascii) = true ∧
        ∀ b ∈ utf8 s, TfScanner.isIdentChar b = true := by
    decide
  obtain ⟨hhead, hall⟩ := hchars s hs
  intro n rest hn hrest
  rw [htext] at hn ⊢
  cases htext : utf8 s with
  | nil => simp [htext] at hhead
  | cons c cs =>
      rw [htext] at hhead hall hword hn
      obtain ⟨n, rfl⟩ : ∃ m, n = m + 1 := ⟨n - 1, by simp at hn; omega⟩
      rw [value_word (by simpa using hhead) hall hword n hrest]
      simp [readAgain, hstrings]

/-- The text of a value with unique member names is read back. -/
theorem Layout.rereads (hw : Layout w) {v : Json Float64} {room : ℕ} (hv : v.Fits room) (d : ℕ) :
    Rereads w d v := by
  induction hv generalizing d with
  | null room =>
      exact rereads_word (s := "null") (by simp [text, pieces])
        (by decide) rfl rfl
  | bool room b =>
      cases b with
      | true =>
          exact rereads_word (s := "true") (by simp [text, pieces])
            (by decide) rfl rfl
      | false =>
          exact rereads_word (s := "false") (by simp [text, pieces])
            (by decide) rfl rfl
  | num room x =>
      intro n rest hn hrest
      have htext : w.text d (.num x) = floatBytes x := by
        simp [text, pieces, hw.num]
      obtain ⟨b, bs, hb, -⟩ := hw.text_head d (.num x)
      obtain ⟨n, rfl⟩ : ∃ m, n = m + 1 := ⟨n - 1, by rw [hb] at hn; simp at hn; omega⟩
      rw [htext, value_floatBytes x n hrest]
      simp [readAgain, Json.strings, Json.map]
  | str room s =>
      intro n rest hn hrest
      have htext : w.text d (.str s) = hclQuote s := by
        simp [text, pieces, hw.quote]
      obtain ⟨b, bs, hb, -⟩ := hw.text_head d (.str s)
      obtain ⟨n, rfl⟩ : ∃ m, n = m + 1 := ⟨n - 1, by rw [hb] at hn; simp at hn; omega⟩
      have hvalue : value (n + 1) (hclQuote s ++ rest) =
          (string (hclQuote s ++ rest)).map fun r => (.str r.1, r.2) := by
        change value (n + 1) (ascii '"' :: _) = (string (ascii '"' :: _)).map _
        rw [value, if_neg (by decide), if_neg (by decide), if_pos rfl]
      rw [htext, hvalue, string_hclQuote]
      simp only [readAgain, Json.strings, mem_singleton, forall_eq]
      split_ifs <;> rfl
  | arr room els _ ih => exact hw.rereads_arr fun v hv => ih v hv (d + 1)
  | obj room ms hkeys _ ih => exact hw.rereads_obj (fun m hm => ih m hm (d + 1)) hkeys

end

end LitParser

open LitParser in
/-- The text of a value is read back if its strings are `Quotable`. -/
theorem parseLiteral_text {w : JsonWriter Float64} (hw : Layout w) {v : Json Float64} {room : ℕ}
    (hv : v.Fits room) (d : ℕ) : parseLiteral (w.text d v) = readAgain v.strings (v.map floatBytes) := by
  obtain ⟨b, bs, htext, hsolid, -⟩ := hw.text_head d v
  have hskip : skip (w.text d v) = w.text d v := by
    rw [htext, skip_solid hsolid]
  have hread := hw.rereads hv d ((w.text d v).length + 1) [] (by omega) (by simp [ValueEnd])
  rw [append_nil] at hread
  have hbind : (readAgain v.strings (v.map floatBytes, ([] : Bytes)) >>= fun r =>
      require (skip r.2 = []) TfErr.notLiteral >>= fun _ => pure r.1) =
        readAgain (v.strings ++ []) (v.map floatBytes) :=
    readAgain_append (by simp [readAgain, skip, ws, require])
  rw [append_nil] at hbind
  rw [parseLiteral, hskip, hread]
  exact hbind

end AuthSec

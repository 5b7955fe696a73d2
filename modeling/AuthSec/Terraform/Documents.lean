import AuthSec.Policy.Lemmas.Decode
import AuthSec.Terraform.Reread

/-!
# Texts of policy documents

What `hclEscape` makes of the indented text of a document, what is read of a `jsonencode` call around
it, and when two texts of documents have one hash.

* `jsonencodeDocument_text`: the document in a call is the compact text of the value;
* `CanonicalObject.sameHash`, `CanonicalObject.canon_eq`: texts with one canonical form have one hash,
  and the other way round if the hash has no collisions;
* `not_infix_of_canon_eq`: a doubled sign shows in the canonical form.
-/

namespace AuthSec

open List JsonWriter LitParser

/-! ## Texts of the writers -/

/-- The layout of `json.MarshalIndent` with escaped strings. -/
def hclWriter (indent : Bytes) : JsonWriter Float64 :=
  { indentWriter floatBytes indent (utf8 "  ") with quote := hclQuote }

lemma blank_newline {indent : Bytes} (hindent : Blank indent) (d : ℕ) :
    Blank ((indentWriter floatBytes indent (utf8 "  ")).newline d) := by
  intro b hb
  simp only [indentWriter, mem_cons, mem_append, mem_flatten] at hb
  rcases hb with rfl | hb | ⟨t, ht, hb⟩
  · decide
  · exact hindent b hb
  · obtain rfl := eq_of_mem_replicate ht
    have hspaces : ∀ b ∈ utf8 "  ", JsonParser.isWS b = true := by decide
    exact hspaces b hb

lemma layout_hclWriter {indent : Bytes} (hindent : Blank indent) : Layout (hclWriter indent) where
  newline := blank_newline hindent
  colon := ⟨[ascii ' '], rfl, by simp [Blank]; decide⟩
  quote := rfl
  num := rfl

/-- A sign of a template opening stands in strings only. -/
lemma notMem_mark_sign {indent : Bytes} (hindent : Blank indent) {x : UInt8}
    (hx : x = ascii '$' ∨ x = ascii '%') {v : Json Float64} {d : ℕ} {m : Bytes}
    (hm : JsonPiece.mark m ∈ (indentWriter floatBytes indent (utf8 "  ")).pieces d v) : x ∉ m := by
  have hsign : ∀ x ∈ [ascii '$', ascii '%'], x ∉ utf8 "nultrefas[]\x7b\x7d," ∧
      JsonParser.isWS x = false ∧ x ∉ [ascii ':', ascii ' '] ∧ isNumberByte x = false := by
    decide
  obtain ⟨hwords, hws, hcolon, hnumber⟩ := hsign x (by simpa using hx)
  refine notMem_mark hwords (fun d hmem => ?_) hcolon (fun n hmem => ?_) hm
  · exact absurd (blank_newline hindent d x hmem) (by simp [hws])
  · obtain ⟨t, htext, hwf, -⟩ := floatBytes_text n
    have hmem' : x ∈ floatBytes n := hmem
    rw [htext] at hmem'
    exact absurd (isNumberByte_text hwf hmem') (by simp [hnumber])

section

variable {indent : Bytes} (hindent : Blank indent) (v : Json Float64)

include hindent

/-- Parts that start with a sign are replaced string by string. -/
lemma replaceAll_pieces {x : UInt8} (hx : x = ascii '$' ∨ x = ascii '%') {t : Bytes}
    (ht : ascii '"' ∉ t) (new : Bytes) (inner : String → Bytes) :
    replaceAll (x :: t) new (JsonWriter.textOf (inQuotes inner)
        ((indentWriter floatBytes indent (utf8 "  ")).pieces 0 v)) =
      JsonWriter.textOf (inQuotes fun s => replaceAll (x :: t) new (inner s))
        ((indentWriter floatBytes indent (utf8 "  ")).pieces 0 v) := by
  refine replaceAll_textOf new ?_ fun m hm => notMem_mark_sign hindent hx hm
  rw [mem_cons, not_or]
  exact ⟨by rcases hx with rfl | rfl <;> decide, ht⟩

/-- The escaped text of a document. -/
lemma hclEscape_marshalIndent :
    hclEscape (marshalIndent floatBytes indent (utf8 "  ") v) =
      (hclWriter indent).text 0 v.keySorted := by
  have htext : marshalIndent floatBytes indent (utf8 "  ") v =
      JsonWriter.textOf (inQuotes fun s => s.toList.flatMap goEscape)
        ((indentWriter floatBytes indent (utf8 "  ")).pieces 0 v.keySorted) := rfl
  have hpieces : (hclWriter indent).pieces 0 v.keySorted =
      (indentWriter floatBytes indent (utf8 "  ")).pieces 0 v.keySorted := by
    have hmap := pieces_map (w := indentWriter floatBytes indent (utf8 "  "))
      (u := hclWriter indent) (f := id) rfl rfl (fun _ => rfl) 0 v.keySorted
    rwa [Json.map_id] at hmap
  have hquote : (inQuotes fun s => replaceAll (opening '%') (escaped '%')
      (replaceAll (opening '$') (escaped '$') (s.toList.flatMap goEscape))) = hclQuote := by
    funext s
    rw [hclQuote, inQuotes, inQuotes, ← hclEscape_goEscape]
    rfl
  rw [htext, hclEscape, text, hpieces, opening, opening,
    replaceAll_pieces hindent _ (Or.inl rfl) (by decide),
    replaceAll_pieces hindent _ (Or.inr rfl) (by decide)]
  exact congrArg (fun q => JsonWriter.textOf q _) hquote

end

/-! ## Reading a `jsonencode` call -/

lemma policyDocument_jsonencode (t : Bytes) :
    policyDocument (jsonencodeCall ++ t ++ [ascii ')']) =
      (jsonencodeDocument t).map (·, .jsonencode) := by
  have hcall : jsonencodeCall = ascii 'j' :: utf8 "sonencode(" := by decide
  have hraw : trimSpaceBytes (jsonencodeCall ++ t ++ [ascii ')']) =
      jsonencodeCall ++ t ++ [ascii ')'] := by
    rw [hcall]
    exact trimSpaceBytes_of_ends (by decide +kernel) (by decide +kernel) (utf8 "sonencode(" ++ t)
  have hpre : jsonencodeCall <+: jsonencodeCall ++ t ++ [ascii ')'] := by
    rw [append_assoc]
    exact prefix_append ..
  have harg : ((jsonencodeCall ++ t ++ [ascii ')']).drop jsonencodeCall.length).dropLast = t := by
    rw [append_assoc, drop_left, dropLast_concat]
  rw [policyDocument, hraw, if_pos ⟨hpre, suffix_append ..⟩, harg]

lemma allNumbers_map {N M : Type} {p : M → Bool} {f : N → M} (hf : ∀ n, p (f n) = true) (v : Json N) :
    (v.map f).allNumbers p = true := by
  have helements {els : List (Json N)} (ih : ∀ x ∈ els, (x.map f).allNumbers p = true) :
      Json.allNumbersElements p (els.map (Json.map f)) = true := by
    induction els with
    | nil => rfl
    | cons v vs ihvs =>
        simp [Json.allNumbersElements, ih v, ihvs fun x hx => ih x (mem_cons_of_mem v hx)]
  have hmembers {ms : Members N} (ih : ∀ m ∈ ms, (m.2.map f).allNumbers p = true) :
      Json.allNumbersMembers p (ms.map fun m => (m.1, m.2.map f)) = true := by
    induction ms with
    | nil => rfl
    | cons m ms ihms =>
        simp [Json.allNumbersMembers, ih m, ihms fun x hx => ih x (mem_cons_of_mem m hx)]
  induction v using Json.ind with
  | null | bool | str => rfl
  | num n => exact hf n
  | arr els ih => simpa [Json.map, Json.allNumbers] using helements ih
  | obj ms ih => simpa [Json.map, Json.allNumbers] using hmembers ih

lemma isJSONNumber_floatBytes (x : Float64) : isJSONNumber (floatBytes x) = true := by
  have hread := number_goNumber (.float x) [] (by simp [NumberEnd])
  rw [append_nil] at hread
  rw [isJSONNumber, floatBytes, hread]

/-- The document in the call is the compact text of the value. -/
lemma jsonencodeDocument_text {indent : Bytes} (hindent : Blank indent) {v : Json Float64} {room : ℕ}
    (hv : v.Fits room) :
    jsonencodeDocument ((hclWriter indent).text 0 v) = readAgain v.strings (marshal floatBytes v) := by
  have hmarshal : marshalLiteral (v.map floatBytes) = .ok (marshal floatBytes v) := by
    rw [marshalLiteral, if_pos (allNumbers_map isJSONNumber_floatBytes v), marshal_map]
  rw [jsonencodeDocument, parseLiteral_text (layout_hclWriter hindent) hv]
  have hbind : (readAgain v.strings (v.map floatBytes) >>= fun u => marshalLiteral u) =
      readAgain (v.strings ++ []) (marshal floatBytes v) :=
    readAgain_append (by rw [hmarshal]; simp [readAgain])
  rwa [append_nil] at hbind

/-! ## Hashes of the texts -/

/-- The texts of a layout whose strings are changed by `f`. -/
lemma reads_of_quote {w : JsonWriter Float64} {f : String → String}
    (hnewline : ∀ d, Blank (w.newline d)) (hcolon : ∃ g, w.colon = ascii ':' :: g ∧ Blank g)
    (hquote : ∀ s, w.quote s = goJson.string (f s)) (hnum : w.num = floatBytes) : w.Reads f id where
  newline := hnewline
  colon := hcolon
  quoted s := by
    refine ⟨(f s).toList.flatMap goEscape ++ [ascii '"'], hquote s, fun rest => ?_⟩
    rw [append_assoc]
    exact goJson.string_read (f s) rest
  number n rest hrest := by
    rw [hnum]
    exact number_goNumber (.float n) rest hrest

lemma text_obj_ends {N : Type} (w : JsonWriter N) (d : ℕ) (ms : Members N) :
    ∃ bs, w.text d (.obj ms) = ascii '{' :: (bs ++ [ascii '}']) := by
  cases ms with
  | nil => exact ⟨[], w.text_obj_nil d⟩
  | cons m ms =>
      refine ⟨w.newline (d + 1) ++ (w.member (d + 1) m ++ (w.laterMembers (d + 1) ms ++
        w.newline d)), ?_⟩
      simp [w.text_obj_cons d m ms]

/-- The canonical form of an object text is that of the object. -/
lemma canonicalDocument_of_parse {t bs : Bytes} (ht : t = ascii '{' :: (bs ++ [ascii '}']))
    {v : Json Float64} (hparse : parseJSON t = .ok v) :
    canonicalDocument t = (checkStorable (writeCanonical v)).map fun _ => writeCanonical v := by
  have hedge : edge (ascii '{') = true ∧ edge (ascii '}') = true := by decide +kernel
  have hraw : decodePolicyText t = .ok t := by
    rw [decodePolicyText, ht, trimSpaceBytes_of_ends hedge.1 hedge.2]
    rfl
  have hcanonical : (canonicalize t).mapError GoErr.notIJSON = .ok (writeCanonical v) := by
    rw [canonicalize, hparse]
    rfl
  rw [canonicalDocument, hraw, ok_bind, hcanonical, ok_bind]
  cases checkStorable (writeCanonical v) <;> rfl

/-- A canonical document that is an object. -/
structure CanonicalObject (c : Bytes) (ms : Members Float64) : Prop where
  parse : parseJSON c = .ok (.obj ms)
  write : writeCanonical (.obj ms) = c
  storable : checkStorable c = .ok ()

lemma exists_canonicalObject {c : Bytes} (hc : canonicalDocument c = .ok c)
    (hobj : c.head? = some (ascii '{')) : ∃ ms, CanonicalObject c ms := by
  obtain ⟨raw, -, hc⟩ := bind_eq_ok.1 hc
  obtain ⟨c', hcanonical, hc⟩ := bind_eq_ok.1 hc
  obtain ⟨_, hstorable, hc⟩ := bind_eq_ok.1 hc
  obtain rfl := Except.ok.inj hc
  obtain ⟨v, hv, hwrite⟩ := map_eq_ok.1 (mapError_eq_ok.1 hcanonical)
  have hfits := parseJSON_fits hv
  have hparse := parseJSON_writeCanonical hfits
  cases v with
  | obj ms =>
      rw [Json.canon_obj, hwrite] at hparse
      refine ⟨_, hparse, ?_, hstorable⟩
      rw [← Json.canon_obj, writeCanonical_canon, hwrite]
  | null =>
      rw [← hwrite] at hobj
      exact absurd hobj (by decide)
  | bool b =>
      rw [← hwrite] at hobj
      cases b <;> exact absurd hobj (by decide)
  | num x =>
      have hread := number_formatNumberES6 x (show NumberEnd [] by simp [NumberEnd])
      rw [append_nil] at hread
      obtain ⟨b, bs, hbs, hb⟩ := number_head hread
      rw [← hwrite, writeCanonical, hbs, head?_cons, Option.some.injEq] at hobj
      rw [hobj] at hb
      exact absurd hb (by decide)
  | str s =>
      rw [← hwrite] at hobj
      exact absurd hobj (by simp [writeCanonical, writeCanonicalString]; decide)
  | arr els =>
      rw [← hwrite] at hobj
      exact absurd hobj (by simp [writeCanonical]; decide)

/-- The two texts have one hash. -/
def SameHash [Sha256] (doc c : Bytes) : Prop :=
  ∃ h, documentHash doc = .ok h ∧ documentHash c = .ok h

section

variable {c : Bytes} {ms : Members Float64}

lemma CanonicalObject.canonicalDocument_eq (hc : CanonicalObject c ms) : canonicalDocument c = .ok c := by
  obtain ⟨bs, hbs⟩ := writeCanonical_obj_ends ms
  rw [hc.write] at hbs
  rw [canonicalDocument_of_parse hbs hc.parse, hc.write, hc.storable]
  rfl

lemma CanonicalObject.sameHash [Sha256] (hc : CanonicalObject c ms) {t bs : Bytes}
    (ht : t = ascii '{' :: (bs ++ [ascii '}'])) {v : Json Float64} (hparse : parseJSON t = .ok v)
    (hcanon : v.canon = (Json.obj ms).canon) : SameHash t c := by
  have hwrite : writeCanonical v = c := by
    rw [← writeCanonical_canon, hcanon, writeCanonical_canon, hc.write]
  refine ⟨contentHash c, ?_, ?_⟩
  · rw [documentHash, canonicalDocument_of_parse ht hparse, hwrite, hc.storable]
    rfl
  · rw [documentHash, hc.canonicalDocument_eq]
    rfl

/-- Texts with one hash have one canonical form, if the hash has no collisions. -/
lemma CanonicalObject.canon_eq [Sha256] (hsum : Function.Injective Sha256.sum)
    (hc : CanonicalObject c ms) {t bs : Bytes} (ht : t = ascii '{' :: (bs ++ [ascii '}']))
    {v : Json Float64} (hparse : parseJSON t = .ok v) (h : SameHash t c) :
    v.canon = (Json.obj ms).canon := by
  obtain ⟨h, hdoc, hhash⟩ := h
  obtain ⟨c', hcanonical, rfl⟩ := map_eq_ok.1 hdoc
  rw [documentHash, hc.canonicalDocument_eq] at hhash
  have hcontent : contentHash c = contentHash c' := Except.ok.inj hhash
  have htext : c = c' := sha256Label_injective hsum hcontent
  rw [canonicalDocument_of_parse ht hparse] at hcanonical
  obtain ⟨_, -, hwrite⟩ := map_eq_ok.1 hcanonical
  have hv := parseJSON_writeCanonical (parseJSON_fits hparse)
  have hms := parseJSON_writeCanonical (parseJSON_fits hc.parse)
  rw [hwrite, ← htext] at hv
  rw [hc.write] at hms
  exact Except.ok.inj (hv.symm.trans hms)

end

/-! ## Doubled signs in strings -/

/-- The string with the sign of every `%{` doubled. -/
def doublePercent (s : String) : String :=
  String.ofList (double '{' '%' s.toList)

lemma doublePercent_injective : Function.Injective doublePercent := by
  intro s t h
  have hlist : double '{' '%' s.toList = double '{' '%' t.toList := String.ofList_injective h
  have hs := undouble_double (o := '{') (x := '%') (by decide) s.toList
  rw [hlist, undouble_double (by decide)] at hs
  exact String.ext_iff.2 hs.symm

lemma doublePercent_eq_self {s : String} (hs : ¬ ['%', '{'] <:+: s.toList) : doublePercent s = s := by
  rw [doublePercent, double_eq_self hs, String.ofList_toList]

/-- The doubling shows in the strings of the canonical form. -/
lemma not_infix_of_canon_eq {u v : Json Float64} (hu : u.strings.Perm v.strings)
    (hcanon : (u.mapStrings doublePercent).canon = v.canon) :
    ∀ s ∈ v.strings, ¬ ['%', '{'] <:+: s.toList := by
  have hdoubled : (v.strings.map doublePercent).Perm v.strings := by
    have hcanonical := (u.mapStrings doublePercent).strings_canon_perm
    rw [hcanon, Json.strings_mapStrings] at hcanonical
    exact ((hu.map doublePercent).symm.trans hcanonical.symm).trans v.strings_canon_perm
  have hlength (s : String) : (doublePercent s).toList.length = (double '{' '%' s.toList).length := by
    rw [doublePercent, String.toList_ofList]
  intro s hs hinfix
  have hsum := (hdoubled.map fun t => t.toList.length).sum_eq
  rw [List.map_map] at hsum
  refine absurd hsum (ne_of_gt (sum_lt_sum _ _ (fun t _ => ?_) ⟨s, hs, ?_⟩))
  · exact (length_le_double '{' '%' t.toList).trans (hlength t).ge
  · exact (length_lt_double hinfix).trans_le (hlength s).ge

end AuthSec

import AuthSec.Terraform.Documents

/-!
# Round trips of policy documents

A policy document is written as a `jsonencode` call or as a heredoc, and read back with
`policyDocument`.  The call undoes the doubling of `${` and of `%{`, a heredoc only that of `${`; both
refuse a text in which an opening is left when the escapes are taken out.

* `HeredocLine.policyDocument_eq`: what is read of a heredoc;
* `policyDocument_roundTrip_iff`: which strings a document may have for its hash to be kept.
-/

namespace AuthSec

open List JsonWriter LitParser

/-! ## Reading a heredoc -/

lemma cutAt_append {sep : UInt8} {as : Bytes} (has : sep ∉ as) (bs : Bytes) :
    cutAt sep (as ++ sep :: bs) = some (as, bs) := by
  have hrun : ∀ b ∈ as, (b != sep) = true := by
    intro b hb
    rw [bne_iff_ne]
    rintro rfl
    exact has hb
  obtain ⟨htake, hdrop⟩ := takeWhile_run (p := (· != sep)) hrun
    (show ∀ b ∈ (sep :: bs).head?, (b != sep) = false by simp)
  rw [cutAt, if_pos (by simp), htake, hdrop, tail_cons]

lemma cutAtLast_append {sep : UInt8} {bs : Bytes} (hbs : sep ∉ bs) (as : Bytes) :
    cutAtLast sep (as ++ sep :: bs) = some (as, bs) := by
  have hreverse : (as ++ sep :: bs).reverse = bs.reverse ++ sep :: as.reverse := by simp
  rw [cutAtLast, hreverse, cutAt_append (by simpa using hbs), Option.map_some]
  simp

lemma notMem_cutAt {sep : UInt8} {bs front back : Bytes} (h : cutAt sep bs = some (front, back)) :
    sep ∉ front := by
  rw [cutAt] at h
  split_ifs at h
  obtain ⟨rfl, -⟩ := Prod.mk.inj (Option.some.inj h)
  intro hmem
  simpa using mem_takeWhile_imp hmem

lemma heredocMark_subset (head : Bytes) : heredocMark head ⊆ head := by
  have htrim (p bs : Bytes) : trimFront p bs ⊆ bs := by
    rw [trimFront]
    split_ifs
    · exact drop_subset _ _
    · exact fun _ h => h
  exact fun b hb => htrim _ _ (htrim _ _ ((trimSpaceBytes_spec _).2 hb))

/-- The first line of a heredoc, without the spaces around it. -/
structure HeredocLine (head : Bytes) : Prop where
  start : [ascii '<', ascii '<'] <+: head
  mark : heredocMark head ≠ []
  single : ascii '\n' ∉ head

section

variable {head : Bytes} (hhead : HeredocLine head) (body : Bytes)

include hhead

lemma HeredocLine.heredocBody_eq :
    heredocBody (head ++ ascii '\n' :: (body ++ ascii '\n' :: heredocMark head)) = some body := by
  have hmark : ascii '\n' ∉ heredocMark head := fun h => hhead.single (heredocMark_subset head h)
  have htrim : trimSpaceBytes (heredocMark head) = heredocMark head :=
    trimSpaceBytes_of_trimmed (trimSpaceBytes_spec _).1
  rw [heredocBody, cutAt_append hhead.single]
  simp only [cutAtLast_append hmark, htrim, if_true]

lemma HeredocLine.trimmed :
    Trimmed (head ++ ascii '\n' :: (body ++ ascii '\n' :: heredocMark head)) := by
  have hmark : ascii '\n' ∉ heredocMark head := fun h => hhead.single (heredocMark_subset head h)
  have hspaces : ∀ p ∈ spaceTexts, p = [ascii '\n'] ∨ ascii '\n' ∉ p := by decide
  obtain ⟨l, hl⟩ := hhead.start
  intro p hp
  constructor
  · intro hpre
    have hedge : edge (ascii '<') = true := by decide +kernel
    obtain ⟨c, q, rfl, hne⟩ := (exists_cons_of_edge hedge).1 p hp
    rw [← hl] at hpre
    exact hne (cons_prefix_cons.1 hpre).1
  · intro hsuf
    have hpre : p.reverse <+: (heredocMark head).reverse ++ ascii '\n' ::
        (head ++ ascii '\n' :: body).reverse := by
      rw [← List.reverse_prefix] at hsuf
      simpa using hsuf
    rcases hspaces p hp with rfl | hnl
    · obtain ⟨c, cs, hcs⟩ := exists_cons_of_ne_nil (mt reverse_eq_nil_iff.1 hhead.mark)
      rw [hcs] at hpre
      have hc : ascii '\n' = c := (cons_prefix_cons.1 hpre).1
      refine hmark (mem_reverse.1 ?_)
      rw [hcs, hc]
      exact mem_cons_self ..
    · have hpre' := prefix_of_prefix_append (by simpa using hnl) hpre
      exact ((trimSpaceBytes_spec _).1 p hp).2 (List.reverse_prefix.1 hpre')

lemma HeredocLine.policyDocument_eq :
    policyDocument (head ++ ascii '\n' :: (body ++ ascii '\n' :: heredocMark head)) =
      if opening '$' <:+: deleteAll (escaped '$') body then .error .notLiteral
      else .ok (replaceAll (escaped '$') (opening '$') body, .heredoc) := by
  obtain ⟨l, hl⟩ := hhead.start
  have hcall : ¬ jsonencodeCall <+: head ++ ascii '\n' :: (body ++ ascii '\n' :: heredocMark head) := by
    rw [← hl]
    intro hpre
    exact absurd (cons_prefix_cons.1 hpre).1 (by decide)
  have hstart : [ascii '<', ascii '<'] <+:
      head ++ ascii '\n' :: (body ++ ascii '\n' :: heredocMark head) :=
    hhead.start.trans (prefix_append ..)
  rw [policyDocument, trimSpaceBytes_of_trimmed (hhead.trimmed body), if_neg fun h => hcall h.1,
    if_pos hstart, heredocDocument, hhead.heredocBody_eq body]
  simp only
  split_ifs <;> rfl

end

/-! ## Round trips -/

/-- What `jsonencodeExpr` writes for the document is read back as a document with the same hash. -/
def JsonencodeRoundTrip [Sha256] (c indent : Bytes) : Prop :=
  ∃ expr doc, jsonencodeExpr c indent = .ok expr ∧ policyDocument expr = .ok doc ∧ SameHash doc.1 c

/-- What `heredocExpr` writes for the document is read back as a document with the same hash. -/
def HeredocRoundTrip [Sha256] (c old : Bytes) : Prop :=
  ∃ expr doc, heredocExpr c old = .ok expr ∧ policyDocument expr = .ok doc ∧ SameHash doc.1 c

/-- A heredoc: a line with a marker, and what stands behind it. -/
def IsHeredoc (old : Bytes) : Prop :=
  ∃ line rest, cutAt (ascii '\n') old = some (line, rest) ∧
    [ascii '<', ascii '<'] <+: trimSpaceBytes line ∧ heredocMark (trimSpaceBytes line) ≠ []

/-- The strings of a document, names of members included. -/
def documentStrings (c : Bytes) : List String :=
  match parseJSON c with
  | .ok v => v.strings
  | .error _ => []

/-- The string has no `%{`, and no `${` is left when every `${` is taken out. -/
def HeredocSafe (s : String) : Prop :=
  ¬ ['%', '{'] <:+: s.toList ∧ ¬ ['$', '{'] <:+: deleteAll ['$', '{'] s.toList

/-- The layout of `json.MarshalIndent` with every `%{` of the strings doubled. -/
def doubledWriter : JsonWriter Float64 :=
  { indentWriter floatBytes [] (utf8 "  ") with quote := fun s => goJson.string (doublePercent s) }

lemma hclWriter_text (v : Json Float64) : (hclWriter []).text 0 v =
    JsonWriter.textOf hclQuote ((indentWriter floatBytes [] (utf8 "  ")).pieces 0 v) := by
  have hmap := pieces_map (w := indentWriter floatBytes [] (utf8 "  "))
    (u := hclWriter []) (f := id) rfl rfl (fun _ => rfl) 0 v
  rw [Json.map_id] at hmap
  rw [text, hmap]
  rfl

/-- A heredoc keeps the doubled sign of `%{`. -/
lemma replaceAll_escaped (v : Json Float64) :
    replaceAll (escaped '$') (opening '$') ((hclWriter []).text 0 v) = doubledWriter.text 0 v := by
  have hmap := pieces_map (w := indentWriter floatBytes [] (utf8 "  "))
    (u := doubledWriter) (f := id) rfl rfl (fun _ => rfl) 0 v
  rw [Json.map_id] at hmap
  have hquote : (inQuotes fun s => replaceAll (escaped '$') (opening '$')
      ((hclChars s.toList).flatMap goEscape)) = doubledWriter.quote := by
    funext s
    have hdollar := keeps_goEscape.replaceAll_flatMap ['$', '$', '{'] ['$', '{'] (hclChars s.toList)
      (by simp) (by decide) (by decide)
    rw [hclChars_comm, undouble_double (by decide)] at hdollar
    have hchars : (doublePercent s).toList = double '{' '%' s.toList := String.toList_ofList
    simp only [inQuotes, doubledWriter, Printer.string, hchars]
    rw [hclChars_comm]
    exact congrArg (fun t => ascii '"' :: (t ++ [ascii '"'])) hdollar
  rw [hclWriter_text, hclQuote, escaped,
    replaceAll_pieces (by simp [Blank]) v (Or.inl rfl) (by decide), text, hmap, ← hquote]
  rfl

/-- The openings that are left in a heredoc without its escapes. -/
lemma infix_deleteAll_text (v : Json Float64) :
    opening '$' <:+: deleteAll (escaped '$') ((hclWriter []).text 0 v.keySorted) ↔
      ∃ s ∈ v.strings, ['$', '{'] <:+: deleteAll ['$', '{'] s.toList := by
  have hblank : Blank ([] : Bytes) := by simp [Blank]
  have hinner (s : String) : opening '$' <:+: replaceAll (escaped '$') []
      ((hclChars s.toList).flatMap goEscape) ↔ ['$', '{'] <:+: deleteAll ['$', '{'] s.toList := by
    have hdouble : deleteAll ['$', '$', '{'] (hclChars s.toList) =
        deleteAll ['$', '{'] (double '{' '%' s.toList) := by
      rw [hclChars_comm]
      exact replaceAll_double (by decide) [] _
    rw [← deleteAll, deleteAll_escaped (by decide), infix_opening (by decide), hdouble,
      infix_deleteAll_double (by decide) (by decide) (by decide)]
  rw [hclWriter_text, hclQuote, deleteAll, escaped,
    replaceAll_pieces hblank v.keySorted (Or.inl rfl) (by decide), opening,
    infix_textOf (by decide) fun m hm => notMem_mark_sign hblank (Or.inl rfl) hm]
  simp only [quoted_mem_pieces, Json.mem_strings_keySorted]
  exact exists_congr fun s => and_congr_right fun _ => hinner s

section

variable {c : Bytes} {ms : Members Float64} (hc : CanonicalObject c ms)

include hc

lemma CanonicalObject.jsonencode_iff [Sha256] {indent : Bytes} (hindent : Blank indent) :
    JsonencodeRoundTrip c indent ↔ ∀ s ∈ (Json.obj ms).strings, Quotable s := by
  have hfits := parseJSON_fits hc.parse
  have hexpr : jsonencodeExpr c indent = .ok (jsonencodeCall ++
      (hclWriter indent).text 0 (Json.obj ms).keySorted ++ [ascii ')']) := by
    rw [jsonencodeExpr, hc.parse, ← hclEscape_marshalIndent hindent]
    rfl
  have hread : policyDocument (jsonencodeCall ++ (hclWriter indent).text 0 (Json.obj ms).keySorted ++
      [ascii ')']) = readAgain (Json.obj ms).keySorted.strings
        (marshal floatBytes (Json.obj ms).keySorted, .jsonencode) := by
    rw [policyDocument_jsonencode, jsonencodeDocument_text hindent hfits.keySorted, readAgain_map]
  have hstrings : (∀ s ∈ (Json.obj ms).keySorted.strings, Quotable s) ↔
      ∀ s ∈ (Json.obj ms).strings, Quotable s := by
    simp only [Json.mem_strings_keySorted]
  constructor
  · rintro ⟨expr, doc, hexpr', hdoc, -⟩
    rw [hexpr] at hexpr'
    obtain rfl := Except.ok.inj hexpr'
    rw [hread, readAgain] at hdoc
    split_ifs at hdoc with hall
    exact hstrings.1 hall
  · intro hall
    rw [readAgain, if_pos (hstrings.2 hall)] at hread
    have hreads : (compactWriter floatBytes).Reads id id :=
      reads_of_quote (fun _ => by simp [compactWriter, Blank]) ⟨[], rfl, by simp [Blank]⟩
        (fun _ => rfl) rfl
    have hparse := hreads.parseJSON_text Function.injective_id hfits.keySorted.keySorted 0
    obtain ⟨bs, hbs⟩ := text_obj_ends (compactWriter floatBytes) 0
      (sortOn Prod.fst (Json.keySortedMembers (sortOn Prod.fst (Json.keySortedMembers ms))))
    refine ⟨_, _, hexpr, hread, hc.sameHash hbs hparse ?_⟩
    rw [Json.readAs, Json.map_id, Json.mapStrings_eq_self (f := id) fun _ _ => rfl,
      hfits.keySorted.canon_keySorted, hfits.canon_keySorted]

/-- What is read of the heredoc that is written for the document: the text of the document with every
`%{` doubled, if no template opening is left. -/
lemma CanonicalObject.exists_heredoc {old : Bytes} (hold : IsHeredoc old) :
    ∃ expr, heredocExpr c old = .ok expr ∧ policyDocument expr =
      if ∃ s ∈ (Json.obj ms).strings, ['$', '{'] <:+: deleteAll ['$', '{'] s.toList then
        .error .notLiteral
      else .ok (doubledWriter.text 0 (Json.obj ms).keySorted, .heredoc) := by
  obtain ⟨line, rest, hcut, hstart, hmark⟩ := hold
  have hhead : HeredocLine (trimSpaceBytes line) :=
    ⟨hstart, hmark, fun h => notMem_cutAt hcut ((trimSpaceBytes_spec line).2 h)⟩
  have hblank : Blank ([] : Bytes) := by simp [Blank]
  have hexpr : heredocExpr c old = .ok (trimSpaceBytes line ++ ascii '\n' ::
      ((hclWriter []).text 0 (Json.obj ms).keySorted ++ ascii '\n' ::
        heredocMark (trimSpaceBytes line))) := by
    rw [heredocExpr, hc.parse, ← hclEscape_marshalIndent hblank]
    simp only [Except.mapError, ok_bind, hcut]
    rfl
  refine ⟨_, hexpr, ?_⟩
  rw [hhead.policyDocument_eq, replaceAll_escaped]
  exact if_congr (infix_deleteAll_text _) rfl rfl

lemma CanonicalObject.parse_doubled :
    ∃ bs, doubledWriter.text 0 (Json.obj ms).keySorted = ascii '{' :: (bs ++ [ascii '}']) ∧
      parseJSON (doubledWriter.text 0 (Json.obj ms).keySorted) =
        .ok ((Json.obj ms).keySorted.mapStrings doublePercent) := by
  have hreads : doubledWriter.Reads doublePercent id :=
    reads_of_quote (blank_newline (by simp [Blank])) (layout_hclWriter (by simp [Blank])).colon
      (fun _ => rfl) rfl
  have hparse := hreads.parseJSON_text doublePercent_injective (parseJSON_fits hc.parse).keySorted 0
  rw [Json.readAs, Json.map_id] at hparse
  obtain ⟨bs, hbs⟩ := text_obj_ends doubledWriter 0 (sortOn Prod.fst (Json.keySortedMembers ms))
  exact ⟨bs, hbs, hparse⟩

lemma CanonicalObject.heredoc_of_safe [Sha256] {old : Bytes} (hold : IsHeredoc old)
    (hsafe : ∀ s ∈ (Json.obj ms).strings, HeredocSafe s) : HeredocRoundTrip c old := by
  obtain ⟨expr, hexpr, hread⟩ := hc.exists_heredoc hold
  obtain ⟨bs, hbs, hparse⟩ := hc.parse_doubled
  rw [if_neg fun ⟨s, hs, hopen⟩ => (hsafe s hs).2 hopen] at hread
  refine ⟨expr, _, hexpr, hread, hc.sameHash hbs hparse ?_⟩
  have hfixed : ∀ s ∈ (Json.obj ms).keySorted.strings, doublePercent s = s :=
    fun s hs => doublePercent_eq_self (hsafe s (Json.mem_strings_keySorted.1 hs)).1
  rw [Json.mapStrings_eq_self hfixed, (parseJSON_fits hc.parse).canon_keySorted]

lemma CanonicalObject.safe_of_heredoc [Sha256] (hsum : Function.Injective Sha256.sum) {old : Bytes}
    (hold : IsHeredoc old) (h : HeredocRoundTrip c old) :
    ∀ s ∈ (Json.obj ms).strings, HeredocSafe s := by
  obtain ⟨expr, doc, hexpr, hdoc, hsame⟩ := h
  obtain ⟨expr', hexpr', hread⟩ := hc.exists_heredoc hold
  obtain ⟨bs, hbs, hparse⟩ := hc.parse_doubled
  obtain rfl := Except.ok.inj (hexpr.symm.trans hexpr')
  rw [hdoc] at hread
  split_ifs at hread with hopen
  obtain rfl := Except.ok.inj hread
  have hcanon := hc.canon_eq hsum hbs hparse hsame
  have hperm : (Json.obj ms).keySorted.strings.Perm (Json.obj ms).strings := by
    have hsorted := (Json.obj ms).keySorted.strings_canon_perm
    rw [(parseJSON_fits hc.parse).canon_keySorted] at hsorted
    exact hsorted.symm.trans (Json.obj ms).strings_canon_perm
  intro s hs
  exact ⟨not_infix_of_canon_eq hperm hcanon s hs, fun hinfix => hopen ⟨s, hs, hinfix⟩⟩

end

/-- The round trip of a document through a `jsonencode` call keeps its hash exactly when its strings
are `Quotable`, and the one through a heredoc when they are `HeredocSafe`: it does then, and if no
two texts have one hash, only then. -/
theorem policyDocument_roundTrip_iff [Sha256] {c indent old : Bytes}
    (hc : canonicalDocument c = .ok c) (hobj : c.head? = some (ascii '{')) (hindent : Blank indent)
    (hold : IsHeredoc old) :
    (JsonencodeRoundTrip c indent ↔ ∀ s ∈ documentStrings c, Quotable s) ∧
      ((∀ s ∈ documentStrings c, HeredocSafe s) → HeredocRoundTrip c old) ∧
      (Function.Injective Sha256.sum → HeredocRoundTrip c old →
        ∀ s ∈ documentStrings c, HeredocSafe s) := by
  obtain ⟨ms, hms⟩ := exists_canonicalObject hc hobj
  have hstrings : documentStrings c = (Json.obj ms).strings := by
    rw [documentStrings, hms.parse]
  rw [hstrings]
  exact ⟨hms.jsonencode_iff hindent, hms.heredoc_of_safe hold, fun hsum => hms.safe_of_heredoc hsum hold⟩

/-! ## Examples -/

/-- A document with one string. -/
def oneStringDocument (s : String) : Bytes :=
  utf8 ("\x7b\"a\":\"" ++ s ++ "\"\x7d")

/-- An old heredoc. -/
def emptyHeredoc : Bytes :=
  utf8 "<<EOT\n\x7b\x7d\nEOT"

/-- A document with a policy variable survives both encodings. -/
theorem policyDocument_roundTrip_iff_variable :
    let _ : Sha256 := ⟨id⟩
    JsonencodeRoundTrip (oneStringDocument "$\x7baws:username\x7d") (utf8 "  ") ∧
      HeredocRoundTrip (oneStringDocument "$\x7baws:username\x7d") emptyHeredoc := by
  intro _
  have hc : canonicalDocument (oneStringDocument "$\x7baws:username\x7d") =
      .ok (oneStringDocument "$\x7baws:username\x7d") := by
    decide +kernel
  have hold : IsHeredoc emptyHeredoc :=
    ⟨utf8 "<<EOT", utf8 "\x7b\x7d\nEOT", by decide +kernel, by decide +kernel, by decide +kernel⟩
  have hindent : Blank (utf8 "  ") := by
    intro b hb
    revert b
    decide
  have hstrings : documentStrings (oneStringDocument "$\x7baws:username\x7d") =
      ["a", "$\x7baws:username\x7d"] := by
    decide +kernel
  obtain ⟨hjsonencode, hheredoc, -⟩ :=
    policyDocument_roundTrip_iff hc (by decide +kernel) hindent hold
  rw [hstrings] at hjsonencode hheredoc
  have hquotable : ∀ s ∈ ["a", "$\x7baws:username\x7d"], Quotable s := by decide +kernel
  have hsafe : ∀ s ∈ ["a", "$\x7baws:username\x7d"], HeredocSafe s := by
    unfold HeredocSafe
    decide +kernel
  exact ⟨hjsonencode.2 hquotable, hheredoc hsafe⟩

/-- A string `$${{` is not read back from a `jsonencode` call, and a string `%{` is read back
from a heredoc with its sign doubled. -/
theorem policyDocument_templates :
    canonicalDocument (oneStringDocument "$$\x7b\x7b") = .ok (oneStringDocument "$$\x7b\x7b") ∧
    (jsonencodeExpr (oneStringDocument "$$\x7b\x7b") []).toOption.map policyDocument =
      some (.error .notLiteral) ∧
    canonicalDocument (oneStringDocument "%\x7b") = .ok (oneStringDocument "%\x7b") ∧
    (heredocExpr (oneStringDocument "%\x7b") emptyHeredoc).toOption.map (fun expr =>
        (policyDocument expr).toOption.map fun doc => (canonicalDocument doc.1).toOption) =
      some (some (some (oneStringDocument "%%\x7b"))) := by
  decide +kernel

end AuthSec

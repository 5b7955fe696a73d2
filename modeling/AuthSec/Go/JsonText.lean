import AuthSec.Canonical.Marshal
import AuthSec.Lib.Substrings

/-!
# Texts of `encoding/json`

`json.Marshal` and `json.MarshalIndent` of values without a struct, that is of maps, slices, strings
and numbers.  A text is a list of pieces: strings in quotes, and what stands between them.

* `replaceAll_textOf`, `infix_textOf`: replacing and finding parts that only strings have;
* `marshal_map`: numbers that are texts already.
-/

namespace AuthSec

open List

/-! ## Values -/

section

variable {N M : Type}

mutual

/-- The value with the members of every object in the order in which maps are written. -/
def Json.keySorted : Json N → Json N
  | .null => .null
  | .bool b => .bool b
  | .num n => .num n
  | .str s => .str s
  | .arr els => .arr (keySortedElements els)
  | .obj ms => .obj (sortOn Prod.fst (keySortedMembers ms))

def Json.keySortedElements : List (Json N) → List (Json N)
  | [] => []
  | v :: vs => v.keySorted :: keySortedElements vs

def Json.keySortedMembers : Members N → Members N
  | [] => []
  | (k, v) :: ms => (k, v.keySorted) :: keySortedMembers ms

end

@[simp]
lemma Json.keySortedElements_eq (els : List (Json N)) :
    keySortedElements els = els.map keySorted := by
  induction els with
  | nil => simp [keySortedElements]
  | cons v vs ih => simp [keySortedElements, ih]

@[simp]
lemma Json.keySortedMembers_eq (ms : Members N) :
    keySortedMembers ms = ms.map fun m => (m.1, m.2.keySorted) := by
  induction ms with
  | nil => simp [keySortedMembers]
  | cons m ms ih => simp [keySortedMembers, ih]

end

/-! ## Texts -/

/-- The layout of `json.Marshal`. -/
def compactWriter {N : Type} (num : N → Bytes) : JsonWriter N where
  newline _ := []
  colon := [ascii ':']
  quote := goJson.string
  num

/-- The layout of `json.MarshalIndent`. -/
def indentWriter {N : Type} (num : N → Bytes) (linePrefix indent : Bytes) : JsonWriter N where
  newline d := ascii '\n' :: (linePrefix ++ (List.replicate d indent).flatten)
  colon := [ascii ':', ascii ' ']
  quote := goJson.string
  num

/-- The text of a number in an interface value. -/
def floatBytes (x : Float64) : Bytes :=
  goNumber (.float x)

/-- `json.Marshal`, with the texts of the numbers. -/
def marshal {N : Type} (num : N → Bytes) (v : Json N) : Bytes :=
  (compactWriter num).text 0 v.keySorted

/-- `json.MarshalIndent`. -/
def marshalIndent {N : Type} (num : N → Bytes) (linePrefix indent : Bytes) (v : Json N) : Bytes :=
  (indentWriter num linePrefix indent).text 0 v.keySorted

/-! ## Sorted members -/

section

variable {N : Type}

lemma Json.Fits.keySorted {v : Json N} {room : ℕ} (h : v.Fits room) : v.keySorted.Fits room := by
  induction h with
  | null room => exact .null room
  | bool room b => exact .bool room b
  | num room n => exact .num room n
  | str room s => exact .str room s
  | arr room els _ ih =>
      rw [Json.keySorted, Json.keySortedElements_eq]
      refine .arr room _ fun x hx => ?_
      obtain ⟨y, hy, rfl⟩ := mem_map.1 hx
      exact ih y hy
  | obj room ms hkeys _ ih =>
      rw [Json.keySorted, Json.keySortedMembers_eq]
      refine .obj room _ (nodup_map_sortOn ?_) fun m hm => ?_
      · rw [List.map_map]
        exact hkeys
      · obtain ⟨n, hn, rfl⟩ := mem_map.1 ((mem_sortOn _ _).1 hm)
        exact ih n hn

/-- The order of the members does not change the canonical form. -/
lemma Json.Fits.canon_keySorted {v : Json Float64} {room : ℕ} (h : v.Fits room) :
    v.keySorted.canon = v.canon := by
  induction h with
  | null room => rfl
  | bool room b => rfl
  | num room n => rfl
  | str room s => rfl
  | arr room els _ ih =>
      rw [Json.keySorted, Json.keySortedElements_eq, Json.canon_arr, Json.canon_arr, List.map_map]
      exact congrArg Json.arr (map_congr_left ih)
  | obj room ms hkeys _ ih =>
      rw [Json.keySorted, Json.keySortedMembers_eq, Json.canon_obj, Json.canon_obj]
      have hms : (ms.map fun m => (m.1, m.2.keySorted.canon)) = ms.map fun m => (m.1, m.2.canon) :=
        map_congr_left fun m hm => by rw [ih m hm]
      have hperm := (perm_sortOn Prod.fst (ms.map fun m => (m.1, m.2.keySorted))).map
        fun m => (m.1, m.2.canon)
      rw [List.map_map] at hperm
      refine congrArg Json.obj (sortOn_congr (hperm.trans (.of_eq hms)) ?_)
      refine nodup_utf16 ?_
      rw [List.map_map]
      refine nodup_map_sortOn ?_
      rw [List.map_map]
      exact hkeys

lemma Json.mem_strings_keySorted {v : Json N} {s : String} :
    s ∈ v.keySorted.strings ↔ s ∈ v.strings := by
  induction v using Json.ind with
  | null => rfl
  | bool b => rfl
  | num n => rfl
  | str t => rfl
  | arr els ih =>
      simp only [Json.keySorted, Json.keySortedElements_eq, Json.strings, Json.stringsElements_eq,
        mem_flatMap, mem_map, exists_exists_and_eq_and]
      exact exists_congr fun v => and_congr_right fun hv => ih v hv
  | obj ms ih =>
      simp only [Json.keySorted, Json.keySortedMembers_eq, Json.strings, Json.stringsMembers_eq,
        mem_flatMap, mem_sortOn, mem_map, exists_exists_and_eq_and, mem_cons]
      exact exists_congr fun m => and_congr_right fun hm => or_congr_right (ih m hm)

end

/-! ## Parts of the strings -/

namespace JsonWriter

/-- A string in quotes, with the text between them. -/
def inQuotes (inner : String → Bytes) (s : String) : Bytes :=
  ascii '"' :: (inner s ++ [ascii '"'])

section

variable {h : UInt8} {t : Bytes} {inner : String → Bytes} {ps : List JsonPiece}

lemma textOf_inQuotes (s : String) : textOf (inQuotes inner) (.quoted s :: ps) =
    [ascii '"'] ++ (inner s ++ ascii '"' :: textOf (inQuotes inner) ps) := by
  simp [inQuotes]

lemma notMem_quote (hq : ascii '"' ∉ h :: t) : h ∉ [ascii '"'] := by
  rw [mem_singleton]
  exact fun heq => hq (heq ▸ mem_cons_self ..)

/-- A part whose first byte stands in strings only is replaced string by string. -/
theorem replaceAll_textOf (new : Bytes) (hq : ascii '"' ∉ h :: t)
    (hmarks : ∀ m, JsonPiece.mark m ∈ ps → h ∉ m) :
    replaceAll (h :: t) new (textOf (inQuotes inner) ps) =
      textOf (inQuotes fun s => replaceAll (h :: t) new (inner s)) ps := by
  induction ps with
  | nil => rfl
  | cons p ps ih =>
      have ih := ih fun m hm => hmarks m (mem_cons_of_mem p hm)
      cases p with
      | mark m =>
          rw [textOf_mark, textOf_mark, replaceAll_append_of_notMem (hmarks m (by simp)), ih]
      | quoted s =>
          rw [textOf_inQuotes, replaceAll_append_of_notMem (notMem_quote hq),
            replaceAll_append_cons (cons_ne_nil h t) hq, ih, textOf_quoted, inQuotes]
          simp

/-- Such a part occurs in a text exactly when it occurs in one of the strings. -/
theorem infix_textOf (hq : ascii '"' ∉ h :: t) (hmarks : ∀ m, JsonPiece.mark m ∈ ps → h ∉ m) :
    h :: t <:+: textOf (inQuotes inner) ps ↔
      ∃ s, JsonPiece.quoted s ∈ ps ∧ h :: t <:+: inner s := by
  induction ps with
  | nil => simp
  | cons p ps ih =>
      have ih := ih fun m hm => hmarks m (mem_cons_of_mem p hm)
      cases p with
      | mark m =>
          rw [textOf_mark, infix_append_iff_of_notMem (hmarks m (by simp)), ih]
          simp
      | quoted s =>
          rw [textOf_inQuotes, infix_append_iff_of_notMem (notMem_quote hq),
            infix_append_cons_iff (cons_ne_nil h t) hq, ih]
          simp [or_and_right, exists_or]

end

section

variable {N : Type} {w : JsonWriter N} {d : ℕ}

lemma mem_pieceElements {sep : Bytes} {els : List (Json N)} {p : JsonPiece}
    (hp : p ∈ w.pieceElements d sep els) :
    p = .mark (sep ++ w.newline d) ∨ p = .mark (ascii ',' :: w.newline d) ∨
      ∃ v ∈ els, p ∈ w.pieces d v := by
  induction els generalizing sep with
  | nil => simp [pieceElements] at hp
  | cons v vs ih =>
      simp only [pieceElements, mem_cons, mem_append] at hp
      rcases hp with rfl | hp | hp
      · exact Or.inl rfl
      · exact Or.inr (Or.inr ⟨v, by simp, hp⟩)
      · rcases ih hp with rfl | rfl | ⟨u, hu, hp⟩
        · exact Or.inr (Or.inl rfl)
        · exact Or.inr (Or.inl rfl)
        · exact Or.inr (Or.inr ⟨u, by simp [hu], hp⟩)

lemma mem_pieceMembers {sep : Bytes} {ms : Members N} {p : JsonPiece}
    (hp : p ∈ w.pieceMembers d sep ms) :
    p = .mark (sep ++ w.newline d) ∨ p = .mark (ascii ',' :: w.newline d) ∨ p = .mark w.colon ∨
      ∃ m ∈ ms, p = .quoted m.1 ∨ p ∈ w.pieces d m.2 := by
  induction ms generalizing sep with
  | nil => simp [pieceMembers] at hp
  | cons m ms ih =>
      simp only [pieceMembers, mem_cons, mem_append] at hp
      rcases hp with rfl | rfl | rfl | hp | hp
      · exact Or.inl rfl
      · exact Or.inr (Or.inr (Or.inr ⟨m, by simp, Or.inl rfl⟩))
      · exact Or.inr (Or.inr (Or.inl rfl))
      · exact Or.inr (Or.inr (Or.inr ⟨m, by simp, Or.inr hp⟩))
      · rcases ih hp with rfl | rfl | rfl | ⟨u, hu, hp⟩
        · exact Or.inr (Or.inl rfl)
        · exact Or.inr (Or.inl rfl)
        · exact Or.inr (Or.inr (Or.inl rfl))
        · exact Or.inr (Or.inr (Or.inr ⟨u, by simp [hu], hp⟩))

/-- A byte that the layout and the numbers do not have stands in strings only. -/
lemma notMem_mark {x : UInt8} (hx : x ∉ utf8 "nultrefas[]\x7b\x7d,") (hnewline : ∀ d, x ∉ w.newline d)
    (hcolon : x ∉ w.colon) (hnum : ∀ n, x ∉ w.num n) {v : Json N} {m : Bytes}
    (hm : JsonPiece.mark m ∈ w.pieces d v) : x ∉ m := by
  have hword {t : Bytes} (ht : t ⊆ utf8 "nultrefas[]\x7b\x7d,") : x ∉ t := fun h => hx (ht h)
  have hsep (d : ℕ) : x ∉ ascii ',' :: w.newline d := by
    rw [mem_cons, not_or]
    exact ⟨fun h => hword (t := [ascii ',']) (by decide) (by simp [h]), hnewline d⟩
  have hclose (d : ℕ) (b : Bool) {c : UInt8} (hc : [c] ⊆ utf8 "nultrefas[]\x7b\x7d,") :
      x ∉ (if b then [] else w.newline d) ++ [c] := by
    rw [mem_append, not_or]
    refine ⟨?_, hword hc⟩
    split_ifs
    · simp
    · exact hnewline d
  induction v using Json.ind generalizing d m with
  | null =>
      obtain rfl : m = utf8 "null" := by simpa [pieces] using hm
      exact hword (by decide)
  | bool b =>
      cases b with
      | true =>
          obtain rfl : m = utf8 "true" := by simpa [pieces] using hm
          exact hword (by decide)
      | false =>
          obtain rfl : m = utf8 "false" := by simpa [pieces] using hm
          exact hword (by decide)
  | num n =>
      obtain rfl : m = w.num n := by simpa [pieces] using hm
      exact hnum n
  | str s => simp [pieces] at hm
  | arr els ih =>
      simp only [pieces, mem_cons, mem_append, not_mem_nil, or_false, JsonPiece.mark.injEq] at hm
      rcases hm with rfl | hm | rfl
      · exact hword (by decide)
      · rcases mem_pieceElements hm with heq | heq | ⟨v, hv, hm⟩
        · obtain rfl := JsonPiece.mark.inj heq
          exact hnewline _
        · obtain rfl := JsonPiece.mark.inj heq
          exact hsep _
        · exact ih v hv hm
      · exact hclose d _ (by decide)
  | obj ms ih =>
      simp only [pieces, mem_cons, mem_append, not_mem_nil, or_false, JsonPiece.mark.injEq] at hm
      rcases hm with rfl | hm | rfl
      · exact hword (by decide)
      · rcases mem_pieceMembers hm with heq | heq | heq | ⟨u, hu, heq | hm⟩
        · obtain rfl := JsonPiece.mark.inj heq
          exact hnewline _
        · obtain rfl := JsonPiece.mark.inj heq
          exact hsep _
        · obtain rfl := JsonPiece.mark.inj heq
          exact hcolon
        · cases heq
        · exact ih u hu hm
      · exact hclose d _ (by decide)

lemma quoted_mem_pieces {v : Json N} {s : String} :
    JsonPiece.quoted s ∈ w.pieces d v ↔ s ∈ v.strings := by
  have helements {d : ℕ} {sep : Bytes} {els : List (Json N)}
      (ih : ∀ x ∈ els, ∀ d, JsonPiece.quoted s ∈ w.pieces d x ↔ s ∈ x.strings) :
      JsonPiece.quoted s ∈ w.pieceElements d sep els ↔ s ∈ els.flatMap Json.strings := by
    induction els generalizing sep with
    | nil => simp [pieceElements]
    | cons v vs ihvs =>
        simp [pieceElements, ih v, ihvs fun x hx => ih x (mem_cons_of_mem v hx)]
  have hmembers {d : ℕ} {sep : Bytes} {ms : Members N}
      (ih : ∀ m ∈ ms, ∀ d, JsonPiece.quoted s ∈ w.pieces d m.2 ↔ s ∈ m.2.strings) :
      JsonPiece.quoted s ∈ w.pieceMembers d sep ms ↔
        s ∈ ms.flatMap fun m => m.1 :: m.2.strings := by
    induction ms generalizing sep with
    | nil => simp [pieceMembers]
    | cons m ms ihms =>
        simp [pieceMembers, ih m, ihms fun x hx => ih x (mem_cons_of_mem m hx)]
  induction v using Json.ind generalizing d with
  | null => simp [pieces, Json.strings]
  | bool b => cases b <;> simp [pieces, Json.strings]
  | num n => simp [pieces, Json.strings]
  | str t => simp [pieces, Json.strings]
  | arr els ih => simp [pieces, Json.strings, helements fun x hx d => ih x hx]
  | obj ms ih => simp [pieces, Json.strings, hmembers fun m hm d => ih m hm]

end

end JsonWriter

/-! ## Strings of a document -/

section

variable {N M : Type} {f : String → String}

lemma Json.strings_mapStrings (v : Json N) : (v.mapStrings f).strings = v.strings.map f := by
  induction v using Json.ind with
  | null | bool | num | str => rfl
  | arr els ih =>
      simp only [Json.mapStrings, Json.mapStringsElements_eq, Json.strings, Json.stringsElements_eq,
        flatMap_map, map_flatMap]
      exact flatMap_congr ih
  | obj ms ih =>
      simp only [Json.mapStrings, Json.mapStringsMembers_eq, Json.strings, Json.stringsMembers_eq,
        flatMap_map, map_flatMap, map_cons]
      exact flatMap_congr fun m hm => by rw [ih m hm]

lemma Json.strings_canon_perm (v : Json Float64) : v.canon.strings.Perm v.strings := by
  induction v using Json.ind with
  | null | bool | num | str => exact .refl _
  | arr els ih =>
      rw [Json.canon_arr, Json.strings, Json.strings, Json.stringsElements_eq,
        Json.stringsElements_eq, flatMap_map]
      exact List.Perm.flatMap_left els fun v hv => ih v hv
  | obj ms ih =>
      have hsort := (perm_sortMembers (ms.map fun m => (m.1, m.2.canon))).flatMap_right
        fun m => m.1 :: m.2.strings
      rw [flatMap_map] at hsort
      rw [Json.canon_obj, Json.strings, Json.strings, Json.stringsMembers_eq,
        Json.stringsMembers_eq]
      exact hsort.trans (List.Perm.flatMap_left ms fun m hm => (ih m hm).cons m.1)

end

/-! ## Numbers as texts -/

section

variable {N M : Type}

lemma Json.keySorted_map (f : N → M) (v : Json N) : (v.map f).keySorted = v.keySorted.map f := by
  induction v using Json.ind with
  | null => rfl
  | bool b => rfl
  | num n => rfl
  | str s => rfl
  | arr els ih =>
      simp only [Json.map, Json.keySorted, Json.mapElements_eq, Json.keySortedElements_eq,
        List.map_map]
      exact congrArg Json.arr (map_congr_left ih)
  | obj ms ih =>
      have hms : (ms.map fun m => (m.1, (m.2.map f).keySorted)) =
          (ms.map fun m => (m.1, m.2.keySorted)).map fun m => (m.1, m.2.map f) := by
        rw [List.map_map]
        exact map_congr_left fun m hm => by rw [ih m hm]; rfl
      have hsort : sortOn Prod.fst ((ms.map fun m => (m.1, m.2.keySorted)).map
          fun m => (m.1, m.2.map f)) = _ := (map_sortOn (fun _ => rfl) _).symm
      simp only [Json.map, Json.keySorted, Json.mapMembers_eq, Json.keySortedMembers_eq]
      rw [← hsort, ← hms, List.map_map]
      rfl

/-- Two writers with one layout write values with the same texts of numbers in the same pieces. -/
lemma JsonWriter.pieces_map {w : JsonWriter N} {u : JsonWriter M} {f : N → M} (hnewline : u.newline = w.newline)
    (hcolon : u.colon = w.colon) (hnum : ∀ n, u.num (f n) = w.num n) (d : ℕ) (v : Json N) :
    u.pieces d (v.map f) = w.pieces d v := by
  have helements {d : ℕ} {els : List (Json N)} (ih : ∀ x ∈ els, ∀ d, u.pieces d (x.map f) = w.pieces d x)
      (sep : Bytes) : u.pieceElements d sep (els.map (Json.map f)) = w.pieceElements d sep els := by
    induction els generalizing sep with
    | nil => simp [pieceElements]
    | cons v vs ihvs =>
        simp [pieceElements, ih v, ihvs fun x hx => ih x (mem_cons_of_mem v hx), hnewline]
  have hmembers {d : ℕ} {ms : Members N}
      (ih : ∀ m ∈ ms, ∀ d, u.pieces d (m.2.map f) = w.pieces d m.2) (sep : Bytes) :
      u.pieceMembers d sep (ms.map fun m => (m.1, m.2.map f)) = w.pieceMembers d sep ms := by
    induction ms generalizing sep with
    | nil => simp [pieceMembers]
    | cons m ms ihms =>
        simp [pieceMembers, ih m, ihms fun x hx => ih x (mem_cons_of_mem m hx), hnewline, hcolon]
  induction v using Json.ind generalizing d with
  | null => rfl
  | bool b => cases b <;> rfl
  | num n => simp [Json.map, pieces, hnum]
  | str s => rfl
  | arr els ih => simp [Json.map, pieces, helements fun x hx d => ih x hx d, hnewline]
  | obj ms ih => simp [Json.map, pieces, hmembers fun m hm d => ih m hm d, hnewline]

/-- `json.Marshal` of numbers that are texts already. -/
lemma marshal_map (num : N → Bytes) (v : Json N) : marshal id (v.map num) = marshal num v := by
  have hpieces : (compactWriter id).pieces 0 (v.keySorted.map num) =
      (compactWriter num).pieces 0 v.keySorted :=
    JsonWriter.pieces_map (w := compactWriter num) (u := compactWriter id) rfl rfl (fun _ => rfl) 0 _
  rw [marshal, marshal, JsonWriter.text, JsonWriter.text, Json.keySorted_map, hpieces]
  rfl

end

end AuthSec

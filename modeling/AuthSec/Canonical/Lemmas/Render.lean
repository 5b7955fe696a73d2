import AuthSec.Canonical.Json
import AuthSec.Canonical.Lemmas.Number
import AuthSec.Lib.Except
import AuthSec.Lib.Lists

/-!
# Printing JSON and reading it back

Two writers produce the texts that the parser reads: the canonical one and `encoding/json`.  Both
are a `Printer`, a choice of escapes and number texts that the scanners read back.  A `JsonWriter`
may put blanks between the pieces of a text, and write strings that are read as others.

A value `Fits` when it nests at most as deep as the parser goes and has no duplicate member names.

* `JsonWriter.Reads.value_text`: the parser reads a text exactly if the value fits;
* `Printer.value_render`: the case of a printer.
-/

namespace AuthSec

open List

/-! ## Induction over JSON values -/

section

variable {N M : Type}

/-- Induction over values, with the hypotheses for the elements and the members. -/
@[elab_as_elim]
theorem Json.ind {motive : Json N → Prop} (null : motive .null) (bool : ∀ b, motive (.bool b))
    (num : ∀ n, motive (.num n)) (str : ∀ s, motive (.str s))
    (arr : ∀ els, (∀ x ∈ els, motive x) → motive (.arr els))
    (obj : ∀ ms, (∀ m ∈ ms, motive m.2) → motive (.obj ms)) (v : Json N) : motive v :=
  @Json.rec N motive (fun els => ∀ x ∈ els, motive x) (fun ms => ∀ m ∈ ms, motive m.2)
    (fun m => motive m.2) null bool num str arr obj
    (forall_mem_nil _) (fun _ _ hx hxs => forall_mem_cons.2 ⟨hx, hxs⟩)
    (forall_mem_nil _) (fun _ _ hm hms => forall_mem_cons.2 ⟨hm, hms⟩)
    (fun _ _ hv => hv) v

mutual

/-- Change the numbers of a value. -/
def Json.map (f : N → M) : Json N → Json M
  | .null => .null
  | .bool b => .bool b
  | .num n => .num (f n)
  | .str s => .str s
  | .arr els => .arr (mapElements f els)
  | .obj ms => .obj (mapMembers f ms)

def Json.mapElements (f : N → M) : List (Json N) → List (Json M)
  | [] => []
  | v :: vs => v.map f :: mapElements f vs

def Json.mapMembers (f : N → M) : Members N → Members M
  | [] => []
  | (k, v) :: ms => (k, v.map f) :: mapMembers f ms

end

@[simp]
lemma Json.mapElements_eq (f : N → M) (els : List (Json N)) :
    mapElements f els = els.map (Json.map f) := by
  induction els with
  | nil => simp [mapElements]
  | cons v vs ih => simp [mapElements, ih]

@[simp]
lemma Json.mapMembers_eq (f : N → M) (ms : Members N) :
    mapMembers f ms = ms.map fun m => (m.1, m.2.map f) := by
  induction ms with
  | nil => simp [mapMembers]
  | cons m ms ih => simp [mapMembers, ih]

/-- The value nests less than `room` deep and no object in it has a member name twice. -/
inductive Json.Fits : ℕ → Json N → Prop
  | null (room : ℕ) : Fits (room + 1) .null
  | bool (room : ℕ) (b : Bool) : Fits (room + 1) (.bool b)
  | num (room : ℕ) (n : N) : Fits (room + 1) (.num n)
  | str (room : ℕ) (s : String) : Fits (room + 1) (.str s)
  | arr (room : ℕ) (els : List (Json N)) (hels : ∀ x ∈ els, Fits room x) : Fits (room + 1) (.arr els)
  | obj (room : ℕ) (ms : Members N) (hkeys : (ms.map Prod.fst).Nodup)
      (hms : ∀ m ∈ ms, Fits room m.2) : Fits (room + 1) (.obj ms)

@[simp]
lemma Json.not_fits_zero {v : Json N} : ¬v.Fits 0 := by
  rintro ⟨⟩

attribute [simp] Json.Fits.null Json.Fits.bool Json.Fits.num Json.Fits.str

@[simp]
lemma Json.fits_arr {room : ℕ} {els : List (Json N)} :
    (Json.arr els).Fits (room + 1) ↔ ∀ x ∈ els, x.Fits room := by
  refine ⟨?_, .arr room els⟩
  rintro (_ | _ | _ | _ | ⟨_, _, hels⟩)
  exact hels

@[simp]
lemma Json.fits_obj {room : ℕ} {ms : Members N} :
    (Json.obj ms).Fits (room + 1) ↔ (ms.map Prod.fst).Nodup ∧ ∀ m ∈ ms, m.2.Fits room := by
  refine ⟨?_, fun h => .obj room ms h.1 h.2⟩
  rintro (_ | _ | _ | _ | _ | ⟨_, _, hkeys, hms⟩)
  exact ⟨hkeys, hms⟩

/-! ## Strings of a value -/

mutual

/-- The strings of a value, names of members included. -/
def Json.strings : Json N → List String
  | .null => []
  | .bool _ => []
  | .num _ => []
  | .str s => [s]
  | .arr els => stringsElements els
  | .obj ms => stringsMembers ms

def Json.stringsElements : List (Json N) → List String
  | [] => []
  | v :: vs => v.strings ++ stringsElements vs

def Json.stringsMembers : Members N → List String
  | [] => []
  | (k, v) :: ms => k :: (v.strings ++ stringsMembers ms)

end

mutual

/-- Change the strings of a value. -/
def Json.mapStrings (f : String → String) : Json N → Json N
  | .null => .null
  | .bool b => .bool b
  | .num n => .num n
  | .str s => .str (f s)
  | .arr els => .arr (mapStringsElements f els)
  | .obj ms => .obj (mapStringsMembers f ms)

def Json.mapStringsElements (f : String → String) : List (Json N) → List (Json N)
  | [] => []
  | v :: vs => v.mapStrings f :: mapStringsElements f vs

def Json.mapStringsMembers (f : String → String) : Members N → Members N
  | [] => []
  | (k, v) :: ms => (f k, v.mapStrings f) :: mapStringsMembers f ms

end

@[simp]
lemma Json.stringsElements_eq (els : List (Json N)) :
    stringsElements els = els.flatMap strings := by
  induction els with
  | nil => simp [stringsElements]
  | cons v vs ih => simp [stringsElements, ih]

@[simp]
lemma Json.stringsMembers_eq (ms : Members N) :
    stringsMembers ms = ms.flatMap fun m => m.1 :: m.2.strings := by
  induction ms with
  | nil => simp [stringsMembers]
  | cons m ms ih => simp [stringsMembers, ih]

@[simp]
lemma Json.mapStringsElements_eq (f : String → String) (els : List (Json N)) :
    mapStringsElements f els = els.map (mapStrings f) := by
  induction els with
  | nil => simp [mapStringsElements]
  | cons v vs ih => simp [mapStringsElements, ih]

@[simp]
lemma Json.mapStringsMembers_eq (f : String → String) (ms : Members N) :
    mapStringsMembers f ms = ms.map fun m => (f m.1, m.2.mapStrings f) := by
  induction ms with
  | nil => simp [mapStringsMembers]
  | cons m ms ih => simp [mapStringsMembers, ih]

/-- The value as a parser gives it that reads strings and numbers so. -/
def Json.readAs (f : String → String) (r : N → M) (v : Json N) : Json M :=
  (v.mapStrings f).map r

@[simp]
lemma Json.readAs_arr (f : String → String) (r : N → M) (els : List (Json N)) :
    (Json.arr els).readAs f r = .arr (els.map (Json.readAs f r)) := by
  simp [Json.readAs, Json.mapStrings, Json.map, Function.comp_def]

@[simp]
lemma Json.readAs_obj (f : String → String) (r : N → M) (ms : Members N) :
    (Json.obj ms).readAs f r = .obj (ms.map fun m => (f m.1, m.2.readAs f r)) := by
  simp [Json.readAs, Json.mapStrings, Json.map, Function.comp_def]

/-- Strings that are not changed. -/
lemma Json.mapStrings_eq_self {f : String → String} {v : Json N} (h : ∀ s ∈ v.strings, f s = s) : v.mapStrings f = v := by
  induction v using Json.ind with
  | null | bool | num => rfl
  | str s => exact congrArg Json.str (h s (by simp [Json.strings]))
  | arr els ih =>
      simp only [Json.strings, Json.stringsElements_eq, List.mem_flatMap] at h
      rw [Json.mapStrings, Json.mapStringsElements_eq]
      refine congrArg Json.arr ((map_congr_left fun v hv => ?_).trans (List.map_id els))
      exact ih v hv fun s hs => h s ⟨v, hv, hs⟩
  | obj ms ih =>
      simp only [Json.strings, Json.stringsMembers_eq, List.mem_flatMap, mem_cons] at h
      rw [Json.mapStrings, Json.mapStringsMembers_eq]
      refine congrArg Json.obj ((map_congr_left fun m hm => ?_).trans (List.map_id ms))
      rw [h m.1 ⟨m, hm, Or.inl rfl⟩, ih m hm fun s hs => h s ⟨m, hm, Or.inr hs⟩]
      rfl

@[simp]
lemma Json.readAs_id (r : N → M) (v : Json N) : v.readAs id r = v.map r := by
  have hid : v.mapStrings id = v := mapStrings_eq_self fun _ _ => rfl
  rw [readAs, hid]

end

/-! ## Printers -/

/-- A way to write strings and numbers that the scanners read back. -/
structure Printer (N : Type) where
  escape : Char → Bytes
  number : N → Bytes
  read : N → Float64
  escape_read : ∀ c rest, JsonParser.stringStep (escape c ++ rest) = .ok (some c, rest)
  number_read : ∀ n rest, NumberEnd rest → AuthSec.number (number n ++ rest) = .ok (read n, rest)

namespace Printer

variable {N : Type} (p : Printer N)

/-- A string in quotes. -/
def string (s : String) : Bytes :=
  ascii '"' :: s.toList.flatMap p.escape ++ [ascii '"']

mutual

/-- The text of a value, its members in the order in which they stand. -/
def render : Json N → Bytes
  | .null => utf8 "null"
  | .bool true => utf8 "true"
  | .bool false => utf8 "false"
  | .num n => p.number n
  | .str s => p.string s
  | .arr els => ascii '[' :: commaSep (renderElements els) ++ [ascii ']']
  | .obj ms => ascii '{' :: commaSep (renderMembers ms) ++ [ascii '}']

def renderElements : List (Json N) → List Bytes
  | [] => []
  | v :: vs => render v :: renderElements vs

def renderMembers : Members N → List Bytes
  | [] => []
  | (k, v) :: ms => (p.string k ++ ascii ':' :: render v) :: renderMembers ms

end

@[simp]
lemma renderElements_eq (els : List (Json N)) : p.renderElements els = els.map p.render := by
  induction els with
  | nil => simp [renderElements]
  | cons v vs ih => simp [renderElements, ih]

/-- The text of a member. -/
def member (m : String × Json N) : Bytes :=
  p.string m.1 ++ ascii ':' :: p.render m.2

@[simp]
lemma renderMembers_eq (ms : Members N) : p.renderMembers ms = ms.map p.member := by
  induction ms with
  | nil => simp [renderMembers]
  | cons m ms ih => simp [renderMembers, ih, member]

/-! ## Strings -/

lemma escape_ne_nil (c : Char) : p.escape c ≠ [] := by
  intro h
  have hread := p.escape_read c []
  rw [h] at hread
  cases hread

lemma stringLoop_flatMap (cs : List Char) (rest : Bytes) (n : ℕ) (hn : cs.length < n) :
    JsonParser.stringLoop n (cs.flatMap p.escape ++ ascii '"' :: rest) = .ok (cs, rest) := by
  induction cs generalizing n with
  | nil =>
      obtain ⟨n, rfl⟩ := Nat.exists_eq_succ_of_ne_zero (Nat.ne_zero_of_lt hn)
      simp [JsonParser.stringLoop, JsonParser.stringStep]
  | cons c cs ih =>
      obtain ⟨n, rfl⟩ := Nat.exists_eq_succ_of_ne_zero (Nat.ne_zero_of_lt hn)
      have hstep := p.escape_read c (cs.flatMap p.escape ++ ascii '"' :: rest)
      have ih := ih n (by simpa using hn)
      simp only [flatMap_cons, append_assoc, JsonParser.stringLoop]
      simp only [hstep, ih, ok_bind, pure_eq_ok]

/-- A printed string is read back, whatever follows it. -/
theorem string_read (s : String) (rest : Bytes) :
    JsonParser.string (s.toList.flatMap p.escape ++ ascii '"' :: rest) = .ok (s, rest) := by
  have hlen := AuthSec.length_le_flatMap p.escape_ne_nil s.toList
  rw [JsonParser.string, stringLoop_flatMap]
  · simp
  · simp only [length_append, length_cons]
    omega

end Printer

/-! ## Texts of pieces -/

/-- A piece of a text: a string in quotes, or what stands between strings. -/
inductive JsonPiece where
  | mark (text : Bytes)
  | quoted (s : String)

/-- A way to write values: line breaks at a depth, what follows the name of a member, and the texts
of strings and numbers. -/
structure JsonWriter (N : Type) where
  newline : ℕ → Bytes
  colon : Bytes
  quote : String → Bytes
  num : N → Bytes

namespace JsonWriter

variable {N : Type} (w : JsonWriter N)

mutual

/-- The pieces of a value at a depth. -/
def pieces : ℕ → Json N → List JsonPiece
  | _, .null => [.mark (utf8 "null")]
  | _, .bool true => [.mark (utf8 "true")]
  | _, .bool false => [.mark (utf8 "false")]
  | _, .num n => [.mark (w.num n)]
  | _, .str s => [.quoted s]
  | d, .arr els => .mark [ascii '['] :: (pieceElements (d + 1) [] els ++
      [.mark ((if els.isEmpty then [] else w.newline d) ++ [ascii ']'])])
  | d, .obj ms => .mark [ascii '{'] :: (pieceMembers (d + 1) [] ms ++
      [.mark ((if ms.isEmpty then [] else w.newline d) ++ [ascii '}'])])

/-- Elements, the first one behind `sep`. -/
def pieceElements (d : ℕ) (sep : Bytes) : List (Json N) → List JsonPiece
  | [] => []
  | v :: vs => .mark (sep ++ w.newline d) :: (pieces d v ++ pieceElements d [ascii ','] vs)

def pieceMembers (d : ℕ) (sep : Bytes) : Members N → List JsonPiece
  | [] => []
  | (k, v) :: ms => .mark (sep ++ w.newline d) :: .quoted k :: .mark w.colon ::
      (pieces d v ++ pieceMembers d [ascii ','] ms)

end

/-- The text of pieces, with the texts of strings. -/
def textOf (quote : String → Bytes) (ps : List JsonPiece) : Bytes :=
  ps.flatMap fun
    | .mark text => text
    | .quoted s => quote s

def text (d : ℕ) (v : Json N) : Bytes :=
  textOf w.quote (w.pieces d v)

end JsonWriter

/-! ## Reading a text -/

namespace Printer

open JsonParser

/-- A byte that starts a value: no blank, and no closing bracket. -/
def Starts (b : UInt8) : Prop :=
  isWS b = false ∧ b ≠ ascii ']'

lemma skipWS_cons {b : UInt8} (bs : Bytes) (h : isWS b = false) : skipWS (b :: bs) = b :: bs := by
  simp [skipWS, h]

lemma starts_of_isDigit {b : UInt8} (h : b = ascii '-' ∨ isDigit b = true) : Starts b := by
  rcases h with rfl | h
  · exact ⟨by decide, by decide⟩
  · simp only [isDigit, Bool.and_eq_true, decide_eq_true_eq] at h
    have hne (c : Char) (hc : (ascii c).toNat < 48 ∨ 57 < (ascii c).toNat) : b ≠ ascii c := by
      rintro rfl
      omega
    refine ⟨?_, hne _ (by decide)⟩
    simp [isWS, hne ' ' (by decide), hne '\t' (by decide), hne '\n' (by decide),
      hne '\r' (by decide)]

lemma numberEnd_cons {b : UInt8} (rest : Bytes)
    (h : b = ascii ',' ∨ b = ascii ']' ∨ b = ascii '}') : NumberEnd (b :: rest) := by
  intro c hc
  simp only [head?_cons, Option.mem_some_iff] at hc
  subst hc
  rcases h with rfl | rfl | rfl <;> decide

lemma literal_read (word : String) (v : Json Float64) (rest : Bytes) :
    literal word v (utf8 word ++ rest) = .ok (v, rest) := by
  simp [literal]

lemma value_null (room : ℕ) (rest : Bytes) :
    value (room + 1) (utf8 "null" ++ rest) = .ok (.null, rest) := by
  have hread := literal_read "null" .null rest
  simp only [show utf8 "null" = [110, 117, 108, 108] by decide] at hread ⊢
  simpa [value, ascii] using hread

lemma value_true (room : ℕ) (rest : Bytes) :
    value (room + 1) (utf8 "true" ++ rest) = .ok (.bool true, rest) := by
  have hread := literal_read "true" (.bool true) rest
  simp only [show utf8 "true" = [116, 114, 117, 101] by decide] at hread ⊢
  simpa [value, ascii] using hread

lemma value_false (room : ℕ) (rest : Bytes) :
    value (room + 1) (utf8 "false" ++ rest) = .ok (.bool false, rest) := by
  have hread := literal_read "false" (.bool false) rest
  simp only [show utf8 "false" = [102, 97, 108, 115, 101] by decide] at hread ⊢
  simpa [value, ascii] using hread

lemma value_of_number {bs rest : Bytes} {x : Float64} (h : AuthSec.number bs = .ok (x, rest))
    (room : ℕ) : value (room + 1) bs = .ok (.num x, rest) := by
  obtain ⟨b, bs, rfl, hb⟩ := AuthSec.number_head h
  have hne (c : Char) (hc : (ascii c).toNat ≠ 45 ∧ isDigit (ascii c) = false) : b ≠ ascii c := by
    rintro rfl
    rcases hb with hb | hb
    · exact hc.1 (by rw [hb]; rfl)
    · rw [hc.2] at hb
      cases hb
  rw [value, if_neg (hne '\x7b' (by decide)), if_neg (hne '[' (by decide)),
    if_neg (hne '"' (by decide)), if_neg (hne 't' (by decide)), if_neg (hne 'f' (by decide)),
    if_neg (hne 'n' (by decide)), if_pos hb, h]
  rfl

/-- What stands behind the first of some printed elements. -/
lemma commaSep_cons (a : Bytes) (as : List Bytes) (rest : Bytes) :
    commaSep (a :: as) ++ rest =
      a ++ if as = [] then rest else ascii ',' :: (commaSep as ++ rest) := by
  cases as with
  | nil => simp [commaSep]
  | cons b bs => simp [commaSep, List.intersperse]

end Printer

namespace JsonWriter

open JsonParser

section

variable {N : Type}

@[simp]
lemma textOf_nil (quote : String → Bytes) : textOf quote [] = [] := rfl

@[simp]
lemma textOf_append (quote : String → Bytes) (ps qs : List JsonPiece) :
    textOf quote (ps ++ qs) = textOf quote ps ++ textOf quote qs :=
  flatMap_append

@[simp]
lemma textOf_mark (quote : String → Bytes) (t : Bytes) (ps : List JsonPiece) :
    textOf quote (.mark t :: ps) = t ++ textOf quote ps := rfl

@[simp]
lemma textOf_quoted (quote : String → Bytes) (s : String) (ps : List JsonPiece) :
    textOf quote (.quoted s :: ps) = quote s ++ textOf quote ps := rfl

variable (w : JsonWriter N)

/-- The texts of elements behind a first one. -/
def laterElements (d : ℕ) (els : List (Json N)) : Bytes :=
  textOf w.quote (w.pieceElements d [ascii ','] els)

/-- The texts of members behind a first one. -/
def laterMembers (d : ℕ) (ms : Members N) : Bytes :=
  textOf w.quote (w.pieceMembers d [ascii ','] ms)

/-- The text of a member. -/
def member (d : ℕ) (m : String × Json N) : Bytes :=
  w.quote m.1 ++ (w.colon ++ w.text d m.2)

@[simp]
lemma laterElements_nil (d : ℕ) : w.laterElements d [] = [] := by
  simp [laterElements, pieceElements]

@[simp]
lemma laterElements_cons (d : ℕ) (v : Json N) (vs : List (Json N)) : w.laterElements d (v :: vs) =
    ascii ',' :: (w.newline d ++ (w.text d v ++ w.laterElements d vs)) := by
  simp [laterElements, pieceElements, text]

@[simp]
lemma laterMembers_nil (d : ℕ) : w.laterMembers d [] = [] := by
  simp [laterMembers, pieceMembers]

@[simp]
lemma laterMembers_cons (d : ℕ) (m : String × Json N) (ms : Members N) :
    w.laterMembers d (m :: ms) =
      ascii ',' :: (w.newline d ++ (w.member d m ++ w.laterMembers d ms)) := by
  simp [laterMembers, pieceMembers, text, member]

lemma text_arr_nil (d : ℕ) : w.text d (.arr []) = [ascii '[', ascii ']'] := by
  simp [text, pieces, pieceElements]

lemma text_arr_cons (d : ℕ) (v : Json N) (vs : List (Json N)) : w.text d (.arr (v :: vs)) =
    ascii '[' :: (w.newline (d + 1) ++ (w.text (d + 1) v ++ (w.laterElements (d + 1) vs ++
      (w.newline d ++ [ascii ']'])))) := by
  simp [text, pieces, pieceElements, laterElements]

lemma text_obj_nil (d : ℕ) : w.text d (.obj []) = [ascii '{', ascii '}'] := by
  simp [text, pieces, pieceMembers]

lemma text_obj_cons (d : ℕ) (m : String × Json N) (ms : Members N) :
    w.text d (.obj (m :: ms)) =
      ascii '{' :: (w.newline (d + 1) ++ (w.member (d + 1) m ++ (w.laterMembers (d + 1) ms ++
        (w.newline d ++ [ascii '}'])))) := by
  simp [text, pieces, pieceMembers, laterMembers, member]

/-- All bytes are blanks. -/
def Blank (g : Bytes) : Prop :=
  ∀ b ∈ g, isWS b = true

lemma skipWS_blank {g : Bytes} (hg : Blank g) (l : Bytes) : skipWS (g ++ l) = skipWS l := by
  induction g with
  | nil => rfl
  | cons b g ih =>
      rw [cons_append, skipWS, if_pos (hg b (by simp)), ih fun c hc => hg c (by simp [hc])]


lemma numberEnd_blank {g : Bytes} (hg : Blank g) {c : UInt8} (rest : Bytes)
    (hc : c = ascii ',' ∨ c = ascii ']' ∨ c = ascii '}') : NumberEnd (g ++ c :: rest) := by
  cases g with
  | nil => exact Printer.numberEnd_cons rest hc
  | cons b g =>
      have hb := hg b (by simp)
      simp only [isWS, Bool.decide_or, Bool.or_eq_true, decide_eq_true_eq] at hb
      intro b' hb'
      obtain rfl : b = b' := by simpa using hb'
      rcases hb with rfl | rfl | rfl | rfl <;> decide

/-- The strict parser reads the strings as `f` says and the numbers as `r` says, and takes the layout
for blanks. -/
structure Reads (f : String → String) (r : N → Float64) : Prop where
  newline : ∀ d, Blank (w.newline d)
  colon : ∃ g, w.colon = ascii ':' :: g ∧ Blank g
  quoted : ∀ s, ∃ t, w.quote s = ascii '"' :: t ∧
    ∀ rest, JsonParser.string (t ++ rest) = .ok (f s, rest)
  number : ∀ n rest, NumberEnd rest → AuthSec.number (w.num n ++ rest) = .ok (r n, rest)

end

section

variable {N : Type} {w : JsonWriter N} {f : String → String} {r : N → Float64}

lemma Reads.number_head (h : w.Reads f r) (n : N) :
    ∃ b bs, w.num n = b :: bs ∧ (b = ascii '-' ∨ isDigit b = true) := by
  have hread := h.number n [] (by simp [NumberEnd])
  rw [append_nil] at hread
  exact AuthSec.number_head hread

lemma Reads.text_head (h : w.Reads f r) (d : ℕ) (v : Json N) :
    ∃ b bs, w.text d v = b :: bs ∧ Printer.Starts b := by
  cases v with
  | null => exact ⟨_, _, rfl, by decide, by decide⟩
  | bool b => cases b <;> exact ⟨_, _, rfl, by decide, by decide⟩
  | num n =>
      obtain ⟨b, bs, htext, hb⟩ := h.number_head n
      refine ⟨b, bs, ?_, Printer.starts_of_isDigit hb⟩
      simp [text, pieces, htext]
  | str s =>
      obtain ⟨t, ht, -⟩ := h.quoted s
      refine ⟨ascii '"', t, ?_, by decide, by decide⟩
      simp [text, pieces, ht]
  | arr els => exact ⟨_, _, rfl, by decide, by decide⟩
  | obj ms => exact ⟨_, _, rfl, by decide, by decide⟩

lemma Reads.skipWS_text (h : w.Reads f r) (d : ℕ) (v : Json N) (rest : Bytes) :
    skipWS (w.text d v ++ rest) = w.text d v ++ rest := by
  obtain ⟨b, bs, htext, hb⟩ := h.text_head d v
  rw [htext, cons_append, Printer.skipWS_cons _ hb.1]

variable {el : Bytes → Except ParseFail (Json Float64 × Bytes)} {d : ℕ} {g close : Bytes}
  {P : Json N → Prop} (rest : Bytes)

/-- The element parser reads the text of a value exactly under the condition, whatever stands behind
it. -/
def Value (w : JsonWriter N) (f : String → String) (r : N → Float64)
    (el : Bytes → Except ParseFail (Json Float64 × Bytes)) (d : ℕ) (v : Json N) (p : Prop) : Prop :=
  ∀ rest, NumberEnd rest → Succeeds (el (w.text d v ++ rest)) p (v.readAs f r, rest)

lemma numberEnd_laterElements (w : JsonWriter N) (d : ℕ) (vs : List (Json N)) (hclose : Blank close) :
    NumberEnd (w.laterElements d vs ++ (close ++ ascii ']' :: rest)) := by
  cases vs with
  | nil => exact numberEnd_blank hclose rest (by simp)
  | cons v vs =>
      rw [laterElements_cons]
      exact Printer.numberEnd_cons _ (by simp)

lemma Reads.arrayLoop_text (h : w.Reads f r) (hg : Blank g) (hclose : Blank close) {v : Json N}
    {vs : List (Json N)} (hel : ∀ x ∈ v :: vs, w.Value f r el d x (P x)) {n : ℕ}
    (hn : vs.length < n) :
    Succeeds
      (arrayLoop el n (g ++ (w.text d v ++ (w.laterElements d vs ++ (close ++ ascii ']' :: rest)))))
      (∀ x ∈ v :: vs, P x) ((v :: vs).map (Json.readAs f r), rest) := by
  induction vs generalizing v g n with
  | nil =>
      obtain ⟨n, rfl⟩ : ∃ m, n = m + 1 := ⟨n - 1, by omega⟩
      have hv := hel v (by simp) _ (numberEnd_laterElements rest w d [] hclose)
      rw [arrayLoop, skipWS_blank hg, h.skipWS_text]
      refine (hv.bind_ok ?_).congr forall_mem_singleton.symm
      simp [skipWS_blank hclose, Printer.skipWS_cons rest (show isWS (ascii ']') = false by decide),
        show ascii ']' ≠ ascii ',' by decide]
  | cons u vs ih =>
      obtain ⟨n, rfl⟩ : ∃ m, n = m + 1 := ⟨n - 1, by omega⟩
      have hv := hel v (by simp) _ (numberEnd_laterElements rest w d (u :: vs) hclose)
      have ih := ih (h.newline d) (fun x hx => hel x (List.mem_cons_of_mem v hx)) (n := n)
        (by simpa using hn)
      rw [arrayLoop, skipWS_blank hg, h.skipWS_text]
      refine (hv.bind fun _ => ?_).congr forall_mem_cons.symm
      simp only [laterElements_cons, cons_append, append_assoc,
        Printer.skipWS_cons _ (show isWS (ascii ',') = false by decide), if_true]
      exact ih.bind_ok rfl

lemma length_laterElements (vs : List (Json N)) : vs.length ≤ (w.laterElements d vs).length := by
  induction vs with
  | nil => simp
  | cons v vs ih =>
      simp only [laterElements_cons, length_cons, length_append]
      omega

lemma Reads.array_text (h : w.Reads f r) {els : List (Json N)}
    (hel : ∀ x ∈ els, w.Value f r el (d + 1) x (P x)) {tail : Bytes}
    (htext : w.text d (.arr els) = ascii '[' :: tail) :
    Succeeds (array el (tail ++ rest)) (∀ x ∈ els, P x)
      (.arr (els.map (Json.readAs f r)), rest) := by
  cases els with
  | nil =>
      rw [text_arr_nil, List.cons.injEq] at htext
      rw [← htext.2]
      refine .of_eq (by simp) ?_
      simp [array, Printer.skipWS_cons rest (show isWS (ascii ']') = false by decide)]
  | cons v vs =>
      rw [text_arr_cons, List.cons.injEq] at htext
      obtain ⟨b, bs, hv, hb⟩ := h.text_head (d + 1) v
      have hws : skipWS (tail ++ rest) = w.text (d + 1) v ++ (w.laterElements (d + 1) vs ++
          (w.newline d ++ ascii ']' :: rest)) := by
        rw [← htext.2, append_assoc, skipWS_blank (h.newline _), append_assoc, h.skipWS_text]
        simp
      have hhead : (skipWS (tail ++ rest)).head? ≠ some (ascii ']') := by
        rw [hws, hv]
        simpa using hb.2
      have hlen : vs.length < (skipWS (tail ++ rest)).length := by
        have hle := length_laterElements (w := w) (d := d + 1) vs
        rw [hws, hv]
        simp only [length_append, length_cons]
        omega
      rw [hws] at hlen
      have hloop := h.arrayLoop_text rest (g := []) (by simp [Blank]) (h.newline d) hel hlen
      rw [array, if_neg hhead, hws]
      exact hloop.bind_ok rfl

lemma numberEnd_laterMembers (w : JsonWriter N) (d : ℕ) (ms : Members N) (hclose : Blank close) :
    NumberEnd (w.laterMembers d ms ++ (close ++ ascii '}' :: rest)) := by
  cases ms with
  | nil => exact numberEnd_blank hclose rest (by simp)
  | cons m ms =>
      rw [laterMembers_cons]
      exact Printer.numberEnd_cons _ (by simp)

/-- The name of a member and its colon. -/
lemma Reads.memberName_text (h : w.Reads f r) (hg : Blank g) (seen : List String)
    (m : String × Json N) :
    ∃ b, Blank b ∧ Succeeds (memberName seen (g ++ (w.member d m ++ rest))) (f m.1 ∉ seen)
      (f m.1, b ++ (w.text d m.2 ++ rest)) := by
  obtain ⟨t, ht, hread⟩ := h.quoted m.1
  obtain ⟨b, hcolon, hb⟩ := h.colon
  have hname : g ++ (w.member d m ++ rest) =
      g ++ ascii '"' :: (t ++ (ascii ':' :: (b ++ (w.text d m.2 ++ rest)))) := by
    simp [member, ht, hcolon]
  refine ⟨b, hb, ?_⟩
  rw [hname, memberName, skipWS_blank hg,
    Printer.skipWS_cons _ (show isWS (ascii '"') = false by decide)]
  simp only [ne_eq, not_true_eq_false, if_false, hread, ok_bind,
    Printer.skipWS_cons _ (show isWS (ascii ':') = false by decide), pure_eq_ok]
  split_ifs with hseen
  · exact fun c => iff_of_false nofun fun hc => hc.1 hseen
  · exact .of_eq hseen rfl

lemma Reads.objectLoop_text (h : w.Reads f r) (hg : Blank g) (hclose : Blank close)
    {m : String × Json N} {ms : Members N}
    (hel : ∀ x ∈ m :: ms, w.Value f r el d x.2 (P x.2)) {seen : List String} (hseen : seen.Nodup)
    {n : ℕ} (hn : ms.length < n) :
    Succeeds (objectLoop el n seen (g ++ (w.member d m ++ (w.laterMembers d ms ++
        (close ++ ascii '}' :: rest)))))
      ((((m :: ms).map fun x => f x.1) ++ seen).Nodup ∧ ∀ x ∈ m :: ms, P x.2)
      ((m :: ms).map fun x => (f x.1, x.2.readAs f r), rest) := by
  induction ms generalizing m g seen n with
  | nil =>
      obtain ⟨n, rfl⟩ : ∃ k, n = k + 1 := ⟨n - 1, by omega⟩
      have hm := hel m (by simp) _ (numberEnd_laterMembers rest w d [] hclose)
      obtain ⟨b, hb, hname⟩ := h.memberName_text (d := d)
        (w.laterMembers d [] ++ (close ++ ascii '}' :: rest)) hg seen m
      rw [objectLoop]
      refine (hname.bind (q := P m.2) fun _ => ?_).congr ?_
      · simp only [skipWS_blank hb, h.skipWS_text]
        refine hm.bind_ok ?_
        simp [skipWS_blank hclose, show ascii '}' ≠ ascii ',' by decide,
          Printer.skipWS_cons rest (show isWS (ascii '}') = false by decide)]
      · simp [hseen]
  | cons u ms ih =>
      obtain ⟨n, rfl⟩ : ∃ k, n = k + 1 := ⟨n - 1, by omega⟩
      have hm := hel m (by simp) _ (numberEnd_laterMembers rest w d (u :: ms) hclose)
      obtain ⟨b, hb, hname⟩ := h.memberName_text (d := d)
        (w.laterMembers d (u :: ms) ++ (close ++ ascii '}' :: rest)) hg seen m
      have hmore (hk : f m.1 ∉ seen) := ih (h.newline d)
        (fun x hx => hel x (List.mem_cons_of_mem m hx)) (nodup_cons.2 ⟨hk, hseen⟩) (n := n)
        (by simpa using hn)
      rw [objectLoop]
      refine (hname.bind (q := P m.2 ∧ (((u :: ms).map fun x => f x.1) ++ f m.1 :: seen).Nodup ∧
        ∀ x ∈ u :: ms, P x.2) fun hk => ?_).congr ?_
      · simp only [skipWS_blank hb, h.skipWS_text]
        refine hm.bind fun _ => ?_
        simp only [laterMembers_cons, cons_append, append_assoc,
          Printer.skipWS_cons _ (show isWS (ascii ',') = false by decide), if_true]
        exact (hmore hk).bind_ok rfl
      · rw [List.perm_middle.nodup_iff, map_cons (l := u :: ms), cons_append,
          nodup_cons, mem_append, not_or, forall_mem_cons (l := u :: ms)]
        tauto

lemma length_laterMembers (ms : Members N) :
    ms.length ≤ (w.laterMembers d ms).length := by
  induction ms with
  | nil => simp
  | cons m ms ih =>
      simp only [laterMembers_cons, length_cons, length_append]
      omega

lemma Reads.object_text (h : w.Reads f r) (hf : Function.Injective f) {ms : Members N}
    (hel : ∀ x ∈ ms, w.Value f r el (d + 1) x.2 (P x.2)) {tail : Bytes}
    (htext : w.text d (.obj ms) = ascii '{' :: tail) :
    Succeeds (object el (tail ++ rest)) ((ms.map Prod.fst).Nodup ∧ ∀ x ∈ ms, P x.2)
      (.obj (ms.map fun m => (f m.1, m.2.readAs f r)), rest) := by
  cases ms with
  | nil =>
      rw [text_obj_nil, List.cons.injEq] at htext
      rw [← htext.2]
      refine .of_eq (by simp) ?_
      simp [object, Printer.skipWS_cons rest (show isWS (ascii '}') = false by decide)]
  | cons m ms =>
      rw [text_obj_cons, List.cons.injEq] at htext
      obtain ⟨t, ht, -⟩ := h.quoted m.1
      have hmember : w.member (d + 1) m = ascii '"' :: (t ++ (w.colon ++ w.text (d + 1) m.2)) := by
        simp [member, ht]
      have hws : skipWS (tail ++ rest) = w.member (d + 1) m ++ (w.laterMembers (d + 1) ms ++
          (w.newline d ++ ascii '}' :: rest)) := by
        rw [← htext.2, append_assoc, skipWS_blank (h.newline _), hmember]
        simp [Printer.skipWS_cons _ (show isWS (ascii '"') = false by decide)]
      have hhead : (skipWS (tail ++ rest)).head? ≠ some (ascii '}') := by
        rw [hws, hmember]
        simp [show ascii '"' ≠ ascii '}' by decide]
      have hlen : ms.length < (skipWS (tail ++ rest)).length := by
        have hle := length_laterMembers (w := w) (d := d + 1) ms
        rw [hws, hmember]
        simp only [length_append, length_cons]
        omega
      rw [hws] at hlen
      have hloop := h.objectLoop_text rest (g := []) (by simp [Blank]) (h.newline d) hel
        nodup_nil hlen
      have hkeys : (((m :: ms).map fun x : String × Json N => f x.1) ++ []).Nodup ↔
          ((m :: ms).map Prod.fst).Nodup := by
        rw [append_nil, ← nodup_map_iff (l := (m :: ms).map Prod.fst) hf, List.map_map]
        rfl
      rw [object, if_neg hhead, hws]
      exact (hloop.congr (and_congr_left' hkeys)).bind_ok rfl

/-- The parser reads the text of a value exactly if the value fits. -/
theorem Reads.value_text (h : w.Reads f r) (hf : Function.Injective f) (room d : ℕ) (v : Json N) :
    w.Value f r (value room) d v (v.Fits room) := by
  induction room generalizing d v with
  | zero => exact fun rest _ c => iff_of_false nofun fun hc => nomatch hc.1
  | succ room ih =>
      intro rest hrest
      cases v with
      | null =>
          have htext : w.text d .null = utf8 "null" := by simp [text, pieces]
          rw [htext]
          exact .of_eq (.null room) (Printer.value_null room rest)
      | bool b =>
          refine .of_eq (.bool room b) ?_
          cases b with
          | true =>
              have htext : w.text d (.bool true) = utf8 "true" := by simp [text, pieces]
              rw [htext]
              exact Printer.value_true room rest
          | false =>
              have htext : w.text d (.bool false) = utf8 "false" := by simp [text, pieces]
              rw [htext]
              exact Printer.value_false room rest
      | num n =>
          have htext : w.text d (.num n) = w.num n := by simp [text, pieces]
          rw [htext]
          exact .of_eq (.num room n) (Printer.value_of_number (h.number n rest hrest) room)
      | str s =>
          obtain ⟨t, ht, hread⟩ := h.quoted s
          have htext : w.text d (.str s) = ascii '"' :: t := by simp [text, pieces, ht]
          refine .of_eq (.str room s) ?_
          rw [htext, cons_append, value, if_neg (by decide), if_neg (by decide), if_pos rfl, hread]
          rfl
      | arr els =>
          have harr : Succeeds _ (∀ x ∈ els, x.Fits room) _ :=
            h.array_text rest (fun x _ => ih (d + 1) x) rfl
          rw [Json.readAs_arr]
          exact harr.congr Json.fits_arr.symm
      | obj ms =>
          have hobj : Succeeds _ ((ms.map Prod.fst).Nodup ∧ ∀ x ∈ ms, x.2.Fits room) _ :=
            h.object_text rest hf (fun x _ => ih (d + 1) x.2) rfl
          rw [Json.readAs_obj]
          exact hobj.congr Json.fits_obj.symm

lemma Reads.parseJSON_text (h : w.Reads f r) (hf : Function.Injective f) {v : Json N}
    (hv : v.Fits (maxJSONDepth + 1)) (d : ℕ) : parseJSON (w.text d v) = .ok (v.readAs f r) := by
  have hread := (h.value_text hf _ d v [] (by simp [NumberEnd])).eq_ok hv
  have hws := h.skipWS_text d v []
  rw [append_nil] at hread hws
  rw [parseJSON, hws, hread, ok_bind]
  rfl

end

end JsonWriter

/-! ## Printed values -/

namespace Printer

open JsonWriter

variable {N : Type} (p : Printer N)

/-- The layout of a printer: nothing between the pieces. -/
def writer : JsonWriter N where
  newline _ := []
  colon := [ascii ':']
  quote := p.string
  num := p.number

lemma writer_reads : p.writer.Reads id p.read where
  newline _ := by simp [writer, Blank]
  colon := ⟨[], rfl, by simp [Blank]⟩
  quoted s := by
    refine ⟨s.toList.flatMap p.escape ++ [ascii '"'], rfl, fun rest => ?_⟩
    rw [append_assoc]
    exact p.string_read s rest
  number := p.number_read

lemma text_elements {d : ℕ} {els : List (Json N)}
    (ih : ∀ v ∈ els, ∀ d, p.writer.text d v = p.render v) (sep : Bytes) :
    textOf p.string (p.writer.pieceElements d sep els) =
      if els = [] then [] else sep ++ commaSep (els.map p.render) := by
  induction els generalizing sep with
  | nil => rfl
  | cons v els ihels =>
      have hv : textOf p.string (p.writer.pieces d v) = p.render v := ih v (by simp) d
      have hels := ihels (fun v hv => ih v (by simp [hv])) [ascii ',']
      have hcomma := commaSep_cons (p.render v) (els.map p.render) []
      rw [append_nil] at hcomma
      rw [pieceElements, textOf_mark, textOf_append, hv, hels,
        map_cons, hcomma]
      cases els <;> simp [writer]

lemma text_members {d : ℕ} {ms : Members N}
    (ih : ∀ m ∈ ms, ∀ d, p.writer.text d m.2 = p.render m.2) (sep : Bytes) :
    textOf p.string (p.writer.pieceMembers d sep ms) =
      if ms = [] then [] else sep ++ commaSep (ms.map p.member) := by
  induction ms generalizing sep with
  | nil => rfl
  | cons m ms ihms =>
      have hm : textOf p.string (p.writer.pieces d m.2) = p.render m.2 := ih m (by simp) d
      have hms := ihms (fun m hm => ih m (by simp [hm])) [ascii ',']
      have hcomma := commaSep_cons (p.member m) (ms.map p.member) []
      rw [append_nil] at hcomma
      rw [pieceMembers, textOf_mark, textOf_quoted,
        textOf_mark, textOf_append, hm, hms, map_cons, hcomma, member]
      cases ms <;> simp [writer]

/-- A print is a text with this layout. -/
lemma text_writer (d : ℕ) (v : Json N) : p.writer.text d v = p.render v := by
  induction v using Json.ind generalizing d with
  | null => simp [text, pieces, render]
  | bool b => cases b <;> simp [text, pieces, render]
  | num n => simp [text, pieces, render, writer]
  | str s => simp [text, pieces, render, writer]
  | arr els ih =>
      have hels := p.text_elements ih (d := d + 1) []
      rw [text, pieces, textOf_mark, textOf_append,
        render, renderElements_eq]
      cases els <;> simp_all [writer, commaSep]
  | obj ms ih =>
      have hms := p.text_members ih (d := d + 1) []
      rw [text, pieces, textOf_mark, textOf_append,
        render, renderMembers_eq]
      cases ms <;> simp_all [writer, commaSep]

lemma skipWS_render (v : Json N) (rest : Bytes) :
    JsonParser.skipWS (p.render v ++ rest) = p.render v ++ rest := by
  rw [← p.text_writer 0 v]
  exact p.writer_reads.skipWS_text 0 v rest

/-- The parser reads a printed value back exactly if the value fits. -/
theorem value_render (v : Json N) (room : ℕ) (rest : Bytes) (hrest : NumberEnd rest) :
    Succeeds (JsonParser.value room (p.render v ++ rest)) (v.Fits room) (v.map p.read, rest) := by
  have hread := p.writer_reads.value_text Function.injective_id room 0 v rest hrest
  rwa [p.text_writer, Json.readAs_id] at hread

end Printer

end AuthSec

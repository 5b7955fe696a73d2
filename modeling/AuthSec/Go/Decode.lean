import AuthSec.Canonical.Integers
import AuthSec.Canonical.Objects
import AuthSec.Go.Strings

/-!
# Decoding structs

`encoding/json` with `DisallowUnknownFields`: a decoder takes a JSON value and what a field holds
before, and gives what it holds after.  Member names are compared without regard to case, as the
package does; numbers are read from their canonical text.

A struct that was written and put into canonical form is decoded member by member
(`fieldInto_of_mem`), in whatever order its members were written.
-/

namespace AuthSec

open List

/-! ## Decoders -/

/-- A decoder into a field of type `α`, from values with numbers of type `N`. -/
abbrev DecoderOf (N α : Type) : Type :=
  Json N → α → Except String α

abbrev Decoder : Type → Type :=
  DecoderOf Float64

/-- The error of a value that does not go into a field. -/
def cannotUnmarshal {α : Type} (goType : String) : Except String α :=
  .error ("json: cannot unmarshal value into Go value of type " ++ goType)

def intoString {N : Type} : DecoderOf N String
  | .str s, _ => .ok s
  | .null, cur => .ok cur
  | _, _ => cannotUnmarshal "string"

/-- Into a pointer to a string. -/
def intoPtr {N : Type} : DecoderOf N (Option String)
  | .str s, _ => .ok (some s)
  | .null, _ => .ok none
  | _, _ => cannotUnmarshal "string"

def intoBool : Decoder Bool
  | .bool b, _ => .ok b
  | .null, cur => .ok cur
  | _, _ => cannotUnmarshal "bool"

def intoInt : Decoder Int64
  | .num x, _ =>
    match parseInt64 (formatNumberES6 x) with
    | some n => .ok n
    | none => cannotUnmarshal "int64"
  | .null, cur => .ok cur
  | _, _ => cannotUnmarshal "int64"

/-- Into a slice, each element into a new zero value. -/
def intoList {α : Type} [Inhabited α] (dec : Decoder α) : Decoder (List α)
  | .arr els, _ => els.mapM fun v => dec v default
  | .null, _ => .ok []
  | _, _ => cannotUnmarshal "slice"

/-- The values of the members for a field. -/
def memberValues {N : Type} (name : String) (ms : Members N) : List (Json N) :=
  (ms.filter (equalFoldASCII ·.1 name)).map Prod.snd

/-- The members of an object that goes into a struct or a map. -/
def objectMembers {N : Type} : Json N → Except String (Members N)
  | .obj ms => .ok ms
  | .null => .ok []
  | _ => cannotUnmarshal "object"

/-- The members of an object, if all of them are for fields of the struct. -/
def structMembers (names : List String) : Json Float64 → Except String (Members Float64)
  | .obj ms =>
    match ms.find? fun m => !names.any (equalFoldASCII m.1 ·) with
    | some m => .error ("json: unknown field " ++ m.1)
    | none => .ok ms
  | .null => .ok []
  | _ => cannotUnmarshal "struct"

/-- Decodes the members for a field in turn. -/
def fieldInto {N α : Type} (dec : DecoderOf N α) (name : String) (ms : Members N)
    (cur : α) : Except String α :=
  (memberValues name ms).foldlM (fun cur v => dec v cur) cur

/-! ## Values that were written -/

/-- A Go value as it is read from its canonical text. -/
def readBack (v : Json GoNum) : Json Float64 :=
  (v.map GoNum.toFloat).canon

@[simp]
lemma readBack_str (s : String) : readBack (.str s) = .str s := rfl

@[simp]
lemma readBack_bool (b : Bool) : readBack (.bool b) = .bool b := rfl

@[simp]
lemma readBack_arr (els : List (Json GoNum)) : readBack (.arr els) = .arr (els.map readBack) := by
  simp [readBack, Json.map, Json.mapElements_eq, Json.canon_arr, Function.comp_def]

/-- The members of an object come back in some order. -/
lemma readBack_obj (ms : Members GoNum) : ∃ ms', readBack (.obj ms) = .obj ms' ∧
    ms'.Perm (ms.map fun m => (m.1, readBack m.2)) := by
  refine ⟨canonMembers (ms.map fun m => (m.1, m.2.map GoNum.toFloat)), ?_, ?_⟩
  · rw [readBack, Json.map, Json.mapMembers_eq, Json.canon_obj]
  · refine (perm_sortMembers _).trans ?_
    rw [List.map_map]
    rfl

/-- An integer as it is read from its canonical text. -/
def reread (n : Int64) : Except String Int64 :=
  match rereadInt64 n with
  | some m => .ok m
  | none => cannotUnmarshal "int64"

@[simp]
lemma intoString_str {N : Type} (s cur : String) :
    intoString (N := N) (.str s) cur = .ok s := rfl

@[simp]
lemma intoBool_bool (b cur : Bool) : intoBool (.bool b) cur = .ok b := rfl

@[simp]
lemma intoInt_readBack (n cur : Int64) : intoInt (readBack (.num (.int n))) cur = reread n := by
  have htext : formatNumberES6 (Float64.ofInt64 n).printed = formatNumberES6 (Float64.ofInt64 n) :=
    formatNumberES6_printed _
  change (match parseInt64 (formatNumberES6 (Float64.ofInt64 n).printed) with
    | some m => Except.ok m | none => cannotUnmarshal "int64") = _
  rw [htext, reread, rereadInt64]

@[simp]
lemma intoPtr_readBack (p cur : Option String) : intoPtr (readBack (goPtr p)) cur = .ok p := by
  cases p <;> rfl

lemma intoList_readBack {α : Type} [Inhabited α] {dec : Decoder α} {toJson : α → Json GoNum}
    {again : α → Except String α} (hdec : ∀ x, dec (readBack (toJson x)) default = again x)
    (l cur : List α) : intoList dec (readBack (.arr (l.map toJson))) cur = l.mapM again := by
  rw [readBack_arr, intoList, mapM_map, mapM_map]
  exact congrArg (fun f => List.mapM f l) (funext hdec)

lemma mapM_ok {α ε : Type} (l : List α) : l.mapM (Except.ok : α → Except ε α) = .ok l :=
  mapM_eq_ok.2 (List.forall₂_same.2 fun _ _ => rfl)

/-! ## Members of structs -/

section

variable {α : Type} {dec : Decoder α} {k : String} {v : Json GoNum} {cur : α} {names : List String}
  {ms : Members GoNum} {ms' : Members Float64}

/-- A name without its case. -/
def foldedName (s : String) : List Char :=
  s.toList.map foldChar

lemma memberValues_of_mem (hnames : (ms.map fun m => foldedName m.1).Nodup) (h : (k, v) ∈ ms) :
    memberValues k ms = [v] := by
  induction ms with
  | nil => simp at h
  | cons m ms ih =>
      rw [map_cons, nodup_cons] at hnames
      rcases mem_cons.1 h with rfl | hmem
      · -- no later member has the name
        have hrest : ms.filter (equalFoldASCII ·.1 k) = [] := by
          refine filter_eq_nil_iff.2 fun n hn heq => hnames.1 (mem_map.2 ⟨n, hn, ?_⟩)
          exact beq_iff_eq.1 heq
        rw [memberValues, filter_cons_of_pos (by simp [equalFoldASCII]), hrest]
        rfl
      · have hne : equalFoldASCII m.1 k = false := by
          refine beq_eq_false_iff_ne.2 fun heq => hnames.1 (mem_map.2 ⟨(k, v), hmem, ?_⟩)
          exact heq.symm
        have ih := ih hnames.2 hmem
        rw [memberValues] at ih ⊢
        rw [filter_cons_of_neg (by simp [hne]), ih]

lemma memberValues_of_forall_ne (h : ∀ m ∈ ms, foldedName m.1 ≠ foldedName k) :
    memberValues k ms = [] := by
  rw [memberValues, filter_eq_nil_iff.2, map_nil]
  intro m hm heq
  exact h m hm (beq_iff_eq.1 heq)

/-- The members `ms` of a struct with these fields come back as `ms'`. -/
structure Rereads (names : List String) (ms : Members GoNum)
    (ms' : Members Float64) : Prop where
  folded : (names.map foldedName).Nodup
  names : (ms.map Prod.fst).Sublist names
  perm : ms'.Perm (ms.map fun m => (m.1, readBack m.2))

/-- A struct that was written has the members of its fields only. -/
lemma structMembers_readBack (hfold : (names.map foldedName).Nodup)
    (hnames : (ms.map Prod.fst).Sublist names) :
    ∃ ms', structMembers names (readBack (.obj ms)) = .ok ms' ∧ Rereads names ms ms' := by
  obtain ⟨ms', hobj, hperm⟩ := readBack_obj ms
  refine ⟨ms', ?_, hfold, hnames, hperm⟩
  have hknown : ms'.find? (fun m => !names.any (equalFoldASCII m.1 ·)) = none := by
    refine find?_eq_none.2 fun m hm hunknown => ?_
    obtain ⟨n, hn, rfl⟩ := mem_map.1 (hperm.mem_iff.1 hm)
    have hany : names.any (equalFoldASCII n.1 ·) = true :=
      any_eq_true.2 ⟨n.1, hnames.subset (mem_map_of_mem hn), by simp [equalFoldASCII]⟩
    simp [hany] at hunknown
  rw [hobj, structMembers, hknown]

namespace Rereads

lemma perm_memberValues (h : Rereads names ms ms') (k : String) :
    (memberValues k ms').Perm ((memberValues k ms).map readBack) := by
  have hvalues := (h.perm.filter (equalFoldASCII ·.1 k)).map Prod.snd
  rw [filter_map, List.map_map] at hvalues
  rw [memberValues, memberValues, List.map_map]
  exact hvalues

/-- A member that was written is decoded from its value. -/
lemma fieldInto_of_mem (h : Rereads names ms ms') (hmem : (k, v) ∈ ms) :
    fieldInto dec k ms' cur = dec (readBack v) cur := by
  have hnodup : (ms.map fun m => foldedName m.1).Nodup := by
    have hsub := h.folded.sublist (h.names.map foldedName)
    rwa [List.map_map] at hsub
  have hvalues := h.perm_memberValues k
  rw [memberValues_of_mem hnodup hmem, map_singleton, perm_singleton] at hvalues
  rw [fieldInto, hvalues, foldlM_cons]
  cases dec (readBack v) cur <;> rfl

/-- A member that was left out leaves its field as it is. -/
lemma fieldInto_of_not_mem (h : Rereads names ms ms') (hk : k ∈ names)
    (hmem : k ∉ ms.map Prod.fst) : fieldInto dec k ms' cur = .ok cur := by
  have hne : ∀ m ∈ ms, foldedName m.1 ≠ foldedName k := by
    intro m hm heq
    have hm := mem_map_of_mem (f := Prod.fst) hm
    rw [inj_on_of_nodup_map h.folded (h.names.subset hm) hk heq] at hm
    exact hmem hm
  have hvalues := h.perm_memberValues k
  rw [memberValues_of_forall_ne hne, map_nil, perm_nil] at hvalues
  rw [fieldInto, hvalues]
  rfl

lemma fieldInto_eq (h : Rereads names ms ms') (hk : k ∈ names) : fieldInto dec k ms' cur =
    match ms.lookup k with
    | some v => dec (readBack v) cur
    | none => .ok cur := by
  cases hlookup : ms.lookup k with
  | some v =>
      obtain ⟨l, l', rfl, -⟩ := lookup_eq_some_iff.1 hlookup
      exact h.fieldInto_of_mem (by simp)
  | none =>
      refine h.fieldInto_of_not_mem hk fun hmem => ?_
      obtain ⟨m, hm, rfl⟩ := mem_map.1 hmem
      have hne := lookup_eq_none_iff.1 hlookup m hm
      simp at hne

/-- A string comes back whether or not it was left out for being empty. -/
lemma fieldInto_string {fs : List (String × Bool × String)} {skip : Bool} {s : String}
    (h : Rereads names (strMembers fs ++ ms) ms') (hfs : (fs.map Prod.fst).Nodup)
    (hms : k ∉ ms.map Prod.fst) (hk : k ∈ names) (hf : (k, skip, s) ∈ fs) :
    fieldInto intoString k ms' "" = .ok s := by
  by_cases hmem : (k, Json.str s) ∈ strMembers fs
  · rw [h.fieldInto_of_mem (mem_append_left _ hmem)]
    rfl
  · have hempty : s = "" := by
      by_contra hs
      refine hmem (mem_flatMap.2 ⟨_, hf, ?_⟩)
      cases skip with
      | false => simp
      | true => simpa using mem_omitEmpty_self hs
    rw [hempty]
    refine h.fieldInto_of_not_mem hk fun hname => ?_
    rw [map_append, mem_append] at hname
    obtain ⟨m, hm, rfl⟩ := mem_map.1 (hname.resolve_right hms)
    obtain ⟨f, hf', rfl⟩ := mem_strMembers hm
    have hs : f.2.2 = s := congrArg (·.2.2) (inj_on_of_nodup_map hfs hf' hf rfl)
    rw [hs] at hm
    exact hmem hm

end Rereads

end

end AuthSec

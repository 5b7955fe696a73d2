import AuthSec.Canonical.Hash

/-!
# Structs as JSON objects

What the canonical text of a Go value says about the value.

**Values.**  Strings, Booleans, pointers to strings and the integers up to `2 ^ 53` are alike only
when they are equal (`alike_str`, `alike_int`); arrays are alike element by element, and objects that
are alike have alike members (`Json.Alike.member`).

**Structs of strings.**  A struct whose fields are strings is read back from its members, whichever of
them are left out when they are empty: two of them are alike only when they are equal
(`StringStruct.alike_iff`), and their canonical text always exists (`StringStruct.fits`).
-/

namespace AuthSec

open List

/-! ## Go values -/

/-- A pointer to a string: `null` when it is nil. -/
def goPtr : Option String → Json GoNum
  | none => .null
  | some s => .str s

/-- A string member with `omitempty`. -/
def omitEmpty (k s : String) : Members GoNum :=
  if s = "" then [] else [(k, .str s)]

/-! ## Go values that are alike -/

section

variable {v w : Json GoNum}

lemma alike_str {s t : String} : (Json.str s : Json GoNum).Alike (.str t) ↔ s = t := by
  simp only [Json.Alike, Json.map]
  constructor
  · rintro ⟨⟩
    rfl
  · rintro rfl
    exact .str s

lemma alike_bool {a b : Bool} : (Json.bool a : Json GoNum).Alike (.bool b) ↔ a = b := by
  simp only [Json.Alike, Json.map]
  constructor
  · rintro ⟨⟩
    rfl
  · rintro rfl
    exact .bool a

lemma alike_goPtr {a b : Option String} : (goPtr a).Alike (goPtr b) ↔ a = b := by
  constructor
  · intro h
    cases a <;> cases b <;> cases h <;> rfl
  · rintro rfl
    cases a with
    | none => exact .null
    | some s => exact .str s

lemma alike_int {m n : Int64} (hm : m.toInt.natAbs ≤ 2 ^ 53) (hn : n.toInt.natAbs ≤ 2 ^ 53) :
    (Json.num (.int m)).Alike (.num (.int n)) ↔ m = n := by
  simp only [Json.Alike, Json.map, GoNum.toFloat]
  constructor
  · rintro (_ | _ | ⟨_, _, h⟩)
    rw [Float64.toRat_ofInt64 hm, Float64.toRat_ofInt64 hn] at h
    exact Int64.toInt_inj.1 (by exact_mod_cast h)
  · rintro rfl
    exact .num _ _ rfl

lemma alike_arr {as bs : List (Json GoNum)} :
    (Json.arr as).Alike (.arr bs) ↔ List.Forall₂ Json.Alike as bs := by
  simp only [Json.Alike, Json.map, Json.mapElements_eq]
  constructor
  · rintro (_ | _ | _ | _ | ⟨_, _, hlen, h⟩)
    refine List.forall₂_iff_zip.2 ⟨by simpa using hlen, fun ha => ?_⟩
    rw [zip_map] at h
    exact h _ (mem_map_of_mem ha)
  · intro h
    obtain ⟨hlen, h⟩ := List.forall₂_iff_zip.1 h
    refine .arr _ _ (by simpa using hlen) fun p hp => ?_
    rw [zip_map] at hp
    obtain ⟨q, hq, rfl⟩ := mem_map.1 hp
    exact h hq

lemma Json.Alike.symm (h : v.Alike w) (hv : v.Fits (maxJSONDepth + 1))
    (hw : w.Fits (maxJSONDepth + 1)) : w.Alike v :=
  (goText_eq_iff hw hv).1 ((goText_eq_iff hv hw).2 h).symm

lemma Json.Alike.refl {v : Json GoNum} (hv : v.Fits (maxJSONDepth + 1)) : v.Alike v :=
  (goText_eq_iff hv hv).1 rfl

end

/-- Lists of values that are alike only when equal. -/
lemma alike_arr_map {α : Type} {f : α → Json GoNum} (hf : ∀ a b, (f a).Alike (f b) ↔ a = b)
    {as bs : List α} : (Json.arr (as.map f)).Alike (.arr (bs.map f)) ↔ as = bs := by
  rw [alike_arr, List.forall₂_map_left_iff, List.forall₂_map_right_iff]
  simp only [hf, List.forall₂_eq_eq_eq]

/-! ## Shapes that always fit -/

@[simp]
lemma fits_goPtr (p : Option String) (room : ℕ) : (goPtr p).Fits (room + 1) := by
  cases p with
  | none => exact .null room
  | some s => exact .str room s

variable {k s : String} {fs : List (String × Bool × String)}

lemma mem_omitEmpty {k' : String} {v : Json GoNum} (h : (k', v) ∈ omitEmpty k s) :
    k' = k ∧ v = .str s ∧ s ≠ "" := by
  rw [omitEmpty] at h
  split_ifs at h with hs
  · simp at h
  · simp only [mem_singleton, Prod.mk.injEq] at h
    exact ⟨h.1, h.2, hs⟩

lemma mem_omitEmpty_self (hs : s ≠ "") : (k, Json.str s) ∈ omitEmpty k s := by
  simp [omitEmpty, hs]

lemma fits_arr {α : Type} {f : α → Json GoNum} {room : ℕ} (hf : ∀ a, (f a).Fits room)
    (as : List α) : (Json.arr (as.map f)).Fits (room + 1) := by
  refine .arr room _ fun x hx => ?_
  obtain ⟨a, -, rfl⟩ := mem_map.1 hx
  exact hf a

/-! ## Members of alike objects -/

section

variable {ms ns : Members GoNum}

/-- Every member of an object has a member of that name alike to it in an alike object. -/
lemma Json.Alike.exists_member (h : (Json.obj ms).Alike (.obj ns)) {v : Json GoNum}
    (hv : (k, v) ∈ ms) : ∃ w, (k, w) ∈ ns ∧ v.Alike w := by
  simp only [Json.Alike, Json.map, Json.mapMembers_eq] at h
  rcases h with _ | _ | _ | _ | _ | ⟨_, _, ns', hperm, hkeys, h⟩
  have hmem : (k, v.map GoNum.toFloat) ∈ ms.map fun m => (m.1, m.2.map GoNum.toFloat) :=
    mem_map.2 ⟨_, hv, rfl⟩
  obtain ⟨hlen, hzip⟩ := zip_of_map_eq hkeys
  obtain ⟨⟨k', u⟩, hp⟩ := exists_mem_zip hlen hmem
  obtain rfl : k = k' := hzip _ hp
  obtain ⟨⟨k', w⟩, hw, hu⟩ := mem_map.1 (hperm.mem_iff.1 (of_mem_zip hp).2)
  obtain ⟨rfl, rfl⟩ := Prod.mk.inj hu
  exact ⟨w, hw, h _ hp⟩

lemma Json.Alike.member (h : (Json.obj ms).Alike (.obj ns)) (hkeys : (ns.map Prod.fst).Nodup)
    {v w : Json GoNum} (hv : (k, v) ∈ ms) (hw : (k, w) ∈ ns) : v.Alike w := by
  obtain ⟨u, hu, halike⟩ := h.exists_member hv
  have heq := List.inj_on_of_nodup_map hkeys hu hw rfl
  rwa [(Prod.mk.inj heq).2] at halike

/-- Alike objects with the same names have alike members one by one. -/
lemma Json.Alike.forall₂ (h : (Json.obj ms).Alike (.obj ns))
    (hnames : ms.map Prod.fst = ns.map Prod.fst) (hkeys : (ns.map Prod.fst).Nodup) :
    List.Forall₂ (fun m n => m.2.Alike n.2) ms ns := by
  obtain ⟨hlen, hzip⟩ := zip_of_map_eq hnames
  refine List.forall₂_iff_zip.2 ⟨hlen, fun {m n} hmem => ?_⟩
  obtain ⟨hm, hn⟩ := of_mem_zip hmem
  have hname : m.1 = n.1 := hzip (m, n) hmem
  exact h.member hkeys (v := m.2) hm (by rw [hname]; exact hn)

/-- Objects that are alike have the same string members. -/
lemma Json.Alike.mem_str (h : (Json.obj ms).Alike (.obj ns)) (hmem : (k, Json.str s) ∈ ms) :
    (k, Json.str s) ∈ ns := by
  obtain ⟨w, hw, halike⟩ := h.exists_member hmem
  cases w with
  | str t => rwa [alike_str.1 halike]
  | _ => cases halike

end

/-! ## String members -/

/-- The string member of a name, empty if there is none. -/
def strAt {N : Type} (k : String) : Members N → String
  | [] => ""
  | (k', .str s) :: ms => if k' = k then s else strAt k ms
  | _ :: ms => strAt k ms

lemma mem_of_strAt {N : Type} {ms : Members N} (h : strAt k ms ≠ "") :
    (k, Json.str (strAt k ms)) ∈ ms := by
  induction ms with
  | nil => exact absurd rfl h
  | cons m ms ih =>
      obtain ⟨k', v⟩ := m
      cases v with
      | str s =>
          simp only [strAt] at h ⊢
          split_ifs at h ⊢ with hk
          · simp [hk]
          · exact List.mem_cons_of_mem _ (ih h)
      | _ => exact List.mem_cons_of_mem _ (ih h)

lemma strAt_of_mem {N : Type} {ms : Members N} (hkeys : (ms.map Prod.fst).Nodup)
    (h : (k, Json.str s) ∈ ms) : strAt k ms = s := by
  induction ms with
  | nil => simp at h
  | cons m ms ih =>
      rw [map_cons, nodup_cons] at hkeys
      rcases mem_cons.1 h with rfl | hmem
      · simp [strAt]
      · have hne : m.1 ≠ k := fun heq => hkeys.1 (heq ▸ mem_map.2 ⟨_, hmem, rfl⟩)
        obtain ⟨k', v⟩ := m
        cases v with
        | str t => simpa [strAt, show k' ≠ k from hne] using ih hkeys.2 hmem
        | _ => exact ih hkeys.2 hmem

/-- Objects that are alike have the same string members. -/
lemma Json.Alike.strAt_eq {ms ns : Members GoNum}
    (h : (Json.obj ms).Alike (.obj ns)) (hms : (Json.obj ms).Fits (maxJSONDepth + 1))
    (hns : (Json.obj ns).Fits (maxJSONDepth + 1)) (k : String) : strAt k ms = strAt k ns := by
  have hsymm := h.symm hms hns
  cases hms with
  | obj _ _ hmkeys _ =>
    cases hns with
    | obj _ _ hnkeys _ =>
      by_cases hm : strAt k ms = ""
      · by_cases hn : strAt k ns = ""
        · rw [hm, hn]
        · exact strAt_of_mem hmkeys (hsymm.mem_str (mem_of_strAt hn))
      · exact (strAt_of_mem hnkeys (h.mem_str (mem_of_strAt hm))).symm

/-! ## Structs of strings -/

/-- String members: the name, whether it is left out when empty, and the value. -/
def strMembers (fs : List (String × Bool × String)) : Members GoNum :=
  fs.flatMap fun f => if f.2.1 then omitEmpty f.1 f.2.2 else [(f.1, .str f.2.2)]

lemma mem_strMembers {m : String × Json GoNum} (h : m ∈ strMembers fs) :
    ∃ f ∈ fs, m = (f.1, .str f.2.2) := by
  obtain ⟨f, hf, hm⟩ := List.mem_flatMap.1 h
  refine ⟨f, hf, ?_⟩
  split_ifs at hm
  · obtain ⟨hk, hv, -⟩ := mem_omitEmpty hm
    exact Prod.ext hk hv
  · exact mem_singleton.1 hm

lemma names_strMembers (fs : List (String × Bool × String)) :
    ((strMembers fs).map Prod.fst).Sublist (fs.map Prod.fst) := by
  induction fs with
  | nil => exact .slnil
  | cons f fs ih =>
      obtain ⟨k, skip, s⟩ := f
      rw [strMembers, flatMap_cons, map_append, map_cons]
      cases skip with
      | false => exact ih.cons_cons k
      | true =>
          rw [if_pos rfl, omitEmpty]
          split_ifs
          · exact ih.cons k
          · exact ih.cons_cons k

lemma fits_strMembers (hnames : (fs.map Prod.fst).Nodup) (room : ℕ) :
    (Json.obj (strMembers fs)).Fits (room + 2) := by
  refine .obj (room + 1) _ (hnames.sublist (names_strMembers fs)) fun m hm => ?_
  obtain ⟨f, -, rfl⟩ := mem_strMembers hm
  exact .str room _

lemma strAt_strMembers (hnames : (fs.map Prod.fst).Nodup) {f : String × Bool × String} (hf : f ∈ fs) :
    strAt f.1 (strMembers fs) = f.2.2 := by
  have hkeys := hnames.sublist (names_strMembers fs)
  by_cases hempty : f.2.2 = ""
  · -- a member of the name could only hold the empty string
    rw [hempty]
    by_contra hne
    obtain ⟨g, hg, heq⟩ := mem_strMembers (mem_of_strAt hne)
    have hfg := List.inj_on_of_nodup_map hnames hg hf (Prod.mk.inj heq).1.symm
    rw [Json.str.inj (Prod.mk.inj heq).2, hfg] at hne
    exact hne hempty
  · refine strAt_of_mem hkeys (List.mem_flatMap.2 ⟨f, hf, ?_⟩)
    split_ifs
    · exact mem_omitEmpty_self hempty
    · exact mem_singleton.2 rfl

/-- Members behind that are no strings of the name do not matter. -/
lemma strAt_append {N : Type} {ms ns : Members N} (hns : ∀ s, (k, Json.str s) ∉ ns) :
    strAt k (ms ++ ns) = strAt k ms := by
  induction ms with
  | nil =>
      by_contra hne
      exact hns _ (mem_of_strAt hne)
  | cons m ms ih =>
      obtain ⟨k', v⟩ := m
      cases v with
      | str s => simp only [cons_append, strAt, ih]
      | _ => simpa only [cons_append, strAt] using ih

/-- The string values of a struct are determined by its canonical text. -/
lemma strMembers_append_inj {gs : List (String × Bool × String)}
    {ms ns : Members GoNum} (hnames : (fs.map Prod.fst).Nodup)
    (hsame : fs.map Prod.fst = gs.map Prod.fst) (hms : ∀ k s, (k, Json.str s) ∉ ms)
    (hns : ∀ k s, (k, Json.str s) ∉ ns)
    (hfs : (Json.obj (strMembers fs ++ ms)).Fits (maxJSONDepth + 1))
    (hgs : (Json.obj (strMembers gs ++ ns)).Fits (maxJSONDepth + 1))
    (h : (Json.obj (strMembers fs ++ ms)).Alike (.obj (strMembers gs ++ ns))) :
    fs.map (·.2.2) = gs.map (·.2.2) := by
  have hread : ∀ {hs : List (String × Bool × String)}, (hs.map Prod.fst).Nodup →
      hs.map (·.2.2) = (hs.map Prod.fst).map fun k => strAt k (strMembers hs) := by
    intro hs hnodup
    rw [List.map_map]
    exact map_congr_left fun f hf => (strAt_strMembers hnodup hf).symm
  rw [hread hnames, hread (hsame ▸ hnames), ← hsame]
  refine map_congr_left fun k _ => ?_
  have hstr := h.strAt_eq hfs hgs k
  rwa [strAt_append (hms k), strAt_append (hns k)] at hstr

lemma strMembers_inj {gs : List (String × Bool × String)} (hnames : (fs.map Prod.fst).Nodup)
    (hsame : fs.map Prod.fst = gs.map Prod.fst)
    (h : (Json.obj (strMembers fs)).Alike (.obj (strMembers gs))) :
    fs.map (·.2.2) = gs.map (·.2.2) := by
  have hfs := fits_strMembers hnames maxJSONDepth.pred
  have hgs := fits_strMembers (hsame ▸ hnames) maxJSONDepth.pred
  rw [← append_nil (strMembers fs)] at h hfs
  rw [← append_nil (strMembers gs)] at h hgs
  exact strMembers_append_inj hnames hsame (by simp) (by simp) hfs hgs h

/-- The Go values of a type are written as structs of strings with these fields. -/
structure StringStruct {α : Type} (toJson : α → Json GoNum)
    (fields : α → List (String × Bool × String)) : Prop where
  json : ∀ a, toJson a = .obj (strMembers (fields a))
  nodup : ∀ a, ((fields a).map Prod.fst).Nodup
  names : ∀ a b, (fields a).map Prod.fst = (fields b).map Prod.fst
  ext : ∀ a b, (fields a).map (·.2.2) = (fields b).map (·.2.2) → a = b

namespace StringStruct

variable {α : Type} {toJson : α → Json GoNum} {fields : α → List (String × Bool × String)}
  (h : StringStruct toJson fields)
include h

lemma fits (a : α) (room : ℕ) : (toJson a).Fits (room + 2) := by
  rw [h.json]
  exact fits_strMembers (h.nodup a) room

lemma alike_iff {a b : α} : (toJson a).Alike (toJson b) ↔ a = b := by
  constructor
  · intro halike
    rw [h.json, h.json] at halike
    exact h.ext a b (strMembers_inj (h.nodup a) (h.names a b) halike)
  · rintro rfl
    exact .refl (h.fits a _)

end StringStruct

end AuthSec

import AuthSec.Canonical.Lemmas.Normal
import AuthSec.Lib.Lists

/-!
# The normal form theorem

`canonicalize_normal_form`: the canonical text is a normal form.  It is accepted again and left as
it is, its value is the value of the input up to the order of members, its members are in strictly
increasing UTF-16 order at every depth, and two texts have one canonical text exactly when they
denote the same value.
-/

namespace AuthSec

open List

/-! ## The same value up to the order of members -/

/-- Two values are equal up to the order of object members, with `-0` equal to `0`. -/
inductive Json.Same : Json Float64 → Json Float64 → Prop
  | null : Same .null .null
  | bool (b : Bool) : Same (.bool b) (.bool b)
  | num (x y : Float64) (h : x.toRat = y.toRat) : Same (.num x) (.num y)
  | str (s : String) : Same (.str s) (.str s)
  | arr (as bs : List (Json Float64)) (hlen : as.length = bs.length)
      (h : ∀ p ∈ as.zip bs, Same p.1 p.2) : Same (.arr as) (.arr bs)
  | obj (ms ns ns' : Members Float64) (hperm : ns'.Perm ns)
      (hkeys : ms.map Prod.fst = ns'.map Prod.fst)
      (h : ∀ p ∈ ms.zip ns', Same p.1.2 p.2.2) : Same (.obj ms) (.obj ns)

/-- The members of every object stand in strictly increasing UTF-16 order. -/
inductive Json.Sorted : Json Float64 → Prop
  | null : Sorted .null
  | bool (b : Bool) : Sorted (.bool b)
  | num (x : Float64) : Sorted (.num x)
  | str (s : String) : Sorted (.str s)
  | arr (els : List (Json Float64)) (h : ∀ x ∈ els, Sorted x) : Sorted (.arr els)
  | obj (ms : Members Float64) (hkeys : ms.Pairwise fun m n => lessUTF16 m.1 n.1)
      (h : ∀ m ∈ ms, Sorted m.2) : Sorted (.obj ms)

/-! ## Normal forms -/

section

variable {N M : Type}

lemma nodup_utf16 {α : Type} {ms : List (String × α)} (h : (ms.map Prod.fst).Nodup) :
    (ms.map fun m => utf16 m.1).Nodup := by
  have hmap : ms.map (fun m => utf16 m.1) = (ms.map Prod.fst).map utf16 := by simp
  rw [hmap]
  exact h.map utf16_injective

lemma perm_sortMembers {α : Type} (ms : List (String × α)) : (sortMembers ms).Perm ms :=
  perm_sortOn _ ms

lemma mem_sortMembers {α : Type} {ms : List (String × α)} {m : String × α} :
    m ∈ sortMembers ms ↔ m ∈ ms :=
  (perm_sortMembers ms).mem_iff

lemma Json.normal_map (f : N → M) (v : Json N) : (v.map f).normal = v.normal.map f := by
  induction v using Json.ind with
  | null => simp [Json.map, Json.normal]
  | bool b => simp [Json.map, Json.normal]
  | num n => simp [Json.map, Json.normal]
  | str s => simp [Json.map, Json.normal]
  | arr els ih =>
      simp only [Json.map, Json.normal, Json.mapElements_eq, Json.normalElements_eq, List.map_map]
      exact congrArg Json.arr (map_congr_left ih)
  | obj ms ih =>
      simp only [Json.map, Json.normal, Json.mapMembers_eq, Json.normalMembers_eq, List.map_map]
      rw [← sortMembers_map (Json.map f), List.map_map]
      refine congrArg (fun l => Json.obj (sortMembers l)) (map_congr_left fun m hm => ?_)
      simp [ih m hm]

lemma Json.map_map {L : Type} (f : N → M) (g : M → L) (v : Json N) :
    (v.map f).map g = v.map (g ∘ f) := by
  induction v using Json.ind with
  | null => simp [Json.map]
  | bool b => simp [Json.map]
  | num n => simp [Json.map]
  | str s => simp [Json.map]
  | arr els ih =>
      simp only [Json.map, Json.mapElements_eq, List.map_map]
      exact congrArg Json.arr (map_congr_left ih)
  | obj ms ih =>
      simp only [Json.map, Json.mapMembers_eq, List.map_map]
      refine congrArg Json.obj (map_congr_left fun m hm => ?_)
      simp [ih m hm]

lemma Json.map_id (v : Json N) : v.map id = v := by
  induction v using Json.ind with
  | arr els ih =>
      rw [Json.map, Json.mapElements_eq, (map_congr_left ih : _ = els.map id), List.map_id]
  | obj ms ih =>
      have hms : (ms.map fun m => (m.1, m.2.map id)) = ms.map id :=
        map_congr_left fun m hm => by rw [ih m hm]; rfl
      rw [Json.map, Json.mapMembers_eq, hms, List.map_id]
  | _ => simp [Json.map]

lemma Json.normal_normal (v : Json N) : v.normal.normal = v.normal := by
  induction v using Json.ind with
  | null => simp [Json.normal]
  | bool b => simp [Json.normal]
  | num n => simp [Json.normal]
  | str s => simp [Json.normal]
  | arr els ih =>
      simp only [Json.normal, Json.normalElements_eq, List.map_map]
      exact congrArg Json.arr (map_congr_left ih)
  | obj ms ih =>
      have hms : (ms.map fun m => (m.1, m.2.normal)).map (fun m => (m.1, m.2.normal)) =
          ms.map fun m => (m.1, m.2.normal) := by
        rw [List.map_map]
        exact map_congr_left fun m hm => by simp [ih m hm]
      simp only [Json.normal, Json.normalMembers_eq]
      rw [← sortMembers_map Json.normal, hms]
      exact congrArg Json.obj (sortOn_of_sorted (sortOn_sorted _ _))

lemma Json.Fits.normal {v : Json N} {room : ℕ} (h : v.Fits room) : v.normal.Fits room := by
  induction h with
  | null room => simp [Json.normal]
  | bool room b => simp [Json.normal]
  | num room n => simp [Json.normal]
  | str room s => simp [Json.normal]
  | arr room els hels ih =>
      simp only [Json.normal, Json.normalElements_eq]
      refine .arr room _ fun x hx => ?_
      obtain ⟨y, hy, rfl⟩ := mem_map.1 hx
      exact ih y hy
  | obj room ms hkeys hms ih =>
      simp only [Json.normal, Json.normalMembers_eq]
      refine .obj room _ ?_ fun m hm => ?_
      · have hperm := (perm_sortMembers (ms.map fun m => (m.1, m.2.normal))).map Prod.fst
        rw [hperm.nodup_iff, List.map_map]
        exact hkeys
      · obtain ⟨n, hn, rfl⟩ := mem_map.1 (mem_sortMembers.1 hm)
        exact ih n hn

end

/-- The value read from the canonical text of `v`. -/
def Json.canon (v : Json Float64) : Json Float64 :=
  v.normal.map Float64.printed

lemma Float64.printed_eq_iff (x y : Float64) : x.printed = y.printed ↔ x.toRat = y.toRat := by
  obtain ⟨neg, mag, hrep, htop⟩ := x
  obtain ⟨neg', mag', hrep', htop'⟩ := y
  have hmag := hrep.nonneg
  have hmag' := hrep'.nonneg
  simp only [printed, toRat, mk.injEq]
  cases neg <;> cases neg' <;> simp <;> grind

lemma Json.canon_arr (els : List (Json Float64)) : (Json.arr els).canon = .arr (els.map canon) := by
  simp only [canon, Json.normal, Json.map, Json.normalElements_eq, Json.mapElements_eq,
    List.map_map]
  rfl

/-- The members of the canonical form of an object. -/
def canonMembers (ms : Members Float64) : Members Float64 :=
  sortMembers (ms.map fun m => (m.1, m.2.canon))

lemma Json.canon_obj (ms : Members Float64) :
    (Json.obj ms).canon = .obj (canonMembers ms) := by
  rw [canonMembers]
  simp only [canon, Json.normal, Json.map, Json.normalMembers_eq, Json.mapMembers_eq]
  rw [← sortMembers_map (Json.map Float64.printed), List.map_map]
  rfl

section

variable {v w : Json Float64}

lemma Json.Same.canon_eq {room room' : ℕ} (h : v.Same w) (hv : v.Fits room)
    (hw : w.Fits room') : v.canon = w.canon := by
  induction h generalizing room room' with
  | null => rfl
  | bool b => rfl
  | num x y h => simp [canon, Json.normal, Json.map, (Float64.printed_eq_iff x y).2 h]
  | str s => rfl
  | arr as bs hlen h ih =>
      cases hv with
      | arr _ _ has =>
        cases hw with
        | arr _ _ hbs =>
          rw [canon_arr, canon_arr]
          refine congrArg Json.arr (map_eq_of_zip hlen fun p hp => ?_)
          obtain ⟨hp1, hp2⟩ := of_mem_zip hp
          exact ih p hp (has _ hp1) (hbs _ hp2)
  | obj ms ns ns' hperm hkeys h ih =>
      cases hv with
      | obj _ _ hmkeys hms =>
        cases hw with
        | obj _ _ hnkeys hns =>
          have hvals : ms.map (fun m => (m.1, m.2.canon)) = ns'.map fun m => (m.1, m.2.canon) := by
            have hlen : ms.length = ns'.length := by simpa using congrArg List.length hkeys
            refine map_eq_of_zip hlen fun p hp => ?_
            obtain ⟨hp1, hp2⟩ := of_mem_zip hp
            have hk : p.1.1 = p.2.1 := (zip_of_map_eq hkeys).2 p hp
            rw [hk, ih p hp (hms _ hp1) (hns _ (hperm.mem_iff.1 hp2))]
          rw [canon_obj, canon_obj, canonMembers, canonMembers, hvals]
          refine congrArg Json.obj (sortOn_congr (hperm.map _) (nodup_utf16 ?_))
          rw [List.map_map, (hperm.map (Prod.fst ∘ _)).nodup_iff]
          exact hnkeys

lemma Json.same_of_canon_eq (h : v.canon = w.canon) : v.Same w := by
  induction v using Json.ind generalizing w with
  | null => cases w <;> cases h; exact .null
  | bool b => cases w <;> cases h; exact .bool b
  | num x =>
      cases w with
      | num y =>
          simp only [canon, Json.normal, Json.map, Json.num.injEq] at h
          exact .num x y ((Float64.printed_eq_iff x y).1 h)
      | _ => cases h
  | str s => cases w <;> cases h; exact .str s
  | arr els ih =>
      cases w with
      | arr bs =>
          rw [canon_arr, canon_arr, Json.arr.injEq] at h
          obtain ⟨hlen, hzip⟩ := zip_of_map_eq h
          exact .arr els bs hlen fun p hp => ih p.1 (of_mem_zip hp).1 (hzip p hp)
      | _ => cases h
  | obj ms ih =>
      cases w with
      | obj ns =>
          rw [canon_obj, canon_obj, canonMembers, canonMembers, Json.obj.injEq] at h
          have hperm : (ms.map fun m => (m.1, m.2.canon)).Perm
              (ns.map fun m => (m.1, m.2.canon)) :=
            (perm_sortMembers _).symm.trans (h ▸ perm_sortMembers _)
          obtain ⟨ns', hns, hmap⟩ := exists_perm_of_map_perm hperm
          have hzip := (zip_of_map_eq hmap).2
          have hkeys := congrArg (List.map Prod.fst) hmap
          rw [List.map_map, List.map_map] at hkeys
          refine .obj ms ns ns' hns hkeys fun p hp => ?_
          exact ih p.1 (of_mem_zip hp).1 (congrArg Prod.snd (hzip p hp))
      | _ => cases h

/-- A value that is the same as one that fits also fits. -/
lemma Json.Same.fits {room : ℕ} (h : v.Same w) (hv : v.Fits room) : w.Fits room := by
  induction h generalizing room with
  | null => exact hv
  | bool b => exact hv
  | str s => exact hv
  | num x y _ =>
      cases hv with
      | num room => exact .num room y
  | arr as bs hlen h ih =>
      cases hv with
      | arr room _ has =>
          refine .arr room bs fun b hb => ?_
          obtain ⟨a, hab⟩ := exists_mem_zip hlen.symm hb
          have hab : (a, b) ∈ as.zip bs := by
            rw [← zip_swap]
            exact mem_map.2 ⟨_, hab, rfl⟩
          exact ih _ hab (has a (of_mem_zip hab).1)
  | obj ms ns ns' hperm hkeys h ih =>
      cases hv with
      | obj room _ hmkeys hms =>
          refine .obj room ns ?_ fun n hn => ?_
          · rw [← (hperm.map Prod.fst).nodup_iff, ← hkeys]
            exact hmkeys
          · have hlen := (zip_of_map_eq hkeys).1
            obtain ⟨m, hmn⟩ := exists_mem_zip hlen.symm (hperm.mem_iff.2 hn)
            have hmn : (m, n) ∈ ms.zip ns' := by
              rw [← zip_swap]
              exact mem_map.2 ⟨_, hmn, rfl⟩
            exact ih _ hmn (hms m (of_mem_zip hmn).1)

/-- Two values have one canonical form exactly when they are the same value. -/
theorem Json.canon_eq_iff {room room' : ℕ} (hv : v.Fits room) (hw : w.Fits room') :
    v.canon = w.canon ↔ v.Same w :=
  ⟨same_of_canon_eq, fun h => h.canon_eq hv hw⟩

lemma Float64.printed_printed (x : Float64) : x.printed.printed = x.printed := by
  simp [printed]

lemma Json.canon_canon (v : Json Float64) : v.canon.canon = v.canon := by
  have hprinted : Float64.printed ∘ Float64.printed = Float64.printed := by
    funext x
    exact x.printed_printed
  rw [canon, canon, Json.normal_map, Json.normal_normal, Json.map_map, hprinted]

lemma Json.Fits.sorted_canon {room : ℕ} (hv : v.Fits room) : v.canon.Sorted := by
  induction hv with
  | null => exact .null
  | bool _ b => exact .bool b
  | num _ n => exact .num _
  | str _ s => exact .str s
  | arr _ els _ ih =>
      rw [canon_arr]
      refine .arr _ fun x hx => ?_
      obtain ⟨y, hy, rfl⟩ := mem_map.1 hx
      exact ih y hy
  | obj _ ms hkeys _ ih =>
      rw [canon_obj, canonMembers]
      refine .obj _ (sortOn_strict (nodup_utf16 ?_)) fun m hm => ?_
      · rw [List.map_map]
        exact hkeys
      · obtain ⟨n, hn, rfl⟩ := mem_map.1 (mem_sortMembers.1 hm)
        exact ih n hn

end

/-! ## Canonicalising twice -/

lemma parseJSON_fits {data : Bytes} {v : Json Float64} (h : parseJSON data = .ok v) :
    v.Fits (maxJSONDepth + 1) := by
  rw [parseJSON, bind_eq_ok] at h
  obtain ⟨⟨w, rest⟩, hw, h⟩ := h
  simp only at h
  split_ifs at h <;> cases h
  exact JsonParser.value_fits _ _ _ _ hw

/-- The parser reads a printed value that fits as that value. -/
lemma parseJSON_render {N : Type} (p : Printer N) {v : Json N} (hv : v.Fits (maxJSONDepth + 1)) :
    parseJSON (p.render v) = .ok (v.map p.read) := by
  have hread := p.writer_reads.parseJSON_text Function.injective_id hv 0
  rwa [p.text_writer, Json.readAs_id] at hread

lemma formatNumberES6_printed (x : Float64) : formatNumberES6 x.printed = formatNumberES6 x := by
  by_cases h : x.mag = 0
  · simp [formatNumberES6, Float64.printed, h]
  · simp [formatNumberES6, Float64.printed, h]

lemma render_map_printed (v : Json Float64) :
    jcs.render (v.map Float64.printed) = jcs.render v := by
  induction v using Json.ind with
  | null => simp [Json.map]
  | bool b => simp [Json.map]
  | num n => simpa [Json.map, Printer.render, jcs] using formatNumberES6_printed n
  | str s => simp [Json.map]
  | arr els ih =>
      simp only [Json.map, Printer.render, Json.mapElements_eq, Printer.renderElements_eq,
        List.map_map]
      exact congrArg (fun l => ascii '[' :: commaSep l ++ [ascii ']']) (map_congr_left ih)
  | obj ms ih =>
      simp only [Json.map, Printer.render, Json.mapMembers_eq, Printer.renderMembers_eq,
        List.map_map]
      refine congrArg (fun l => ascii '{' :: commaSep l ++ [ascii '}'])
        (map_congr_left fun m hm => ?_)
      simp [Printer.member, ih m hm]

/-- The canonical text is the print of the canonical form. -/
lemma writeCanonical_eq_canon (v : Json Float64) : writeCanonical v = jcs.render v.canon := by
  rw [writeCanonical_eq, Json.canon, render_map_printed]

lemma writeCanonical_canon (v : Json Float64) : writeCanonical v.canon = writeCanonical v := by
  rw [writeCanonical_eq_canon, Json.canon_canon, ← writeCanonical_eq_canon]

lemma parseJSON_writeCanonical {v : Json Float64} (hv : v.Fits (maxJSONDepth + 1)) :
    parseJSON (writeCanonical v) = .ok v.canon := by
  rw [writeCanonical_eq, parseJSON_render jcs hv.normal]
  rfl

/-- Canonical texts are equal exactly when they stand for the same value. -/
theorem writeCanonical_eq_iff {v w : Json Float64} (hv : v.Fits (maxJSONDepth + 1))
    (hw : w.Fits (maxJSONDepth + 1)) : writeCanonical v = writeCanonical w ↔ v.Same w := by
  rw [← Json.canon_eq_iff hv hw]
  constructor
  · intro heq
    have hparse := parseJSON_writeCanonical hv
    rw [heq, parseJSON_writeCanonical hw] at hparse
    exact (Except.ok.inj hparse).symm
  · intro heq
    rw [writeCanonical_eq_canon, writeCanonical_eq_canon, heq]

lemma canonicalize_eq_ok {data out : Bytes} :
    canonicalize data = .ok out ↔ ∃ v, parseJSON data = .ok v ∧ writeCanonical v = out :=
  map_eq_ok

/-- Canonical texts are a normal form: they are their own canonical texts, with the members sorted,
and two texts have the same one exactly when they are the same value. -/
theorem canonicalize_normal_form :
    (∀ data out, canonicalize data = .ok out →
      canonicalize out = .ok out ∧
      ∃ v w, parseJSON data = .ok v ∧ parseJSON out = .ok w ∧ v.Same w ∧ w.Sorted) ∧
    (∀ data data' out out' v w, canonicalize data = .ok out → canonicalize data' = .ok out' →
      parseJSON data = .ok v → parseJSON data' = .ok w → (out = out' ↔ v.Same w)) := by
  constructor
  · intro data out h
    obtain ⟨v, hv, rfl⟩ := canonicalize_eq_ok.1 h
    have hfits := parseJSON_fits hv
    have hparse := parseJSON_writeCanonical hfits
    refine ⟨canonicalize_eq_ok.2 ⟨v.canon, hparse, writeCanonical_canon v⟩,
      v, v.canon, hv, hparse, ?_, hfits.sorted_canon⟩
    exact Json.same_of_canon_eq v.canon_canon.symm
  · intro data data' out out' v w h h' hv hw
    obtain ⟨v', hv', rfl⟩ := canonicalize_eq_ok.1 h
    obtain ⟨w', hw', rfl⟩ := canonicalize_eq_ok.1 h'
    obtain rfl : v = v' := Except.ok.inj (hv.symm.trans hv')
    obtain rfl : w = w' := Except.ok.inj (hw.symm.trans hw')
    exact writeCanonical_eq_iff (parseJSON_fits hv) (parseJSON_fits hw)

/-- A text with blanks, an escape, a superfluous zero and members out of order. -/
theorem canonicalize_members_sorted :
    canonicalize (utf8 "\x7b\"b\" : -0, \"a\":[1.50,\"\\u0041\"]\x7d") =
        .ok (utf8 "\x7b\"a\":[1.5,\"A\"],\"b\":0\x7d") ∧
      canonicalize (utf8 "\x7b\"a\":[1.5,\"A\"],\"b\":0\x7d") =
        .ok (utf8 "\x7b\"a\":[1.5,\"A\"],\"b\":0\x7d") := by
  have h : canonicalize (utf8 "\x7b\"b\" : -0, \"a\":[1.50,\"\\u0041\"]\x7d") =
      .ok (utf8 "\x7b\"a\":[1.5,\"A\"],\"b\":0\x7d") := by decide +kernel
  exact ⟨h, (canonicalize_normal_form.1 _ _ h).1⟩

end AuthSec

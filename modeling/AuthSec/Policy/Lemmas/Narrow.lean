import AuthSec.Policy.Lemmas.Decode
import AuthSec.Policy.Narrow

/-!
# What narrowing leaves of a document

The lemmas behind the correctness of narrowing, from the members of one statement up to the whole
document: replacing the `Action` of a statement changes its actions only, replacing the
`Statement` of a document changes its statements only, and neither nests deeper.
-/

namespace AuthSec

open List

/-! ## Replacing a member -/

section

variable {ms : Members Float64} {k : String} {v w : Json Float64} {room : ℕ}

lemma perm_setMember (hkeys : (ms.map Prod.fst).Nodup) (hmem : (k, v) ∈ ms) :
    ms.Perm (setMember k v ms) := by
  obtain ⟨l, r, rfl⟩ := append_of_mem hmem
  have hother : ∀ m ∈ l ++ r, (m.1 != k) = true := by
    intro m hm
    have hnodup := (perm_middle.map Prod.fst).nodup_iff.1 hkeys
    rw [map_cons, nodup_cons] at hnodup
    have hne : m.1 ≠ k := fun heq => hnodup.1 (heq ▸ mem_map.2 ⟨m, hm, rfl⟩)
    simpa using hne
  have hfilter : (l ++ (k, v) :: r).filter (·.1 != k) = l ++ r := by
    rw [filter_append, filter_cons_of_neg (by simp),
      filter_eq_self.2 fun m hm => hother m (mem_append_left r hm),
      filter_eq_self.2 fun m hm => hother m (mem_append_right l hm)]
  rw [setMember, hfilter]
  exact perm_middle.trans (perm_append_singleton _ _).symm

lemma nodup_setMember (hkeys : (ms.map Prod.fst).Nodup) :
    ((setMember k v ms).map Prod.fst).Nodup := by
  rw [setMember, map_append, nodup_append]
  refine ⟨hkeys.sublist (filter_sublist.map _), by simp, ?_⟩
  intro a ha b hb
  obtain ⟨m, hm, rfl⟩ := mem_map.1 ha
  have hne : m.1 ≠ k := by simpa using (mem_filter.1 hm).2
  have hbk : b = k := by simpa using hb
  rwa [hbk]

/-- The names do not change. -/
lemma names_setMember (hkeys : (ms.map Prod.fst).Nodup) (hmem : (k, v) ∈ ms) :
    ((setMember k w ms).map Prod.fst).Perm (ms.map Prod.fst) := by
  have hperm := ((perm_setMember hkeys hmem).map Prod.fst).symm
  simpa [setMember] using hperm

lemma fits_setMember (hv : (Json.obj ms).Fits (room + 1)) (hw : w.Fits room) :
    (Json.obj (setMember k w ms)).Fits (room + 1) := by
  cases hv with
  | obj _ _ hkeys hms =>
      refine .obj room _ (nodup_setMember hkeys) fun m hm => ?_
      rcases mem_append.1 hm with hm | hm
      · exact hms m (mem_of_mem_filter hm)
      · rw [mem_singleton.1 hm]
        exact hw

lemma nodup_utf16_names (hkeys : (ms.map Prod.fst).Nodup) :
    (ms.map fun m => utf16 m.1).Nodup := by
  simpa using nodup_utf16 hkeys

lemma deleteMember_sortMembers (hkeys : (ms.map Prod.fst).Nodup) :
    deleteMember k (sortMembers ms) = sortMembers (deleteMember k ms) :=
  filter_sortOn (nodup_utf16_names hkeys) _

lemma nodup_names_canonMembers (hkeys : (ms.map Prod.fst).Nodup) :
    ((canonMembers ms).map Prod.fst).Nodup :=
  ((perm_sortMembers _).map Prod.fst).nodup_iff.2 (nodup_canonMembers hkeys)

/-- The members of a canonical object are canonical. -/
lemma canon_of_mem_canonMembers {m : String × Json Float64} (hm : m ∈ canonMembers ms) :
    (m.1, m.2.canon) = m := by
  obtain ⟨n, -, rfl⟩ := mem_map.1 (mem_sortMembers.1 hm)
  rw [Json.canon_canon]

/-- A member may be replaced by its canonical form. -/
lemma canonMembers_setMember (hkeys : (ms.map Prod.fst).Nodup) (hmem : (k, v) ∈ ms) :
    canonMembers (setMember k v.canon ms) = canonMembers ms := by
  have hmap : (setMember k v.canon ms).map (fun m => (m.1, m.2.canon)) =
      (setMember k v ms).map fun m => (m.1, m.2.canon) := by
    simp [setMember, Json.canon_canon]
  rw [canonMembers, hmap, canonMembers]
  refine (sortOn_congr ((perm_setMember hkeys hmem).map _) ?_).symm
  exact nodup_utf16_names (nodup_canonMembers hkeys)

lemma find?_member (hkeys : (ms.map Prod.fst).Nodup) (hmem : (k, v) ∈ ms) :
    (ms.find? (·.1 == k)).map Prod.snd = some v := by
  cases hfind : ms.find? (·.1 == k) with
  | none => exact absurd (find?_eq_none.1 hfind _ hmem) (by simp)
  | some m =>
      have hname : m.1 = k := by simpa using find?_some hfind
      have heq := inj_on_of_nodup_map hkeys (mem_of_find?_eq_some hfind) hmem hname
      rw [heq]
      rfl

/-- The other members of a canonical object stay as they are. -/
lemma deleteMember_setMember (hkeys : (ms.map Prod.fst).Nodup) :
    deleteMember k (canonMembers (setMember k w (canonMembers ms))) =
      deleteMember k (canonMembers ms) := by
  have hcs := nodup_names_canonMembers hkeys
  have hmap : deleteMember k ((setMember k w (canonMembers ms)).map fun m => (m.1, m.2.canon)) =
      deleteMember k (canonMembers ms) := by
    have hcanon : (deleteMember k (canonMembers ms)).map (fun m => (m.1, m.2.canon)) =
        deleteMember k (canonMembers ms) := by
      refine (map_congr_left fun m hm => ?_).trans (List.map_id _)
      exact canon_of_mem_canonMembers (mem_of_mem_filter hm)
    have hset : (setMember k w (canonMembers ms)).map (fun m => (m.1, m.2.canon)) =
        deleteMember k (canonMembers ms) ++ [(k, w.canon)] := by
      rw [setMember, map_append]
      exact congrArg (· ++ [(k, w.canon)]) hcanon
    rw [hset]
    simp [deleteMember, filter_filter]
  rw [canonMembers, deleteMember_sortMembers (nodup_canonMembers (nodup_setMember hcs)), hmap]
  have hsorted : deleteMember k (canonMembers ms) =
      sortMembers (deleteMember k (ms.map fun m => (m.1, m.2.canon))) :=
    deleteMember_sortMembers (nodup_canonMembers hkeys)
  rw [hsorted, sortMembers, sortMembers, sortOn_of_sorted (sortOn_sorted _ _)]

end

/-! ## Statements -/

lemma Json.Fits.mono {N : Type} {v : Json N} {room room' : ℕ} (h : v.Fits room)
    (hle : room ≤ room') : v.Fits room' := by
  obtain ⟨k, rfl⟩ := Nat.exists_eq_add_of_le' hle
  clear hle
  induction h with
  | null room => exact .null _
  | bool room b => exact .bool _ b
  | num room n => exact .num _ n
  | str room s => exact .str _ s
  | arr room els hels ih => exact .arr _ els ih
  | obj room ms hkeys hms ih => exact .obj _ ms hkeys ih

lemma Json.Fits.canon {v : Json Float64} {room : ℕ} (h : v.Fits room) : v.canon.Fits room :=
  Json.fits_map.2 h.normal

section

variable {ms : Members Float64} {d : StatementDraft} {st : Statement}
  {raw : Bytes} {unknown : List String} {l : List String}

/-- What the checks behind the last member let through. -/
lemma StatementDraft.finish_eq_ok (h : d.finish raw unknown = .ok st) :
    st.raw = raw ∧ st.unknown = unknown ∧ d.actions = .ok st.actions ∧
      ∀ (d' : StatementDraft) (raw' : Bytes), d' = { d with action := d'.action } →
        d'.finish raw' unknown =
          d'.actions.map fun actions => { st with actions := actions, raw := raw' } := by
  unfold finish at h
  cases heffect : d.effect with
  | none =>
      rw [heffect] at h
      cases h
  | some e =>
      simp only [heffect, bind_eq_ok] at h
      obtain ⟨actions, hactions, h⟩ := h
      split_ifs at h with hprincipal hresource
      cases h
      refine ⟨rfl, rfl, hactions, fun d' raw' hd' => ?_⟩
      rw [hd']
      unfold finish
      simp only [hprincipal, hresource]
      cases StatementDraft.actions { d with action := d'.action } with
      | error e => rfl
      | ok a => rfl

/-- A statement with other actions passes the same checks. -/
lemma StatementDraft.finish_action (h : d.finish raw unknown = .ok st)
    (hactions : st.actions = .action l) :
    d.action = some l ∧ ∀ (r : List String) (raw' : Bytes),
      StatementDraft.finish { d with action := some r } raw' unknown =
        .ok { st with actions := .action r, raw := raw' } := by
  obtain ⟨-, -, hd, hother⟩ := finish_eq_ok h
  rw [hactions] at hd
  unfold actions at hd
  split at hd
  · rename_i a ha hna
    cases hd
    refine ⟨ha, fun r raw' => ?_⟩
    rw [hother _ raw' rfl, actions, hna]
    rfl
  · cases hd
  · cases hd

lemma decodeStatement_raw {v : Json Float64} (h : decodeStatement v = .ok st) :
    st.raw = writeCanonical v ∧ ∃ ms, v = .obj ms := by
  cases v with
  | obj ms =>
      obtain ⟨d, -, hd⟩ := bind_eq_ok.1 h
      exact ⟨(StatementDraft.finish_eq_ok hd).1, ms, rfl⟩
  | _ => cases h

/-- The `Action` element that was read is a member of the statement. -/
lemma mem_of_readMembers (h : readMembers ms = .ok d) (hl : d.action = some l) :
    ∃ v, ("Action", v) ∈ ms ∧ stringOrArray v "Action" = .ok l := by
  have hothers : ∀ e' ≠ Element.action, ∀ src d : StatementDraft,
      (StatementDraft.put e' src d).action = d.action := by
    intro e' he' src d
    cases e' <;> first | rfl | exact absurd rfl he'
  rcases readMembers_element hothers h with hnone | ⟨v, f, d₀, hv, hf, hd⟩
  · rw [hnone] at hl
    cases hl
  · obtain ⟨l', hl', rfl⟩ := map_eq_ok.1 hf
    rw [hd] at hl
    cases hl
    exact ⟨v, hv, hl'⟩

lemma stringOrArray_strings (r : List String) {name : String} :
    stringOrArray (.arr (r.map .str)) name = .ok r := by
  refine mapM_eq_ok.2 (List.forall₂_map_left_iff.2 ?_)
  exact List.forall₂_same.2 fun s _ => rfl

/-- Replacing the `Action` member of a statement replaces its actions. -/
lemma decodeStatement_setAction {r : List String} (hkeys : (ms.map Prod.fst).Nodup)
    (h : decodeStatement (.obj ms) = .ok st) (hactions : st.actions = .action l) :
    decodeStatement (.obj (setMember "Action" (.arr (r.map .str)) ms)) =
      .ok { st with actions := .action r,
                    raw := writeCanonical (.obj (setMember "Action" (.arr (r.map .str)) ms)) } := by
  obtain ⟨d, hd, hfinish⟩ := bind_eq_ok.1 h
  obtain ⟨haction, hother⟩ := StatementDraft.finish_action hfinish hactions
  obtain ⟨v, hmem, -⟩ := mem_of_readMembers hd haction
  have hread : readMembers (setMember "Action" (.arr (r.map .str)) ms) =
      .ok { d with action := some r } := by
    obtain ⟨d₀, f, hd₀, hf, rfl⟩ :=
      runSets_concat.1 (readMembers_perm hkeys (perm_setMember hkeys hmem).symm hd)
    refine runSets_concat.2 ⟨d₀, fun d => { d with action := some r }, hd₀, ?_, ?_⟩
    · exact map_eq_ok.2 ⟨r, stringOrArray_strings r, rfl⟩
    · obtain ⟨l', -, rfl⟩ := map_eq_ok.1 hf
      rfl
  rw [decodeStatement, hread, ok_bind, unknownMembers_perm (names_setMember hkeys hmem), hother]

end

/-! ## What narrowing makes of a statement -/

/-- Two statement texts have the same members, but for `Action`. -/
def SameButAction (raw raw' : Bytes) : Prop :=
  ∃ ms ms', parseJSON raw = .ok (.obj ms) ∧ parseJSON raw' = .ok (.obj ms') ∧
    deleteMember "Action" ms = deleteMember "Action" ms'

/-- What narrowing makes of a statement, and how that is recorded. -/
inductive Narrows (remove : List String) (st : Statement) : NarrowResult → Option Statement → Prop
  | kept (h : st.effect = .deny ∨ ∀ a ∈ st.action, namespaceRemoved remove a = false) :
      Narrows remove st .kept (some st)
  | deleted (heffect : st.effect = .allow) (h : ∀ a ∈ st.action, namespaceRemoved remove a = true) :
      Narrows remove st .deleted none
  | narrowed (heffect : st.effect = .allow) (hactions : st.actions = .action st.action)
      (raw : Bytes) (hsame : SameButAction st.raw raw) :
      Narrows remove st .narrowed (some { st with
        actions := .action (st.action.filter (!namespaceRemoved remove ·)), raw := raw })

section

variable {x : Json Float64} {st : Statement} {room : ℕ} {remove : List String} {i : ℕ}

lemma parseJSON_raw (hx : x.Fits room) (hroom : room ≤ maxJSONDepth + 1)
    (hst : decodeStatement x = .ok st) : parseJSON st.raw = .ok x.canon := by
  rw [(decodeStatement_raw hst).1, parseJSON_writeCanonical (hx.mono hroom)]

lemma unmarshalObject_of_parse {raw : Bytes} {ms : Members Float64}
    (h : parseJSON raw = .ok (.obj ms)) : unmarshalObject raw = .ok ms := by
  rw [unmarshalObject, h]
  rfl

/-- A list of strings nests no deeper than the longer one it comes from. -/
lemma fits_strings {v : Json Float64} {name : String} {l r : List String} (hv : v.Fits room)
    (hread : stringOrArray v name = .ok l) (hlen : 2 ≤ l.length) :
    (Json.arr (r.map .str) : Json Float64).Fits room := by
  cases v with
  | str s =>
      cases hread
      exact absurd hlen (by simp)
  | arr els =>
      cases hv with
      | arr room _ hels =>
          obtain ⟨el, hel⟩ : ∃ el, el ∈ els := by
            have hlength := (mapM_eq_ok.1 hread).length_eq
            exact exists_mem_of_length_pos (by omega)
          have hroom : room ≠ 0 := by
            rintro rfl
            cases hels el hel
          obtain ⟨room', rfl⟩ := Nat.exists_eq_succ_of_ne_zero hroom
          refine .arr _ _ fun y hy => ?_
          obtain ⟨s, -, rfl⟩ := mem_map.1 hy
          exact .str room' s
  | _ => cases hread

lemma action_of_notNarrowable (heffect : st.effect = .allow) (h : notNarrowable st i = none) :
    st.actions = .action st.action ∧ ∀ a ∈ st.action, namespaceWildcard a = false := by
  cases hactions : st.actions with
  | notAction entries => simp [notNarrowable, heffect, hactions] at h
  | action entries =>
      have haction : st.action = entries := by rw [Statement.action, hactions]
      simp only [notNarrowable, heffect, hactions, Option.map_eq_none_iff, find?_eq_none,
        Bool.not_eq_true] at h
      rw [haction]
      exact ⟨rfl, h⟩

/-- One statement: what is left of it, and that it decodes to what it should grant. -/
theorem narrowStatement_narrows {r : NarrowedStatement × Option (Json Float64)} (hx : x.Fits room)
    (hroom : room ≤ maxJSONDepth + 1) (hst : decodeStatement x = .ok st)
    (hok : notNarrowable st i = none) (h : narrowStatement remove st i = .ok r) :
    ∃ g, Narrows remove st r.1.result g ∧
      Option.Rel (fun y g => y.Fits room ∧ decodeStatement y = .ok g) r.2 g ∧
        (r.1.result = .kept → r.2 = some x.canon) := by
  have hparse := parseJSON_raw hx hroom hst
  rw [narrowStatement] at h
  split_ifs at h with hkept hdeleted
  · rw [hparse] at h
    cases h
    refine ⟨some st, .kept ?_, .some ⟨hx.canon, decodeStatement_canon hx hst⟩, fun _ => rfl⟩
    rcases hkept with hdeny | hnone
    · exact Or.inl hdeny
    · right
      simpa using hnone
  · cases h
    have hallow : st.effect = .allow := by
      cases heffect : st.effect with
      | allow => rfl
      | deny => exact absurd (Or.inl heffect) hkept
    refine ⟨none, .deleted hallow ?_, .none, by rintro ⟨⟩⟩
    simpa using hdeleted
  · have hallow : st.effect = .allow := by
      cases heffect : st.effect with
      | allow => rfl
      | deny => exact absurd (Or.inl heffect) hkept
    obtain ⟨hactions, -⟩ := action_of_notNarrowable hallow hok
    obtain ⟨-, ms, rfl⟩ := decodeStatement_raw hst
    rw [Json.canon_obj] at hparse
    rw [unmarshalObject_of_parse hparse] at h
    cases h
    have hcanon := decodeStatement_canon hx hst
    have hxcanon := hx.canon
    rw [Json.canon_obj] at hcanon hxcanon
    have hkeys : (ms.map Prod.fst).Nodup := by
      cases hx with
      | obj _ _ hkeys => exact hkeys
    have hcs := nodup_names_canonMembers hkeys
    have hdecode := decodeStatement_setAction
      (r := st.action.filter (!namespaceRemoved remove ·)) hcs hcanon hactions
    -- some entries stay and some go, so `Action` was a list
    have hfits : (Json.obj (setMember "Action" (.arr ((st.action.filter
        (!namespaceRemoved remove ·)).map .str)) (canonMembers ms))).Fits room := by
      obtain ⟨d, hd, hfinish⟩ := bind_eq_ok.1 hcanon
      obtain ⟨v, hmem, hread⟩ := mem_of_readMembers hd
        (StatementDraft.finish_action hfinish hactions).1
      have hlen : 2 ≤ st.action.length := by
        have hsplit := length_eq_length_filter_add (l := st.action) (namespaceRemoved remove)
        have hgone := length_pos_iff.2 fun hnil => hkept (Or.inr hnil)
        have hstay := length_pos_iff.2 hdeleted
        omega
      cases hxcanon with
      | obj room' _ hcskeys hcsfits =>
          exact fits_setMember (.obj room' _ hcskeys hcsfits)
            (fits_strings (hcsfits _ hmem) hread hlen)
    refine ⟨_, .narrowed hallow hactions _ ?_, .some ⟨hfits, hdecode⟩, by rintro ⟨⟩⟩
    have htext := parseJSON_writeCanonical (hfits.mono hroom)
    rw [Json.canon_obj] at htext
    exact ⟨canonMembers ms, _, hparse, htext, (deleteMember_setMember hkeys).symm⟩

end

/-! ## What narrowing makes of a document -/

/-- One statement: its value and decoding, the record and value of what remains, and the decoding
of that. -/
structure Row where
  value : Json Float64
  statement : Statement
  record : NarrowedStatement
  left : Option (Json Float64)
  survivor : Option Statement

/-- What holds of every statement of a narrowed document. -/
structure Row.Ok (remove : List String) (room : ℕ) (row : Row) : Prop where
  fits : row.value.Fits room
  decoded : decodeStatement row.value = .ok row.statement
  narrowable : ∃ i, notNarrowable row.statement i = none
  narrows : Narrows remove row.statement row.record.result row.survivor
  left : Option.Rel (fun y g => y.Fits room ∧ decodeStatement y = .ok g) row.left row.survivor
  kept : row.record.result = .kept → row.left = some row.value.canon

section

variable {remove : List String} {room : ℕ}

/-- The rows of a document, from the loops over its statements. -/
lemma exists_rows {xs : List (Json Float64)} {sts : List Statement} {k : ℕ}
    {results : List (NarrowedStatement × Option (Json Float64))} (hroom : room ≤ maxJSONDepth + 1)
    (hxs : List.Forall₂ (fun x st => x.Fits room ∧ decodeStatement x = .ok st) xs sts)
    (hok : ∀ st ∈ sts.zipIdx k, notNarrowable st.1 st.2 = none)
    (h : (sts.zipIdx k).mapM (fun st => narrowStatement remove st.1 st.2) = .ok results) :
    ∃ rows : List Row, (∀ row ∈ rows, row.Ok remove room) ∧ rows.map Row.value = xs ∧
      rows.map Row.statement = sts ∧ rows.map (fun row => (row.record, row.left)) = results := by
  induction hxs generalizing k results with
  | nil =>
      cases h
      exact ⟨[], by simp, rfl, rfl, rfl⟩
  | @cons x st xs sts hx _ ih =>
      rw [zipIdx_cons, mapM_cons, bind_eq_ok] at h
      obtain ⟨r, hr, h⟩ := h
      obtain ⟨rest, hrest, h⟩ := bind_eq_ok.1 h
      cases h
      rw [zipIdx_cons] at hok
      obtain ⟨rows, hrows, hvals, hsts, hresults⟩ :=
        ih (fun st' hst' => hok st' (mem_cons_of_mem _ hst')) hrest
      obtain ⟨g, hnarrows, hleft, hkept⟩ := narrowStatement_narrows hx.1 hroom hx.2
        (hok (st, k) (mem_cons_self ..)) hr
      refine ⟨⟨x, st, r.1, r.2, g⟩ :: rows, ?_, by simp [hvals], by simp [hsts], by simp [hresults]⟩
      intro row hrow
      rcases mem_cons.1 hrow with rfl | hrow
      · exact ⟨hx.1, hx.2, ⟨k, hok (st, k) (mem_cons_self ..)⟩, hnarrows, hleft, hkept⟩
      · exact hrows row hrow

variable {rows : List Row}

/-- The values that remain are those of the surviving statements. -/
lemma forall₂_left (hrows : ∀ row ∈ rows, row.Ok remove room) :
    List.Forall₂ (fun y g => y.Fits room ∧ decodeStatement y = .ok g)
      (rows.filterMap Row.left) (rows.filterMap Row.survivor) := by
  induction rows with
  | nil => exact .nil
  | cons row rows ih =>
      have hrest := ih fun row' hrow' => hrows row' (mem_cons_of_mem _ hrow')
      have hleft := (hrows row (mem_cons_self ..)).left
      rw [filterMap_cons, filterMap_cons]
      revert hleft
      cases row.left <;> cases row.survivor <;> rintro (h | h)
      · exact hrest
      · exact .cons h hrest

lemma SameButAction.withoutAction_eq {raw raw' : Bytes} (h : SameButAction raw raw') :
    withoutAction raw = withoutAction raw' := by
  obtain ⟨ms, ms', hms, hms', hsame⟩ := h
  rw [withoutAction, withoutAction, unmarshalObject_of_parse hms, unmarshalObject_of_parse hms']
  simp only [hsame]

/-- The subset proof succeeds. -/
lemma subsetWalk_rows (hrows : ∀ row ∈ rows, row.Ok remove room) :
    subsetWalk ((rows.map Row.record).zip (rows.map Row.statement))
      (rows.filterMap Row.survivor) = true := by
  induction rows with
  | nil => rfl
  | cons row rows ih =>
      have hrest := ih fun row' hrow' => hrows row' (mem_cons_of_mem _ hrow')
      have hnarrows := (hrows row (mem_cons_self ..)).narrows
      rw [map_cons, map_cons, zip_cons_cons, filterMap_cons]
      unfold subsetWalk
      revert hnarrows
      generalize row.record.result = result
      cases row.survivor with
      | none =>
          rintro (_ | _ | _)
          exact hrest
      | some g =>
          rintro (hkept | _ | ⟨hallow, hactions, raw, hsame⟩)
          · simp [hrest]
          · obtain ⟨l, hl⟩ : ∃ l, row.statement.actions = .action l := ⟨_, hactions⟩
            simp [hrest, hsame.withoutAction_eq, hl, Statement.isNotAction, Statement.action]

end

section

variable {top : Members Float64} {doc : PolicyDocument}

/-- A document of decoded statements. -/
lemma mapM_decodeStatementAt {ys : List (Json Float64)} {gs : List Statement} (k : ℕ) :
    (ys.zipIdx k).mapM decodeStatementAt = .ok gs ↔
      List.Forall₂ (fun y g => decodeStatement y = .ok g) ys gs := by
  induction ys generalizing k gs with
  | nil =>
      rw [mapM_eq_ok, zipIdx_nil, List.forall₂_nil_left_iff, List.forall₂_nil_left_iff]
  | cons y ys ih =>
      have hat : ∀ g, decodeStatementAt (y, k) = .ok g ↔ decodeStatement y = .ok g :=
        fun g => mapError_eq_ok
      simp only [mapM_eq_ok] at ih
      simp only [mapM_eq_ok, zipIdx_cons, List.forall₂_cons_left_iff, hat, ih]

/-- Replacing the `Statement` member of a document replaces its statements. -/
lemma decodeDocument_setStatement (hkeys : (top.map Prod.fst).Nodup)
    (h : decodeDocument (.obj top) = .ok doc) :
    ∃ stmts xs, ("Statement", stmts) ∈ top ∧ statementList stmts = .ok xs ∧
      List.Forall₂ (fun x st => decodeStatement x = .ok st) xs doc.statements ∧
        ∀ (el : Json Float64) (ys : List (Json Float64)) (gs : List Statement),
          statementList el = .ok ys →
            List.Forall₂ (fun y g => decodeStatement y = .ok g) ys gs →
              decodeDocument (.obj (setMember "Statement" el top)) =
                .ok { doc with statements := gs } := by
  obtain ⟨d, hd, h⟩ := bind_eq_ok.1 h
  cases hstmts : d.stmts with
  | none =>
      rw [hstmts] at h
      cases h
  | some stmts =>
      simp only [hstmts, bind_eq_ok] at h
      obtain ⟨xs, hxs, sts, hsts, hdoc⟩ := h
      cases hdoc
      have hmem := mem_of_readDocument hd hstmts
      refine ⟨stmts, xs, hmem, hxs, (mapM_decodeStatementAt 0).1 hsts, ?_⟩
      intro el ys gs hys hgs
      have hread : readDocument (setMember "Statement" el top) =
          .ok { d with stmts := some el } := by
        obtain ⟨d₀, f, hd₀, hf, rfl⟩ :=
          runSets_concat.1 (readDocument_perm hkeys (perm_setMember hkeys hmem).symm hd)
        refine runSets_concat.2 ⟨d₀, fun d => { d with stmts := some el }, hd₀, rfl, ?_⟩
        cases hf
        rfl
      simp only [decodeDocument, hread, ok_bind, hys, (mapM_decodeStatementAt 0).2 hgs]
      rfl

/-- The `Statement` element of the narrowed document. -/
lemma narrowedElement_spec {stmts : Json Float64} {xs : List (Json Float64)} {room : ℕ}
    (hfits : stmts.Fits room) (hxs : statementList stmts = .ok xs) :
    ∃ room' ≤ room, (∀ x ∈ xs, x.Fits room') ∧
      (∀ ys : List (Json Float64), ys ≠ [] → ys.length ≤ xs.length →
        (∀ y ∈ ys, y.Fits room' ∧ ∃ ms, y = .obj ms) →
          (narrowedElement (some stmts) ys).Fits room ∧
            statementList (narrowedElement (some stmts) ys) = .ok ys) ∧
      (xs ≠ [] → narrowedElement (some stmts) (xs.map Json.canon) = stmts.canon) := by
  cases stmts with
  | obj ms =>
      cases hxs
      refine ⟨room, le_refl room, by simpa using hfits, ?_, fun _ => rfl⟩
      intro ys hne hlen hys
      obtain ⟨y, rfl⟩ : ∃ y, ys = [y] := by
        have hpos := length_pos_iff.2 hne
        exact length_eq_one_iff.1 (by simpa using le_antisymm hlen hpos)
      obtain ⟨hy, ns, rfl⟩ := hys y (mem_singleton.2 rfl)
      exact ⟨hy, rfl⟩
  | arr els =>
      cases hxs
      cases hfits with
      | arr room _ hels =>
          refine ⟨room, Nat.le_succ room, hels, ?_, fun _ => ?_⟩
          · intro ys _ _ hys
            exact ⟨.arr room ys fun y hy => (hys y hy).1, rfl⟩
          · rw [Json.canon_arr]
            rfl
  | _ => cases hxs

end

end AuthSec

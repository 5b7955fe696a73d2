import AuthSec.Policy.Lemmas.Narrow

/-!
# The meaning of a narrowed boundary

`narrowCustomerBoundary_spec` says what narrowing does when it goes through: statement by
statement, and so for the whole document, exactly the actions of the removed namespaces are no
longer granted, and nothing else of the document changes.
-/

namespace AuthSec

open List

/-! ## Entries -/

section

variable {entry ns x : String} {remove : List String}

/-- A pattern without signs matches itself only. -/
lemma iamGlob_literal {p s : List Char} (hstar : '*' ∉ p) (hone : '?' ∉ p)
    (h : iamGlob.accepts p s = true) : s = p := by
  refine ((Glob.accepts_letters fun c hc => ⟨?_, fun a => ?_⟩).1 h).symm
  · have hne : c ≠ '*' := ne_of_mem_of_not_mem hc hstar
    simpa [iamGlob] using hne
  · have hne : c ≠ '?' := ne_of_mem_of_not_mem hc hone
    simp [iamGlob, hne]

lemma not_sign_of_namespaceWildcard {pns act : String} (hw : namespaceWildcard entry = false)
    (hsplit : splitAction entry = some (pns, act)) : '*' ∉ pns.toList ∧ '?' ∉ pns.toList := by
  simp only [namespaceWildcard, hsplit, containsAny, any_eq_false] at hw
  constructor
  · intro hmem
    exact hw _ hmem (by decide)
  · intro hmem
    exact hw _ hmem (by decide)

/-- An entry that matches an action of a namespace names that namespace. -/
lemma namespaceRemoved_of_match (hw : namespaceWildcard entry = false) (hns : ':' ∉ ns.toList)
    (h : iamMatches entry (actionOf ns x) = true) :
    namespaceRemoved remove entry = decide (toLower ns ∈ remove.map toLower) := by
  cases hsplit : splitAction entry with
  | none => simp [namespaceWildcard, hsplit] at hw
  | some parts =>
      obtain ⟨pns, act⟩ := parts
      obtain ⟨htext, hcolon, -⟩ := splitAction_eq_some hsplit
      have hsigns := not_sign_of_namespaceWildcard hw hsplit
      rw [iamMatches, toLower_append_colon htext, toLower_append_colon (toList_actionOf ns x)] at h
      obtain ⟨u, v, huv, hu, -⟩ := accepts_colon h
      have hlit : u = pns.toList.map lowerChar := by
        refine iamGlob_literal ?_ ?_ hu
        · rw [← toList_toLower, mem_toLower (by decide)]
          exact hsigns.1
        · rw [← toList_toLower, mem_toLower (by decide)]
          exact hsigns.2
      rw [hlit] at huv
      have hsame := (append_sep_inj (colon_not_mem_lower hns) (colon_not_mem_lower hcolon) huv).1
      have hlower : toLower pns = toLower ns := by
        refine String.toList_inj.1 ?_
        rw [toList_toLower, toList_toLower, hsame]
      simp only [namespaceRemoved, hsplit, Option.map_some, Option.getD_some, hlower]

end

/-! ## Statements -/

/-- The meaning of narrowing one statement, of which `survivor` remains. -/
structure NarrowedTo (remove : List String) (st : Statement) (survivor : Option Statement) :
    Prop where
  /-- exactly the actions of the removed namespaces are gone -/
  grants : ∀ ns x, ':' ∉ ns.toList →
    ((∃ g ∈ survivor, g.grants (actionOf ns x) = true) ↔
      st.grants (actionOf ns x) = true ∧ toLower ns ∉ remove.map toLower)
  deny : st.effect = .deny → survivor = some st
  /-- only the actions differ, in the decoded statement and in its text -/
  same : ∀ g ∈ survivor,
    g = { st with actions := g.actions, raw := g.raw } ∧ SameButAction st.raw g.raw

section

variable {remove : List String} {st : Statement} {result : NarrowResult}
  {survivor : Option Statement}

/-- The statement allows something by an `Action` entry that hits. -/
def Statement.allowsAny (st : Statement) (hit : String → Bool) : Bool :=
  st.effect == .allow && st.action.any hit

/-- An Allow statement without `NotAction`, and every Deny statement. -/
def Statement.Listing (st : Statement) : Prop :=
  st.effect = .allow → st.actions = .action st.action

lemma Statement.Listing.grants_eq (h : st.Listing) (a : String) :
    st.grants a = st.allowsAny (iamMatches · a) := by
  cases heffect : st.effect with
  | deny => simp [Statement.grants, allowsAny, heffect]
  | allow =>
      rw [Statement.grants, heffect, h heffect]
      simp [allowsAny, heffect]

lemma Statement.Listing.grantsNamespace_eq (h : st.Listing) (ns : String) :
    st.grantsNamespace ns = st.allowsAny (patternCoversNamespace · ns) := by
  cases heffect : st.effect with
  | deny => simp [Statement.grantsNamespace, allowsAny, heffect]
  | allow =>
      rw [Statement.grantsNamespace, heffect, h heffect]
      simp [allowsAny, heffect]

lemma Narrows.listing (h : Narrows remove st result survivor) (hst : st.Listing) :
    ∀ g ∈ survivor, g.Listing := by
  intro g hg
  cases h with
  | kept =>
      cases hg
      exact hst
  | deleted => cases hg
  | narrowed =>
      cases hg
      exact fun _ => rfl

/-- The entries that stay hit what they hit before, unless it belongs to a removed namespace. -/
lemma any_remaining {l : List String} {hit : String → Bool} {gone : Bool}
    (hhit : ∀ a ∈ l, hit a = true → namespaceRemoved remove a = gone) :
    (l.filter (!namespaceRemoved remove ·)).any hit = true ↔ l.any hit = true ∧ gone = false := by
  simp only [any_eq_true, mem_filter, Bool.not_eq_true']
  constructor
  · rintro ⟨a, ⟨ha, hstays⟩, hmatch⟩
    exact ⟨⟨a, ha, hmatch⟩, hhit a ha hmatch ▸ hstays⟩
  · rintro ⟨⟨a, ha, hmatch⟩, hother⟩
    exact ⟨a, ⟨ha, hhit a ha hmatch ▸ hother⟩, hmatch⟩

/-- What remains allows what was allowed, unless it belongs to a removed namespace. -/
lemma Narrows.allowsAny_iff {gone : Bool} (h : Narrows remove st result survivor)
    (hit : String → Bool)
    (hhit : st.effect = .allow → ∀ a ∈ st.action, hit a = true →
      namespaceRemoved remove a = gone) :
    (∃ g ∈ survivor, g.allowsAny hit = true) ↔ st.allowsAny hit = true ∧ gone = false := by
  cases heffect : st.effect with
  | deny =>
      cases h with
      | kept => simp [Statement.allowsAny, heffect]
      | deleted hallow => simp [heffect] at hallow
      | narrowed hallow => simp [heffect] at hallow
  | allow =>
      have hiff := any_remaining (hhit heffect)
      cases h with
      | kept hkept =>
          have hstay : st.action.filter (!namespaceRemoved remove ·) = st.action := by
            refine filter_eq_self.2 fun a ha => ?_
            simpa using hkept.resolve_left (by simp [heffect]) a ha
          rw [hstay] at hiff
          simpa [Statement.allowsAny, heffect] using hiff
      | deleted _ hall =>
          have hgone : st.action.filter (!namespaceRemoved remove ·) = [] := by
            simpa [filter_eq_nil_iff] using hall
          rw [hgone] at hiff
          simpa [Statement.allowsAny, heffect] using hiff
      | narrowed =>
          simp only [Option.mem_some_iff, exists_eq_left', Statement.allowsAny, heffect,
            beq_self_eq_true, Bool.true_and]
          exact hiff

lemma Narrows.narrowedTo (h : Narrows remove st result survivor)
    (hok : st.effect = .allow →
      st.actions = .action st.action ∧ ∀ a ∈ st.action, namespaceWildcard a = false)
    (hraw : SameButAction st.raw st.raw) : NarrowedTo remove st survivor := by
  have hlisting : st.Listing := fun heffect => (hok heffect).1
  refine ⟨fun ns x hns => ?_, fun hdeny => ?_, fun g hg => ?_⟩
  · have hiff := h.allowsAny_iff (iamMatches · (actionOf ns x))
      fun heffect a ha hmatch => namespaceRemoved_of_match ((hok heffect).2 a ha) hns hmatch
    have hgrants : (∃ g ∈ survivor, g.grants (actionOf ns x) = true) ↔
        ∃ g ∈ survivor, g.allowsAny (iamMatches · (actionOf ns x)) = true := by
      refine exists_congr fun g => and_congr_right fun hg => ?_
      rw [(h.listing hlisting g hg).grants_eq]
    rw [hgrants, hlisting.grants_eq, hiff, decide_eq_false_iff_not]
  · cases h with
    | kept => rfl
    | deleted hallow => simp [hdeny] at hallow
    | narrowed hallow => simp [hdeny] at hallow
  · cases h with
    | kept =>
        cases hg
        exact ⟨rfl, hraw⟩
    | deleted => cases hg
    | narrowed _ _ raw hsame =>
        cases hg
        exact ⟨rfl, hsame⟩

lemma Row.Ok.narrowedTo {row : Row} {room : ℕ} (h : row.Ok remove room)
    (hroom : room ≤ maxJSONDepth + 1) : NarrowedTo remove row.statement row.survivor := by
  obtain ⟨i, hok⟩ := h.narrowable
  refine h.narrows.narrowedTo (fun heffect => action_of_notNarrowable heffect hok) ?_
  have hparse := parseJSON_raw h.fits hroom h.decoded
  obtain ⟨ms, hms⟩ := (decodeStatement_raw h.decoded).2
  rw [hms, Json.canon_obj] at hparse
  exact ⟨_, _, hparse, hparse, rfl⟩

end

/-! ## Documents -/

lemma canonicalizeRaw_of_fits {v : Json Float64} (hv : v.Fits (maxJSONDepth + 1)) :
    canonicalizeRaw v = .ok (writeCanonical v) := by
  have htext : goText (v.map GoNum.float) = writeCanonical v := by
    rw [goText, Json.map_map]
    exact congrArg writeCanonical (Json.map_id v)
  rw [canonicalizeRaw, canonField, canonicalizeValue_of_fits (Json.fits_map.2 hv), htext]
  rfl

section

variable {text raw : Bytes} {remove : List String} {doc : PolicyDocument}
  {top : Members Float64}
  {results : List (NarrowedStatement × Option (Json Float64))}

lemma decodePolicyDocument_top (hdoc : decodePolicyDocument text = .ok doc)
    (hraw : decodePolicyText text = .ok raw) (htop : unmarshalObject raw = .ok top) :
    parseJSON raw = .ok (.obj top) ∧ (Json.obj top).Fits (maxJSONDepth + 1) ∧
      decodeDocument (.obj top) = .ok doc := by
  obtain ⟨v, hv, htop⟩ := bind_eq_ok.1 htop
  rw [mapError_eq_ok] at hv
  rw [decodePolicyDocument, hraw, ok_bind, hv] at hdoc
  have hdecode := mapError_eq_ok.1 hdoc
  cases v with
  | obj ms =>
      cases htop
      exact ⟨hv, parseJSON_fits hv, hdecode⟩
  | _ => cases htop

/-- What the loops over the statements come to. -/
theorem narrowedDocument_spec (hdoc : decodePolicyDocument text = .ok doc)
    (hok : doc.statements.zipIdx.findSome? (fun st => notNarrowable st.1 st.2) = none)
    (hraw : decodePolicyText text = .ok raw) (htop : unmarshalObject raw = .ok top)
    (hresults : doc.statements.zipIdx.mapM (fun st => narrowStatement remove st.1 st.2) =
      .ok results) (hkept : results.filterMap Prod.snd ≠ []) :
    (narrowedDocument top (results.filterMap Prod.snd)).Fits (maxJSONDepth + 1) ∧
      ∃ (rows : List Row) (room : ℕ), room ≤ maxJSONDepth + 1 ∧
        (∀ row ∈ rows, row.Ok remove room) ∧ rows.map Row.statement = doc.statements ∧
        rows.map Row.record = results.map Prod.fst ∧
        decodeDocument (narrowedDocument top (results.filterMap Prod.snd)) =
          .ok { doc with statements := rows.filterMap Row.survivor } ∧
        ((∀ row ∈ rows, row.record.result = .kept) →
          writeCanonical (narrowedDocument top (results.filterMap Prod.snd)) =
            writeCanonical (.obj top)) := by
  obtain ⟨-, hfits, hdecode⟩ := decodePolicyDocument_top hdoc hraw htop
  have hkeys : (top.map Prod.fst).Nodup := by
    cases hfits with
    | obj _ _ hkeys => exact hkeys
  obtain ⟨stmts, xs, hmem, hxs, hsts, hset⟩ := decodeDocument_setStatement hkeys hdecode
  have hstmts : stmts.Fits maxJSONDepth := by
    cases hfits with
    | obj _ _ _ hms => exact hms _ hmem
  obtain ⟨room, hroom, hxsfits, hel, hsame⟩ := narrowedElement_spec hstmts hxs
  have hpairs := (List.forall₂_and_left xs doc.statements).2 ⟨hxsfits, hsts⟩
  obtain ⟨rows, hrows, hvals, hstatements, hrecords⟩ := exists_rows (hroom.trans (Nat.le_succ _))
    hpairs (fun st hst => findSome?_eq_none_iff.1 hok st hst) hresults
  have hfilter : results.filterMap Prod.snd = rows.filterMap Row.left := by
    rw [← hrecords, filterMap_map]
    rfl
  rw [hfilter] at hkept ⊢
  have hleft := forall₂_left hrows
  have hlen : (rows.filterMap Row.left).length ≤ xs.length := by
    rw [← hvals, length_map]
    exact length_filterMap_le _ _
  have hobj : ∀ y ∈ rows.filterMap Row.left, y.Fits room ∧ ∃ ms, y = .obj ms := by
    intro y hy
    obtain ⟨row, hrow, hy⟩ := mem_filterMap.1 hy
    have hrel := (hrows row hrow).left
    rw [hy] at hrel
    generalize row.survivor = survivor at hrel
    cases hrel with
    | some hg => exact ⟨hg.1, (decodeStatement_raw hg.2).2⟩
  obtain ⟨helfits, hellist⟩ := hel _ hkept hlen hobj
  have hdoc' := hset _ _ _ hellist (hleft.imp fun _ _ h => h.2)
  rw [narrowedDocument, find?_member hkeys hmem]
  refine ⟨fits_setMember hfits helfits, rows, room, hroom.trans (Nat.le_succ _), hrows,
    hstatements, ?_, hdoc', fun hall => ?_⟩
  · rw [← hrecords, List.map_map]
    rfl
  · have hcanon : rows.filterMap Row.left = xs.map Json.canon := by
      rw [← hvals, List.map_map, ← filterMap_eq_map]
      exact filterMap_congr fun row hrow => (hrows row hrow).kept (hall row hrow)
    have hne : xs ≠ [] := by
      rintro rfl
      exact hkept hcanon
    rw [hcanon, hsame hne, writeCanonical_eq_canon, writeCanonical_eq_canon (.obj top),
      Json.canon_obj, Json.canon_obj, canonMembers_setMember hkeys hmem]

end

section

variable {text raw : Bytes} {remove : List String} {e : GoErr}

/-! ### No other stage fails with the error of the subset proof -/

lemma decodePolicyText_ne (h : decodePolicyText text = .error e) : e ≠ subsetError := by
  rw [decodePolicyText] at h
  split_ifs at h
  cases hpath : (pathUnescape (trimSpaceBytes text)).mapError GoErr.urlDecode with
  | ok u =>
      rw [hpath] at h
      cases h
  | error e' =>
      rw [hpath] at h
      cases h
      obtain ⟨bad, -, rfl⟩ := mapError_eq_error.1 hpath
      rintro ⟨⟩

lemma decodePolicyDocument_ne (h : decodePolicyDocument text = .error e) : e ≠ subsetError := by
  rcases bind_eq_error.1 h with h | ⟨raw, -, h⟩
  · exact decodePolicyText_ne h
  · rcases bind_eq_error.1 h with h | ⟨v, -, h⟩
    · obtain ⟨e', -, rfl⟩ := mapError_eq_error.1 h
      rintro ⟨⟩
    · obtain ⟨e', -, rfl⟩ := mapError_eq_error.1 h
      rintro ⟨⟩

lemma unmarshalObject_ne (h : unmarshalObject raw = .error e) : e ≠ subsetError := by
  rcases bind_eq_error.1 h with h | ⟨v, -, h⟩
  · obtain ⟨e', -, rfl⟩ := mapError_eq_error.1 h
    rintro ⟨⟩
  · cases v with
    | obj ms => cases h
    | _ =>
        cases h
        decide

lemma narrowStatement_ne {st : Statement} {i : ℕ} (h : narrowStatement remove st i = .error e) :
    e ≠ subsetError := by
  rw [narrowStatement] at h
  split_ifs at h
  · rcases bind_eq_error.1 h with h | ⟨v, -, h⟩
    · obtain ⟨e', -, rfl⟩ := mapError_eq_error.1 h
      rintro ⟨⟩
    · cases h
  · cases h
  · rcases bind_eq_error.1 h with h | ⟨m, -, h⟩
    · exact unmarshalObject_ne h
    · cases h

end

/-! ### The theorem -/

section

variable {text : Bytes} {remove : List String}

/-- A narrowing that comes to its subset proof passes it. -/
lemma subsetProof_narrowed {doc : PolicyDocument} {rows : List Row} {room : ℕ} {v : Json Float64}
    (hv : v.Fits (maxJSONDepth + 1)) (hrows : ∀ row ∈ rows, row.Ok remove room)
    (hstatements : rows.map Row.statement = doc.statements)
    (hdecode : decodeDocument v = .ok { doc with statements := rows.filterMap Row.survivor }) :
    subsetProof doc (writeCanonical v) (rows.map Row.record) = true := by
  rw [subsetProof, decodePolicyDocument_writeCanonical hv hdecode, ← hstatements]
  exact subsetWalk_rows hrows

/-- The stages of a narrowing that neither fails nor is refused. -/
lemma narrowCustomerBoundary_eq_ok {c : Bytes} {n : Narrowing}
    (h : narrowCustomerBoundary text remove = .ok (.ok (c, n))) :
    ∃ doc raw top results, decodePolicyDocument text = .ok doc ∧
      doc.statements.zipIdx.findSome? (fun st => notNarrowable st.1 st.2) = none ∧
      decodePolicyText text = .ok raw ∧ unmarshalObject raw = .ok top ∧
      doc.statements.zipIdx.mapM (fun st => narrowStatement remove st.1 st.2) = .ok results ∧
      results.filterMap Prod.snd ≠ [] ∧
      canonicalizeRaw (narrowedDocument top (results.filterMap Prod.snd)) = .ok c ∧
      checkStorable c = .ok () ∧
      n.changed = (results.map Prod.fst).any (·.result != .kept) := by
  obtain ⟨doc, hdoc, h⟩ := bind_eq_ok.1 h
  split at h
  · cases h
  · rename_i hok
    obtain ⟨raw, hraw, h⟩ := bind_eq_ok.1 h
    obtain ⟨top, htop, h⟩ := bind_eq_ok.1 h
    obtain ⟨results, hresults, h⟩ := bind_eq_ok.1 h
    rw [finishNarrowing] at h
    split_ifs at h with hkept
    · cases h
    · obtain ⟨c', hc', h⟩ := bind_eq_ok.1 h
      obtain ⟨⟨⟩, hstorable, h⟩ := bind_eq_ok.1 h
      split_ifs at h with hproof
      cases h
      exact ⟨doc, raw, top, results, hdoc, hok, hraw, htop, hresults, hkept, hc', hstorable, rfl⟩

/-- The error of the subset proof is never returned. -/
lemma narrowCustomerBoundary_ne_subsetError :
    narrowCustomerBoundary text remove ≠ .error subsetError := by
  intro h
  rcases bind_eq_error.1 h with h | ⟨doc, hdoc, h⟩
  · exact decodePolicyDocument_ne h rfl
  · split at h
    · cases h
    · rename_i hok
      rcases bind_eq_error.1 h with h | ⟨raw, hraw, h⟩
      · exact decodePolicyText_ne h rfl
      rcases bind_eq_error.1 h with h | ⟨top, htop, h⟩
      · exact unmarshalObject_ne h rfl
      rcases bind_eq_error.1 h with h | ⟨results, hresults, h⟩
      · obtain ⟨st, -, hst⟩ := mapM_eq_error h
        exact narrowStatement_ne hst rfl
      rw [finishNarrowing] at h
      split_ifs at h with hkept
      · cases h
      · obtain ⟨hfits, rows, room, -, hrows, hstatements, hrecords, hdecode, -⟩ :=
          narrowedDocument_spec hdoc hok hraw htop hresults hkept
        rcases bind_eq_error.1 h with h | ⟨c, hc, h⟩
        · rw [canonicalizeRaw_of_fits hfits] at h
          cases h
        · rw [canonicalizeRaw_of_fits hfits] at hc
          cases hc
          rcases bind_eq_error.1 h with h | ⟨_, -, h⟩
          · rw [checkStorable] at h
            split_ifs at h
            cases h
          · rw [← hrecords, if_pos (subsetProof_narrowed hfits hrows hstatements hdecode)] at h
            cases h

/-- Statement by statement, then for the whole document. -/
lemma exists_survivor_iff {p : Statement → Prop} {gone : Prop} {sts : List Statement}
    {survivors : List (Option Statement)}
    (h : List.Forall₂ (fun st survivor => (∃ g ∈ survivor, p g) ↔ p st ∧ ¬gone) sts survivors) :
    (∃ st ∈ survivors.filterMap id, p st) ↔ (∃ st ∈ sts, p st) ∧ ¬gone := by
  induction h with
  | nil => simp
  | @cons st survivor sts survivors hhead _ ih =>
      cases survivor with
      | none =>
          simp only [Option.mem_def, reduceCtorEq, false_and, exists_false, false_iff] at hhead
          rw [filterMap_cons_none rfl, ih]
          simp only [exists_mem_cons_iff]
          tauto
      | some g =>
          simp only [Option.mem_some_iff, exists_eq_left'] at hhead
          change (∃ st ∈ g :: survivors.filterMap id, _) ↔ _
          simp only [exists_mem_cons_iff, hhead, ih]
          tauto

/-- The rows of a narrowing that goes through, and the document that comes out. -/
theorem narrowCustomerBoundary_rows {c : Bytes} {n : Narrowing}
    (h : narrowCustomerBoundary text remove = .ok (.ok (c, n))) :
    ∃ (doc : PolicyDocument) (rows : List Row) (room : ℕ),
      decodePolicyDocument text = .ok doc ∧ room ≤ maxJSONDepth + 1 ∧
      (∀ row ∈ rows, row.Ok remove room) ∧ rows.map Row.statement = doc.statements ∧
      decodePolicyDocument c = .ok { doc with statements := rows.filterMap Row.survivor } ∧
      (n.changed = false → canonicalDocument text = .ok c) := by
  obtain ⟨doc, raw, top, results, hdoc, hok, hraw, htop, hresults, hkept, hc, hstorable,
    hchanged⟩ := narrowCustomerBoundary_eq_ok h
  obtain ⟨hfits, rows, room, hroom, hrows, hstatements, hrecords, hdecode, hsame⟩ :=
    narrowedDocument_spec hdoc hok hraw htop hresults hkept
  rw [canonicalizeRaw_of_fits hfits] at hc
  cases hc
  refine ⟨doc, rows, room, hdoc, hroom, hrows, hstatements,
    decodePolicyDocument_writeCanonical hfits hdecode, fun hunchanged => ?_⟩
  have hall : ∀ row ∈ rows, row.record.result = .kept := by
    rw [hunchanged, ← hrecords, eq_comm, any_eq_false] at hchanged
    intro row hrow
    simpa using hchanged _ (mem_map_of_mem hrow)
  have hcanonical : canonicalize raw = .ok (writeCanonical (.obj top)) := by
    rw [canonicalize, (decodePolicyDocument_top hdoc hraw htop).1]
    rfl
  rw [hsame hall] at hstorable ⊢
  simp only [canonicalDocument, hraw, ok_bind, hcanonical, Except.mapError, hstorable]
  rfl

lemma filterMap_survivor (rows : List Row) :
    rows.filterMap Row.survivor = (rows.map Row.survivor).filterMap id := by
  rw [filterMap_map]
  rfl

/-- What holds of every row holds along the statements and their survivors. -/
lemma forall₂_rows {p : Statement → Option Statement → Prop} {rows : List Row}
    {sts : List Statement} (hstatements : rows.map Row.statement = sts)
    (h : ∀ row ∈ rows, p row.statement row.survivor) :
    List.Forall₂ p sts (rows.map Row.survivor) := by
  rw [← hstatements, List.forall₂_map_left_iff, List.forall₂_map_right_iff, List.forall₂_same]
  exact h

/-- A narrowed boundary has the statements of the boundary, narrowed or dropped, and grants what the
boundary granted, but for the removed services; if nothing changed, its hash is the boundary's.  The
check that the result is a subset never fails. -/
theorem narrowCustomerBoundary_spec [Sha256] (text : Bytes) (remove : List String) :
    (∀ c n, narrowCustomerBoundary text remove = .ok (.ok (c, n)) →
      ∃ doc doc' survivors, decodePolicyDocument text = .ok doc ∧
        decodePolicyDocument c = .ok doc' ∧ doc'.statements = survivors.filterMap id ∧
        List.Forall₂ (NarrowedTo remove) doc.statements survivors ∧
        (∀ ns x, ':' ∉ ns.toList →
          ((∃ st ∈ doc'.statements, st.grants (actionOf ns x) = true) ↔
            (∃ st ∈ doc.statements, st.grants (actionOf ns x) = true) ∧
              toLower ns ∉ remove.map toLower)) ∧
        (n.changed = false → documentHash text = .ok (contentHash c))) ∧
      narrowCustomerBoundary text remove ≠ .error subsetError := by
  refine ⟨fun c n h => ?_, narrowCustomerBoundary_ne_subsetError⟩
  obtain ⟨doc, rows, room, hdoc, hroom, hrows, hstatements, hdoc', hcanonical⟩ :=
    narrowCustomerBoundary_rows h
  have hnarrowed : List.Forall₂ (NarrowedTo remove) doc.statements (rows.map Row.survivor) :=
    forall₂_rows hstatements fun row hrow => (hrows row hrow).narrowedTo hroom
  refine ⟨doc, _, rows.map Row.survivor, hdoc, hdoc', filterMap_survivor rows, hnarrowed,
    fun ns x hns => ?_, fun hunchanged => ?_⟩
  · rw [filterMap_survivor]
    exact exists_survivor_iff (hnarrowed.imp fun st survivor hst => hst.grants ns x hns)
  · rw [documentHash, hcanonical hunchanged]
    rfl

end

def exampleCustomerBoundary : Bytes :=
  utf8 "\x7b\"Version\": \"2012-10-17\", \"Statement\": [
    \x7b\"Effect\": \"Allow\", \"Action\": [\"sqs:*\", \"s3:Get*\"], \"Resource\": \"*\"\x7d,
    \x7b\"Effect\": \"Deny\", \"NotAction\": \"iam:*\", \"Resource\": \"*\"\x7d]\x7d"

/-- After narrowing, no statement grants a queue action. -/
theorem narrowed_without_sqs :
    ∃ c n doc', narrowCustomerBoundary exampleCustomerBoundary ["SQS"] = .ok (.ok (c, n)) ∧
      n.changed = true ∧ decodePolicyDocument c = .ok doc' ∧
      ¬∃ st ∈ doc'.statements, st.grants (actionOf "sqs" "SendMessage") = true := by
  have hrun : (narrowCustomerBoundary exampleCustomerBoundary ["SQS"]).toOption.any (fun out =>
      out.toOption.any fun cn => cn.2.changed) = true := by decide +kernel
  obtain ⟨c, n, hout, hchanged⟩ : ∃ c n,
      narrowCustomerBoundary exampleCustomerBoundary ["SQS"] = .ok (.ok (c, n)) ∧
        n.changed = true := by
    rcases hout : narrowCustomerBoundary exampleCustomerBoundary ["SQS"] with e | (r | ⟨c, n⟩) <;>
      rw [hout] at hrun
    · exact absurd hrun Bool.false_ne_true
    · exact absurd hrun Bool.false_ne_true
    · exact ⟨c, n, rfl, hrun⟩
  obtain ⟨doc, doc', survivors, -, hdoc', -, -, hgrants, -⟩ :=
    (@narrowCustomerBoundary_spec ⟨id⟩ exampleCustomerBoundary ["SQS"]).1 c n hout
  refine ⟨c, n, doc', hout, hchanged, hdoc', ?_⟩
  rw [hgrants "sqs" "SendMessage" (by decide)]
  rintro ⟨-, hother⟩
  exact hother (by decide +kernel)

end AuthSec

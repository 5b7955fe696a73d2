import AuthSec.Policy.Boundary
import AuthSec.Policy.NarrowSemantics

/-!
# What boundary documents exclude

* `excludeOnlyDocument_excludes`: the document of an AuthSec boundary excludes the removed
  namespaces and no other.
* `narrowCustomerBoundary_excludes`: a narrowed document excludes the removed namespaces besides
  those it excluded before.
-/

namespace AuthSec

open List

/-! ## Literal namespaces -/

section

variable {p ns : String}

/-- The ASCII bytes of a text are its ASCII characters. -/
lemma mem_of_ascii_mem_utf8 {s : String} {d : Char} (hd : d.toNat < 128)
    (h : ascii d ∈ utf8 s) : d ∈ s.toList := by
  obtain ⟨c, hc, hmem⟩ := mem_flatMap.1 h
  by_cases hascii : c.toNat < 128
  · rw [encode_ascii hascii, mem_singleton] at hmem
    rwa [(ascii_inj hd hascii).1 hmem]
  · have hhigh := encode_not_ascii (not_lt.1 hascii) _ hmem
    rw [ascii, toNat_uint8_ofNat (by omega)] at hhigh
    omega

/-- A pattern without signs matches its own name only, in any case. -/
lemma globMatch_literal (hstar : '*' ∉ p.toList) (hone : '?' ∉ p.toList) :
    globMatch p ns = true ↔ toLower p = toLower ns := by
  have hsign : ∀ d : Char, IsSign d → d.toNat < 128 → d ∉ p.toList →
      ascii d ∉ utf8 (toLower p) := by
    intro d hd hlt hnot hmem
    exact hnot ((mem_toLower hd).1 (mem_of_ascii_mem_utf8 hlt hmem))
  have hletters : ∀ c ∈ utf8 (toLower p), byteGlob.star c = false ∧
      ∀ b, byteGlob.hit c b = true ↔ c = b := by
    intro c hc
    have hne : c ≠ ascii '*' := fun heq => hsign '*' (by decide) (by decide) hstar (heq ▸ hc)
    have hne' : c ≠ ascii '?' := fun heq => hsign '?' (by decide) (by decide) hone (heq ▸ hc)
    exact ⟨by simpa [byteGlob] using hne, by simp [byteGlob, hne']⟩
  rw [globMatch, Glob.greedy_literal fun c hc => (hletters c hc).1, Glob.accepts_letters hletters]
  exact ⟨fun h => utf8_injective h, fun h => by rw [h]⟩

/-- A service name has no sign in it. -/
lemma sign_not_mem_of_reService {s : String} (h : reService s = true) {d : Char}
    (hd : (isLowerAlnum d || d == '-') = false) : d ∉ s.toList := by
  intro hmem
  have hall : ∀ c ∈ s.toList, (isLowerAlnum c || c == '-') = true := by
    simpa [reService] using (Bool.and_eq_true_iff.1 h).2
  rw [hall d hmem] at hd
  cases hd

end

/-! ## The AuthSec boundary -/

section

variable {remove : List String} {doc : Bytes} {ns : String}

/-- The name under which a removed service is excluded. -/
def excludedName (s : String) : String :=
  toLower (trimSpace s)

lemma excludedAction_eq_ok (s e : String) :
    excludedAction s = .ok e ↔ reService (excludedName s) = true ∧ e = excludedName s ++ ":*" := by
  rw [excludedAction, excludedName]
  split_ifs with hre <;> simp [hre, eq_comm]

/-- The statement of an AuthSec boundary. -/
def excludeOnlyMembers (actions : List String) : Members Float64 :=
  [("Effect", .str Effect.allow.text), ("NotAction", .arr (actions.map .str)),
    ("Resource", .str "*"), ("Sid", .str authSecBoundarySid)]

lemma readMembers_excludeOnly (actions : List String) :
    readMembers (excludeOnlyMembers actions) =
      .ok { sid := authSecBoundarySid, effect := some .allow, notAction := some actions,
            resource := some ["*"] } := by
  have hread : statementMember ("NotAction", .arr (actions.map .str)) =
      .ok fun d => { d with notAction := some actions } := by
    rw [statementMember, show Element.ofName? "NotAction" = some .notAction by decide]
    simp only [readElement, stringOrArray_strings]
    rfl
  simp only [readMembers, excludeOnlyMembers, runSets, mapM_cons, mapM_nil, hread]
  rfl

/-- The document of an AuthSec boundary has one statement, which allows all but `actions`. -/
lemma decodePolicyDocument_excludeOnly {actions : List String}
    (hfits : (excludeOnlyValue actions).Fits (maxJSONDepth + 1)) :
    ∃ d st, decodePolicyDocument (goText (excludeOnlyValue actions)) = .ok d ∧
      d.statements = [st] ∧ st.effect = .allow ∧ st.actions = .notAction actions := by
  obtain ⟨st, hst, heffect, hactions⟩ : ∃ st,
      decodeStatement (.obj (excludeOnlyMembers actions)) = .ok st ∧ st.effect = .allow ∧
        st.actions = .notAction actions := by
    simp only [decodeStatement, readMembers_excludeOnly]
    exact ⟨_, rfl, rfl, rfl⟩
  refine ⟨⟨policyVersion20121017, "", [st]⟩, st, ?_, rfl, heffect, hactions⟩
  refine decodePolicyDocument_writeCanonical (Json.fits_map.2 hfits) ?_
  have hvalue : (excludeOnlyValue actions).map GoNum.toFloat =
      .obj [("Statement", .arr [.obj (excludeOnlyMembers actions)]),
        ("Version", .str policyVersion20121017)] := by
    simp [excludeOnlyValue, excludeOnlyMembers, Json.map, Json.mapMembers_eq,
      Json.mapElements_eq, Function.comp_def]
  rw [hvalue]
  simp only [decodeDocument, readDocument, runSets, mapM_cons, mapM_nil]
  change (do let statements ← [(Json.obj (excludeOnlyMembers actions), 0)].mapM decodeStatementAt
             return (⟨_, _, statements⟩ : PolicyDocument)) = _
  simp only [mapM_cons, mapM_nil, decodeStatementAt, hst]
  rfl

lemma coversWhole_excluded {svc : String} (hre : reService svc = true)
    (hlower : toLower svc = svc) :
    patternCoversWholeNamespace (svc ++ ":*") ns = true ↔ toLower ns = svc := by
  have hcolon : ':' ∉ svc.toList := sign_not_mem_of_reService hre (by decide)
  have hne : svc.toList ≠ [] := by
    rintro hnil
    simp [reService, hnil] at hre
  have htext : (svc ++ ":*").toList = svc.toList ++ ':' :: ['*'] := by simp
  have hstars : allStars (svc ++ ":*") = false := by simp [allStars, htext]
  have hsplit := splitAction_of_append hcolon hne htext
  rw [patternCoversWholeNamespace, hstars, hsplit]
  simp only [Bool.false_or, String.ofList_toList, Bool.and_eq_true]
  rw [globMatch_literal (sign_not_mem_of_reService hre (by decide))
    (sign_not_mem_of_reService hre (by decide)), hlower]
  have hact : allStars (String.ofList ['*']) = true := by decide
  rw [and_iff_right hact, eq_comm]

/-- The document of an AuthSec boundary excludes the removed services and no others. -/
theorem excludeOnlyDocument_excludes (h : excludeOnlyDocument remove = .ok doc) :
    ∃ d, decodePolicyDocument doc = .ok d ∧
      ∀ ns, boundaryExcludes d ns = true ↔ toLower ns ∈ remove.map excludedName := by
  rw [excludeOnlyDocument] at h
  split_ifs at h
  obtain ⟨actions, hactions, h⟩ := bind_eq_ok.1 h
  rw [canonField, mapError_eq_ok, canonicalizeValue_eq] at h
  obtain ⟨hfits, rfl⟩ := h
  obtain ⟨d, st, hd, hstatements, heffect, hst⟩ := decodePolicyDocument_excludeOnly hfits
  refine ⟨d, hd, fun ns => ?_⟩
  simp only [boundaryExcludes, hstatements, any_cons, any_nil, Bool.or_false,
    Statement.grantsNamespace, heffect, hst, Bool.not_not, any_eq_true, mem_sortedUnique, mem_map]
  constructor
  · rintro ⟨a, ha, hcovers⟩
    obtain ⟨s, hs, hok⟩ := exists_of_mem_mapM hactions ha
    obtain ⟨hre, rfl⟩ := (excludedAction_eq_ok s a).1 hok
    exact ⟨s, hs, ((coversWhole_excluded hre (toLower_toLower _)).1 hcovers).symm⟩
  · rintro ⟨s, hs, hns⟩
    obtain ⟨a, ha, hok⟩ := exists_mem_of_mapM hactions hs
    obtain ⟨hre, rfl⟩ := (excludedAction_eq_ok s a).1 hok
    exact ⟨_, ha, (coversWhole_excluded hre (toLower_toLower _)).2 hns.symm⟩

/-- One service, written with a space and in upper case. -/
theorem excludeOnlyDocument_excludes_sqs :
    ∃ doc d, excludeOnlyDocument [" SQS"] = .ok doc ∧ decodePolicyDocument doc = .ok d ∧
      boundaryExcludes d "sqs" = true := by
  have hrun : (excludeOnlyDocument [" SQS"]).toOption.isSome = true := by decide +kernel
  cases h : excludeOnlyDocument [" SQS"] with
  | error e =>
      rw [h] at hrun
      cases hrun
  | ok doc =>
      obtain ⟨d, hd, hiff⟩ := excludeOnlyDocument_excludes h
      exact ⟨doc, d, rfl, hd, (hiff "sqs").2 (by decide)⟩

end

/-! ## A customer's boundary -/

section

variable {text c : Bytes} {remove : List String} {entry ns : String}

/-- An entry that covers a namespace names it. -/
lemma namespaceRemoved_of_covers (hw : namespaceWildcard entry = false)
    (h : patternCoversNamespace entry ns = true) :
    namespaceRemoved remove entry = decide (toLower ns ∈ remove.map toLower) := by
  cases hsplit : splitAction entry with
  | none => simp [namespaceWildcard, hsplit] at hw
  | some parts =>
      obtain ⟨pns, act⟩ := parts
      have hsigns := not_sign_of_namespaceWildcard hw hsplit
      have hstars : allStars entry = false := by
        obtain ⟨htext, -, -⟩ := splitAction_eq_some hsplit
        simp [allStars, htext]
      rw [patternCoversNamespace, hstars, hsplit, Bool.false_or,
        globMatch_literal hsigns.1 hsigns.2] at h
      simp only [namespaceRemoved, hsplit, Option.map_some, Option.getD_some, h]

lemma Row.Ok.grantsNamespace_iff {row : Row} {room : ℕ} (h : row.Ok remove room) (ns : String) :
    (∃ g ∈ row.survivor, g.grantsNamespace ns = true) ↔
      row.statement.grantsNamespace ns = true ∧ ¬toLower ns ∈ remove.map toLower := by
  obtain ⟨i, hok⟩ := h.narrowable
  have hlisting : row.statement.Listing := fun heffect => (action_of_notNarrowable heffect hok).1
  have hiff := h.narrows.allowsAny_iff (patternCoversNamespace · ns)
    fun heffect a ha hcovers =>
      namespaceRemoved_of_covers ((action_of_notNarrowable heffect hok).2 a ha) hcovers
  have hgrants : (∃ g ∈ row.survivor, g.grantsNamespace ns = true) ↔
      ∃ g ∈ row.survivor, g.allowsAny (patternCoversNamespace · ns) = true := by
    refine exists_congr fun g => and_congr_right fun hg => ?_
    rw [(h.narrows.listing hlisting g hg).grantsNamespace_eq]
  rw [hgrants, hlisting.grantsNamespace_eq, hiff, decide_eq_false_iff_not]

/-- A narrowed document excludes the removed services besides those that it excluded before. -/
theorem narrowCustomerBoundary_excludes {n : Narrowing}
    (h : narrowCustomerBoundary text remove = .ok (.ok (c, n))) :
    ∃ doc doc', decodePolicyDocument text = .ok doc ∧ decodePolicyDocument c = .ok doc' ∧
      ∀ ns, boundaryExcludes doc' ns = true ↔
        toLower ns ∈ remove.map toLower ∨ boundaryExcludes doc ns = true := by
  obtain ⟨doc, rows, room, hdoc, -, hrows, hstatements, hdoc', -⟩ := narrowCustomerBoundary_rows h
  refine ⟨doc, _, hdoc, hdoc', fun ns => ?_⟩
  have hiff := exists_survivor_iff (forall₂_rows hstatements fun row hrow =>
    (hrows row hrow).grantsNamespace_iff ns)
  rw [← filterMap_survivor] at hiff
  simp only [boundaryExcludes, Bool.not_eq_true', ← Bool.not_eq_true, any_eq_true, hiff]
  rw [not_and_or, not_not, or_comm]

end

/-- A boundary with queues in it, narrowed by a service in upper case. -/
theorem narrowCustomerBoundary_excludes_sqs :
    ∃ c n doc', narrowCustomerBoundary exampleCustomerBoundary ["SQS"] = .ok (.ok (c, n)) ∧
      decodePolicyDocument c = .ok doc' ∧ boundaryExcludes doc' "sqs" = true := by
  have hrun : (narrowCustomerBoundary exampleCustomerBoundary ["SQS"]).toOption.any
      (·.toOption.isSome) = true := by decide +kernel
  rcases h : narrowCustomerBoundary exampleCustomerBoundary ["SQS"] with e | (r | ⟨c, n⟩)
  · rw [h] at hrun
    cases hrun
  · rw [h] at hrun
    cases hrun
  · obtain ⟨doc, doc', -, hdoc', hiff⟩ := narrowCustomerBoundary_excludes h
    exact ⟨c, n, doc', rfl, hdoc', (hiff "sqs").2 (Or.inl (by decide))⟩

end AuthSec

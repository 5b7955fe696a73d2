import AuthSec.Lib.Glob
import AuthSec.Lib.Lists
import AuthSec.Policy.Document

/-!
# Actions and namespaces

The package decides questions about a service namespace by looking at the namespace part of the
action patterns.  IAM matches whole actions: `iamMatches` and `Statement.grants` are its rules,
stated over characters.

* `globMatch_eq`: the matcher of the package decides the glob language, for a subject without `*`;
* `not_grants_of_boundaryExcludes`: a namespace that a document is found to exclude has no action
  that the document grants.
-/

namespace AuthSec

open List

/-! ## Patterns -/

/-- The pattern symbols of IAM, over bytes. -/
def byteGlob : Glob UInt8 UInt8 where
  star c := c == ascii '*'
  hit c b := c == ascii '?' || c == b

/-- `globMatch`. -/
def globMatch (pattern s : String) : Bool :=
  byteGlob.greedy (utf8 (toLower pattern)) (utf8 (toLower s))

/-- `SplitAction`. -/
def splitAction (action : String) : Option (String × String) :=
  match action.toList.span (· != ':') with
  | (c :: ns, _ :: act) => some (String.ofList (c :: ns), String.ofList act)
  | _ => none

def allStars (s : String) : Bool :=
  !s.toList.isEmpty && s.toList.all (· == '*')

/-- `PatternCoversNamespace`. -/
def patternCoversNamespace (pattern ns : String) : Bool :=
  allStars pattern ||
    match splitAction pattern with
    | some (pns, _) => globMatch pns ns
    | none => false

def patternCoversWholeNamespace (pattern ns : String) : Bool :=
  allStars pattern ||
    match splitAction pattern with
    | some (pns, act) => allStars act && globMatch pns ns
    | none => false

/-- `GrantsNamespace`. -/
def Statement.grantsNamespace (st : Statement) (ns : String) : Bool :=
  match st.effect, st.actions with
  | .deny, _ => false
  | .allow, .notAction entries => !entries.any (patternCoversWholeNamespace · ns)
  | .allow, .action entries => entries.any (patternCoversNamespace · ns)

/-- `BoundaryExcludes`. -/
def boundaryExcludes (doc : PolicyDocument) (ns : String) : Bool :=
  !doc.statements.any (·.grantsNamespace ns)

/-! ## The rules of IAM -/

/-- The pattern symbols of IAM: `*` is any run and `?` is any one character. -/
def iamGlob : Glob Char Char where
  star c := c == '*'
  hit c a := c == '?' || c == a

/-- The whole action matches the pattern, in any case. -/
def iamMatches (pattern action : String) : Bool :=
  iamGlob.accepts (toLower pattern).toList (toLower action).toList

/-- The statement grants the action: `Action` on a match, `NotAction` on no match. -/
def Statement.grants (st : Statement) (action : String) : Bool :=
  match st.effect, st.actions with
  | .deny, _ => false
  | .allow, .notAction entries => !entries.any (iamMatches · action)
  | .allow, .action entries => entries.any (iamMatches · action)

/-- What IAM accepts as an entry of `Action` or `NotAction`: stars, or a colon behind a namespace,
in ASCII. -/
def IamEntry (entry : String) : Prop :=
  (∀ c ∈ entry.toList, c.toNat < 128) ∧
    ((∀ c ∈ entry.toList, c = '*') ∨ ':' ∈ entry.toList.tail)

instance : DecidablePred IamEntry := fun _ => inferInstanceAs (Decidable (_ ∧ _))

def Actions.entries : Actions → List String
  | .action entries => entries
  | .notAction entries => entries

/-! ## The matcher -/

lemma utf8_ascii {s : String} (h : ∀ c ∈ s.toList, c.toNat < 128) :
    utf8 s = s.toList.map ascii := by
  rw [utf8]
  revert h
  induction s.toList with
  | nil => exact fun _ => rfl
  | cons c cs ih =>
      intro h
      rw [flatMap_cons, encode_ascii (h c (mem_cons_self ..)),
        ih fun d hd => h d (mem_cons_of_mem c hd)]
      rfl

lemma ascii_inj {c d : Char} (hc : c.toNat < 128) (hd : d.toNat < 128) :
    ascii c = ascii d ↔ c = d := by
  constructor
  · intro h
    have hnat := congrArg UInt8.toNat h
    simp only [ascii, UInt8.toNat_ofNat', Nat.mod_eq_of_lt (show c.toNat < 2 ^ 8 by omega),
      Nat.mod_eq_of_lt (show d.toNat < 2 ^ 8 by omega)] at hnat
    exact Char.toNat_inj.1 hnat
  · rintro rfl
    rfl

/-- On ASCII, bytes and characters give the same language. -/
lemma byteGlob_accepts {p s : List Char} (hp : ∀ c ∈ p, c.toNat < 128)
    (hs : ∀ c ∈ s, c.toNat < 128) :
    byteGlob.accepts (p.map ascii) (s.map ascii) = iamGlob.accepts p s := by
  refine Glob.accepts_map ascii ascii (fun c hc => ?_) fun c hc _ a ha => ?_
  · have hstar := ascii_inj (hp c hc) (show ('*' : Char).toNat < 128 by decide)
    simp [byteGlob, iamGlob, hstar]
  · have hone := ascii_inj (hp c hc) (show ('?' : Char).toNat < 128 by decide)
    have hlit := ascii_inj (hp c hc) (hs a ha)
    rw [Bool.eq_iff_iff]
    simp [byteGlob, iamGlob, hone, hlit]

lemma ascii_toLower {s : String} (h : ∀ c ∈ s.toList, c.toNat < 128) :
    ∀ c ∈ (toLower s).toList, c.toNat < 128 := by
  intro c hc
  rw [toList_toLower] at hc
  obtain ⟨d, hd, rfl⟩ := mem_map.1 hc
  exact toNat_lowerChar_lt (h d hd)

lemma mem_toLower {s : String} {d : Char} (hd : IsSign d) :
    d ∈ (toLower s).toList ↔ d ∈ s.toList := by
  simp [lowerChar_eq_sign hd]

/-- A subject without `*` has no byte that a run is taken for. -/
lemma byteGlob_safe {s : List Char} (hs : ∀ c ∈ s, c.toNat < 128) (hstar : '*' ∉ s) :
    ∀ b ∈ s.map ascii, byteGlob.Safe b := by
  intro b hb c hc
  obtain ⟨d, hd, rfl⟩ := mem_map.1 hb
  have hne : ascii '*' ≠ ascii d := by
    rw [Ne, ascii_inj (by decide) (hs d hd)]
    rintro rfl
    exact hstar hd
  have hcstar : c = ascii '*' := by simpa [byteGlob] using hc
  subst hcstar
  simpa [byteGlob] using ⟨by decide, hne⟩

section

variable {pattern s : String} (hs : ∀ c ∈ s.toList, c.toNat < 128) (hstar : '*' ∉ s.toList)

include hs hstar

lemma globMatch_bytes :
    globMatch pattern s =
      byteGlob.accepts (utf8 (toLower pattern)) ((toLower s).toList.map ascii) := by
  have hs' := ascii_toLower hs
  rw [globMatch, utf8_ascii hs']
  refine Glob.greedy_eq_accepts (byteGlob_safe hs' ?_)
  rwa [mem_toLower (by decide)]

/-- The matcher for namespaces decides what IAM means, on ASCII. -/
theorem globMatch_eq (hp : ∀ c ∈ pattern.toList, c.toNat < 128) :
    globMatch pattern s = iamGlob.accepts (toLower pattern).toList (toLower s).toList := by
  have hp' := ascii_toLower hp
  rw [globMatch_bytes hs hstar, utf8_ascii hp', byteGlob_accepts hp' (ascii_toLower hs)]

/-- A pattern that matches has ASCII characters only, when its case is dropped. -/
lemma ascii_of_globMatch (h : globMatch pattern s = true) :
    ∀ c ∈ (toLower pattern).toList, c.toNat < 128 := by
  intro c hc
  by_contra hhigh
  rw [globMatch_bytes hs hstar] at h
  have hbytes := encode_not_ascii (Nat.le_of_not_lt hhigh)
  obtain ⟨b, hb⟩ := exists_mem_of_ne_nil _ (String.utf8EncodeChar_ne_nil (c := c))
  have hge := hbytes b hb
  have hmem : b ∈ utf8 (toLower pattern) := mem_flatMap.2 ⟨c, hc, hb⟩
  rcases Glob.star_or_hit_of_accepts h hmem with hrun | ⟨a, ha, hhit⟩
  · have hb : b = ascii '*' := by simpa [byteGlob] using hrun
    rw [hb] at hge
    exact absurd hge (by decide)
  · obtain ⟨d, hd, rfl⟩ := mem_map.1 ha
    have hb : b = ascii '?' ∨ b = ascii d := by simpa [byteGlob] using hhit
    rcases hb with rfl | rfl
    · exact absurd hge (by decide)
    · have hlt := ascii_toLower hs d hd
      rw [ascii, toNat_uint8_ofNat (by omega)] at hge
      omega

/-- A match of the bytes is a match of the characters, for any pattern. -/
lemma accepts_of_globMatch (h : globMatch pattern s = true) :
    iamGlob.accepts (toLower pattern).toList (toLower s).toList = true := by
  have hp := ascii_of_globMatch hs hstar h
  rwa [globMatch_bytes hs hstar, utf8_ascii hp, byteGlob_accepts hp (ascii_toLower hs)] at h

end

/-! ## Namespaces and whole actions -/

lemma splitAction_eq_some {action ns act : String} (h : splitAction action = some (ns, act)) :
    action.toList = ns.toList ++ ':' :: act.toList ∧ ':' ∉ ns.toList ∧ ns.toList ≠ [] := by
  rw [splitAction] at h
  split at h
  · rename_i c cs d ds hspan
    rw [span_eq_takeWhile_dropWhile, Prod.mk.injEq] at hspan
    obtain ⟨htake, hdrop⟩ := hspan
    obtain ⟨rfl, rfl⟩ : String.ofList (c :: cs) = ns ∧ String.ofList ds = act := by simpa using h
    have hcolon : d = ':' := by
      have hhead := head_dropWhile_not (· != ':') (l := action.toList)
      simp only [hdrop] at hhead
      simpa using hhead
    refine ⟨?_, ?_, by simp⟩
    · conv_lhs => rw [← takeWhile_append_dropWhile (p := (· != ':')) (l := action.toList)]
      simp [htake, hdrop, hcolon]
    · intro hmem
      rw [String.toList_ofList, ← htake] at hmem
      simpa using mem_takeWhile_imp hmem
  · cases h

lemma splitAction_of_append {action : String} {ns act : List Char} (hns : ':' ∉ ns)
    (hne : ns ≠ []) (h : action.toList = ns ++ ':' :: act) :
    splitAction action = some (String.ofList ns, String.ofList act) := by
  have hall : ∀ c ∈ ns, (c != ':') = true := by
    intro c hc
    have hcne : c ≠ ':' := fun heq => hns (heq ▸ hc)
    simpa using hcne
  obtain ⟨c, cs, rfl⟩ := exists_cons_of_ne_nil hne
  rw [splitAction, span_eq_takeWhile_dropWhile, h, takeWhile_append_of_pos hall,
    dropWhile_append_of_pos hall]
  simp

lemma toLower_append_colon {s : String} {u v : List Char} (h : s.toList = u ++ ':' :: v) :
    (toLower s).toList = u.map lowerChar ++ ':' :: v.map lowerChar := by
  rw [toList_toLower, h, map_append, map_cons, (lowerChar_eq_sign (by decide)).2 rfl]

lemma colon_not_mem_lower {u : List Char} (h : ':' ∉ u) : ':' ∉ u.map lowerChar := by
  intro hmem
  obtain ⟨c, hc, hlow⟩ := mem_map.1 hmem
  exact h ((lowerChar_eq_sign (by decide)).1 hlow ▸ hc)

/-- A colon of a pattern stands for a colon, so a match splits there. -/
lemma accepts_colon {p q s : List Char} (h : iamGlob.accepts (p ++ ':' :: q) s = true) :
    ∃ u v, s = u ++ ':' :: v ∧ iamGlob.accepts p u = true ∧ iamGlob.accepts q v = true := by
  obtain ⟨u, w, rfl, hu, hw⟩ := Glob.accepts_append.1 h
  obtain ⟨a, v, rfl, ha, hv⟩ := (Glob.accepts_symbol rfl).1 hw
  have hcolon : ':' = a := by simpa [iamGlob] using ha
  subst hcolon
  exact ⟨u, v, rfl, hu, hv⟩

lemma accepts_append_colon {p q u v : List Char} (hp : iamGlob.accepts p u = true)
    (hq : iamGlob.accepts q v = true) : iamGlob.accepts (p ++ ':' :: q) (u ++ ':' :: v) = true := by
  refine Glob.accepts_append.2 ⟨u, ':' :: v, rfl, hp, ?_⟩
  exact (Glob.accepts_symbol rfl).2 ⟨':', v, rfl, by simp [iamGlob], hq⟩

/-- Stars match every action. -/
lemma iamGlob_stars {s : String} {t : List Char} (h : allStars s = true) :
    iamGlob.accepts (toLower s).toList t = true := by
  have hs : s.toList ≠ [] ∧ ∀ c ∈ s.toList, c = '*' := by simpa [allStars] using h
  refine Glob.accepts_of_stars (by simpa using hs.1) fun c hc => ?_
  rw [toList_toLower] at hc
  obtain ⟨d, hd, rfl⟩ := mem_map.1 hc
  rw [hs.2 d hd, (lowerChar_eq_sign (by decide)).2 rfl]
  rfl

/-- The action `x` of the namespace `ns`. -/
def actionOf (ns x : String) : String :=
  ns ++ ":" ++ x

lemma toList_actionOf (ns x : String) : (actionOf ns x).toList = ns.toList ++ ':' :: x.toList := by
  simp [actionOf]

/-- A namespace name: ASCII without the signs of patterns. -/
def IsNamespace (ns : String) : Prop :=
  (∀ c ∈ ns.toList, c.toNat < 128) ∧ ':' ∉ ns.toList ∧ '*' ∉ ns.toList ∧ '?' ∉ ns.toList

lemma exists_append_of_mem_tail {s : List Char} {d : Char} (h : d ∈ s.tail) :
    ∃ u v, u ≠ [] ∧ s = u ++ d :: v := by
  cases s with
  | nil => exact absurd h not_mem_nil
  | cons c s =>
      obtain ⟨u, v, rfl⟩ := append_of_mem h
      exact ⟨c :: u, v, cons_ne_nil c u, rfl⟩

instance : DecidablePred IsNamespace := fun _ => inferInstanceAs (Decidable (_ ∧ _))

section

variable {entry ns x : String}

/-- A pattern that covers a whole namespace matches all its actions. -/
lemma iamMatches_of_coversWhole (hns : IsNamespace ns)
    (h : patternCoversWholeNamespace entry ns = true) :
    iamMatches entry (actionOf ns x) = true := by
  rw [patternCoversWholeNamespace, Bool.or_eq_true] at h
  rcases h with hstars | h
  · exact iamGlob_stars hstars
  · split at h
    · rename_i pns act hsplit
      rw [Bool.and_eq_true] at h
      obtain ⟨htext, -, -⟩ := splitAction_eq_some hsplit
      have hglob := accepts_of_globMatch hns.1 hns.2.2.1 h.2
      rw [toList_toLower, toList_toLower] at hglob
      have hact := iamGlob_stars h.1 (t := x.toList.map lowerChar)
      rw [toList_toLower] at hact
      rw [iamMatches, toLower_append_colon htext, toLower_append_colon (toList_actionOf ns x)]
      exact accepts_append_colon hglob hact
    · exact absurd h Bool.false_ne_true

/-- A pattern that matches an action of a namespace covers the namespace. -/
lemma covers_of_iamMatches (hentry : IamEntry entry) (hns : IsNamespace ns)
    (hx : ':' ∉ x.toList) (h : iamMatches entry (actionOf ns x) = true) :
    patternCoversNamespace entry ns = true := by
  rw [patternCoversNamespace, Bool.or_eq_true]
  rw [iamMatches, toLower_append_colon (toList_actionOf ns x)] at h
  rcases hentry.2 with hstars | htail
  · left
    have hne : entry.toList ≠ [] := by
      rintro hnil
      rw [toList_toLower, hnil] at h
      simp at h
    simpa [allStars] using ⟨by simpa using hne, hstars⟩
  · right
    obtain ⟨u, v, hu, htext⟩ := exists_append_of_mem_tail htail
    have hlow := colon_not_mem_lower hns.2.1
    rw [toLower_append_colon htext] at h
    obtain ⟨a, b, hab, ha, -⟩ := accepts_colon h
    obtain ⟨rfl, rfl⟩ : a = ns.toList.map lowerChar ∧ b = x.toList.map lowerChar := by
      -- the action has one colon only, so the pattern's colon stands for that one
      have hb : ':' ∉ a := by
        intro hmem
        have hcount := congrArg (List.count ':') hab
        have hzero := count_eq_zero.2 hlow
        have hzero' := count_eq_zero.2 (colon_not_mem_lower hx)
        have hpos := count_pos_iff.2 hmem
        simp only [count_append, count_cons_self] at hcount
        omega
      obtain ⟨hn, hm⟩ := append_sep_inj hlow hb hab
      exact ⟨hn.symm, hm.symm⟩
    have hcolon : ':' ∉ u := by
      intro hmem
      obtain ⟨u₁, u₂, rfl⟩ := append_of_mem hmem
      rw [map_append, map_cons, (lowerChar_eq_sign (by decide)).2 rfl] at ha
      obtain ⟨s, t, hst, -, -⟩ := accepts_colon ha
      exact hlow (hst ▸ by simp)
    rw [splitAction_of_append hcolon hu htext]
    have hascii : ∀ c ∈ (String.ofList u).toList, c.toNat < 128 := by
      intro c hc
      refine hentry.1 c ?_
      rw [htext]
      exact mem_append_left _ (by simpa using hc)
    simpa [globMatch_eq hns.1 hns.2.2.1 hascii] using ha

/-- A statement that grants an action of a namespace grants the namespace. -/
lemma grantsNamespace_of_grants {st : Statement} (hentries : ∀ e ∈ st.actions.entries, IamEntry e)
    (hns : IsNamespace ns) (hx : ':' ∉ x.toList) (h : st.grants (actionOf ns x) = true) :
    st.grantsNamespace ns = true := by
  rw [Statement.grants] at h
  rw [Statement.grantsNamespace]
  cases heffect : st.effect with
  | deny => simp [heffect] at h
  | allow =>
      cases hactions : st.actions with
      | notAction entries =>
          simp only [heffect, hactions, Bool.not_eq_true', any_eq_false] at h ⊢
          intro e he hcovers
          exact h e he (iamMatches_of_coversWhole hns hcovers)
      | action entries =>
          simp only [heffect, hactions, any_eq_true] at h ⊢
          obtain ⟨e, he, hmatch⟩ := h
          refine ⟨e, he, covers_of_iamMatches (hentries e ?_) hns hx hmatch⟩
          simpa [hactions, Actions.entries] using he

end

/-- A document found to exclude a namespace grants none of its actions. -/
theorem not_grants_of_boundaryExcludes (doc : PolicyDocument) (ns : String)
    (hentries : ∀ st ∈ doc.statements, ∀ e ∈ st.actions.entries, IamEntry e)
    (hns : IsNamespace ns) (h : boundaryExcludes doc ns = true) (x : String)
    (hx : ':' ∉ x.toList) : ∀ st ∈ doc.statements, st.grants (actionOf ns x) = false := by
  intro st hst
  rw [← Bool.not_eq_true]
  intro hgrants
  have hnone : ∀ st ∈ doc.statements, st.grantsNamespace ns = false := by
    simpa [boundaryExcludes] using h
  have hsome := grantsNamespace_of_grants (hentries st hst) hns hx hgrants
  rw [hnone st hst] at hsome
  exact Bool.false_ne_true hsome

def exampleBoundary : Bytes :=
  utf8 "%7B\"Version\": \"2012-10-17\", \"Statement\": [
    \x7b\"Effect\": \"Allow\", \"NotAction\": [\"s?s:*\", \"iam:Get*\"], \"Resource\": \"*\"\x7d,
    \x7b\"Effect\": \"Allow\", \"Action\": \"s3:*\", \"Resource\": \"*\"\x7d]\x7d"

/-- The facts about a decoded text that the theorem assumes. -/
def excludesSqs (doc : PolicyDocument) : Bool :=
  doc.statements.all (fun st => st.actions.entries.all fun e => decide (IamEntry e)) &&
    boundaryExcludes doc "sqs"

/-- A boundary that leaves queues out. -/
theorem not_grants_sqs :
    ∃ doc, decodePolicyDocument exampleBoundary = .ok doc ∧ boundaryExcludes doc "sqs" = true ∧
      ∀ st ∈ doc.statements, st.grants (actionOf "sqs" "SendMessage") = false := by
  have hrun : (match decodePolicyDocument exampleBoundary with
      | .ok doc => excludesSqs doc
      | .error _ => false) = true := by decide +kernel
  split at hrun
  · rename_i doc hdoc
    have hfacts : (∀ st ∈ doc.statements, ∀ e ∈ st.actions.entries, IamEntry e) ∧
        boundaryExcludes doc "sqs" = true := by simpa [excludesSqs] using hrun
    refine ⟨doc, hdoc, hfacts.2, ?_⟩
    exact not_grants_of_boundaryExcludes doc "sqs" hfacts.1 (by decide) hfacts.2 "SendMessage"
      (by decide)
  · exact absurd hrun Bool.false_ne_true

end AuthSec

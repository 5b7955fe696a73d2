import AuthSec.Go.Collections
import AuthSec.Go.Unmarshal
import AuthSec.Lib.Pieces

/-!
# Input constraints of connector actions

An assignment of a connector may bound the input of its actions, field by field.  A field may have
three rules; `evalInputConstraints` checks the first one it finds.  Its globs look for the last piece
of the pattern at the end of the whole text, where it may stand over other pieces.

* `checkRule_sound_iff`: when the rule that is checked implies the others;
* `globMatch_iff`: when a pattern is matched as it reads;
* `evalInputConstraints_sound_iff`: both, for a whole set of constraints.
-/

namespace AuthSec.Connector

open List

/-! ## Globs -/

/-- `strings.Index`, in characters. -/
def index (s part : List Char) : Option ℕ :=
  (s.dropInfix? part).map fun around => around.1.length

/-- The loop of `globMatch` over the pieces in the middle: the position behind the last of them. -/
def findMids (s : List Char) : ℕ → List (List Char) → Option ℕ
  | pos, [] => some pos
  | pos, mid :: mids =>
    match index (s.drop pos) mid with
    | none => none
    | some idx => findMids s (pos + (idx + mid.length)) mids

/-- `globMatch`. -/
def globMatch (pattern s : String) : Bool :=
  let parts := pattern.toList.splitOn '*'
  let first := parts.headD []
  let last := parts.getLastD []
  if parts.length = 1 then s = pattern
  else if ¬first <+: s.toList then false
  else if ¬last <:+ s.toList then false
  else
    match findMids s.toList first.length parts.tail.dropLast with
    | none => false
    | some pos => pos ≤ s.toList.length

/-! ## Rules -/

/-- The rules of a field. -/
structure InputRule where
  equals : Option String
  oneOf : Option (List String)
  glob : Option String
deriving DecidableEq

/-- The rules of a field as they are decoded.  Members with other names are passed over. -/
def intoRule (v : Json NumberText) : Except String InputRule := do
  let ms ← objectMembers v
  let equals ← fieldInto intoPtr "equals" ms none
  let oneOf ← fieldInto Unmarshal.intoSlice "one_of" ms {}
  let glob ← fieldInto intoPtr "glob" ms none
  return ⟨equals, oneOf.strings, glob⟩

/-- The constraints of a text by field: the last member of a name decides. -/
def constraintRules (raw : Bytes) : Except String (GoMap InputRule) :=
  match Unmarshal.scanText raw with
  | none => .error "invalid JSON"
  | some v => do
      let ms ← objectMembers v
      let rules ← ms.mapM fun m => do return (m.1, ← intoRule m.2)
      return GoMap.ofList rules

/-- The switch over the rules of a field: the first one that is given decides. -/
def checkRule (field : String) (rule : InputRule) (s : String) : Except String Unit :=
  match rule with
  | ⟨some want, _, _⟩ => if s ≠ want then .error (field ++ " must equal " ++ want) else .ok ()
  | ⟨none, some allowed, _⟩ =>
    if s ∉ allowed then .error (field ++ " not in allowed set") else .ok ()
  | ⟨none, none, some pattern⟩ =>
    if !globMatch pattern s then .error (field ++ " does not match " ++ pattern) else .ok ()
  | ⟨none, none, none⟩ => .error ("no rule for field " ++ field)

/-- The check of a field. -/
def checkField (input : GoMap (Json Float64)) (e : String × InputRule) : Except String Unit :=
  match input.get? e.1 with
  | some (.str s) => checkRule e.1 e.2 s
  | _ => .error ("field " ++ e.1 ++ " missing or not a string")

/-- The texts that stand for no constraints. -/
def noConstraints : List Bytes :=
  [[], utf8 "\x7b\x7d", utf8 "null"]

/-- `evalInputConstraints`; its result is false with a reason where there is an error. -/
def evalInputConstraints (raw : Bytes) (input : GoMap (Json Float64)) : Except String Unit :=
  if raw ∈ noConstraints then .ok ()
  else
    match constraintRules raw with
    | .error _ => .error "malformed input_constraints"
    | .ok rules => rules.sortedPairs.forM (checkField input)

/-! ## What the rules say -/

/-- The whole text matches the pattern, where a star stands for any run of characters. -/
def Matches (pattern s : String) : Prop :=
  (Glob.literal '*').accepts pattern.toList s.toList = true

instance (pattern s : String) : Decidable (Matches pattern s) :=
  inferInstanceAs (Decidable (_ = _))

/-- Every rule that is given holds of the text. -/
structure InputRule.Holds (rule : InputRule) (s : String) : Prop where
  equals : ∀ want ∈ rule.equals, s = want
  oneOf : ∀ allowed ∈ rule.oneOf, s ∈ allowed
  glob : ∀ pattern ∈ rule.glob, Matches pattern s

/-- Where input is accepted, every field with rules is a text for which the rules hold. -/
def Sound (raw : Bytes) : Prop :=
  ∀ input, evalInputConstraints raw input = .ok () →
    ∀ rules, constraintRules raw = .ok rules → ∀ field rule, rules.get? field = some rule →
      ∃ s, input.get? field = some (.str s) ∧ rule.Holds s

/-- The pattern has no star, or its last piece is clear of the pieces in front. -/
def ClearPattern (pattern : String) : Prop :=
  let parts := pattern.toList.splitOn '*'
  parts.length = 1 ∨ Clear (parts.headD []) parts.tail.dropLast (parts.getLastD [])

instance (pattern : String) : Decidable (ClearPattern pattern) :=
  inferInstanceAs (Decidable (_ ∨ _))

/-- The first rule that is given implies the others, and its pattern is clear. -/
def InputRule.Consistent : InputRule → Prop
  | ⟨some want, oneOf, glob⟩ =>
    (∀ allowed ∈ oneOf, want ∈ allowed) ∧ ∀ pattern ∈ glob, Matches pattern want
  | ⟨none, some allowed, glob⟩ => ∀ pattern ∈ glob, ∀ v ∈ allowed, Matches pattern v
  | ⟨none, none, some pattern⟩ => ClearPattern pattern
  | ⟨none, none, none⟩ => True

/-- No text is accepted: there is no rule, or nothing is allowed. -/
def InputRule.Refuses (rule : InputRule) : Prop :=
  rule.equals = none ∧ (rule.oneOf = some [] ∨ rule.oneOf = none ∧ rule.glob = none)

/-! ## Globs as they are matched -/

/-- The loop is the search from the left. -/
lemma findMids_eq {s : List Char} {pos : ℕ} (hpos : pos ≤ s.length) (mids : List (List Char)) :
    findMids s pos mids = (afterAll mids (s.drop pos)).map fun r => s.length - r.length := by
  induction mids generalizing pos with
  | nil =>
      rw [findMids, afterAll, Option.map_some, length_drop, Nat.sub_sub_self hpos]
  | cons mid mids ih =>
      rw [findMids, afterAll, index, after]
      cases hdrop : (s.drop pos).dropInfix? mid with
      | none => rfl
      | some around =>
          obtain ⟨u, r⟩ := around
          obtain ⟨⟨mid', hs, hmid⟩, -⟩ := dropInfix?_eq_some_iff.1 hdrop
          obtain rfl := eq_of_beq hmid
          have hlength := congrArg List.length hs
          simp only [length_drop, length_append] at hlength
          have hr : s.drop (pos + (u.length + mid'.length)) = r := by
            rw [← drop_drop, hs, ← length_append, drop_left]
          simp only [Option.map_some, Option.bind_some]
          rw [ih (by omega), hr]

variable {pattern s : String} {first : List Char}

/-- A pattern without a star. -/
lemma globMatch_word (h : pattern.toList.splitOn '*' = [first]) :
    globMatch pattern s = true ↔ s = pattern := by
  simp [globMatch, h]

/-- A pattern with stars. -/
lemma globMatch_pieces {last : List Char} {mids : List (List Char)}
    (h : pattern.toList.splitOn '*' = first :: (mids ++ [last])) :
    globMatch pattern s = true ↔
      ∃ t, s.toList = first ++ t ∧ last <:+ first ++ t ∧ ∃ r, afterAll mids t = some r := by
  have hlast : (first :: (mids ++ [last])).getLastD [] = last := by
    rw [← cons_append, getLastD_concat]
  have hmids : (first :: (mids ++ [last])).tail.dropLast = mids := by simp
  have hlength : (first :: (mids ++ [last])).length ≠ 1 := by simp
  simp only [globMatch, h, hlast, hmids, if_neg hlength, headD_cons]
  constructor
  · intro hmatch
    split_ifs at hmatch with hfirst hends
    obtain ⟨t, ht⟩ := hfirst
    refine ⟨t, ht.symm, by rwa [ht], ?_⟩
    rw [← ht, findMids_eq (by simp), drop_left] at hmatch
    cases hafter : afterAll mids t with
    | none => simp [hafter] at hmatch
    | some r => exact ⟨r, rfl⟩
  · rintro ⟨t, ht, hends, r, hr⟩
    rw [ht, if_neg (not_not.2 (prefix_append first t)), if_neg (not_not.2 hends),
      findMids_eq (by simp), drop_left, hr]
    simp

/-- The first piece of a pattern and those behind it. -/
lemma splitOn_cases (p : List Char) :
    (∃ first, p.splitOn '*' = [first]) ∨
      ∃ first mids last, p.splitOn '*' = first :: (mids ++ [last]) := by
  cases hparts : p.splitOn '*' with
  | nil => exact absurd hparts (splitOnP_ne_nil _ p)
  | cons first more =>
      rcases eq_nil_or_concat more with rfl | ⟨mids, last, rfl⟩
      · exact Or.inl ⟨first, rfl⟩
      · exact Or.inr ⟨first, mids, last, by rw [concat_eq_append]⟩

lemma matches_word (h : pattern.toList.splitOn '*' = [first]) :
    Matches pattern s ↔ s = pattern := by
  obtain ⟨-, ⟨-, hfirst⟩ | ⟨q, -, hq⟩⟩ := Glob.splitOn_eq_cons h
  · rw [Matches, Glob.accepts_iff_standInOrder h, ← String.toList_inj, hfirst]
    simp [StandInOrder]
  · exact absurd hq (splitOnP_ne_nil _ q)

lemma matches_pieces {last : List Char} {mids : List (List Char)}
    (h : pattern.toList.splitOn '*' = first :: (mids ++ [last])) :
    Matches pattern s ↔
      ∃ t, s.toList = first ++ t ∧ ∃ r, afterAll mids t = some r ∧ last <:+ r := by
  rw [Matches, Glob.accepts_iff_standInOrder h]
  exact exists_congr fun t => and_congr_right fun _ => standInOrder_iff_afterAll

/-- What matches is matched. -/
lemma globMatch_of_matches (h : Matches pattern s) : globMatch pattern s = true := by
  rcases splitOn_cases pattern.toList with ⟨first, hparts⟩ | ⟨first, mids, last, hparts⟩
  · exact (globMatch_word hparts).2 ((matches_word hparts).1 h)
  · obtain ⟨t, hs, r, hr, hlast⟩ := (matches_pieces hparts).1 h
    obtain ⟨x, rfl, -⟩ := afterAll_passed hr
    refine (globMatch_pieces hparts).2 ⟨_, hs, ?_, r, hr⟩
    exact hlast.trans ((suffix_append x r).trans (suffix_append first _))

/-- A pattern is matched as it reads exactly when it is clear. -/
lemma globMatch_iff :
    (∀ s, globMatch pattern s = true → Matches pattern s) ↔ ClearPattern pattern := by
  rcases splitOn_cases pattern.toList with ⟨first, hparts⟩ | ⟨first, mids, last, hparts⟩
  · refine iff_of_true (fun s h => (matches_word hparts).2 ((globMatch_word hparts).1 h)) ?_
    exact Or.inl (by rw [hparts, length_singleton])
  · have hclear : ClearPattern pattern ↔ Clear first mids last := by
      rw [ClearPattern, hparts, ← cons_append, getLastD_concat]
      simp
    rw [hclear, ← clear_iff]
    constructor
    · intro h l r hlast hr
      have hmatch := (globMatch_pieces (s := String.ofList (first ++ l)) hparts).2
        ⟨l, String.toList_ofList, hlast, r, hr⟩
      obtain ⟨t, ht, r', hr', hends⟩ := (matches_pieces hparts).1 (h _ hmatch)
      rw [String.toList_ofList, append_cancel_left_eq] at ht
      rw [← ht, hr] at hr'
      rwa [Option.some.inj hr']
    · intro h s hmatch
      obtain ⟨t, hs, hlast, r, hr⟩ := (globMatch_pieces hparts).1 hmatch
      exact (matches_pieces hparts).2 ⟨t, hs, r, hr, h t r hlast hr⟩

/-! ## The rules of a field -/

variable (field : String) {rule : InputRule}

/-- A text that is accepted satisfies every rule exactly when the rules are consistent. -/
lemma checkRule_sound_iff :
    (∀ s, checkRule field rule s = .ok () → rule.Holds s) ↔ rule.Consistent := by
  obtain ⟨equals, oneOf, glob⟩ := rule
  cases equals with
  | some want =>
      have hcheck : ∀ s, checkRule field ⟨some want, oneOf, glob⟩ s = .ok () ↔ s = want :=
        fun s => by by_cases h : s = want <;> simp [checkRule, h]
      simp only [hcheck, forall_eq]
      exact ⟨fun h => ⟨h.oneOf, h.glob⟩, fun h => ⟨by simp, h.1, h.2⟩⟩
  | none =>
      cases oneOf with
      | some allowed =>
          have hcheck : ∀ s, checkRule field ⟨none, some allowed, glob⟩ s = .ok () ↔ s ∈ allowed :=
            fun s => by by_cases h : s ∈ allowed <;> simp [checkRule, h]
          simp only [hcheck]
          constructor
          · exact fun h pattern hpattern v hv => (h v hv).glob pattern hpattern
          · exact fun h s hs => ⟨by simp, by simpa using hs, fun p hp => h p hp s hs⟩
      | none =>
          cases glob with
          | some pattern =>
              have hcheck : ∀ s, checkRule field ⟨none, none, some pattern⟩ s = .ok () ↔
                  globMatch pattern s = true := fun s => by
                by_cases h : globMatch pattern s = true <;> simp [checkRule, h]
              simp only [hcheck]
              rw [InputRule.Consistent, ← globMatch_iff]
              exact forall₂_congr fun s _ => ⟨fun h => h.glob _ rfl,
                fun h => ⟨by simp, by simp, by simpa using h⟩⟩
          | none => simp [checkRule, InputRule.Consistent]

/-- A pattern matches itself. -/
lemma matches_self (pattern : String) : Matches pattern pattern := by
  rw [Matches]
  induction pattern.toList with
  | nil => rfl
  | cons c p ih =>
      by_cases hc : c = '*'
      · exact (Glob.accepts_star (decide_eq_true hc)).2 ⟨p, suffix_cons c p, ih⟩
      · exact (Glob.accepts_symbol (decide_eq_false hc)).2 ⟨c, p, rfl, decide_eq_true rfl, ih⟩

lemma refuses_iff : rule.Refuses ↔ ∀ s, checkRule field rule s ≠ .ok () := by
  obtain ⟨equals, oneOf, glob⟩ := rule
  rw [InputRule.Refuses]
  cases equals with
  | some want => simp [checkRule]
  | none =>
      cases oneOf with
      | some allowed => simp [checkRule, eq_nil_iff_forall_not_mem]
      | none =>
          cases glob with
          | some pattern =>
              simp only [reduceCtorEq, and_false, or_self, ne_eq, false_iff, not_forall, not_not]
              exact ⟨pattern, by simp [checkRule, globMatch_of_matches (matches_self pattern)]⟩
          | none => simp [checkRule]

/-! ## Whole sets of constraints -/

lemma get?_of_noConstraints {raw : Bytes} (hraw : raw ∈ noConstraints) {rules : GoMap InputRule}
    (h : constraintRules raw = .ok rules) (field : String) : rules.get? field = none := by
  have hempty : constraintRules raw = .ok ∅ → rules.get? field = none := fun hr => by
    rw [← Except.ok.inj (hr.symm.trans h), GoMap.get?_empty]
  simp only [noConstraints, mem_cons, not_mem_nil, or_false] at hraw
  rcases hraw with rfl | rfl | rfl
  · exact absurd h (by rintro ⟨⟩)
  · exact hempty rfl
  · exact hempty rfl

lemma checkField_eq_ok {input : GoMap (Json Float64)} {e : String × InputRule} :
    checkField input e = .ok () ↔
      ∃ s, input.get? e.1 = some (.str s) ∧ checkRule e.1 e.2 s = .ok () := by
  unfold checkField
  split
  · rename_i s hs
    simp [hs]
  · rename_i hother
    simp only [reduceCtorEq, false_iff, not_exists, not_and]
    exact fun s hs => absurd hs (hother s)

lemma evalInputConstraints_eq_ok {raw : Bytes} {rules : GoMap InputRule}
    (h : constraintRules raw = .ok rules) {input : GoMap (Json Float64)} :
    evalInputConstraints raw input = .ok () ↔ ∀ field rule, rules.get? field = some rule →
      ∃ s, input.get? field = some (.str s) ∧ checkRule field rule s = .ok () := by
  unfold evalInputConstraints
  split_ifs with hraw
  · simp [get?_of_noConstraints hraw h]
  · rw [h]
    simp only [forM_eq_ok, Prod.forall, GoMap.mem_sortedPairs, checkField_eq_ok]

/-- Input with a text for each field. -/
lemma exists_input (rules : GoMap InputRule) (text : String → InputRule → String) :
    ∃ input : GoMap (Json Float64), ∀ field rule, rules.get? field = some rule →
      input.get? field = some (.str (text field rule)) := by
  refine ⟨GoMap.ofList (rules.sortedPairs.map fun e => (e.1, .str (text e.1 e.2))), ?_⟩
  intro field rule hrule
  have hkeys : ((rules.sortedPairs.map fun e =>
      (e.1, (Json.str (text e.1 e.2) : Json Float64))).map Prod.fst).Nodup := by
    rw [List.map_map]
    exact rules.nodup_sortedPairs
  refine (GoMap.get?_ofList hkeys ..).2 (mem_map.2 ⟨(field, rule), ?_, rfl⟩)
  exact (GoMap.mem_sortedPairs ..).2 hrule

/-- Accepted input satisfies every rule exactly when some field has no acceptable text or the rules
of every field are consistent; and a pattern is matched as it reads exactly when it is clear. -/
theorem evalInputConstraints_sound_iff (raw : Bytes) (pattern : String) :
    (Sound raw ↔ ∀ rules, constraintRules raw = .ok rules →
      (∃ field rule, rules.get? field = some rule ∧ rule.Refuses) ∨
        ∀ field rule, rules.get? field = some rule → rule.Consistent) ∧
      ((∀ s, globMatch pattern s = true ↔ Matches pattern s) ↔ ClearPattern pattern) := by
  refine ⟨⟨fun hsound rules h => ?_, fun hcond input hok rules h field rule hrule => ?_⟩, ?_⟩
  · rw [or_iff_not_imp_left]
    intro hsome field rule hrule
    refine (checkRule_sound_iff field).1 fun s hs => ?_
    have htext : ∀ field rule, rules.get? field = some rule →
        ∃ s, checkRule field rule s = .ok () := by
      intro field rule hrule
      by_contra hnone
      exact hsome ⟨field, rule, hrule, (refuses_iff field).2 (not_exists.1 hnone)⟩
    choose! text htext using htext
    obtain ⟨input, hinput⟩ := exists_input rules fun f r => if f = field then s else text f r
    have hok : evalInputConstraints raw input = .ok () := by
      refine (evalInputConstraints_eq_ok h).2 fun f r hr => ⟨_, hinput f r hr, ?_⟩
      split_ifs with hf
      · subst hf
        rwa [Option.some.inj (hr.symm.trans hrule)]
      · exact htext f r hr
    obtain ⟨s', hs', hholds⟩ := hsound input hok rules h field rule hrule
    rw [hinput field rule hrule, if_pos rfl] at hs'
    rwa [Json.str.inj (Option.some.inj hs')]
  · have haccepted := (evalInputConstraints_eq_ok h).1 hok
    rcases hcond rules h with ⟨f, r, hr, hrefuses⟩ | hconsistent
    · obtain ⟨s, -, hs⟩ := haccepted f r hr
      exact absurd hs ((refuses_iff f).1 hrefuses s)
    · obtain ⟨s, hinput, hs⟩ := haccepted field rule hrule
      exact ⟨s, hinput, (checkRule_sound_iff field).2 (hconsistent field rule hrule) s hs⟩
  · rw [← globMatch_iff]
    exact forall_congr' fun s => ⟨fun h => h.1, fun h => ⟨h, globMatch_of_matches⟩⟩

/-! ## Examples -/

/-- Constraints with two rules for one field. -/
def twoRules : Bytes :=
  utf8 "\x7b\"repo\":\x7b\"equals\":\"acme\",\"glob\":\"release-*\"\x7d\x7d"

lemma constraintRules_twoRules :
    constraintRules twoRules = .ok (GoMap.ofList [("repo", ⟨some "acme", none, some "release-*"⟩)]) := by
  decide +kernel

/-- The second rule of a field is not checked, and a pattern is matched by a text in which its pieces
overlap. -/
theorem evalInputConstraints_twoRules :
    (evalInputConstraints twoRules (GoMap.ofList [("repo", .str "acme")]) = .ok () ∧
      ¬Sound twoRules) ∧ globMatch "ab*ba" "aba" = true ∧ ¬Matches "ab*ba" "aba" := by
  have hok : evalInputConstraints twoRules (GoMap.ofList [("repo", .str "acme")]) = .ok () := by
    decide +kernel
  refine ⟨⟨hok, fun hsound => ?_⟩, by decide +kernel, by decide +kernel⟩
  obtain ⟨s, -, hholds⟩ := hsound _ hok _ constraintRules_twoRules "repo"
    ⟨some "acme", none, some "release-*"⟩ (by rfl)
  obtain rfl := hholds.equals "acme" rfl
  exact absurd (hholds.glob "release-*" rfl) (by decide +kernel)

end AuthSec.Connector

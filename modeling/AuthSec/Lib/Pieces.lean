import AuthSec.Lib.Glob
import Mathlib.Order.Nat

/-!
# Patterns in pieces

A pattern with runs is cut at the runs.  A list matches when it starts with the first piece and the
other pieces stand behind it in order, the last one at the end.  A search from the left finds the
pieces between the first and the last one at their earliest places.

* `standInOrder_iff_afterAll`: the search decides the order, if the last piece is looked for behind the
  others;
* `clear_iff`: when the last piece may be looked for at the end of the whole list instead;
* `Glob.accepts_iff_standInOrder`: the meaning of a pattern in pieces.
-/

namespace AuthSec

open List

section

variable {α : Type} {m l : List α} {ms : List (List α)}

lemma suffix_of_shorter {u u' v v' : List α} (h : l = u ++ m ++ v) (h' : l = u' ++ m ++ v')
    (hle : u.length ≤ u'.length) : v' <:+ v := by
  have hlength := congrArg List.length (h.symm.trans h')
  simp only [length_append] at hlength
  exact suffix_of_suffix_length_le ⟨_, h'.symm⟩ ⟨_, h.symm⟩ (by omega)

/-! ## Pieces in order -/

/-- The pieces stand in the list in order, with anything in front of each and nothing behind the
last one. -/
def StandInOrder : List (List α) → List α → Prop
  | [], l => l = []
  | m :: ms, l => ∃ u v, l = u ++ m ++ v ∧ StandInOrder ms v

lemma StandInOrder.mono {l' : List α} (hne : ms ≠ []) (h : StandInOrder ms l) (hl : l <:+ l') :
    StandInOrder ms l' := by
  obtain ⟨m, ms, rfl⟩ := exists_cons_of_ne_nil hne
  obtain ⟨w, rfl⟩ := hl
  obtain ⟨u, v, rfl, hv⟩ := h
  exact ⟨w ++ u, v, by simp, hv⟩

/-- The last piece that is not empty. -/
def lastFull : List (List α) → Option (List α)
  | [] => none
  | m :: ms => (lastFull ms).or (if m.isEmpty then none else some m)

lemma eq_nil_of_lastFull (h : lastFull ms = none) : ∀ m ∈ ms, m = [] := by
  induction ms with
  | nil => simp
  | cons m ms ih =>
      rw [lastFull, Option.or_eq_none_iff] at h
      rw [forall_mem_cons]
      refine ⟨?_, ih h.1⟩
      by_contra hne
      simp [hne] at h

lemma exists_of_lastFull (h : lastFull ms = some m) :
    m ≠ [] ∧ ∃ as bs, ms = as ++ m :: bs ∧ ∀ b ∈ bs, b = [] := by
  induction ms with
  | nil => simp [lastFull] at h
  | cons n ms ih =>
      rw [lastFull, Option.or_eq_some_iff] at h
      rcases h with h | ⟨hnone, h⟩
      · obtain ⟨hne, as, bs, rfl, hbs⟩ := ih h
        exact ⟨hne, n :: as, bs, rfl, hbs⟩
      · split_ifs at h with hn
        obtain rfl := Option.some.inj h
        exact ⟨by simpa using hn, [], ms, rfl, eq_nil_of_lastFull hnone⟩

end

section

variable {α : Type} [DecidableEq α] {m l r first last : List α} {ms : List (List α)}

/-! ## Searching from the left -/

/-- What is left of the list behind the first place where the piece stands. -/
def after (m l : List α) : Option (List α) :=
  (l.dropInfix? m).map Prod.snd

/-- The same for several pieces, each searched behind the one before. -/
def afterAll : List (List α) → List α → Option (List α)
  | [], l => some l
  | m :: ms, l => (after m l).bind (afterAll ms)

lemma after_eq_some : after m l = some r ↔
    (∃ u, l = u ++ m ++ r) ∧ ∀ u v, l = u ++ m ++ v → v <:+ r := by
  rw [after, Option.map_eq_some_iff]
  constructor
  · rintro ⟨⟨u, r⟩, hdrop, rfl⟩
    obtain ⟨⟨m', hl, hm⟩, hfirst⟩ := dropInfix?_eq_some_iff.1 hdrop
    obtain rfl := eq_of_beq hm
    refine ⟨⟨u, hl⟩, fun u' v hv => ?_⟩
    have hle := hfirst u' _ v hv (beq_self_eq_true _)
    exact suffix_of_shorter hl hv hle
  · rintro ⟨⟨u, hl⟩, hfirst⟩
    refine ⟨(u, r), dropInfix?_eq_some_iff.2 ⟨⟨m, hl, beq_self_eq_true m⟩, ?_⟩, rfl⟩
    intro u' m' v hv hm
    obtain rfl := eq_of_beq hm
    have hle := (hfirst u' v hv).length_le
    have hlength := congrArg List.length (hl.symm.trans hv)
    simp only [length_append] at hlength
    omega

lemma after_append (m l : List α) : after m (m ++ l) = some l :=
  after_eq_some.2 ⟨⟨[], rfl⟩, fun _ _ hv => suffix_of_shorter (u := []) rfl hv (Nat.zero_le _)⟩

lemma exists_after_of_infix (h : m <:+: l) : ∃ r, after m l = some r := by
  have hplace : ∃ n u v, u.length = n ∧ l = u ++ m ++ v := by
    obtain ⟨u, v, hl⟩ := h
    exact ⟨_, u, v, rfl, hl.symm⟩
  classical
  obtain ⟨u, v, hu, hl⟩ := Nat.find_spec hplace
  refine ⟨v, after_eq_some.2 ⟨⟨u, hl⟩, fun u' v' hl' => suffix_of_shorter hl hl' ?_⟩⟩
  rw [hu]
  exact Nat.find_min' hplace ⟨u', v', rfl, hl'⟩

lemma afterAll_append (ms ns : List (List α)) (l : List α) :
    afterAll (ms ++ ns) l = (afterAll ms l).bind (afterAll ns) := by
  induction ms generalizing l with
  | nil => rfl
  | cons m ms ih =>
      rw [cons_append, afterAll, afterAll, Option.bind_assoc]
      exact congrArg _ (funext ih)

/-- Pieces that stand one behind the other are found there. -/
lemma afterAll_flatten (ms : List (List α)) (l : List α) :
    afterAll ms (ms.flatten ++ l) = some l := by
  induction ms with
  | nil => rfl
  | cons m ms ih =>
      rw [flatten_cons, append_assoc, afterAll, after_append, Option.bind_some, ih]

/-- The earliest places leave the most for the last piece. -/
lemma standInOrder_iff_afterAll :
    StandInOrder (ms ++ [last]) l ↔ ∃ r, afterAll ms l = some r ∧ last <:+ r := by
  induction ms generalizing l with
  | nil =>
      constructor
      · rintro ⟨u, v, rfl, rfl⟩
        exact ⟨_, rfl, by simp⟩
      · rintro ⟨r, hr, u, hu⟩
        obtain rfl := Option.some.inj hr
        exact ⟨u, [], by simp [hu], rfl⟩
  | cons m ms ih =>
      constructor
      · rintro ⟨u, v, hl, hv⟩
        obtain ⟨r, hr⟩ := exists_after_of_infix (m := m) ⟨u, v, hl.symm⟩
        obtain ⟨r', hr', hlast⟩ := ih.1 (hv.mono (by simp) ((after_eq_some.1 hr).2 u v hl))
        exact ⟨r', by rw [afterAll, hr, Option.bind_some, hr'], hlast⟩
      · rintro ⟨r', hr', hlast⟩
        obtain ⟨r, hr, hrest⟩ := Option.bind_eq_some_iff.1 hr'
        obtain ⟨⟨u, hl⟩, -⟩ := after_eq_some.1 hr
        exact ⟨u, r, hl, ih.2 ⟨r', hrest, hlast⟩⟩

/-! ## The last piece at the end of the whole list -/

/-- What the search passes ends with the last full piece. -/
lemma afterAll_passed (h : afterAll ms l = some r) :
    ∃ x, l = x ++ r ∧ (lastFull ms = none → x = []) ∧ ∀ m, lastFull ms = some m → m <:+ x := by
  induction ms generalizing l with
  | nil =>
      obtain rfl := Option.some.inj h
      exact ⟨[], rfl, fun _ => rfl, fun m hm => by simp [lastFull] at hm⟩
  | cons n ms ih =>
      obtain ⟨l', hl', hrest⟩ := Option.bind_eq_some_iff.1 h
      obtain ⟨⟨u, rfl⟩, -⟩ := after_eq_some.1 hl'
      obtain ⟨x, rfl, hnone, hsome⟩ := ih hrest
      refine ⟨u ++ n ++ x, by simp, fun hfull => ?_, fun m hm => ?_⟩
      · rw [lastFull, Option.or_eq_none_iff] at hfull
        have hn : n = [] := by simpa using hfull.2
        subst hn
        rw [append_nil] at hl' ⊢
        have hu : u = [] := by simpa using Option.some.inj ((after_append [] _).symm.trans hl')
        rw [hu, hnone hfull.1, append_nil]
      · rw [lastFull, Option.or_eq_some_iff] at hm
        rcases hm with hm | ⟨hfull, hm⟩
        · exact (hsome m hm).trans (suffix_append _ x)
        · split_ifs at hm
          obtain rfl := Option.some.inj hm
          rw [hnone hfull, append_nil]
          exact suffix_append u n

/-- No beginning of the last piece ends the full piece in front of it, or the first piece if there is
none, and the last piece does not hold the full piece in front of it. -/
def Clear (first : List α) (ms : List (List α)) (last : List α) : Prop :=
  ∀ w ∈ last.inits, w ≠ [] →
    (lastFull ms = none → ¬w <:+ first) ∧ ∀ m ∈ lastFull ms, ¬w <:+ m ∧ ¬m <:+ w

instance (first last : List α) (ms : List (List α)) : Decidable (Clear first ms last) :=
  inferInstanceAs (Decidable (∀ w ∈ last.inits, w ≠ [] →
    (lastFull ms = none → ¬w <:+ first) ∧ ∀ m ∈ lastFull ms, ¬w <:+ m ∧ ¬m <:+ w))

/-- A list in which the search leaves too little for the last piece. -/
lemma exists_short (h : ¬Clear first ms last) :
    ∃ l r, last <:+ first ++ l ∧ afterAll ms l = some r ∧ r.length < last.length := by
  simp only [Clear, not_forall, not_and_or, not_not, mem_inits] at h
  obtain ⟨w, ⟨l, rfl⟩, hw, h⟩ := h
  have hshort : l.length < (w ++ l).length := by
    rw [length_append]
    exact Nat.lt_add_of_pos_left (length_pos_iff.2 hw)
  rcases h with ⟨hnone, u, rfl⟩ | ⟨m, hm, h⟩
  · have hall : afterAll ms (ms.flatten ++ l) = some l := afterAll_flatten ms l
    rw [flatten_eq_nil_iff.2 (eq_nil_of_lastFull hnone)] at hall
    exact ⟨l, l, by simp, hall, hshort⟩
  · obtain ⟨hne, as, bs, rfl, hbs⟩ := exists_of_lastFull hm
    have hbs' : ∀ l : List α, afterAll bs l = some l := fun l => by
      have hall := afterAll_flatten bs l
      rwa [flatten_eq_nil_iff.2 hbs] at hall
    rcases h with ⟨u, rfl⟩ | ⟨u, rfl⟩
    -- the piece in front runs into the last one
    · refine ⟨as.flatten ++ ((u ++ w) ++ l), l, ⟨first ++ as.flatten ++ u, by simp⟩, ?_, hshort⟩
      rw [afterAll_append, afterAll_flatten, Option.bind_some, afterAll, after_append,
        Option.bind_some, hbs']
    -- the piece in front is found within the last one
    · obtain ⟨r, hr⟩ := exists_after_of_infix (m := m) (l := u ++ m ++ l) ⟨u, l, rfl⟩
      refine ⟨as.flatten ++ (u ++ m ++ l), r, ⟨first ++ as.flatten, by simp⟩, ?_, ?_⟩
      · rw [afterAll_append, afterAll_flatten, Option.bind_some, afterAll, hr, Option.bind_some,
          hbs']
      · obtain ⟨⟨u', hlast⟩, -⟩ := after_eq_some.1 hr
        have hpos := length_pos_iff.2 hne
        rw [hlast]
        simp only [length_append]
        omega

/-- The last piece may be looked for at the end of the whole list exactly when it is clear of the
pieces in front of it. -/
theorem clear_iff :
    (∀ l r, last <:+ first ++ l → afterAll ms l = some r → last <:+ r) ↔ Clear first ms last := by
  constructor
  · intro h
    by_contra hclear
    obtain ⟨l, r, hlast, hr, hshort⟩ := exists_short hclear
    exact absurd (h l r hlast hr).length_le (Nat.not_le.2 hshort)
  · intro hclear l r hlast hr
    obtain ⟨x, rfl, hnone, hsome⟩ := afterAll_passed hr
    have hr' : r <:+ first ++ (x ++ r) := (suffix_append x r).trans (suffix_append _ _)
    rcases suffix_or_suffix_of_suffix hlast hr' with hdone | ⟨w, rfl⟩
    · exact hdone
    obtain ⟨z, hz⟩ := hlast
    rw [← append_assoc, ← append_assoc, append_cancel_right_eq] at hz
    have hlast : w <:+ first ++ x := ⟨z, hz⟩
    by_cases hw : w = []
    · rw [hw, nil_append]
    obtain ⟨hfirst, hfull⟩ := hclear w ((mem_inits ..).2 (prefix_append w r)) hw
    cases hpiece : lastFull ms with
    | none =>
        rw [hnone hpiece, append_nil] at hlast
        exact absurd hlast (hfirst hpiece)
    | some m =>
        have hm : m <:+ first ++ x := (hsome m hpiece).trans (suffix_append _ _)
        obtain ⟨hends, hholds⟩ := hfull m hpiece
        rcases suffix_or_suffix_of_suffix hlast hm with h | h
        · exact absurd h hends
        · exact absurd h hholds

/-! ## The meaning of a pattern -/

namespace Glob

/-- One symbol stands for any run, every other one for itself. -/
def literal (star : α) : Glob α α where
  star c := c = star
  hit c a := c = a

variable {star : α} {p s : List α}

lemma accepts_word_append {w : List α} (hw : star ∉ w) :
    (literal star).accepts (w ++ p) s = true ↔
      ∃ t, s = w ++ t ∧ (literal star).accepts p t = true := by
  have hletters : ∀ u, (literal star).accepts w u = true ↔ w = u := fun u =>
    accepts_letters fun c hc =>
      ⟨decide_eq_false fun hstar => hw (hstar ▸ hc), fun a => decide_eq_true_iff⟩
  rw [accepts_append]
  constructor
  · rintro ⟨u, t, rfl, hu, ht⟩
    exact ⟨t, by rw [(hletters u).1 hu], ht⟩
  · rintro ⟨t, rfl, ht⟩
    exact ⟨w, t, rfl, (hletters w).2 rfl, ht⟩

/-- The first piece of a pattern, and what is behind it. -/
lemma splitOn_eq_cons (h : p.splitOn star = first :: ms) :
    star ∉ first ∧ (ms = [] ∧ p = first ∨
      ∃ q, p = first ++ star :: q ∧ q.splitOn star = ms) := by
  induction p generalizing first ms with
  | nil =>
      obtain ⟨rfl, rfl⟩ := List.cons.inj h
      exact ⟨not_mem_nil, Or.inl ⟨rfl, rfl⟩⟩
  | cons a p ih =>
      rw [List.splitOn, splitOnP_cons_eq_if_modifyHead, ← List.splitOn] at h
      by_cases ha : a = star
      · rw [if_pos (beq_iff_eq.2 ha)] at h
        obtain ⟨rfl, rfl⟩ := List.cons.inj h
        exact ⟨not_mem_nil, Or.inr ⟨p, by rw [ha, nil_append], rfl⟩⟩
      · rw [if_neg (fun heq => ha (eq_of_beq heq))] at h
        cases hsplit : p.splitOn star with
        | nil => exact absurd hsplit (splitOnP_ne_nil _ p)
        | cons first' ms' =>
            rw [hsplit, modifyHead_cons] at h
            obtain ⟨rfl, rfl⟩ := List.cons.inj h
            obtain ⟨hstar, hrest⟩ := ih hsplit
            refine ⟨fun hmem => ?_, ?_⟩
            · rcases mem_cons.1 hmem with heq | hmem
              · exact ha heq.symm
              · exact hstar hmem
            · rcases hrest with ⟨hnil, rfl⟩ | ⟨q, rfl, hq⟩
              · exact Or.inl ⟨hnil, rfl⟩
              · exact Or.inr ⟨q, rfl, hq⟩

/-- A list matches a pattern when it starts with the first piece and the others follow. -/
theorem accepts_iff_standInOrder (h : p.splitOn star = first :: ms) :
    (literal star).accepts p s = true ↔ ∃ t, s = first ++ t ∧ StandInOrder ms t := by
  induction ms generalizing p first s with
  | nil =>
      obtain ⟨hfirst, ⟨-, rfl⟩ | ⟨q, -, hq⟩⟩ := splitOn_eq_cons h
      · rw [← append_nil p, accepts_word_append hfirst]
        simp [StandInOrder]
      · exact absurd hq (splitOnP_ne_nil _ q)
  | cons m ms ih =>
      obtain ⟨hfirst, ⟨hnil, -⟩ | ⟨q, rfl, hq⟩⟩ := splitOn_eq_cons h
      · exact absurd hnil (cons_ne_nil m ms)
      · rw [accepts_word_append hfirst]
        refine exists_congr fun t => and_congr_right fun _ => ?_
        rw [accepts_star (decide_eq_true rfl), StandInOrder]
        constructor
        · rintro ⟨v, ⟨u, rfl⟩, hv⟩
          obtain ⟨t, rfl, ht⟩ := (ih hq).1 hv
          exact ⟨u, t, by rw [append_assoc], ht⟩
        · rintro ⟨u, v, rfl, hv⟩
          rw [append_assoc]
          exact ⟨m ++ v, suffix_append u _, (ih hq).2 ⟨v, rfl, hv⟩⟩

end Glob

end

end AuthSec

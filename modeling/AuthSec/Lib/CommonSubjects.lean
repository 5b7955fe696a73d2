import AuthSec.Lib.Glob

/-!
# Readings and common subjects of glob patterns

`Reads` says how a pattern reads a subject, symbol by symbol.  `meets` is the recursion over two
patterns that looks for a subject that both of them match.

* `accepts_iff_reads`: the two ways to say what a pattern means agree;
* `meets_iff`: the recursion finds out whether there is a common subject.
-/

namespace AuthSec

open List

namespace Glob

variable {π α : Type} (g : Glob π α)

/-! ## Readings -/

/-- A run symbol takes any run of the subject, every other symbol takes one symbol that it stands
for. -/
inductive Reads : List π → List α → Prop
  | nil : Reads [] []
  | run {c : π} {p : List π} {s : List α} (u : List α) (hc : g.star c = true) (h : Reads p s) :
      Reads (c :: p) (u ++ s)
  | symbol {c : π} {p : List π} {a : α} {s : List α} (hc : g.star c = false)
      (ha : g.hit c a = true) (h : Reads p s) : Reads (c :: p) (a :: s)

variable {g} {c d : π} {p q : List π} {s : List α}

/-- A pattern accepts what it reads. -/
theorem accepts_iff_reads : g.accepts p s = true ↔ g.Reads p s := by
  constructor
  · intro h
    induction p generalizing s with
    | nil =>
        rw [accepts_nil.1 h]
        exact .nil
    | cons c p ih =>
        by_cases hc : g.star c = true
        · obtain ⟨t, ⟨u, rfl⟩, ht⟩ := (accepts_star hc).1 h
          exact .run u hc (ih ht)
        · rw [Bool.not_eq_true] at hc
          obtain ⟨a, t, rfl, ha, ht⟩ := (accepts_symbol hc).1 h
          exact .symbol hc ha (ih ht)
  · intro h
    induction h with
    | nil => rfl
    | run u hc _ ih => exact (accepts_star hc).2 ⟨_, suffix_append u _, ih⟩
    | symbol hc ha _ ih => exact (accepts_symbol hc).2 ⟨_, _, rfl, ha, ih⟩

/-- A match stays a match along translations that keep runs and hits. -/
lemma Reads.map {π' α' : Type} {g' : Glob π' α'} (f : π → π') (e : α → α')
    (hstar : ∀ c ∈ p, g'.star (f c) = g.star c)
    (hhit : ∀ c ∈ p, ∀ a ∈ s, g.hit c a = true → g'.hit (f c) (e a) = true) (h : g.Reads p s) :
    g'.Reads (p.map f) (s.map e) := by
  induction h with
  | nil => exact .nil
  | @run c p s u hc _ ih =>
      rw [map_append]
      refine .run _ ((hstar c (mem_cons_self ..)).trans hc) (ih ?_ ?_)
      · exact fun d hd => hstar d (List.mem_cons_of_mem c hd)
      · exact fun d hd a ha => hhit d (List.mem_cons_of_mem c hd) a (mem_append_right u ha)
  | @symbol c p a s hc ha _ ih =>
      refine .symbol ((hstar c (mem_cons_self ..)).trans hc)
        (hhit c (mem_cons_self ..) a (mem_cons_self ..) ha) (ih ?_ ?_)
      · exact fun d hd => hstar d (List.mem_cons_of_mem c hd)
      · exact fun d hd b hb =>
          hhit d (List.mem_cons_of_mem c hd) b (List.mem_cons_of_mem a hb)

/-! ## Common subjects -/

variable (g) in
/-- Some subject matches both patterns. -/
def Common (p q : List π) : Prop :=
  ∃ s, g.accepts p s = true ∧ g.accepts q s = true

lemma common_comm : g.Common p q ↔ g.Common q p :=
  exists_congr fun _ => and_comm

lemma common_nil : g.Common [] [] :=
  ⟨[], rfl, rfl⟩

/-- A run takes what the next symbol of the other pattern stands for, or it ends. -/
lemma common_star (hhits : ∀ d, g.star d = false → ∃ a, g.hit d a = true) (hc : g.star c = true) :
    g.Common (c :: p) q ↔ g.Common p q ∨ ∃ d r, q = d :: r ∧ g.Common (c :: p) r := by
  constructor
  · rintro ⟨s, hs, hq⟩
    obtain ⟨u, hu, hp⟩ := (accepts_star hc).1 hs
    cases q with
    | nil =>
        rw [accepts_nil.1 hq, suffix_nil] at hu
        subst hu
        exact Or.inl ⟨[], hp, rfl⟩
    | cons d r =>
        by_cases hd : g.star d = true
        · obtain ⟨v, hv, hr⟩ := (accepts_star hd).1 hq
          -- the run that ends first is the one that goes
          rcases le_total u.length v.length with hle | hle
          · refine Or.inr ⟨d, r, rfl, v, (accepts_star hc).2 ⟨u, ?_, hp⟩, hr⟩
            exact suffix_of_suffix_length_le hu hv hle
          · refine Or.inl ⟨u, hp, (accepts_star hd).2 ⟨v, ?_, hr⟩⟩
            exact suffix_of_suffix_length_le hv hu hle
        · rw [Bool.not_eq_true] at hd
          obtain ⟨a, t, rfl, ha, hr⟩ := (accepts_symbol hd).1 hq
          rcases suffix_cons_iff.1 hu with rfl | hu
          · exact Or.inl ⟨_, hp, hq⟩
          · exact Or.inr ⟨d, r, rfl, t, (accepts_star hc).2 ⟨u, hu, hp⟩, hr⟩
  · rintro (⟨s, hp, hq⟩ | ⟨d, r, rfl, s, hs, hr⟩)
    · exact ⟨s, accepts_star_self hc hp, hq⟩
    · by_cases hd : g.star d = true
      · exact ⟨s, hs, accepts_star_self hd hr⟩
      · rw [Bool.not_eq_true] at hd
        obtain ⟨a, ha⟩ := hhits d hd
        refine ⟨a :: s, accepts_star_of_suffix hc (suffix_cons a s) hs, ?_⟩
        exact (accepts_symbol hd).2 ⟨a, s, rfl, ha, hr⟩

lemma common_symbols (hc : g.star c = false) (hd : g.star d = false) :
    g.Common (c :: p) (d :: q) ↔ (∃ a, g.hit c a = true ∧ g.hit d a = true) ∧ g.Common p q := by
  constructor
  · rintro ⟨s, hp, hq⟩
    obtain ⟨a, t, rfl, ha, hp⟩ := (accepts_symbol hc).1 hp
    obtain ⟨b, u, heq, hb, hq⟩ := (accepts_symbol hd).1 hq
    obtain ⟨rfl, rfl⟩ := List.cons.inj heq
    exact ⟨⟨a, ha, hb⟩, t, hp, hq⟩
  · rintro ⟨⟨a, ha, hb⟩, s, hp, hq⟩
    exact ⟨a :: s, (accepts_symbol hc).2 ⟨a, s, rfl, ha, hp⟩, (accepts_symbol hd).2 ⟨a, s, rfl, hb, hq⟩⟩

lemma not_common_symbol_nil (hc : g.star c = false) : ¬g.Common (c :: p) [] := by
  rintro ⟨s, hp, hs⟩
  obtain ⟨a, t, rfl, -, -⟩ := (accepts_symbol hc).1 hp
  exact absurd (accepts_nil.1 hs) (cons_ne_nil a t)

variable (g) in
/-- The search for a common subject, with a bound on its depth; `meet` says which symbols can stand
for the same one. -/
def meets (meet : π → π → Bool) : ℕ → List π → List π → Bool
  | _, [], [] => true
  | 0, _, _ => false
  | n + 1, p, q =>
    if p.head?.any g.star then meets meet n p.tail q || (!q.isEmpty && meets meet n p q.tail)
    else if q.head?.any g.star then meets meet n p q.tail || (!p.isEmpty && meets meet n p.tail q)
    else
      match p, q with
      | c :: p, d :: q => meet c d && meets meet n p q
      | _, _ => false

section

variable {meet : π → π → Bool} {n : ℕ}

lemma meets_star_left (hc : g.star c = true) :
    g.meets meet (n + 1) (c :: p) q = true ↔
      g.meets meet n p q = true ∨ ∃ d r, q = d :: r ∧ g.meets meet n (c :: p) r = true := by
  cases q <;> simp [meets, hc]

lemma meets_star_right (hp : p.head?.any g.star = false) (hd : g.star d = true) :
    g.meets meet (n + 1) p (d :: q) = true ↔
      g.meets meet n p q = true ∨ ∃ c r, p = c :: r ∧ g.meets meet n r (d :: q) = true := by
  cases p with
  | nil => simp [meets, hd]
  | cons c p =>
      have hc : g.star c = false := by simpa using hp
      simp [meets, hc, hd]

/-- With room for both patterns the search finds a common subject exactly when there is one. -/
theorem meets_iff (hhits : ∀ d, g.star d = false → ∃ a, g.hit d a = true)
    (hmeet : ∀ c d, g.star c = false → g.star d = false →
      (meet c d = true ↔ ∃ a, g.hit c a = true ∧ g.hit d a = true))
    (hn : p.length + q.length ≤ n) : g.meets meet n p q = true ↔ g.Common p q := by
  induction n generalizing p q with
  | zero =>
      obtain ⟨rfl, rfl⟩ : p = [] ∧ q = [] := by
        constructor <;> exact length_eq_zero_iff.1 (by omega)
      simp [meets, common_nil]
  | succ n ih =>
      cases hp : p.head?.any g.star with
      | true =>
          obtain ⟨c, p, rfl⟩ : ∃ c r, p = c :: r := by cases p <;> simp_all
          have hc : g.star c = true := by simpa using hp
          rw [length_cons] at hn
          rw [meets_star_left hc, common_star hhits hc, ih (by omega)]
          refine or_congr_right (exists_congr fun d => exists_congr fun r => ?_)
          refine and_congr_right ?_
          rintro rfl
          exact ih (by simp only [length_cons] at hn ⊢; omega)
      | false =>
          cases q with
          | nil =>
              cases p with
              | nil => simp [meets, common_nil]
              | cons c p =>
                  have hc : g.star c = false := by simpa using hp
                  simpa [meets, hc] using not_common_symbol_nil hc
          | cons d q =>
              rw [length_cons] at hn
              by_cases hd : g.star d = true
              · rw [meets_star_right hp hd, common_comm, common_star hhits hd, ih (by omega),
                  common_comm]
                refine or_congr_right (exists_congr fun c => exists_congr fun r => ?_)
                refine and_congr_right ?_
                rintro rfl
                rw [common_comm]
                exact ih (by simp only [length_cons] at hn ⊢; omega)
              · rw [Bool.not_eq_true] at hd
                cases p with
                | nil =>
                    rw [common_comm]
                    simpa [meets, hd] using not_common_symbol_nil hd
                | cons c p =>
                    have hc : g.star c = false := by simpa using hp
                    rw [length_cons] at hn
                    rw [common_symbols hc hd, ← hmeet c d hc hd, ← ih (by omega)]
                    simp [meets, hc, hd]

end

end Glob

end AuthSec

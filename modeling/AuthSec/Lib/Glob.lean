import Mathlib.Data.List.Infix
import Mathlib.Tactic.Ring
import Mathlib.Tactic.Linarith

/-!
# Glob patterns

A glob language says which pattern symbols stand for any run and which symbols of a subject each
other pattern symbol stands for.  `accepts` is the meaning of a pattern; `greedy` is the usual
matcher with one back-tracking point, which forgets an earlier run as soon as it meets a later
one.

* `accepts_append`: a concatenation matches the concatenations of matches;
* `greedy_eq_accepts`: the matcher decides the meaning, provided that no run symbol is taken for
  a symbol of the subject.
-/

namespace AuthSec

open List

/-- A glob language with pattern symbols `π` over the alphabet `α`. -/
structure Glob (π α : Type) where
  /-- the symbol stands for any run -/
  star : π → Bool
  /-- the pattern symbol stands for the subject symbol -/
  hit : π → α → Bool

namespace Glob

variable {π α : Type} (g : Glob π α)

/-! ## Meaning -/

/-- The whole subject matches the whole pattern. -/
def accepts : List π → List α → Bool
  | [], s => s.isEmpty
  | c :: p, s =>
    if g.star c then s.tails.any (accepts p)
    else
      match s with
      | [] => false
      | a :: s => g.hit c a && accepts p s

variable {g} {c : π} {p q : List π} {s t : List α}

@[simp]
lemma accepts_nil : g.accepts [] s = true ↔ s = [] := by
  simp [accepts]

lemma accepts_star (hc : g.star c = true) :
    g.accepts (c :: p) s = true ↔ ∃ t, t <:+ s ∧ g.accepts p t = true := by
  simp [accepts, hc]

lemma accepts_symbol (hc : g.star c = false) :
    g.accepts (c :: p) s = true ↔ ∃ a t, s = a :: t ∧ g.hit c a = true ∧ g.accepts p t = true := by
  cases s <;> simp [accepts, hc]

/-- What matches after a run still matches with more symbols in front. -/
lemma accepts_star_of_suffix (hc : g.star c = true) (ht : t <:+ s)
    (h : g.accepts (c :: p) t = true) : g.accepts (c :: p) s = true := by
  obtain ⟨u, hu, hp⟩ := (accepts_star hc).1 h
  exact (accepts_star hc).2 ⟨u, hu.trans ht, hp⟩

/-- A run may be empty. -/
lemma accepts_star_self (hc : g.star c = true) (h : g.accepts p s = true) :
    g.accepts (c :: p) s = true :=
  (accepts_star hc).2 ⟨s, suffix_refl s, h⟩

/-- A pattern of letters matches itself only. -/
lemma accepts_letters {g : Glob α α} {p s : List α}
    (hp : ∀ c ∈ p, g.star c = false ∧ ∀ a, g.hit c a = true ↔ c = a) :
    g.accepts p s = true ↔ p = s := by
  induction p generalizing s with
  | nil => rw [accepts_nil, eq_comm]
  | cons c p ih =>
      obtain ⟨hstar, hhit⟩ := hp c (mem_cons_self ..)
      rw [accepts_symbol hstar]
      constructor
      · rintro ⟨a, t, rfl, ha, ht⟩
        rw [(hhit a).1 ha, (ih fun d hd => hp d (List.mem_cons_of_mem c hd)).1 ht]
      · rintro rfl
        refine ⟨c, p, rfl, (hhit c).2 rfl, ?_⟩
        exact (ih fun d hd => hp d (List.mem_cons_of_mem c hd)).2 rfl

/-- A concatenation matches exactly the concatenations of matches. -/
theorem accepts_append :
    g.accepts (p ++ q) s = true ↔
      ∃ u v, s = u ++ v ∧ g.accepts p u = true ∧ g.accepts q v = true := by
  induction p generalizing s with
  | nil =>
      simp only [nil_append, accepts_nil]
      constructor
      · intro h
        exact ⟨[], s, rfl, rfl, h⟩
      · rintro ⟨u, v, rfl, rfl, hv⟩
        exact hv
  | cons c p ih =>
      rw [cons_append]
      by_cases hc : g.star c = true
      · rw [accepts_star hc]
        constructor
        · rintro ⟨t, ⟨w, rfl⟩, ht⟩
          obtain ⟨u, v, rfl, hu, hv⟩ := ih.1 ht
          refine ⟨w ++ u, v, (append_assoc w u v).symm, ?_, hv⟩
          exact (accepts_star hc).2 ⟨u, suffix_append w u, hu⟩
        · rintro ⟨u, v, rfl, hu, hv⟩
          obtain ⟨t, ⟨w, rfl⟩, ht⟩ := (accepts_star hc).1 hu
          refine ⟨t ++ v, ⟨w, ?_⟩, ih.2 ⟨t, v, rfl, ht, hv⟩⟩
          exact (append_assoc w t v).symm
      · rw [Bool.not_eq_true] at hc
        rw [accepts_symbol hc]
        constructor
        · rintro ⟨a, t, rfl, ha, ht⟩
          obtain ⟨u, v, rfl, hu, hv⟩ := ih.1 ht
          exact ⟨a :: u, v, rfl, (accepts_symbol hc).2 ⟨a, u, rfl, ha, hu⟩, hv⟩
        · rintro ⟨u, v, rfl, hu, hv⟩
          obtain ⟨a, t, rfl, ha, ht⟩ := (accepts_symbol hc).1 hu
          exact ⟨a, t ++ v, rfl, ha, ih.2 ⟨t, v, rfl, ht, hv⟩⟩

/-- A pattern of runs only matches everything, if it is not empty. -/
lemma accepts_of_stars (hne : p ≠ []) (hp : ∀ c ∈ p, g.star c = true) : g.accepts p s = true := by
  induction p with
  | nil => exact absurd rfl hne
  | cons c p ih =>
      have hc := hp c (mem_cons_self ..)
      by_cases hnil : p = []
      · subst hnil
        exact (accepts_star hc).2 ⟨[], nil_suffix, rfl⟩
      · exact accepts_star_self hc (ih hnil fun d hd => hp d (List.mem_cons_of_mem c hd))

/-- Only runs match the empty subject. -/
lemma accepts_nil_right : g.accepts p [] = true ↔ ∀ c ∈ p, g.star c = true := by
  induction p with
  | nil => simp
  | cons c p ih =>
      by_cases hc : g.star c = true
      · simp [accepts_star hc, ih, hc]
      · rw [Bool.not_eq_true] at hc
        simp [accepts_symbol hc, hc]

/-- A pattern without runs matches subjects of its own length only. -/
lemma length_eq_of_accepts (hp : ∀ c ∈ p, g.star c = false) (h : g.accepts p s = true) :
    p.length = s.length := by
  induction p generalizing s with
  | nil => simp [accepts_nil.1 h]
  | cons c p ih =>
      obtain ⟨a, t, rfl, -, ht⟩ := (accepts_symbol (hp c (mem_cons_self ..))).1 h
      simpa using ih (fun d hd => hp d (List.mem_cons_of_mem c hd)) ht

/-- Every symbol of a pattern that matches is a run or stands for some symbol of the subject. -/
lemma star_or_hit_of_accepts (h : g.accepts p s = true) (hc : c ∈ p) :
    g.star c = true ∨ ∃ a ∈ s, g.hit c a = true := by
  induction p generalizing s with
  | nil => exact absurd hc not_mem_nil
  | cons d p ih =>
      by_cases hd : g.star d = true
      · obtain ⟨t, ht, hp⟩ := (accepts_star hd).1 h
        rcases mem_cons.1 hc with rfl | hmem
        · exact Or.inl hd
        · obtain hstar | ⟨a, ha, hhit⟩ := ih hp hmem
          · exact Or.inl hstar
          · exact Or.inr ⟨a, ht.subset ha, hhit⟩
      · rw [Bool.not_eq_true] at hd
        obtain ⟨a, t, rfl, ha, hp⟩ := (accepts_symbol hd).1 h
        rcases mem_cons.1 hc with rfl | hmem
        · exact Or.inr ⟨a, mem_cons_self .., ha⟩
        · obtain hstar | ⟨b, hb, hhit⟩ := ih hp hmem
          · exact Or.inl hstar
          · exact Or.inr ⟨b, List.mem_cons_of_mem a hb, hhit⟩

/-- Two languages that agree along translations of the symbols accept the same subjects. -/
lemma accepts_map {π' α' : Type} {g' : Glob π' α'} (f : π → π') (e : α → α')
    (hstar : ∀ c ∈ p, g'.star (f c) = g.star c)
    (hhit : ∀ c ∈ p, g.star c = false → ∀ a ∈ s, g'.hit (f c) (e a) = g.hit c a) :
    g'.accepts (p.map f) (s.map e) = g.accepts p s := by
  rw [Bool.eq_iff_iff]
  induction p generalizing s with
  | nil => simp
  | cons c p ih =>
      have hih : ∀ t, t <:+ s →
          (g'.accepts (p.map f) (t.map e) = true ↔ g.accepts p t = true) := fun t ht =>
        ih (fun d hd => hstar d (List.mem_cons_of_mem c hd)) fun d hd hns a ha =>
          hhit d (List.mem_cons_of_mem c hd) hns a (ht.subset ha)
      have hcstar := hstar c (mem_cons_self ..)
      rw [map_cons]
      by_cases hc : g.star c = true
      · rw [accepts_star hc, accepts_star (hcstar.trans hc)]
        constructor
        · rintro ⟨t', ht', h⟩
          obtain ⟨t, ht, rfl⟩ := suffix_map_iff.1 ht'
          exact ⟨t, ht, (hih t ht).1 h⟩
        · rintro ⟨t, ht, h⟩
          exact ⟨t.map e, List.IsSuffix.map e ht, (hih t ht).2 h⟩
      · rw [Bool.not_eq_true] at hc
        rw [accepts_symbol hc, accepts_symbol (hcstar.trans hc)]
        cases s with
        | nil => simp
        | cons a t =>
            have htail := hih t (suffix_cons a t)
            have hhead := hhit c (mem_cons_self ..) hc a (mem_cons_self ..)
            simp [htail, hhead]

/-! ## The greedy matcher -/

variable (g)

/-- Back to the last run, which takes one more symbol.  The back-tracking point holds the pattern
behind that run and the subject where the run last ended. -/
def retry (next : List π → List α → Option (List π × List α) → Bool) :
    Option (List π × List α) → Bool
  | some (q, _ :: m) => next q m (some (q, m))
  | _ => false

/-- The rounds of the matcher. -/
def scan : ℕ → List π → List α → Option (List π × List α) → Bool
  | 0, _, _, _ => false
  | _ + 1, p, [], _ => p.all g.star
  | n + 1, p, a :: s, back =>
    match p with
    | [] => retry (scan n) back
    | c :: p =>
      if g.hit c a then scan n p s back
      else if g.star c then scan n p (a :: s) (some (p, a :: s))
      else retry (scan n) back

/-- The matcher, with a budget of one pass over the pattern for each place of the subject. -/
def greedy (p : List π) (s : List α) : Bool :=
  g.scan ((s.length + 1) * (p.length + 1)) p s none

/-- No run symbol is taken for this symbol of the subject. -/
def Safe (a : α) : Prop :=
  ∀ c, g.star c = true → g.hit c a = false

variable {g} in
/-- A symbol that stands for a safe one is no run. -/
lemma Safe.star_eq_false {a : α} (hsafe : g.Safe a) (ha : g.hit c a = true) : g.star c = false := by
  rw [← Bool.not_eq_true]
  intro hc
  rw [hsafe c hc] at ha
  exact Bool.false_ne_true ha

/-- The subject still ahead of the back-tracking point. -/
def ahead (s : List α) : Option (List π × List α) → ℕ
  | none => s.length
  | some (_, m) => m.length

/-- What holds between two rounds: enough budget is left, and the pattern and the subject ahead
are those of the back-tracking point without as many symbols, none of them a run. -/
structure Ready (top n : ℕ) (p : List π) (s : List α) (back : Option (List π × List α)) :
    Prop where
  budget : ahead s back * (top + 1) + p.length < n
  short : p.length ≤ top
  safe : ∀ a ∈ s, g.Safe a
  linked : ∀ q m, back = some (q, m) → q.length ≤ top ∧ (∀ a ∈ m, g.Safe a) ∧
    ∃ w u, q = w ++ p ∧ m = u ++ s ∧ (∀ c ∈ w, g.star c = false) ∧ w.length = u.length

/-- The matcher can still succeed: from here, or after letting the last run take more. -/
def Hope (p : List π) (s : List α) (back : Option (List π × List α)) : Prop :=
  g.accepts p s = true ∨ ∃ q m t, back = some (q, m) ∧ t <:+ m.tail ∧ g.accepts q t = true

variable {g} {top n : ℕ} {a : α} {back : Option (List π × List α)}

lemma suffix_iff_tail : t <:+ s ↔ t = s ∨ t <:+ s.tail := by
  cases s with
  | nil => simp
  | cons a s => simp [suffix_cons_iff]

lemma Ready.ahead_le (h : g.Ready top n p s back) : s.length ≤ ahead s back := by
  cases back with
  | none => exact le_refl _
  | some qm =>
      obtain ⟨q, m⟩ := qm
      obtain ⟨-, -, w, u, -, rfl, -, -⟩ := h.linked q m rfl
      simp [ahead]

/-! ### A symbol is matched -/

lemma Ready.hit (h : g.Ready top (n + 1) (c :: p) (a :: s) back) (ha : g.hit c a = true) :
    g.Ready top n p s back := by
  have hstar := (h.safe a (mem_cons_self ..)).star_eq_false ha
  have hle : ahead s back ≤ ahead (a :: s) back := by cases back <;> simp [ahead]
  have hbudget := h.budget
  have hmul := Nat.mul_le_mul_right (top + 1) hle
  simp only [length_cons] at hbudget
  refine ⟨by omega, Nat.le_of_succ_le h.short,
    fun b hb => h.safe b (List.mem_cons_of_mem a hb), fun q m hback => ?_⟩
  obtain ⟨hq, hm, w, u, rfl, rfl, hw, hlen⟩ := h.linked q m hback
  refine ⟨hq, hm, w ++ [c], u ++ [a], by simp, by simp, ?_, by simp [hlen]⟩
  intro d hd
  rcases mem_append.1 hd with hd | hd
  · exact hw d hd
  · rwa [mem_singleton.1 hd]

lemma hope_hit (hsafe : g.Safe a) (ha : g.hit c a = true) :
    g.Hope (c :: p) (a :: s) back ↔ g.Hope p s back := by
  have hcons : g.accepts (c :: p) (a :: s) = true ↔ g.accepts p s = true := by
    simp [accepts_symbol (hsafe.star_eq_false ha), ha]
  rw [Hope, Hope, hcons]

/-! ### A run begins -/

lemma Ready.star (h : g.Ready top (n + 1) (c :: p) (a :: s) back) :
    g.Ready top n p (a :: s) (some (p, a :: s)) := by
  have hbudget := h.budget
  have hmul := Nat.mul_le_mul_right (top + 1) h.ahead_le
  have hshort := h.short
  simp only [length_cons] at hbudget hshort hmul
  refine ⟨by simp only [ahead, length_cons]; omega, by omega, h.safe, ?_⟩
  rintro q m ⟨⟩
  exact ⟨by omega, h.safe, [], [], rfl, rfl, by simp, rfl⟩

/-- Whatever the earlier run could still reach, the later run reaches as well. -/
lemma Ready.later_run (h : g.Ready top n (c :: p) s back) (hc : g.star c = true)
    {q : List π} {m t : List α} (hback : back = some (q, m)) (ht : t <:+ m.tail)
    (hq : g.accepts q t = true) : g.accepts (c :: p) s = true := by
  obtain ⟨-, -, w, u, rfl, rfl, hw, hlen⟩ := h.linked q m hback
  obtain ⟨u', v, rfl, hu', hv⟩ := accepts_append.1 hq
  refine accepts_star_of_suffix hc ?_ hv
  -- the star-free part takes as many symbols of `t` as it took of the subject in front of `s`
  have hlen' := length_eq_of_accepts hw hu'
  have hv' : v <:+ u ++ s := (suffix_append u' v).trans (ht.trans (tail_suffix _))
  have hle : v.length ≤ s.length := by
    have hlt := (ht.trans (tail_suffix _)).length_le
    simp only [length_append] at hlt
    omega
  exact suffix_of_suffix_length_le hv' (suffix_append u s) hle

lemma Ready.hope_star (h : g.Ready top n (c :: p) s back) (hc : g.star c = true) :
    g.Hope (c :: p) s back ↔ g.Hope p s (some (p, s)) := by
  constructor
  · intro hope
    have hrun : g.accepts (c :: p) s = true := by
      rcases hope with hhere | ⟨q, m, t, hback, ht, hq⟩
      · exact hhere
      · exact h.later_run hc hback ht hq
    obtain ⟨t, ht, hp⟩ := (accepts_star hc).1 hrun
    rcases suffix_iff_tail.1 ht with rfl | ht
    · exact Or.inl hp
    · exact Or.inr ⟨p, s, t, rfl, ht, hp⟩
  · rintro (hp | ⟨q, m, t, ⟨⟩, ht, hp⟩)
    · exact Or.inl (accepts_star_self hc hp)
    · exact Or.inl ((accepts_star hc).2 ⟨t, ht.trans (tail_suffix s), hp⟩)

/-! ### A retry -/

lemma Ready.retry {q : List π} {b : α} {m : List α}
    (h : g.Ready top (n + 1) p s (some (q, b :: m))) : g.Ready top n q m (some (q, m)) := by
  obtain ⟨hq, hm, -⟩ := h.linked q (b :: m) rfl
  have hbudget := h.budget
  simp only [ahead, length_cons, Nat.succ_mul] at hbudget
  have hm' : ∀ x ∈ m, g.Safe x := fun x hx => hm x (List.mem_cons_of_mem b hx)
  refine ⟨by simp only [ahead]; omega, hq, hm', ?_⟩
  rintro q' m' ⟨⟩
  exact ⟨hq, hm', [], [], rfl, rfl, by simp, rfl⟩

lemma hope_retry {q : List π} {b : α} {m : List α} (hstuck : g.accepts p s = false) :
    g.Hope p s (some (q, b :: m)) ↔ g.Hope q m (some (q, m)) := by
  constructor
  · rintro (hp | ⟨q', m', t, ⟨⟩, ht, hq⟩)
    · rw [hstuck] at hp
      exact absurd hp Bool.false_ne_true
    · rcases suffix_iff_tail.1 (show t <:+ m from ht) with rfl | ht
      · exact Or.inl hq
      · exact Or.inr ⟨q, m, t, rfl, ht, hq⟩
  · rintro (hq | ⟨q', m', t, ⟨⟩, ht, hq⟩)
    · exact Or.inr ⟨q, b :: m, m, rfl, suffix_refl m, hq⟩
    · exact Or.inr ⟨q, b :: m, t, rfl, ht.trans (tail_suffix m), hq⟩

/-- A retry needs a back-tracking point with some subject ahead; there is one, unless there is no
run at all. -/
lemma Ready.back_cases (h : g.Ready top n p (a :: s) back) :
    back = none ∨ ∃ q b m, back = some (q, b :: m) := by
  rcases back with _ | ⟨q, m⟩
  · exact Or.inl rfl
  · obtain ⟨-, -, w, u, -, rfl, -, -⟩ := h.linked q m rfl
    cases u with
    | nil => exact Or.inr ⟨q, a, s, rfl⟩
    | cons b u => exact Or.inr ⟨q, b, u ++ a :: s, rfl⟩

/-- From a state that is ready the rounds find a match exactly when there is still one to find. -/
theorem scan_iff_hope (h : g.Ready top n p s back) : g.scan n p s back = true ↔ g.Hope p s back := by
  induction n generalizing p s back with
  | zero => exact absurd h.budget (Nat.not_lt_zero _)
  | succ n ih =>
      cases s with
      | nil =>
          rw [scan, all_eq_true, ← accepts_nil_right]
          refine ⟨Or.inl, ?_⟩
          rintro (hp | ⟨q, m, t, rfl, ht, hq⟩)
          · exact hp
          · -- at the end of the subject a run that took more would leave too few symbols
            obtain ⟨-, -, w, u, rfl, rfl, hw, hlen⟩ := h.linked q m rfl
            obtain ⟨u', v, rfl, hu', -⟩ := accepts_append.1 hq
            have hlen' := length_eq_of_accepts hw hu'
            have hshort := ht.length_le
            simp only [append_nil, length_append, length_tail] at hshort
            have hu : u = [] := length_eq_zero_iff.1 (by omega)
            have hv : v = [] := length_eq_zero_iff.1 (by omega)
            have hw0 : w = [] := length_eq_zero_iff.1 (by simp [hlen, hu])
            have hu0 : u' = [] := length_eq_zero_iff.1 (by simp [← hlen', hw0])
            simpa [hw0, hu0, hv] using hq
      | cons a s =>
          have hretry : g.accepts p (a :: s) = false →
              (retry (g.scan n) back = true ↔ g.Hope p (a :: s) back) := by
            intro hstuck
            rcases h.back_cases with rfl | ⟨q, b, m, rfl⟩
            · simp [retry, Hope, hstuck]
            · rw [hope_retry hstuck]
              exact ih h.retry
          cases p with
          | nil => exact hretry rfl
          | cons c p =>
              rw [scan]
              split_ifs with hhit hstar
              · rw [ih (h.hit hhit), hope_hit (h.safe a (mem_cons_self ..)) hhit]
              · rw [ih h.star, h.hope_star hstar]
              · refine hretry ?_
                simp [accepts, hstar, hhit]

/-- Without runs there is nothing to go back to. -/
lemma scan_literal (hp : ∀ c ∈ p, g.star c = false) (hn : s.length < n) :
    g.scan n p s none = g.accepts p s := by
  induction s generalizing p n with
  | nil =>
      obtain ⟨n, rfl⟩ := Nat.exists_eq_add_one_of_ne_zero (Nat.ne_zero_of_lt hn)
      cases p with
      | nil => rfl
      | cons c p => simp [scan, accepts, hp c (mem_cons_self ..)]
  | cons a s ih =>
      obtain ⟨n, rfl⟩ := Nat.exists_eq_add_one_of_ne_zero (Nat.ne_zero_of_lt hn)
      cases p with
      | nil => rfl
      | cons c p =>
          have hc := hp c (mem_cons_self ..)
          have htail := ih (p := p) (n := n) (fun d hd => hp d (List.mem_cons_of_mem c hd))
            (by simpa using hn)
          cases hhit : g.hit c a with
          | false => simp [scan, accepts, hc, hhit, retry]
          | true => simp [scan, accepts, hc, hhit, htail]

lemma greedy_literal (hp : ∀ c ∈ p, g.star c = false) : g.greedy p s = g.accepts p s := by
  refine scan_literal hp ?_
  rw [Nat.mul_succ]
  omega

/-- The matcher decides the meaning of a pattern on safe subjects. -/
theorem greedy_eq_accepts (hsafe : ∀ a ∈ s, g.Safe a) : g.greedy p s = g.accepts p s := by
  have hready : g.Ready p.length ((s.length + 1) * (p.length + 1)) p s none := by
    refine ⟨?_, le_refl _, hsafe, by simp⟩
    simp only [ahead, Nat.succ_mul]
    omega
  rw [Bool.eq_iff_iff, greedy, scan_iff_hope hready]
  simp [Hope]

end Glob

end AuthSec

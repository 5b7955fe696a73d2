import Mathlib.Order.WithBot

/-!
# Lists of half-open intervals

Elements that stand for intervals `[start, stop)` of a linear order, some of them without an end.
A list is *separated* when its intervals are proper and each ends before the next one starts.  A
point lies in at most one interval of a separated list (`Separated.eq_of_spans`), and the points
that are covered determine where its intervals start and stop (`Separated.ends_eq`).
-/

namespace AuthSec

open List

section

variable {α T : Type} [LinearOrder T] (start : α → T) (stop : α → WithTop T)

/-- The interval of the element contains the point. -/
def Spans (a : α) (t : T) : Prop :=
  start a ≤ t ∧ (t : WithTop T) < stop a

/-- Proper intervals in order, each ending before the next one starts. -/
structure Separated (l : List α) : Prop where
  proper : ∀ a ∈ l, (start a : WithTop T) < stop a
  apart : l.Pairwise fun a b => stop a < start b

variable {start stop} {a b : α} {l l' : List α} {t : T}

lemma spans_start (h : (start a : WithTop T) < stop a) : Spans start stop a (start a) :=
  ⟨le_rfl, h⟩

namespace Separated

lemma nil : Separated start stop ([] : List α) :=
  ⟨by simp, .nil⟩

lemma tail (h : Separated start stop (a :: l)) : Separated start stop l :=
  ⟨fun b hb => h.proper b (List.mem_cons_of_mem a hb), h.apart.of_cons⟩

lemma stop_lt (h : Separated start stop (a :: l)) (hb : b ∈ l) : stop a < start b :=
  (pairwise_cons.1 h.apart).1 b hb

lemma start_lt (h : Separated start stop (a :: l)) (hb : b ∈ l) : start a < start b :=
  WithTop.coe_lt_coe.1 ((h.proper a (mem_cons_self ..)).trans (h.stop_lt hb))

/-- A later interval contains no point before the end of the first. -/
lemma stop_lt_of_spans (h : Separated start stop (a :: l)) (hb : b ∈ l)
    (ht : Spans start stop b t) : stop a < t :=
  (h.stop_lt hb).trans_le (WithTop.coe_le_coe.2 ht.1)

/-- A point lies in at most one of the intervals. -/
lemma eq_of_spans (h : Separated start stop l) (ha : a ∈ l) (hb : b ∈ l)
    (hat : Spans start stop a t) (hbt : Spans start stop b t) : a = b := by
  induction l with
  | nil => simp at ha
  | cons c l ih =>
      rcases mem_cons.1 ha with rfl | hal <;> rcases mem_cons.1 hb with rfl | hbl
      · rfl
      · exact absurd hat.2 (h.stop_lt_of_spans hbl hbt).not_gt
      · exact absurd hbt.2 (h.stop_lt_of_spans hal hat).not_gt
      · exact ih h.tail hal hbl

/-- The points of the later intervals are those that are not before the end of the first. -/
lemma covers_tail_iff (h : Separated start stop (a :: l)) :
    (∃ b ∈ l, Spans start stop b t) ↔
      (∃ b ∈ a :: l, Spans start stop b t) ∧ stop a ≤ t := by
  constructor
  · rintro ⟨b, hb, ht⟩
    exact ⟨⟨b, List.mem_cons_of_mem a hb, ht⟩, (h.stop_lt_of_spans hb ht).le⟩
  · rintro ⟨⟨b, hb, ht⟩, hstop⟩
    rcases mem_cons.1 hb with rfl | hb
    · exact absurd ht.2 hstop.not_gt
    · exact ⟨b, hb, ht⟩

/-- The first interval starts at the first point that is covered. -/
lemma start_le_of_spans (h : Separated start stop (a :: l)) (hb : b ∈ a :: l)
    (ht : Spans start stop b t) : start a ≤ t := by
  rcases mem_cons.1 hb with rfl | hb
  · exact ht.1
  · exact (h.start_lt hb).le.trans ht.1

/-- The first interval of a list that covers the points of another does not end before the first
interval of the other, if they start together. -/
lemma stop_le (h : Separated start stop (a :: l)) (hstart : start a = start b)
    (hcovers : ∀ t, (∃ c ∈ b :: l', Spans start stop c t) → ∃ c ∈ a :: l, Spans start stop c t) :
    stop b ≤ stop a := by
  by_contra hlt
  rw [not_le] at hlt
  -- the end of the first interval is a point of the other that nothing in the first list contains
  obtain ⟨e, he⟩ := WithTop.ne_top_iff_exists.1 hlt.ne_top
  have hproper := h.proper a (mem_cons_self ..)
  have hspans : Spans start stop b e := by
    refine ⟨?_, by rwa [he]⟩
    rw [← he] at hproper
    exact hstart ▸ (WithTop.coe_lt_coe.1 hproper).le
  obtain ⟨c, hc, hct⟩ := hcovers e ⟨b, mem_cons_self .., hspans⟩
  rcases mem_cons.1 hc with rfl | hc
  · exact absurd hct.2 (by rw [he]; exact lt_irrefl _)
  · exact absurd (h.stop_lt_of_spans hc hct) (by rw [he]; exact lt_irrefl _)

/-- The points that are covered determine the ends. -/
theorem ends_eq (h : Separated start stop l) (h' : Separated start stop l')
    (hcovers : ∀ t, (∃ a ∈ l, Spans start stop a t) ↔ ∃ a ∈ l', Spans start stop a t) :
    l.map (fun a => (start a, stop a)) = l'.map fun a => (start a, stop a) := by
  induction l generalizing l' with
  | nil =>
      cases l' with
      | nil => rfl
      | cons b l' =>
          have hb := spans_start (h'.proper b (mem_cons_self ..))
          obtain ⟨c, hc, -⟩ := (hcovers _).2 ⟨b, mem_cons_self .., hb⟩
          simp at hc
  | cons a l ih =>
      have ha := spans_start (h.proper a (mem_cons_self ..))
      cases l' with
      | nil =>
          obtain ⟨c, hc, -⟩ := (hcovers _).1 ⟨a, mem_cons_self .., ha⟩
          simp at hc
      | cons b l' =>
          have hb := spans_start (h'.proper b (mem_cons_self ..))
          obtain ⟨c, hc, hct⟩ := (hcovers _).1 ⟨a, mem_cons_self .., ha⟩
          obtain ⟨d, hd, hdt⟩ := (hcovers _).2 ⟨b, mem_cons_self .., hb⟩
          have hstart : start a = start b :=
            le_antisymm (h.start_le_of_spans hd hdt) (h'.start_le_of_spans hc hct)
          have hstop : stop a = stop b :=
            le_antisymm (h'.stop_le hstart.symm fun t => (hcovers t).1)
              (h.stop_le hstart fun t => (hcovers t).2)
          have htail : ∀ t, (∃ c ∈ l, Spans start stop c t) ↔ ∃ c ∈ l', Spans start stop c t := by
            intro t
            rw [h.covers_tail_iff, h'.covers_tail_iff, hcovers, hstop]
          rw [map_cons, map_cons, hstart, hstop, ih h.tail h'.tail htail]

/-- Elements with a flag are determined by their ends, the points that are covered and those that
lie in intervals with the flag. -/
theorem eq_of_covers {flag : α → Bool} (h : Separated start stop l) (h' : Separated start stop l')
    (hinj : ∀ a b : α, start a = start b → stop a = stop b → flag a = flag b → a = b)
    (hcovers : ∀ t, (∃ a ∈ l, Spans start stop a t) ↔ ∃ a ∈ l', Spans start stop a t)
    (hflag : ∀ t, (∃ a ∈ l, Spans start stop a t ∧ flag a = true) ↔
      ∃ a ∈ l', Spans start stop a t ∧ flag a = true) : l = l' := by
  have hends := h.ends_eq h' hcovers
  -- the flag of an interval is read off at its start
  have hread : ∀ {l : List α}, Separated start stop l → ∀ a ∈ l,
      (flag a = true ↔ ∃ b ∈ l, Spans start stop b (start a) ∧ flag b = true) := by
    intro l h a ha
    have hstart := spans_start (h.proper a ha)
    constructor
    · intro hfl
      exact ⟨a, ha, hstart, hfl⟩
    · rintro ⟨b, hb, hspans, hfl⟩
      rwa [h.eq_of_spans ha hb hstart hspans]
  refine ext_getElem (by simpa using congrArg List.length hends) fun i hi hi' => ?_
  have hi_ends : (start l[i], stop l[i]) = (start l'[i], stop l'[i]) := by
    simpa [hi, hi'] using congrArg (·[i]?) hends
  obtain ⟨hstart, hstop⟩ := Prod.mk.inj hi_ends
  refine hinj _ _ hstart hstop (Bool.eq_iff_iff.2 ?_)
  rw [hread h _ (getElem_mem hi), hread h' _ (getElem_mem hi'), hstart, hflag]

end Separated

end

end AuthSec

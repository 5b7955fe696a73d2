import AuthSec.Lib.Except
import AuthSec.Lib.Sorting
import AuthSec.Lib.Splices
import AuthSec.Lib.Unicode

/-!
# Edits of a text

`applyEdits` replaces ranges of a text, from the last one to the first, so that the places in front
keep their numbers.  Meant is a substitution at once: `replaced` puts the text of an edit where it
starts and leaves out what a range covers.

* `applyEdits_eq`: what the loop does, edit by edit;
* `applyEdits_simultaneous`: edits with distinct starts go through exactly if they fit and do not
  overlap, and then the outcome is the substitution, in whatever order they are given.
-/

namespace AuthSec

open List

/-- `edit`: one replacement; `stop` is the place behind the range. -/
structure Edit where
  start : ℤ
  stop : ℤ
  text : Bytes
deriving DecidableEq

namespace Edit

/-- One round of `applyEdits`, on the text and the start of the edit before. -/
def apply (st : Bytes × ℤ) (e : Edit) : Except String (Bytes × ℤ) :=
  if e.start < 0 ∨ e.stop > st.1.length ∨ e.start > e.stop ∨ e.stop > st.2 then
    .error "overlapping or invalid edits"
  else .ok (st.1.take e.start.toNat ++ e.text ++ st.1.drop e.stop.toNat, e.start)

end Edit

/-- `applyEdits`. -/
def applyEdits (src : Bytes) (edits : List Edit) : Except String Bytes :=
  Prod.fst <$> (sortOn (fun e => -e.start) edits).foldlM Edit.apply (src, (src.length : ℤ) + 1)

/-! ## The substitution -/

namespace Edit

/-- The range is within the text. -/
def Fits (e : Edit) (src : Bytes) : Prop :=
  0 ≤ e.start ∧ e.start ≤ e.stop ∧ e.stop ≤ src.length

/-- The ranges overlap; an insertion overlaps a range that it is strictly inside of. -/
def Overlaps (e f : Edit) : Prop :=
  e.start < f.stop ∧ f.start < e.stop

/-- The place is in the range. -/
def covers (e : Edit) (i : ℕ) : Bool :=
  decide (e.start ≤ i ∧ i < e.stop)

end Edit

/-- The texts that go in front of a place. -/
def textsAt (edits : List Edit) (i : ℕ) : Bytes :=
  (edits.filter fun e => e.start = (i : ℤ)).flatMap Edit.text

/-- The text with every range replaced at once. -/
def replaced (src : Bytes) (edits : List Edit) : Bytes :=
  passOver (textsAt edits) (fun i => edits.any (·.covers i)) 0 src ++ textsAt edits src.length

/-! ## The loop -/

/-- The ranges stand one behind the other, from the last one down, within the first `bound` bytes. -/
def Descending : ℤ → List Edit → Prop
  | _, [] => True
  | bound, e :: edits =>
    0 ≤ e.start ∧ e.start ≤ e.stop ∧ e.stop ≤ bound ∧ Descending e.start edits

/-- The text with the ranges replaced one by one, from the last one down. -/
def spliced (base : Bytes) : List Edit → Bytes
  | [] => base
  | e :: edits =>
    spliced (base.take e.start.toNat) edits ++ e.text ++ base.drop e.stop.toNat

section

variable {base tail : Bytes} {prev bound : ℤ} {e : Edit} {edits : List Edit} {i : ℕ}

/-- One round, where the first bytes are those of the text as it was. -/
lemma apply_ok (hprev : min ((base ++ tail).length : ℤ) prev = base.length) (hstart : 0 ≤ e.start)
    (hle : e.start ≤ e.stop) (hstop : e.stop ≤ base.length) :
    Edit.apply (base ++ tail, prev) e =
      .ok (base.take e.start.toNat ++ (e.text ++ base.drop e.stop.toNat ++ tail), e.start) := by
  have hlen : (base.length : ℤ) ≤ (base ++ tail).length ∧ (base.length : ℤ) ≤ prev := by
    rw [← hprev]
    exact ⟨min_le_left _ _, min_le_right _ _⟩
  have hfits : ¬(e.start < 0 ∨ e.stop > (base ++ tail).length ∨ e.start > e.stop ∨ e.stop > prev) := by
    omega
  rw [Edit.apply, if_neg hfits, take_append_of_le_length (by omega),
    drop_append_of_le_length (by omega)]
  simp

lemma apply_error (hprev : min ((base ++ tail).length : ℤ) prev = base.length)
    (h : ¬(0 ≤ e.start ∧ e.start ≤ e.stop ∧ e.stop ≤ base.length)) :
    Edit.apply (base ++ tail, prev) e = .error "overlapping or invalid edits" := by
  refine if_pos ?_
  by_contra hno
  push Not at hno
  obtain ⟨hstart, hlen, hle, hstop⟩ := hno
  exact h ⟨hstart, hle, hprev ▸ le_min hlen hstop⟩

/-- The loop goes through exactly if the ranges descend.  What it has not come to yet is as it was:
that is all of the text in front of the edit before. -/
lemma foldlM_apply (hprev : min ((base ++ tail).length : ℤ) prev = base.length) :
    (Descending base.length edits → ∃ last,
      edits.foldlM Edit.apply (base ++ tail, prev) = .ok (spliced base edits ++ tail, last)) ∧
    (¬Descending base.length edits →
      edits.foldlM Edit.apply (base ++ tail, prev) = .error "overlapping or invalid edits") := by
  induction edits generalizing base tail prev with
  | nil => exact ⟨fun _ => ⟨prev, rfl⟩, fun h => absurd trivial h⟩
  | cons e edits ih =>
      by_cases hfits : 0 ≤ e.start ∧ e.start ≤ e.stop ∧ e.stop ≤ base.length
      · obtain ⟨hstart, hle, hstop⟩ := hfits
        have hlen : ((base.take e.start.toNat).length : ℤ) = e.start := by
          rw [length_take, min_eq_left (by omega)]
          omega
        have hmin : min ((base.take e.start.toNat ++
            (e.text ++ base.drop e.stop.toNat ++ tail)).length : ℤ) e.start =
              (base.take e.start.toNat).length := by
          rw [length_append]
          omega
        obtain ⟨hok, herror⟩ := ih hmin
        rw [foldlM_cons, apply_ok hprev hstart hle hstop, ok_bind, Descending, spliced]
        rw [hlen] at hok herror
        constructor
        · rintro ⟨-, -, -, hrest⟩
          obtain ⟨last, hlast⟩ := hok hrest
          exact ⟨last, by rw [hlast]; simp⟩
        · exact fun hno => herror fun hrest => hno ⟨hstart, hle, hstop, hrest⟩
      · rw [foldlM_cons, apply_error hprev hfits]
        refine ⟨fun h => absurd ⟨h.1, h.2.1, h.2.2.1⟩ hfits, fun _ => rfl⟩

/-! ## Ranges that descend -/

lemma Descending.fits (h : Descending bound edits) :
    ∀ e ∈ edits, 0 ≤ e.start ∧ e.start ≤ e.stop ∧ e.stop ≤ bound := by
  induction edits generalizing bound with
  | nil => simp
  | cons f edits ih =>
      obtain ⟨hstart, hle, hstop, hrest⟩ := h
      intro e he
      rcases mem_cons.1 he with rfl | he
      · exact ⟨hstart, hle, hstop⟩
      · obtain ⟨hstart', hle', hstop'⟩ := ih hrest e he
        exact ⟨hstart', hle', by omega⟩

/-- Edits in descending order of their starts descend if they fit and do not overlap. -/
lemma descending_iff (hsorted : edits.Pairwise fun e f => f.start < e.start) :
    Descending bound edits ↔ (∀ e ∈ edits, 0 ≤ e.start ∧ e.start ≤ e.stop ∧ e.stop ≤ bound) ∧
      edits.Pairwise fun e f => ¬e.Overlaps f := by
  induction edits generalizing bound with
  | nil => simp [Descending]
  | cons e edits ih =>
      obtain ⟨hhead, htail⟩ := pairwise_cons.1 hsorted
      rw [Descending, ih htail, forall_mem_cons, pairwise_cons]
      constructor
      · rintro ⟨hstart, hle, hstop, hfits, hapart⟩
        refine ⟨⟨⟨hstart, hle, hstop⟩, fun f hf => ?_⟩, fun f hf hover => ?_, hapart⟩
        · obtain ⟨hstart', hle', hstop'⟩ := hfits f hf
          exact ⟨hstart', hle', by omega⟩
        · exact absurd hover.1 (not_lt.2 (hfits f hf).2.2)
      · rintro ⟨⟨⟨hstart, hle, hstop⟩, hfits⟩, hapart, hrest⟩
        refine ⟨hstart, hle, hstop, fun f hf => ⟨(hfits f hf).1, (hfits f hf).2.1, ?_⟩, hrest⟩
        have hlt := hhead f hf
        have hno := hapart f hf
        rw [Edit.Overlaps, not_and_or] at hno
        omega

/-! ## The outcome -/

lemma textsAt_cons_of_ne (h : e.start ≠ i) : textsAt (e :: edits) i = textsAt edits i := by
  rw [textsAt, filter_cons_of_neg (by simpa using h), textsAt]

lemma textsAt_eq_nil (h : ∀ f ∈ edits, f.start ≠ i) : textsAt edits i = [] := by
  rw [textsAt, filter_eq_nil_iff.2 (by simpa using h), flatMap_nil]

/-- From the start of the last edit on, its text is put in and its range is left out. -/
lemma passOver_last (hstart : 0 ≤ e.start) (hle : e.start ≤ e.stop) (hstop : e.stop ≤ base.length)
    (hbefore : ∀ f ∈ edits, f.start < e.start ∧ f.stop ≤ e.start) :
    passOver (textsAt (e :: edits)) (fun j => (e :: edits).any (·.covers j)) e.start.toNat
        (base.drop e.start.toNat) ++ textsAt (e :: edits) base.length =
      e.text ++ base.drop e.stop.toNat := by
  have htext : textsAt (e :: edits) e.start.toNat = e.text := by
    have hrest : edits.filter (fun f => f.start = (e.start.toNat : ℤ)) = [] := by
      refine filter_eq_nil_iff.2 fun f hf => ?_
      have hlt := (hbefore f hf).1
      simp only [decide_eq_true_eq]
      omega
    rw [textsAt, filter_cons_of_pos (by simp only [decide_eq_true_eq]; omega), hrest]
    simp
  have hnone : ∀ j, e.start.toNat < j → textsAt (e :: edits) j = [] := by
    intro j hj
    refine textsAt_eq_nil fun f hf => ?_
    rcases mem_cons.1 hf with rfl | hf
    · omega
    · have hlt := (hbefore f hf).1
      omega
  have hskip : ∀ j, e.start.toNat ≤ j →
      ((e :: edits).any (·.covers j) = true ↔ j < e.stop.toNat) := by
    intro j hj
    rw [any_cons, Bool.or_eq_true, any_eq_true]
    simp only [Edit.covers, decide_eq_true_eq]
    constructor
    · rintro (hcov | ⟨f, hf, hcov⟩)
      · omega
      · have hend := (hbefore f hf).2
        omega
    · exact fun hlt => Or.inl (by omega)
  cases hdrop : base.drop e.start.toNat with
  | nil =>
      have hlen : base.length ≤ e.start.toNat := drop_eq_nil_iff.1 hdrop
      have hnil : base.drop e.stop.toNat = [] := drop_eq_nil_iff.2 (by omega)
      have heq : base.length = e.start.toNat := by omega
      rw [passOver, hnil, heq, htext, nil_append, append_nil]
  | cons b bs =>
      have hlen : e.start.toNat < base.length := by
        have hlength := congrArg List.length hdrop
        rw [length_drop, length_cons] at hlength
        omega
      rw [passOver_first hnone hskip, htext, hnone _ hlen, append_nil, ← hdrop, drop_drop]
      congr 2
      omega

/-- Replacing the ranges one by one from the last one down is replacing them at once. -/
lemma spliced_eq_replaced (hsorted : edits.Pairwise fun e f => f.start < e.start)
    (h : Descending base.length edits) : spliced base edits = replaced base edits := by
  induction edits generalizing base with
  | nil =>
      have hpass : passOver (textsAt []) (fun j => ([] : List Edit).any (·.covers j)) 0 base =
          base.drop (0 - 0) :=
        passOver_drop (fun _ _ => rfl) fun j _ => by simp
      rw [spliced, replaced, hpass]
      simp [textsAt]
  | cons e edits ih =>
      obtain ⟨hhead, htail⟩ := pairwise_cons.1 hsorted
      obtain ⟨hstart, hle, hstop, hrest⟩ := h
      have hlen : (base.take e.start.toNat).length = e.start.toNat := by
        rw [length_take, min_eq_left (by omega)]
      have hcast : (e.start.toNat : ℤ) = e.start := Int.toNat_of_nonneg hstart
      have hbefore : ∀ f ∈ edits, f.start < e.start ∧ f.stop ≤ e.start := fun f hf =>
        ⟨hhead f hf, (hrest.fits f hf).2.2⟩
      -- the edits in front do not see the last one
      have hfront : passOver (textsAt (e :: edits)) (fun j => (e :: edits).any (·.covers j)) 0
          (base.take e.start.toNat) =
            passOver (textsAt edits) (fun j => edits.any (·.covers j)) 0
              (base.take e.start.toNat) := by
        refine passOver_congr fun j _ hj => ⟨textsAt_cons_of_ne (by omega), ?_⟩
        have hcov : e.covers j = false := by
          rw [Edit.covers, decide_eq_false_iff_not]
          omega
        rw [any_cons, hcov, Bool.false_or]
      have hlast : textsAt edits e.start.toNat = [] :=
        textsAt_eq_nil fun f hf => by
          have hlt := hhead f hf
          omega
      have hdesc : Descending (base.take e.start.toNat).length edits := by rwa [hlen, hcast]
      have hih := ih htail hdesc
      rw [replaced, hlen, hlast, append_nil] at hih
      conv_rhs => rw [replaced, ← take_append_drop e.start.toNat base]
      rw [spliced, hih, passOver_append, hfront, hlen, Nat.zero_add, append_assoc,
        append_assoc, take_append_drop, passOver_last hstart hle hstop hbefore]

end

/-- The loop in closed form: edits that go through are those that descend when they are sorted. -/
theorem applyEdits_eq (src : Bytes) (edits : List Edit) :
    (Descending src.length (sortOn (fun e => -e.start) edits) →
      applyEdits src edits = .ok (spliced src (sortOn (fun e => -e.start) edits))) ∧
    (¬Descending src.length (sortOn (fun e => -e.start) edits) →
      applyEdits src edits = .error "overlapping or invalid edits") := by
  have hmin : min ((src ++ []).length : ℤ) (src.length + 1) = src.length := by
    rw [append_nil]
    omega
  obtain ⟨hok, herror⟩ := @foldlM_apply src [] _ (sortOn (fun e => -e.start) edits) hmin
  rw [append_nil] at hok herror
  constructor
  · intro h
    obtain ⟨last, hlast⟩ := hok h
    rw [applyEdits, hlast, append_nil]
    rfl
  · intro h
    rw [applyEdits, herror h]
    rfl

section

variable {src : Bytes} {edits edits' : List Edit}

lemma replaced_sortOn : replaced src (sortOn (fun e => -e.start) edits) = replaced src edits := by
  have htexts : textsAt (sortOn (fun e => -e.start) edits) = textsAt edits := by
    funext i
    have hfilter : (sortOn (fun e => -e.start) edits).filter (fun e => -e.start = -(i : ℤ)) =
        edits.filter fun e => -e.start = -(i : ℤ) :=
      filter_key_sortOn edits _
    simp only [Int.neg_inj] at hfilter
    rw [textsAt, hfilter, textsAt]
  have hcovers : (fun i => (sortOn (fun e => -e.start) edits).any (Edit.covers · i)) =
      fun i => edits.any (Edit.covers · i) := by
    funext i
    exact (perm_sortOn (fun e : Edit => -e.start) edits).any_eq
  rw [replaced, htexts, hcovers, replaced]

/-- With distinct starts, the edits go through exactly if they fit and no two overlap; then all
ranges are replaced at once, whatever the order of the edits. -/
theorem applyEdits_simultaneous (hdistinct : (edits.map Edit.start).Nodup) :
    ((∃ out, applyEdits src edits = .ok out) ↔
      (∀ e ∈ edits, e.Fits src) ∧ edits.Pairwise fun e f => ¬e.Overlaps f) ∧
    (∀ out, applyEdits src edits = .ok out → out = replaced src edits) ∧
    ∀ edits', edits'.Perm edits → applyEdits src edits' = applyEdits src edits := by
  have hkeys : (edits.map fun e => -e.start).Nodup := by
    have hmap : (edits.map fun e => -e.start) = (edits.map Edit.start).map Neg.neg := by simp
    rw [hmap]
    exact hdistinct.map fun _ _ => Int.neg_inj.1
  have hsorted : (sortOn (fun e => -e.start) edits).Pairwise fun e f => f.start < e.start :=
    (sortOn_strict hkeys).imp fun h => Int.neg_lt_neg_iff.1 h
  have hsymm : ∀ {e f : Edit}, ¬e.Overlaps f → ¬f.Overlaps e := fun h hover => h hover.symm
  have hdesc : Descending src.length (sortOn (fun e => -e.start) edits) ↔
      (∀ e ∈ edits, e.Fits src) ∧ edits.Pairwise fun e f => ¬e.Overlaps f := by
    rw [descending_iff hsorted, (perm_sortOn (fun e : Edit => -e.start) edits).pairwise_iff hsymm]
    simp only [mem_sortOn, Edit.Fits]
  obtain ⟨hok, herror⟩ := applyEdits_eq src edits
  rw [← hdesc]
  refine ⟨⟨?_, fun h => ⟨_, hok h⟩⟩, fun out hout => ?_, fun edits' hperm => ?_⟩
  · rintro ⟨out, hout⟩
    by_contra hno
    rw [herror hno] at hout
    cases hout
  · by_cases h : Descending src.length (sortOn (fun e => -e.start) edits)
    · rw [hok h] at hout
      rw [← Except.ok.inj hout, spliced_eq_replaced hsorted h, replaced_sortOn]
    · rw [herror h] at hout
      cases hout
  · rw [applyEdits, applyEdits, ← sortOn_congr hperm.symm hkeys]

end

/-- Two ranges side by side, and an insertion at the start of the text. -/
theorem applyEdits_simultaneous_three :
    applyEdits [1, 2, 3, 4, 5] [⟨1, 3, [20]⟩, ⟨0, 0, [9]⟩, ⟨3, 5, []⟩] = .ok [9, 1, 20] ∧
      [9, 1, 20] =
        replaced [1, 2, 3, 4, 5] [⟨1, 3, [20]⟩, ⟨0, 0, [9]⟩, ⟨3, 5, []⟩] := by
  have hout : applyEdits [1, 2, 3, 4, 5] [⟨1, 3, [20]⟩, ⟨0, 0, [9]⟩, ⟨3, 5, []⟩] = .ok [9, 1, 20] := by
    decide +kernel
  exact ⟨hout, (applyEdits_simultaneous (by decide)).2.1 _ hout⟩

end AuthSec

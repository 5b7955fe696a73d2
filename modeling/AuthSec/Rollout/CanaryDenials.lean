import AuthSec.Rollout.Canary

/-!
# Denials of a canary

What a canary that passes says about the denials of its role, and what may be added to its input
without making it pass.

* `pass_iff`: the conditions of the five gates;
* `fullEnd_eq`: below 2562048 hours the window's length does not wrap, so that the window ends so
  many hours after the change;
* `Worse.passes`: denied events, problem reports and the loss of reads never make a canary pass;
* `evaluateCanary_keeps_denials`: the three together.
-/

namespace AuthSec

open List

namespace CanaryInput

variable {inp inp' : CanaryInput}

/-! ## The gates -/

lemma failuresGate_passed :
    inp.failuresGate.outcome = .passed ↔ inp.unexpectedFailures = [] ∧ inp.covered.1 = true := by
  rw [failuresGate]
  split
  · simp_all
  · cases inp.covered.1 <;> simp_all

lemma requiredGate_passed :
    inp.requiredGate.outcome = .passed ↔ inp.contradictedAllowed = [] ∧ inp.missing = [] := by
  rw [requiredGate]
  split_ifs <;> simp_all

/-- There is a problem report after the change. -/
def problemReported (inp : CanaryInput) : Bool :=
  inp.reports.any fun r => r.kind == reportProblem && !decide (r.createdAt < inp.appliedAt)

lemma reportsGate_passed :
    inp.reportsGate.outcome = .passed ↔ inp.problemReported = false := by
  simp only [reportsGate, problemReported]
  split_ifs with h
  · simp only [false_iff]
    simpa [filter_eq_nil_iff] using h
  · simpa [filter_eq_nil_iff] using h

lemma windowGate_passed :
    inp.windowGate.outcome = .passed ↔
      inp.elapsed = true ∧ inp.covered.1 = true ∧ inp.publishedAfterApply = true := by
  rw [windowGate]
  split_ifs <;> simp_all

lemma artifactGate_passed :
    inp.artifactGate.outcome = .passed ↔ inp.artifactOutcome = .passed := by
  rw [artifactGate]
  cases inp.artifactOutcome <;> simp

/-- The conditions under which a canary passes. -/
@[mk_iff]
structure Passes (inp : CanaryInput) : Prop where
  artifact : inp.artifactOutcome = .passed
  exempt : ∀ e ∈ inp.events, inp.inWindow e = true → e.denied = true → inp.exempt e = true
  allowed : ∀ v ∈ inp.validations, ∀ it ∈ v.items, it.expected = expectAllowed →
    ∀ e ∈ inp.events, belongs e v it = true → e.denied = false
  evidenced : ∀ r ∈ inp.retained, r.activeInQualifiedInterval = true → inp.evidenced r = true
  reports : ∀ r ∈ inp.reports, r.kind = reportProblem → r.createdAt < inp.appliedAt
  elapsed : inp.fullEnd ≤ inp.now
  covered : inp.covered.1 = true
  published : inp.publishedAfterApply = true

lemma unexpectedFailures_eq_nil :
    inp.unexpectedFailures = [] ↔
      ∀ e ∈ inp.events, inp.inWindow e = true → e.denied = true → inp.exempt e = true := by
  rw [unexpectedFailures, ← length_eq_zero_iff, length_sortOn, length_map,
    length_eq_zero_iff, filter_eq_nil_iff]
  simp

lemma missing_eq_nil :
    inp.missing = [] ↔
      ∀ r ∈ inp.retained, r.activeInQualifiedInterval = true → inp.evidenced r = true := by
  rw [missing, ← length_eq_zero_iff, length_sortOn, length_map,
    length_eq_zero_iff, filter_eq_nil_iff]
  simp

/-- An item that expects a call to be allowed is contradicted by a denial. -/
lemma correlateItem_contradicted {v : Validation} {events : List TrailEvent} {it : ValidationItem}
    (hit : it.expected = expectAllowed) :
    (correlateItem v events it).result = .contradicted ↔
      ∃ e ∈ events, belongs e v it = true ∧ e.denied = true := by
  have hopposite : (∃ e ∈ events, belongs e v it = true ∧ e.denied = true) ↔
      (events.filter fun e => belongs e v it).filter (fun e => !it.agrees e) ≠ [] := by
    have hagrees : ∀ e, it.agrees e = false ↔ e.denied = true := by
      intro e
      rw [← Bool.not_eq_true, agrees_allowed hit, Bool.not_eq_false]
    simp [filter_eq_nil_iff, hagrees, and_comm]
  rw [hopposite]
  simp only [correlateItem]
  split_ifs <;> simp_all

lemma contradictedAllowed_eq_nil :
    inp.contradictedAllowed = [] ↔
      ∀ v ∈ inp.validations, ∀ it ∈ v.items, it.expected = expectAllowed →
        ∀ e ∈ inp.events, belongs e v it = true → e.denied = false := by
  rw [contradictedAllowed, map_eq_nil_iff, filter_eq_nil_iff]
  constructor
  · intro h v hv it hit hexpected e he hbelongs
    by_contra hdenied
    refine h _ (mem_itemResults.2 ⟨v, hv, it, hit, rfl⟩) ?_
    have hcontra := (correlateItem_contradicted hexpected).2
      ⟨e, he, hbelongs, Bool.not_eq_false _ ▸ hdenied⟩
    rw [hcontra, show (correlateItem v inp.events it).expected = expectAllowed from hexpected]
    rfl
  · intro h ir hir hboth
    obtain ⟨v, hv, it, hit, rfl⟩ := mem_itemResults.1 hir
    simp only [Bool.and_eq_true, beq_iff_eq] at hboth
    obtain ⟨e, he, hbelongs, hdenied⟩ := (correlateItem_contradicted hboth.1).1 hboth.2
    simp [h v hv it hit hboth.1 e he hbelongs] at hdenied

/-- A canary passes when every gate does. -/
theorem pass_iff : (evaluateCanary inp).pass = true ↔ inp.Passes := by
  have hreports : inp.problemReported = false ↔
      ∀ r ∈ inp.reports, r.kind = reportProblem → r.createdAt < inp.appliedAt := by
    simp [problemReported]
  have helapsed : inp.elapsed = true ↔ inp.fullEnd ≤ inp.now := by simp [elapsed]
  simp only [evaluateCanary, all_cons, all_nil, Bool.and_true, Bool.and_eq_true,
    beq_iff_eq, artifactGate_passed, failuresGate_passed, requiredGate_passed, reportsGate_passed,
    windowGate_passed, unexpectedFailures_eq_nil, missing_eq_nil, contradictedAllowed_eq_nil,
    hreports, helapsed, passes_iff]
  tauto

/-! ## Inputs that are worse -/

/-- The second input has further denied events and problem reports, and lacks reads that hit no
cap. -/
structure Worse (inp inp' : CanaryInput) : Prop where
  rest : inp' = { inp with events := inp'.events, reports := inp'.reports, trail := inp'.trail }
  events : ∃ added, (∀ e ∈ added, e.denied = true) ∧ inp'.events.Perm (inp.events ++ added)
  reports : ∃ added, (∀ r ∈ added, r.kind = reportProblem) ∧
    inp'.reports.Perm (inp.reports ++ added)
  trail : ∃ removed, (∀ r ∈ removed, r.capHit = false) ∧ inp.trail.Perm (inp'.trail ++ removed)

namespace Worse

variable (h : Worse inp inp')
include h

lemma event_mem {e : TrailEvent} (he : e ∈ inp.events) : e ∈ inp'.events := by
  obtain ⟨added, -, hperm⟩ := h.events
  exact hperm.mem_iff.2 (mem_append_left _ he)

lemma mem_of_not_denied {e : TrailEvent} (he : e ∈ inp'.events) (hdenied : e.denied = false) :
    e ∈ inp.events := by
  obtain ⟨added, hadded, hperm⟩ := h.events
  rcases mem_append.1 (hperm.mem_iff.1 he) with he | he
  · exact he
  · simp [hadded e he] at hdenied

lemma report_mem {r : HealthReport} (hr : r ∈ inp.reports) : r ∈ inp'.reports := by
  obtain ⟨added, -, hperm⟩ := h.reports
  exact hperm.mem_iff.2 (mem_append_left _ hr)

lemma mem_of_working {r : HealthReport} (hr : r ∈ inp'.reports) (hkind : r.kind = reportWorking) :
    r ∈ inp.reports := by
  obtain ⟨added, hadded, hperm⟩ := h.reports
  rcases mem_append.1 (hperm.mem_iff.1 hr) with hr | hr
  · exact hr
  · exact absurd (hkind.symm.trans (hadded r hr)) (by decide)

lemma appliedAt_eq : inp'.appliedAt = inp.appliedAt := by rw [h.rest]
lemma fullEnd_same : inp'.fullEnd = inp.fullEnd := by rw [h.rest]; rfl
lemma windowEnd_eq : inp'.windowEnd = inp.windowEnd := by rw [h.rest]; rfl
lemma inWindow_eq (e : TrailEvent) : inp'.inWindow e = inp.inWindow e := by rw [h.rest]; rfl
lemma exempt_eq (e : TrailEvent) : inp'.exempt e = inp.exempt e := by rw [h.rest]; rfl
lemma validations_eq : inp'.validations = inp.validations := by rw [h.rest]

/-- The reads of the first input cover what those of the second cover. -/
lemma covered (hcov : inp'.covered.1 = true) : inp.covered.1 = true := by
  rw [CanaryInput.covered, h.appliedAt_eq, h.windowEnd_eq] at hcov
  rw [CanaryInput.covered]
  rcases lt_or_ge inp.appliedAt inp.windowEnd with hlt | hge
  · obtain ⟨removed, hremoved, hperm⟩ := h.trail
    have hplace : StrictMono ((↑) : Time → ℝ) := Int.cast_strictMono
    rw [trailCovers_eq_true hplace hlt] at hcov ⊢
    exact (CoversWindow.perm hperm).2 (hcov.append hremoved)
  · rw [trailCovers, if_pos hge]

/-- The second input has no success evidence that the first lacks. -/
lemma evidenced {r : RetainedService} (hr : inp'.evidenced r = true) : inp.evidenced r = true := by
  simp only [CanaryInput.evidenced, Bool.or_eq_true, Bool.and_eq_true] at hr ⊢
  rcases hr with (hmatched | hworking) | ⟨hdata, hsucceeded⟩
  · refine Or.inl (Or.inl ?_)
    obtain ⟨ir, hir, hall⟩ := any_eq_true.1 hmatched
    obtain ⟨v, hv, it, hit, rfl⟩ := mem_itemResults.1 hir
    simp only [Bool.and_eq_true, beq_iff_eq] at hall
    obtain ⟨⟨hexpected, hresult⟩, hsvc⟩ := hall
    obtain ⟨⟨e, he, hbelongs, hagrees⟩, hagree⟩ := correlateItem_matched hresult
    have hevent := h.mem_of_not_denied he ((agrees_allowed hexpected).1 hagrees)
    refine any_eq_true.2 ⟨correlateItem v inp.events it,
      mem_itemResults.2 ⟨v, h.validations_eq ▸ hv, it, hit, rfl⟩, ?_⟩
    have hresult : (correlateItem v inp.events it).result = .matched :=
      correlateItem_of_agree ⟨e, hevent, hbelongs, hagrees⟩
        fun e he hbelongs => hagree e (h.event_mem he) hbelongs
    simp only [Bool.and_eq_true, beq_iff_eq]
    exact ⟨⟨hexpected, hresult⟩, hsvc⟩
  · refine Or.inl (Or.inr ?_)
    obtain ⟨rep, hrep, hall⟩ := any_eq_true.1 hworking
    have hkind : rep.kind = reportWorking := by
      simp only [Bool.and_eq_true, beq_iff_eq] at hall
      exact hall.1.1
    exact any_eq_true.2 ⟨rep, h.mem_of_working hrep hkind, h.appliedAt_eq ▸ hall⟩
  · refine Or.inr ⟨hdata, ?_⟩
    obtain ⟨e, he, hall⟩ := any_eq_true.1 hsucceeded
    have hcode : e.errorCode = "" := by
      simp only [Bool.and_eq_true, beq_iff_eq] at hall
      exact hall.1.2
    have hdenied : e.denied = false := by
      rw [TrailEvent.denied, hcode]
      decide
    rw [h.inWindow_eq] at hall
    exact any_eq_true.2 ⟨e, h.mem_of_not_denied he hdenied, hall⟩

/-- An input does not pass where a worse one would not. -/
theorem passes (hpass : inp'.Passes) : inp.Passes where
  artifact := by
    have := hpass.artifact
    rwa [h.rest] at this
  exempt e he hwindow hdenied := by
    rw [← h.exempt_eq]
    exact hpass.exempt e (h.event_mem he) ((h.inWindow_eq e).trans hwindow) hdenied
  allowed v hv it hit hexpected e he hbelongs :=
    hpass.allowed v (h.validations_eq ▸ hv) it hit hexpected e (h.event_mem he) hbelongs
  evidenced r hr hactive := h.evidenced (hpass.evidenced r (by rwa [h.rest]) hactive)
  reports r hr hkind := h.appliedAt_eq ▸ hpass.reports r (h.report_mem hr) hkind
  elapsed := by
    have := hpass.elapsed
    rwa [h.fullEnd_same, h.rest] at this
  covered := h.covered hpass.covered
  published := by
    have := hpass.published
    rwa [h.rest] at this

end Worse

/-! ## What a canary that passes says -/

/-- The event is a call of the validation's role and session to the item's action, in the declared
window. -/
structure BelongsTo (e : TrailEvent) (v : Validation) (it : ValidationItem) : Prop where
  role : e.principalID = v.roleID
  session : e.sessionName = v.sessionName
  action : equalFoldASCII e.action it.action = true ∨ equalFoldASCII e.rawAction it.action = true
  start : v.windowStart ≤ e.eventTime
  stop : e.eventTime ≤ v.windowEnd

lemma belongsTo_of_belongs {e : TrailEvent} {v : Validation} {it : ValidationItem}
    (h : belongs e v it = true) : BelongsTo e v it := by
  simp only [belongs, Bool.and_eq_true, Bool.or_eq_true, beq_iff_eq, Bool.not_eq_true',
    decide_eq_false_iff_not, not_lt] at h
  obtain ⟨⟨⟨⟨hrole, hsession⟩, haction⟩, hstart⟩, hstop⟩ := h
  exact ⟨hrole, hsession, haction, hstart, hstop⟩

/-- Once the hours have elapsed, the window ends with them. -/
lemma Passes.windowEnd_eq (h : inp.Passes) : inp.windowEnd = inp.fullEnd := by
  rw [windowEnd, if_neg h.elapsed.not_gt]

lemma Passes.exempted (h : inp.Passes) {e : TrailEvent} (he : e ∈ inp.events)
    (hrole : e.principalID = inp.roleID) (hstart : inp.appliedAt ≤ e.eventTime)
    (hstop : e.eventTime ≤ inp.fullEnd) (hdenied : e.denied = true) :
    ∃ v ∈ inp.validations, ∃ it ∈ v.items, it.expected = expectDenied ∧ BelongsTo e v it := by
  have hwindow : inp.inWindow e = true := by
    simp [inWindow, hrole, hstart, h.windowEnd_eq, hstop]
  obtain ⟨v, hv, hitems⟩ := any_eq_true.1 (h.exempt e he hwindow hdenied)
  obtain ⟨it, hit, hexpected⟩ := any_eq_true.1 hitems
  simp only [Bool.and_eq_true, beq_iff_eq] at hexpected
  exact ⟨v, hv, it, hit, hexpected.1, belongsTo_of_belongs hexpected.2⟩

/-- The hours of an `int64` number of nanoseconds do not wrap. -/
lemma fullEnd_eq (hhours : inp.canaryHours.natAbs < 2562048) :
    inp.fullEnd = inp.appliedAt + inp.canaryHours * hour := by
  rw [fullEnd, length, Int.bmod_eq_of_le]
  · simp only [hour, second]
    omega
  · simp only [hour, second]
    omega

lemma Passes.coversWindow (h : inp.Passes) (hlt : inp.appliedAt < inp.fullEnd) :
    CoversWindow ((↑) : Time → ℝ) inp.trail inp.appliedAt inp.fullEnd := by
  have hcovered := h.covered
  rw [CanaryInput.covered, h.windowEnd_eq] at hcovered
  exact (trailCovers_eq_true Int.cast_strictMono hlt).1 hcovered

end CanaryInput

/-- A canary of fewer than 2562048 hours that passes has its hours behind it and a declared item for
every denial of the role in its window.  If the window is longer than an instant, every instant of it
lies in a read that hit no cap, and no read hit the cap that ends after the change and begins no
later than the window's end.  For any number of hours, denied events, problem reports and the loss of
reads do not make a canary pass. -/
theorem evaluateCanary_keeps_denials (inp : CanaryInput) :
    (inp.canaryHours.natAbs < 2562048 → (evaluateCanary inp).pass = true →
      inp.appliedAt + inp.canaryHours * hour ≤ inp.now ∧
      (0 < inp.canaryHours →
        (∀ t : ℝ, (inp.appliedAt : ℝ) ≤ t →
          t ≤ ((inp.appliedAt + inp.canaryHours * hour : Time) : ℝ) →
            ∃ r ∈ inp.trail, r.capHit = false ∧ (r.fromTime : ℝ) ≤ t ∧ t ≤ r.toTime) ∧
        ∀ r ∈ inp.trail, inp.appliedAt < r.toTime →
          r.fromTime ≤ inp.appliedAt + inp.canaryHours * hour → r.capHit = false) ∧
      ∀ e ∈ inp.events, e.principalID = inp.roleID → inp.appliedAt ≤ e.eventTime →
        e.eventTime ≤ inp.appliedAt + inp.canaryHours * hour → e.denied = true →
          ∃ v ∈ inp.validations, ∃ it ∈ v.items,
            it.expected = expectDenied ∧ CanaryInput.BelongsTo e v it) ∧
    ∀ inp', CanaryInput.Worse inp inp' → (evaluateCanary inp).pass = false →
      (evaluateCanary inp').pass = false := by
  refine ⟨fun hbound hpass => ?_, fun inp' hworse hpass => ?_⟩
  · have h := CanaryInput.pass_iff.1 hpass
    rw [← CanaryInput.fullEnd_eq hbound]
    refine ⟨h.elapsed, fun hhours => ?_, fun e he hrole hstart hstop hdenied =>
      h.exempted he hrole hstart hstop hdenied⟩
    have hlt : inp.appliedAt < inp.fullEnd := by
      rw [CanaryInput.fullEnd_eq hbound]
      exact lt_add_of_pos_right _ (Int.mul_pos hhours (by decide))
    have hcovers := h.coversWindow hlt
    exact ⟨fun t ht hts => hcovers.exists_uncapped Int.cast_strictMono hlt ht hts,
      hcovers.uncapped⟩
  · rw [← Bool.not_eq_true] at hpass ⊢
    exact fun hpass' => hpass (CanaryInput.pass_iff.2 (hworse.passes (CanaryInput.pass_iff.1 hpass')))

/-! ## Examples -/

/-- A canary without services to retain. -/
def bareCanary (hours : ℤ) (trail : List (TrailRead Time)) : CanaryInput where
  roleID := "AROAEXAMPLE"
  appliedAt := 0
  now := 48 * hour
  canaryHours := hours
  removesServices := false
  removed := []
  retained := []
  events := []
  validations := []
  reports := []
  trail := trail
  publishedAfterApply := true
  artifactOutcome := .passed

/-- With one read over its window, a canary of a day passes, and the read covers every instant. -/
theorem evaluateCanary_day :
    (evaluateCanary (bareCanary 24 [⟨0, 24 * hour, false⟩])).pass = true ∧
      ∀ t : ℝ, ((0 : Time) : ℝ) ≤ t → t ≤ ((0 + 24 * hour : Time) : ℝ) →
        ∃ r ∈ [(⟨0, 24 * hour, false⟩ : TrailRead Time)],
          r.capHit = false ∧ (r.fromTime : ℝ) ≤ t ∧ t ≤ r.toTime := by
  have hpass : (evaluateCanary (bareCanary 24 [⟨0, 24 * hour, false⟩])).pass = true := by decide
  exact ⟨hpass, (((evaluateCanary_keeps_denials _).1 (by decide) hpass).2.1 (by decide)).1⟩

/-- A canary of no hours passes without a read; the one instant of its window is not covered. -/
theorem evaluateCanary_no_hours :
    (evaluateCanary (bareCanary 0 [])).pass = true ∧
      ¬∃ r ∈ (bareCanary 0 []).trail,
        ((r.fromTime : Time) : ℝ) ≤ ((bareCanary 0 []).appliedAt : ℝ) ∧
          ((bareCanary 0 []).appliedAt : ℝ) ≤ (r.toTime : ℝ) := by
  refine ⟨by decide, ?_⟩
  rintro ⟨r, hr, -⟩
  exact absurd hr not_mem_nil

end AuthSec

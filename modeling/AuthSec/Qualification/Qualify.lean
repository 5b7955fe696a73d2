import AuthSec.Intent
import AuthSec.Qualification.Grants

/-!
# Qualification

Whether a service of a role went unused for long enough to be removed.  `qualify_no_attempt` says
what the outcome `no_attempt` rests on: a window of thirty days in which the service was tracked, the
role existed and no attempt was reported, and during which, if the grant was seen to start, some
grant path held all the time.
-/

namespace AuthSec

def reportingLag : ℤ := 4 * hour
def defaultWindowDays : ℤ := 90
def minWindowDays : ℤ := 30
def maxWindowDays : ℤ := 400

inductive QualOutcome where
  | observed
  | noAttempt
  | notEnoughHistory
  | unreviewed
  deriving DecidableEq

inductive QualConfidence where
  | qualified
  | ageUnverified
  | notApplicable
  deriving DecidableEq

def grantAgeUnknown : String := "unknown"

/-- `VerifiedGrantFrom`: where the current grant was seen to start, the basis of its age, and whether
there is a grant at all. -/
def verifiedGrantFrom (paths : List GrantPath) (t : Time) : Option Time × String × Bool :=
  match currentGrant paths t with
  | none => (none, grantAgeUnknown, false)
  | some cur =>
    if cur.openStart then (none, grantAgePredatesObservation, true)
    else (some cur.fromTime, grantAgeObservedSinceChange, true)

/-- What is known of a service of a role. -/
structure QualifyInput where
  service : String
  reportGeneratedAt : Time
  lastAuthenticatedAt : Option Time
  roleCreatedAt : Time
  trackingFrom : Option Time
  trackingReason : String
  requestedWindowDays : ℤ
  paths : List GrantPath
  evaluatedAt : Time

/-- Whether a service went unused, and since when. -/
structure Qualification where
  service : String
  outcome : QualOutcome
  reason : String
  reportGeneratedAt : Time
  lastAuthenticatedAt : Option Time
  coveredUntil : Time
  coverageStart : Time
  roleFrom : Time
  trackingFrom : Option Time
  requestedWindowDays : ℤ
  verifiedGrantFrom : Option Time
  grantAgeBasis : String
  windowStart : Time
  qualifiedDays : ℤ
  confidence : QualConfidence
  deriving DecidableEq

def clampWindowDays (d : ℤ) : ℤ :=
  if d = 0 then defaultWindowDays
  else if d < minWindowDays then minWindowDays
  else if maxWindowDays < d then maxWindowDays
  else d

/-- `maxTime` of a first time and others. -/
def maxTime (t : Time) (ts : List Time) : Time :=
  ts.foldl (fun m t => if m < t then t else m) t

def wholeDays (d : ℤ) : ℤ :=
  if d ≤ 0 then 0 else d / day

namespace QualifyInput

def coveredUntil (inp : QualifyInput) : Time :=
  inp.reportGeneratedAt - reportingLag

def coverageStart (inp : QualifyInput) : Time :=
  maxTime (inp.coveredUntil - clampWindowDays inp.requestedWindowDays * day)
    (inp.roleCreatedAt :: inp.trackingFrom.toList)

def grantFrom (inp : QualifyInput) : Option Time × String × Bool :=
  verifiedGrantFrom inp.paths inp.evaluatedAt

def windowStart (inp : QualifyInput) : Time :=
  match inp.grantFrom.1 with
  | some t => if inp.coverageStart < t then t else inp.coverageStart
  | none => inp.coverageStart

def qualifiedDays (inp : QualifyInput) : ℤ :=
  wholeDays (timeSub inp.coveredUntil inp.windowStart)

/-- The outcome, its reason and its confidence. -/
def verdict (inp : QualifyInput) : QualOutcome × String × QualConfidence :=
  if inp.grantFrom.2.2 = false then (.unreviewed, "grant_path_not_reconstructable", .notApplicable)
  else if inp.trackingFrom = none then
    (.unreviewed,
      if inp.trackingReason = "" then "service_not_in_tracking_catalog" else inp.trackingReason,
      .notApplicable)
  else if inp.lastAuthenticatedAt.any fun t => !decide (t < inp.windowStart) then
    (.observed, "", .notApplicable)
  else if inp.qualifiedDays < minQualifiedDays then (.notEnoughHistory, "", .notApplicable)
  else
    (.noAttempt, "",
      if inp.grantFrom.2.1 = grantAgeObservedSinceChange then .qualified else .ageUnverified)

end QualifyInput

/-- `Qualify`. -/
def qualify (inp : QualifyInput) : Qualification where
  service := inp.service
  outcome := inp.verdict.1
  reason := inp.verdict.2.1
  reportGeneratedAt := inp.reportGeneratedAt
  lastAuthenticatedAt := inp.lastAuthenticatedAt
  coveredUntil := inp.coveredUntil
  coverageStart := inp.coverageStart
  roleFrom := inp.roleCreatedAt
  trackingFrom := inp.trackingFrom
  requestedWindowDays := clampWindowDays inp.requestedWindowDays
  verifiedGrantFrom := inp.grantFrom.1
  grantAgeBasis := inp.grantFrom.2.1
  windowStart := inp.windowStart
  qualifiedDays := inp.qualifiedDays
  confidence := inp.verdict.2.2

/-! ## The window -/

lemma le_maxTime {t u : Time} {ts : List Time} (h : u ∈ t :: ts) : u ≤ maxTime t ts := by
  induction ts generalizing t u with
  | nil => exact (List.mem_singleton.1 h).le
  | cons v ts ih =>
      have hstep : maxTime t (v :: ts) = maxTime (max t v) ts := by
        rw [maxTime, List.foldl_cons, maxTime, max_def_lt]
      have hmax : max t v ≤ maxTime (max t v) ts := ih (List.mem_cons_self ..)
      rw [hstep]
      rcases List.mem_cons.1 h with rfl | h
      · exact (le_max_left _ _).trans hmax
      · rcases List.mem_cons.1 h with rfl | h
        · exact (le_max_right _ _).trans hmax
        · exact ih (List.mem_cons_of_mem _ h)

/-- A span of whole days is at least that long. -/
lemma mul_day_le_of_wholeDays {t u : Time} {n : ℤ} (hn : 0 < n) (h : n ≤ wholeDays (timeSub t u)) :
    n * day ≤ t - u := by
  rw [wholeDays] at h
  split_ifs at h with hpos
  · omega
  · have hday : 0 < day := by decide
    have hle : n * day ≤ timeSub t u := (Int.le_ediv_iff_mul_le hday).1 h
    rw [timeSub] at hle hpos
    omega

section

variable {inp : QualifyInput}

/-- The window starts at the later of the coverage and the grant. -/
lemma windowStart_eq (inp : QualifyInput) :
    inp.windowStart = max inp.coverageStart (inp.grantFrom.1.getD inp.coverageStart) := by
  rw [QualifyInput.windowStart]
  cases inp.grantFrom.1 with
  | none => exact (max_self _).symm
  | some t => exact (max_def_lt _ _).symm

lemma coverageStart_le_windowStart (inp : QualifyInput) : inp.coverageStart ≤ inp.windowStart := by
  rw [windowStart_eq]
  exact le_max_left _ _

/-- What an outcome of no attempt was decided by. -/
lemma verdict_noAttempt (h : (qualify inp).outcome = .noAttempt) :
    inp.grantFrom.2.2 = true ∧ inp.trackingFrom ≠ none ∧
      (∀ t, inp.lastAuthenticatedAt = some t → t < inp.windowStart) ∧
      minQualifiedDays ≤ inp.qualifiedDays := by
  have h : inp.verdict.1 = .noAttempt := h
  rw [QualifyInput.verdict] at h
  split_ifs at h with hok htracked hattempt hdays
  all_goals
    refine ⟨by simpa using hok, htracked, fun t ht => ?_, not_lt.1 hdays⟩
    simpa [ht] using hattempt

/-- A grant that was seen to start holds from there to the evaluation. -/
lemma granted_of_observed (hwf : ∀ p ∈ inp.paths, p.WellFormed)
    (hbasis : inp.grantFrom.2.1 = grantAgeObservedSinceChange) {t : Time}
    (hstart : inp.windowStart ≤ t) (hend : t ≤ inp.evaluatedAt) :
    ∃ p ∈ inp.paths, p.components ≠ [] ∧ ∀ c ∈ p.components, Covered c t := by
  rw [← covered_granted hwf]
  rw [QualifyInput.grantFrom, verifiedGrantFrom] at hbasis
  cases hcur : currentGrant inp.paths inp.evaluatedAt with
  | none =>
      rw [hcur] at hbasis
      exact absurd hbasis (by decide)
  | some cur =>
      rw [hcur] at hbasis
      have hopen : cur.openStart = false := by
        by_contra hopen
        rw [Bool.not_eq_false] at hopen
        simp [hopen, grantAgePredatesObservation, grantAgeObservedSinceChange] at hbasis
      have hfrom : cur.fromTime ≤ inp.windowStart := by
        rw [windowStart_eq, QualifyInput.grantFrom, verifiedGrantFrom, hcur]
        simp [hopen]
      rw [currentGrant] at hcur
      have hhas : cur.contains inp.evaluatedAt = true := by simpa using List.find?_some hcur
      have hstop := (Interval.contains_iff.1 hhas).2
      refine ⟨cur, List.mem_of_find?_eq_some hcur, hfrom.trans hstart, ?_⟩
      exact (WithTop.coe_le_coe.2 hend).trans_lt hstop

/-- A service with no attempt went unused for thirty whole days of a window in which the role
existed and the service was tracked; if its grant was seen to start, some path granted it all the
time from the start of the window to the evaluation. -/
theorem qualify_no_attempt (hwf : ∀ p ∈ inp.paths, p.WellFormed)
    (h : (qualify inp).outcome = .noAttempt) :
    30 * day ≤ (inp.reportGeneratedAt - reportingLag) - (qualify inp).windowStart ∧
    inp.roleCreatedAt ≤ (qualify inp).windowStart ∧
    (∃ tracking, inp.trackingFrom = some tracking ∧ tracking ≤ (qualify inp).windowStart) ∧
    (∀ t, inp.lastAuthenticatedAt = some t → t < (qualify inp).windowStart) ∧
    ((qualify inp).grantAgeBasis = grantAgeObservedSinceChange →
      ∀ t, (qualify inp).windowStart ≤ t → t ≤ inp.evaluatedAt →
        ∃ p ∈ inp.paths, p.components ≠ [] ∧
          ∀ c ∈ p.components, ∃ iv ∈ c, iv.contains t = true) := by
  obtain ⟨-, htracked, hattempt, hdays⟩ := verdict_noAttempt h
  have hcoverage := coverageStart_le_windowStart inp
  refine ⟨mul_day_le_of_wholeDays (by decide) hdays, ?_, ?_, hattempt, fun hbasis t hstart hend => ?_⟩
  · exact (le_maxTime (by simp)).trans hcoverage
  · obtain ⟨tracking, htracking⟩ := Option.ne_none_iff_exists'.1 htracked
    exact ⟨tracking, htracking, (le_maxTime (by simp [htracking])).trans hcoverage⟩
  · simp only [Interval.contains_iff]
    exact granted_of_observed hwf hbasis hstart hend

end

/-- A role of the first of January whose queues were granted on the second, evaluated in May. -/
def unusedQueues : QualifyInput where
  service := "sqs"
  reportGeneratedAt := 120 * day
  lastAuthenticatedAt := none
  roleCreatedAt := 0
  trackingFrom := some 0
  trackingReason := ""
  requestedWindowDays := 0
  paths := [⟨"p", [[⟨day, none, false⟩]]⟩]
  evaluatedAt := 120 * day

/-- Queues that nobody used for the whole window. -/
theorem qualify_unused_queues : 30 * day ≤ (120 * day - reportingLag) -
    (qualify unusedQueues).windowStart ∧ 0 ≤ (qualify unusedQueues).windowStart := by
  have hwf : ∀ p ∈ unusedQueues.paths, p.WellFormed := by
    simp [unusedQueues, GrantPath.WellFormed, Interval.WellFormed]
  obtain ⟨hlong, hrole, -⟩ := qualify_no_attempt hwf (by decide +kernel)
  exact ⟨hlong, hrole⟩

end AuthSec

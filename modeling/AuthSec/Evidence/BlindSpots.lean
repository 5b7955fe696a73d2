import AuthSec.Evidence.BundleParse

/-!
# Blind spots of a removal

A route that was not analysed becomes a gap of the bundle, which the approver accepts item by item.
Gaps are filed under keys made from a part of the route, and the text of the bundle is read back
through binary64 numbers.  `buildBundle_blind_spots` says when every such route has its gap and the
bundle can be read back: when the fields that a gap drops are empty, routes of one key are the same
spot, and no integer is among the last of its range.
-/

namespace AuthSec

open List

/-- The gap records the route. -/
def Gap.Represents (g : Gap) (r : Route) : Prop :=
  g.kind ≠ gapConsumersUnresolved ∧ g.service = r.service ∧ g.form = r.form ∧
    g.region = r.region ∧ g.resource = r.resource ∧ g.reason = r.reason

instance (g : Gap) (r : Route) : Decidable (g.Represents r) :=
  inferInstanceAs (Decidable (_ ∧ _))

/-- The route is blind in the same place and for the same reason. -/
structure Route.SameSpot (r r' : Route) : Prop where
  service : r.service = r'.service
  form : r.form = r'.form
  region : r.region = r'.region
  resource : r.resource = r'.resource
  reason : r.reason = r'.reason

/-- The fields that the route's gap does not record are empty. -/
structure Route.Carried (r : Route) : Prop where
  form : r.reason = "no_resource_policy_coverage" → r.form = ""
  region : r.reason = "no_resource_policy_coverage" ∨ r.reason = "form_not_collected" →
    r.region = ""
  resource : r.reason ≠ "policy_unparseable" → r.resource = ""

/-- Every route that was not analysed has a gap of its own, and the integers can be read back. -/
structure BundleInput.SpotsKept (inp : BundleInput) : Prop where
  carried : ∀ r ∈ inp.blindRoutes, r.Carried
  keys : ∀ r ∈ inp.blindRoutes, ∀ r' ∈ inp.blindRoutes, (gapFor r).key = (gapFor r').key →
    r.SameSpot r'
  revs : ∀ s ∈ inp.sources, Rereadable s.rev
  days : ∀ a ∈ inp.activity, Rereadable a.qualifiedDays
  consumers : Rereadable inp.consumersUnresolved

/-! ## Gaps of routes -/

section

variable {r r' : Route}

lemma gapFor_kind (r : Route) : (gapFor r).kind ≠ gapConsumersUnresolved := by
  simp only [gapFor]
  split_ifs <;> simp [gapUnanalysedForm, gapPolicyUnparseable, gapResourcePolicyCoverage,
    gapConsumersUnresolved]

lemma gapFor_service (r : Route) : (gapFor r).service = r.service := by
  simp only [gapFor]
  split_ifs <;> rfl

lemma gapFor_reason (r : Route) : (gapFor r).reason = r.reason := by
  simp only [gapFor]
  split_ifs <;> rfl

lemma gapFor_form (r : Route) : (gapFor r).form =
    if r.reason = "no_resource_policy_coverage" then "" else r.form := by
  simp only [gapFor]
  split_ifs <;> simp_all

lemma gapFor_region (r : Route) : (gapFor r).region =
    if r.reason = "no_resource_policy_coverage" ∨ r.reason = "form_not_collected" then ""
    else r.region := by
  simp only [gapFor]
  split_ifs <;> simp_all

lemma gapFor_resource (r : Route) : (gapFor r).resource =
    if r.reason = "policy_unparseable" then r.resource else "" := by
  simp only [gapFor]
  split_ifs <;> simp_all

lemma Route.SameSpot.gapFor_eq (h : r.SameSpot r') : gapFor r = gapFor r' := by
  simp only [gapFor, h.service, h.form, h.region, h.resource, h.reason]

lemma gapFor_represents_iff : (gapFor r).Represents r ↔ r.Carried := by
  simp only [Gap.Represents, gapFor_service, gapFor_form, gapFor_region, gapFor_resource,
    gapFor_reason, ite_eq_right_iff, ite_eq_left_iff, @eq_comm _ ""]
  constructor
  · rintro ⟨-, -, hform, hregion, hresource, -⟩
    exact ⟨hform, hregion, hresource⟩
  · intro h
    exact ⟨gapFor_kind r, trivial, h.form, h.region, h.resource, trivial⟩

/-- A gap that records a route is the gap of the route. -/
lemma gapFor_eq_of_represents (h : (gapFor r').Represents r) : gapFor r = gapFor r' := by
  simp only [Gap.Represents, gapFor_service, gapFor_form, gapFor_region, gapFor_resource,
    gapFor_reason] at h
  obtain ⟨-, hservice, hform, hregion, hresource, hreason⟩ := h
  -- one reason, so the two gaps are made by one case
  rw [hreason] at hform hregion hresource
  by_cases hcollected : r.reason = "form_not_collected"
  · simp only [hcollected, String.reduceEq, if_false] at hform
    simp [gapFor, hreason, hcollected, hservice, hform]
  · by_cases hunparseable : r.reason = "policy_unparseable"
    · simp only [hunparseable, String.reduceEq, or_self, if_false, if_true] at hform hregion hresource
      simp [gapFor, hreason, hunparseable, hservice, hform, hregion, hresource]
    · by_cases hnone : r.reason = "no_resource_policy_coverage"
      · simp [gapFor, hreason, hnone, hservice]
      · simp only [hcollected, hnone, or_self, if_false] at hform hregion
        simp [gapFor, hreason, hcollected, hunparseable, hnone, hservice, hform, hregion]

end

namespace BundleInput

variable {inp : BundleInput} {rules : TrustRules}

/-- Every key has a gap. -/
lemma exists_gap {g : Gap} (h : g ∈ inp.blindRoutes.map gapFor ++ inp.consumersGap) :
    ∃ g' ∈ (inp.facts rules).gaps, g'.key = g.key := by
  have hmem : (g.key, g) ∈ ((inp.blindRoutes.map gapFor ++ inp.consumersGap).map
      fun g => (g.key, g)).filter (·.1 = g.key) :=
    mem_filter.2 ⟨mem_map_of_mem h, by simp⟩
  obtain ⟨e, he⟩ := Option.isSome_iff_exists.1 (getLast?_isSome.2 (ne_nil_of_mem hmem))
  obtain ⟨hin, hkey⟩ := mem_filter.1 (mem_of_getLast? he)
  obtain ⟨g', -, rfl⟩ := mem_map.1 hin
  have hkey : g'.key = g.key := of_decide_eq_true hkey
  refine ⟨g', mem_facts_gaps.2 ?_, hkey⟩
  rw [gapMap, GoMap.get?_ofList_eq, hkey, he]
  rfl

/-- A route that is recorded is recorded by its own gap. -/
lemma gapFor_mem_of_represents {r : Route} {g : Gap} (hg : g ∈ (inp.facts rules).gaps)
    (h : g.Represents r) : gapFor r ∈ (inp.facts rules).gaps ∧ r.Carried := by
  rcases gap_cases hg with ⟨r', -, rfl⟩ | hconsumers
  · rw [← gapFor_eq_of_represents h] at hg h
    exact ⟨hg, gapFor_represents_iff.1 h⟩
  · rw [eq_of_mem_consumersGap hconsumers] at h
    exact absurd rfl h.1

/-- The blind routes are all recorded exactly when none of them loses a field and routes of one key
are the same spot. -/
lemma forall_represents_iff :
    (∀ r ∈ inp.blindRoutes, ∃ g ∈ (inp.facts rules).gaps, g.Represents r) ↔
      (∀ r ∈ inp.blindRoutes, r.Carried) ∧ ∀ r ∈ inp.blindRoutes, ∀ r' ∈ inp.blindRoutes,
        (gapFor r).key = (gapFor r').key → r.SameSpot r' := by
  constructor
  · intro h
    have hgap : ∀ r ∈ inp.blindRoutes, gapFor r ∈ (inp.facts rules).gaps ∧ r.Carried := by
      intro r hr
      obtain ⟨g, hg, hrep⟩ := h r hr
      exact gapFor_mem_of_represents hg hrep
    refine ⟨fun r hr => (hgap r hr).2, fun r hr r' hr' hkey => ?_⟩
    have hget := mem_facts_gaps.1 (hgap r hr).1
    rw [hkey, mem_facts_gaps.1 (hgap r' hr').1] at hget
    obtain ⟨-, hservice, hform, hregion, hresource, hreason⟩ :=
      gapFor_represents_iff.2 (hgap r hr).2
    obtain ⟨-, hservice', hform', hregion', hresource', hreason'⟩ :=
      gapFor_represents_iff.2 (hgap r' hr').2
    rw [Option.some.inj hget] at hservice' hform' hregion' hresource' hreason'
    exact ⟨hservice ▸ hservice', hform ▸ hform', hregion ▸ hregion', hresource ▸ hresource',
      hreason ▸ hreason'⟩
  · rintro ⟨hcarried, hkeys⟩ r hr
    refine ⟨gapFor r, mem_facts_gaps.2 ?_, gapFor_represents_iff.2 (hcarried r hr)⟩
    have hagree := gaps_agree fun r hr r' hr' hkey => (hkeys r hr r' hr' hkey).gapFor_eq
    refine (GoMap.get?_ofList_of_agree hagree _ _).2 (mem_map.2 ⟨gapFor r, ?_, rfl⟩)
    exact mem_append_left _ (mem_map_of_mem hr)

/-- The integers of the facts can be read back exactly when those of the input can. -/
lemma exists_reread_iff : (∃ f', (inp.facts rules).reread = .ok f') ↔
    (∀ s ∈ inp.sources, Rereadable s.rev) ∧ (∀ a ∈ inp.activity, Rereadable a.qualifiedDays) ∧
      Rereadable inp.consumersUnresolved := by
  have hsources : (∀ s ∈ (inp.facts rules).sources,
      Rereadable s.rev ∧ Rereadable s.freshnessHours) ↔ ∀ s ∈ inp.sources, Rereadable s.rev := by
    simp only [facts, mem_sortOn, sourceFacts, forall_mem_map]
    refine forall₂_congr fun s _ => and_iff_left ?_
    have hhours := freshnessHours_le s inp.builtAt rules
    rw [Rereadable]
    omega
  have hactivity : (∀ a ∈ (inp.facts rules).activity, Rereadable a.qualifiedDays) ↔
      ∀ a ∈ inp.activity, Rereadable a.qualifiedDays := by
    simp only [facts, mem_sortOn]
  have hgaps : Rereadable inp.consumersUnresolved →
      ∀ g ∈ (inp.facts rules).gaps, Rereadable g.count := by
    intro hcount g hg
    rcases gap_cases hg with ⟨r, -, rfl⟩ | hconsumers
    · rw [gapFor_count, Rereadable]
      decide
    · rwa [eq_of_mem_consumersGap hconsumers]
  rw [BundleFacts.exists_reread, hsources, hactivity]
  constructor
  · rintro ⟨hrevs, hcount, hdays, -⟩
    exact ⟨hrevs, hdays, hcount⟩
  · rintro ⟨hrevs, hdays, hcount⟩
    exact ⟨hrevs, hcount, hdays, hgaps hcount⟩

end BundleInput

/-- A trusted bundle has no gap. -/
lemma gaps_of_trusted {f : BundleFacts} (h : (classifyBundleTrust f).1 = trustTrusted) :
    f.gaps = [] := by
  have hincomplete : f.incomplete = [] := by
    rw [classifyBundleTrust] at h
    split_ifs at h with huntrusted hincomplete
    · exact absurd h (show trustUntrusted ≠ trustTrusted by decide)
    · exact absurd h (show trustPartial ≠ trustTrusted by decide)
    · exact not_not.1 hincomplete
  rw [BundleFacts.incomplete, append_eq_nil_iff] at hincomplete
  exact map_eq_nil_iff.1 hincomplete.2

/-- What the check says about unresolved consumers and sources. -/
lemma BundleInput.check_eq_ok {inp : BundleInput} (h : inp.check = .ok ()) :
    inp.sources ≠ [] ∧ ¬inp.consumersUnresolved < 0 := by
  rw [check] at h
  split_ifs at h with hsources _ _ hcount
  exact ⟨hsources, hcount⟩

/-- Without gaps there is nothing that was not analysed or not resolved. -/
lemma nothing_blind_of_gaps {inp : BundleInput} {rules : TrustRules}
    (hcount : ¬inp.consumersUnresolved < 0) (h : (inp.facts rules).gaps = []) :
    inp.blindRoutes = [] ∧ inp.consumersUnresolved = 0 := by
  have hempty : inp.blindRoutes.map gapFor ++ inp.consumersGap = [] := by
    refine eq_nil_iff_forall_not_mem.2 fun g hg => ?_
    obtain ⟨g', hg', -⟩ := @BundleInput.exists_gap inp rules g hg
    rw [h] at hg'
    exact absurd hg' not_mem_nil
  obtain ⟨hroutes, hconsumers⟩ := append_eq_nil_iff.1 hempty
  refine ⟨map_eq_nil_iff.1 hroutes, ?_⟩
  have hpos : ¬0 < inp.consumersUnresolved := by
    intro hpos
    rw [BundleInput.consumersGap, if_pos hpos] at hconsumers
    simp at hconsumers
  rw [Int64.lt_iff_toInt_lt] at hcount hpos
  exact Int64.toInt_inj.1 (le_antisymm (not_lt.1 hpos) (not_lt.1 hcount))

section

variable [Sha256] {inp : BundleInput} {rules : TrustRules} {b : Bundle}

/-- The routes that were not analysed are all among the gaps, and the bundle is read back with its
trust, exactly when no gap hides another or drops a field and no integer is too large; a trusted
bundle always has nothing that was not analysed or not resolved. -/
theorem buildBundle_blind_spots (hb : buildBundle inp rules = .ok b) :
    ((∀ r ∈ inp.blindRoutes, ∃ g ∈ b.facts.gaps, g.Represents r) ∧
      (b.trust = trustTrusted → inp.blindRoutes = [] ∧ inp.consumersUnresolved = 0) ∧
      ∃ f, parseBundle b.canonical b.hash = .ok (f, b.trust, b.trustReasons)) ↔
    inp.SpotsKept := by
  obtain ⟨hcheck, -, hseal⟩ := buildBundle_eq_ok.1 hb
  obtain ⟨-, rfl⟩ := sealBundle_eq_ok.1 hseal
  obtain ⟨hsources, hcount⟩ := BundleInput.check_eq_ok hcheck
  have hnonempty : (inp.facts rules).sources ≠ [] := by
    intro hempty
    have hlength := congrArg List.length hempty
    simp only [BundleInput.facts, length_sortOn, BundleInput.sourceFacts, length_map] at hlength
    exact hsources (eq_nil_of_length_eq_zero hlength)
  have htrusted := fun h : (classifyBundleTrust (inp.facts rules)).1 = trustTrusted =>
    nothing_blind_of_gaps hcount (gaps_of_trusted h)
  have hparse := (parseBundle_goText_iff hnonempty).trans
    (@BundleInput.exists_reread_iff inp rules)
  constructor
  · rintro ⟨hspots, -, hread⟩
    obtain ⟨hcarried, hkeys⟩ := BundleInput.forall_represents_iff.1 hspots
    obtain ⟨hrevs, hdays, hconsumers⟩ := hparse.1 hread
    exact ⟨hcarried, hkeys, hrevs, hdays, hconsumers⟩
  · intro h
    exact ⟨BundleInput.forall_represents_iff.2 ⟨h.carried, h.keys⟩, htrusted,
      hparse.2 ⟨h.revs, h.days, h.consumers⟩⟩

end

/-! ## Examples -/

/-- The role whose queues are analysed. -/
def jobsRole : RoleRef where
  roleID := "AROAEXAMPLE"
  arn := "arn:aws:iam::123456789012:role/jobs"
  name := "jobs"
  accountID := "123456789012"

/-- An input that removes the queues from a role, with an analysis of its routes. -/
def removeQueues (ev : Option ResourcePolicyEvidence) : BundleInput :=
  { sourcesInput [publication "c1" none] with
    removedServices := ["sqs"]
    routeAnalyses := [analyzeRoutes "sqs" jobsRole ev []] }

/-- A scan that did not establish the enabled regions and read the queues of no region. -/
def unknownRegions : ResourcePolicyEvidence where
  coverage := [⟨"sqs_queue", "", .incomplete⟩]
  observations := []
  enabledRegionsUnknown := true

/-- An input that removes two services without any evidence for them. -/
def removeUnseen : BundleInput :=
  { sourcesInput [publication "c1" none] with
    removedServices := ["sns", "sqs"]
    routeAnalyses := ["sns", "sqs"].map fun svc => analyzeRoutes svc jobsRole none [] }

lemma blindRoutes_removeUnseen : removeUnseen.blindRoutes = ["sns", "sqs"].map fun svc =>
    { service := svc, effect := "not_analysed", reason := "no_resource_policy_coverage" } := by
  decide +kernel

/-- Two routes that were not analysed have two gaps, under different keys. -/
theorem buildBundle_no_evidence : ∃ b,
    @buildBundle ⟨fun _ => []⟩ removeUnseen defaultTrustRules = .ok b ∧
      (∀ r ∈ removeUnseen.blindRoutes, ∃ g ∈ b.facts.gaps, g.Represents r) ∧
      ∃ f, @parseBundle ⟨fun _ => []⟩ b.canonical b.hash = .ok (f, b.trust, b.trustReasons) := by
  let _ : Sha256 := ⟨fun _ => []⟩
  obtain ⟨b, hb⟩ := exists_buildBundle
    (show removeUnseen.check = .ok () by decide)
    (show activityTwice (BundleInput.facts _ defaultTrustRules).activity = none from rfl)
    (by decide +kernel)
  have hkeys : ∀ r ∈ removeUnseen.blindRoutes, ∀ r' ∈ removeUnseen.blindRoutes,
      (gapFor r).key = (gapFor r').key → r = r' := by
    rw [blindRoutes_removeUnseen]
    decide +kernel
  have hkept : removeUnseen.SpotsKept := by
    refine ⟨?_, ?_, ?_, ?_, ?_⟩
    · rw [blindRoutes_removeUnseen, forall_mem_map]
      exact fun svc _ => ⟨fun _ => rfl, fun _ => rfl, fun _ => rfl⟩
    · intro r hr r' hr' hkey
      obtain rfl := hkeys r hr r' hr' hkey
      exact ⟨rfl, rfl, rfl, rfl, rfl⟩
    · intro s hs
      rw [mem_singleton.1 hs, Rereadable]
      decide
    · intro a ha
      exact absurd ha not_mem_nil
    · rw [Rereadable]
      decide
  obtain ⟨hspots, -, hread⟩ := (buildBundle_blind_spots hb).2 hkept
  exact ⟨b, hb, hspots, hread⟩

/-- Of two blind routes with one key, the gap of the second is all that is left. -/
theorem buildBundle_hidden_spot : ∃ b,
    @buildBundle ⟨fun _ => []⟩ (removeQueues (some unknownRegions)) defaultTrustRules = .ok b ∧
      ∃ r ∈ (removeQueues (some unknownRegions)).blindRoutes, ∀ g ∈ b.facts.gaps,
        ¬g.Represents r := by
  let _ : Sha256 := ⟨fun _ => []⟩
  obtain ⟨b, hb⟩ := exists_buildBundle
    (show (removeQueues (some unknownRegions)).check = .ok () by decide)
    (show activityTwice (BundleInput.facts _ defaultTrustRules).activity = none from rfl)
    (by decide +kernel)
  refine ⟨b, hb, { service := "sqs", form := "sqs_queue", effect := "not_analysed",
                   reason := "enabled_regions_unknown" }, ?_, ?_⟩
  · decide +kernel
  · obtain ⟨-, -, hseal⟩ := buildBundle_eq_ok.1 hb
    obtain ⟨-, rfl⟩ := sealBundle_eq_ok.1 hseal
    decide +kernel

end AuthSec

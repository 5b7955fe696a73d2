import AuthSec.Evidence.RoutePrincipals

/-!
# Routes of a stored scan

A scan's resource policies are stored as texts and decoded when the evidence is loaded.

* `bypassKnown_iff`: which statements make a bypass known;
* `noneObserved_iff`: what is settled where no route was observed;
* `analyzeRoutes_bypass`: a session of the role is found, unless a wildcard stands beside it, and
  where no route was observed nothing is left open, unless a `NotPrincipal` lists a session.
-/

namespace AuthSec

open List

/-! ## Stored scans -/

/-- A stored row of a resource that was read. -/
structure StoredPolicy where
  form : String
  region : String
  resourceARN : String
  policyPresent : Bool
  parseState : ParseState
  canonical : Option Bytes

/-- The rows of a scan: a form has one coverage row in a region, and every policy belongs to one. -/
structure StoredScan where
  coverage : List CoverageRow
  policies : List StoredPolicy
  enabledRegionsUnknown : Bool
  keyed : (coverage.map fun c => (c.form, c.region)).Nodup
  covered : ∀ o ∈ policies, ∃ c ∈ coverage, c.form = o.form ∧ c.region = o.region

/-- The observation of a row.  A stored text that no longer decodes is unparseable. -/
def StoredPolicy.load (o : StoredPolicy) : ResourcePolicyObservation :=
  match o.policyPresent, o.parseState, o.canonical with
  | true, .parsed, some text =>
    match decodePolicyDocument text with
    | .ok doc => observation .parsed (some doc)
    | .error _ => observation .unparseable none
  | _, state, _ => observation state none
where
  observation (state : ParseState) (document : Option PolicyDocument) :
      ResourcePolicyObservation :=
    { form := o.form, region := o.region, resourceARN := o.resourceARN
      policyPresent := o.policyPresent, parseState := state, document }

/-- `loadResourcePolicyEvidence`, of one run. -/
def loadResourcePolicyEvidence (scan : StoredScan) : Option ResourcePolicyEvidence :=
  if scan.coverage.isEmpty then none
  else some { coverage := scan.coverage, observations := scan.policies.map StoredPolicy.load
              enabledRegionsUnknown := scan.enabledRegionsUnknown }

/-- The row is a present policy of one of the namespace's forms, and its resource is of the role's
account or of none. -/
structure StoredPolicy.Reaches (o : StoredPolicy) (service : String) (role : RoleRef) : Prop where
  form : o.form ∈ (formsForNamespace service).map PolicyBearingForm.name
  present : o.policyPresent = true
  account : arnAccount o.resourceARN = "" ∨ role.accountID = "" ∨
    arnAccount o.resourceARN = role.accountID

/-- The row holds this document. -/
structure StoredPolicy.Holds (o : StoredPolicy) (doc : PolicyDocument) : Prop where
  parsed : o.parseState = .parsed
  decodes : ∃ text, o.canonical = some text ∧ decodePolicyDocument text = .ok doc

namespace StoredScan

variable (scan : StoredScan) (service : String) (role : RoleRef)

/-- An `Allow` statement of a parsed policy grants the namespace. -/
def Grants (st : Statement) : Prop :=
  ∃ o ∈ scan.policies, o.Reaches service role ∧ ∃ doc, o.Holds doc ∧ st ∈ doc.statements ∧
    st.effect = .allow ∧ st.grantsNamespace service = true

/-- A statement grants the namespace to a session of the role. -/
def GrantsSession : Prop :=
  ∃ st, scan.Grants service role st ∧
    ∃ p, st.principal = some p ∧ ∃ v ∈ p.aws, role.IsSession v

/-- A statement grants the namespace to a session of the role and not to everyone. -/
def GrantsSessionOnly : Prop :=
  ∃ st, scan.Grants service role st ∧
    ∃ p, st.principal = some p ∧ "*" ∉ p.aws ∧ ∃ v ∈ p.aws, role.IsSession v ∧ ¬role.IsNamed v

/-- The form is collected, and complete: in all its rows, or in every enabled region. -/
structure FormComplete (enabledRegions : List String) (f : PolicyBearingForm) : Prop where
  collected : f.state = .collected
  account : f.scope = .account → (∃ c ∈ scan.coverage, c.form = f.name) ∧
    ∀ c ∈ scan.coverage, c.form = f.name → c.state = .complete
  region : f.scope = .region → ∀ region ∈ enabledRegions,
    ∃ c ∈ scan.coverage, c.form = f.name ∧ c.region = region ∧ c.state = .complete

/-- Nothing of the form is left open: besides, the enabled regions are known where it is read region
by region, and none of its rows is incomplete, of whatever region. -/
structure FormRead (enabledRegions : List String) (f : PolicyBearingForm) : Prop
    extends scan.FormComplete enabledRegions f where
  known : f.scope = .region → scan.enabledRegionsUnknown = false
  rows : ∀ c ∈ scan.coverage, c.form = f.name → c.state = .complete

/-- Nothing is left open, and no statement names the role. -/
structure Settled (enabledRegions : List String) : Prop where
  complete : ∀ f ∈ formsForNamespace service, scan.FormComplete enabledRegions f
  parsed : ∀ o ∈ scan.policies, o.Reaches service role → ∃ doc, o.Holds doc
  unnamed : ∀ st, scan.Grants service role st → ¬st.NamesRole role

/-- Nothing is left open, and no statement names the role but those that except a session of it. -/
structure SettledButSessions (enabledRegions : List String) : Prop where
  read : ∀ f ∈ formsForNamespace service, scan.FormRead enabledRegions f
  parsed : ∀ o ∈ scan.policies, o.Reaches service role → ∃ doc, o.Holds doc
  excepted : ∀ st, scan.Grants service role st → st.NamesRole role → st.ExceptsSession role

end StoredScan

/-! ## The analysis of evidence -/

lemma mem_keepFirst {α : Type} [DecidableEq α] {l : List α} {a : α} :
    a ∈ keepFirst id l ↔ a ∈ l := by
  induction l with
  | nil => simp [keepFirst]
  | cons b l ih =>
      by_cases h : a = b
      · simp [keepFirst, h]
      · simp [keepFirst, h, ih]

section

variable {service : String} {role : RoleRef} {ev : ResourcePolicyEvidence}
  {enabledRegions : List String} {ob : ResourcePolicyObservation}

/-- The observations that the analysis looks at. -/
def considered (service : String) (role : RoleRef) (ob : ResourcePolicyObservation) : Bool :=
  ((formsForNamespace service).map PolicyBearingForm.name).contains ob.form &&
    ob.policyPresent && !(arnAccount ob.resourceARN != "" && role.accountID != "" &&
      arnAccount ob.resourceARN != role.accountID)

lemma analyzeRoutes_some :
    analyzeRoutes service role (some ev) enabledRegions = finishRoutes service
      ((formsForNamespace service).flatMap (formRoutes service ev enabledRegions) ++
        (ev.observations.filter (considered service role)).flatMap
          (observationRoutes service role)) :=
  rfl

lemma usage_noneObserved_iff {routes : List Route} :
    (finishRoutes service routes).usage = .noneObserved ↔ routes = [] := by
  cases routes <;> simp [finishRoutes]

lemma state_bypassKnown_iff {routes : List Route} :
    (finishRoutes service routes).state = .bypassKnown ↔
      ∃ r ∈ routes, r.effect = RouteEffect.bypassKnown.text := by
  simp only [finishRoutes]
  split_ifs with hbypass hunknown hnot <;> simpa using hbypass

lemma effectFor_bypassKnown {p : RoutePrincipal} :
    (effectFor p).text = RouteEffect.bypassKnown.text ↔ p = .roleSession := by
  cases p <;> decide

lemma effect_of_mem_formRoutes {f : PolicyBearingForm} {r : Route}
    (hr : r ∈ formRoutes service ev enabledRegions f) :
    r.effect = RouteEffect.notAnalysed.text := by
  have hregion : ∀ rows, r ∈ regionRoutes service f.name rows enabledRegions →
      r.effect = RouteEffect.notAnalysed.text := by
    intro rows h
    obtain ⟨region, -, h⟩ := mem_filterMap.1 h
    split at h
    · cases h
      rfl
    · split_ifs at h
      cases h
      rfl
  rw [formRoutes] at hr
  split_ifs at hr with hcollected haccount hunknown
  · rw [mem_singleton.1 hr]
  · rw [accountRoutes] at hr
    split_ifs at hr
    · rw [mem_singleton.1 hr]
    · obtain ⟨e, -, rfl⟩ := mem_map.1 hr
      rfl
  · rcases mem_append.1 hr with h | h
    · rw [mem_singleton.1 h]
    · exact hregion _ h
  · exact hregion _ hr

lemma bypass_mem_observationRoutes :
    (∃ r ∈ observationRoutes service role ob, r.effect = RouteEffect.bypassKnown.text) ↔
      ob.parseState = .parsed ∧ ∃ doc, ob.document = some doc ∧
        ∃ st ∈ doc.statements, RoutePrincipal.roleSession ∈ statementRoutes st service role := by
  have hne : RouteEffect.notAnalysed.text ≠ RouteEffect.bypassKnown.text := by decide
  rw [observationRoutes]
  cases hparse : ob.parseState with
  | unparseable => simp [observationRoutes.unparseable, hne]
  | parsed =>
      cases hdoc : ob.document with
      | none => simp [observationRoutes.unparseable, hne]
      | some doc => simp [mem_keepFirst, effectFor_bypassKnown]

/-- A bypass is known by the statements of the considered policies that have a route of sessions. -/
theorem bypassKnown_iff :
    (analyzeRoutes service role (some ev) enabledRegions).state = .bypassKnown ↔
      ∃ ob ∈ ev.observations, considered service role ob = true ∧ ob.parseState = .parsed ∧
        ∃ doc, ob.document = some doc ∧ ∃ st ∈ doc.statements,
          RoutePrincipal.roleSession ∈ statementRoutes st service role := by
  rw [analyzeRoutes_some, state_bypassKnown_iff]
  constructor
  · rintro ⟨r, hr, heffect⟩
    rcases mem_append.1 hr with hform | hob
    · obtain ⟨f, -, hf⟩ := List.mem_flatMap.1 hform
      rw [effect_of_mem_formRoutes hf] at heffect
      exact absurd heffect (by decide)
    · obtain ⟨ob, hmem, hr⟩ := List.mem_flatMap.1 hob
      obtain ⟨hob, hconsidered⟩ := mem_filter.1 hmem
      exact ⟨ob, hob, hconsidered, bypass_mem_observationRoutes.1 ⟨r, hr, heffect⟩⟩
  · rintro ⟨ob, hob, hconsidered, hsession⟩
    obtain ⟨r, hr, heffect⟩ := bypass_mem_observationRoutes.2 hsession
    refine ⟨r, mem_append_right _ (List.mem_flatMap.2 ⟨ob, ?_, hr⟩), heffect⟩
    exact mem_filter.2 ⟨hob, hconsidered⟩

/-- A policy has no route if it was parsed and none of its statements has a route. -/
lemma observationRoutes_eq_nil :
    observationRoutes service role ob = [] ↔ ob.parseState = .parsed ∧
      ∃ doc, ob.document = some doc ∧
        ∀ st ∈ doc.statements, statementRoutes st service role = [] := by
  rw [observationRoutes]
  cases hparse : ob.parseState with
  | unparseable => simp
  | parsed =>
      cases hdoc : ob.document with
      | none => simp
      | some doc =>
          simp only [reduceCtorEq, if_false, map_eq_nil_iff, true_and, Option.some.injEq,
            exists_eq_left']
          rw [eq_nil_iff_forall_not_mem, ← flatMap_eq_nil_iff, eq_nil_iff_forall_not_mem]
          exact forall_congr' fun q => not_congr mem_keepFirst

end

/-! ## Coverage -/

section

variable {ev : ResourcePolicyEvidence} {service form : String} {enabledRegions : List String}

lemma get?_coverageRows (hkeyed : (ev.coverage.map fun c => (c.form, c.region)).Nodup)
    {region : String} {c : CoverageRow} :
    (coverageRows ev form).get? region = some c ↔
      c ∈ ev.coverage ∧ c.form = form ∧ c.region = region := by
  have hregions : (((ev.coverage.filter (·.form == form)).map fun c => (c.region, c)).map
      Prod.fst).Nodup := by
    have hrows : ((ev.coverage.filter (·.form == form)).map fun c => (c.form, c.region)).Nodup :=
      hkeyed.sublist (filter_sublist.map _)
    rw [List.map_map]
    refine List.Nodup.map_on (fun c hc c' hc' heq => ?_) hrows.of_map
    have hform := beq_iff_eq.1 (mem_filter.1 hc).2
    have hform' := beq_iff_eq.1 (mem_filter.1 hc').2
    exact List.inj_on_of_nodup_map hrows hc hc' (Prod.ext (hform.trans hform'.symm) heq)
  rw [coverageRows, GoMap.get?_ofList hregions]
  simp only [mem_map, mem_filter, beq_iff_eq, Prod.mk.injEq]
  constructor
  · rintro ⟨d, ⟨hd, hform⟩, hregion, rfl⟩
    exact ⟨hd, hform, hregion⟩
  · rintro ⟨hc, hform, hregion⟩
    exact ⟨c, ⟨hc, hform⟩, hregion, rfl⟩

lemma accountRoutes_eq_nil (hkeyed : (ev.coverage.map fun c => (c.form, c.region)).Nodup) :
    accountRoutes service form (coverageRows ev form) = [] ↔
      (∃ c ∈ ev.coverage, c.form = form) ∧
        ∀ c ∈ ev.coverage, c.form = form → c.state = .complete := by
  have hpairs : ∀ {region c}, (region, c) ∈ (coverageRows ev form).sortedPairs ↔
      c ∈ ev.coverage ∧ c.form = form ∧ c.region = region :=
    (GoMap.mem_sortedPairs _ _ _).trans (get?_coverageRows hkeyed)
  rw [accountRoutes]
  split_ifs with hempty
  · refine iff_of_false (by simp) ?_
    rintro ⟨⟨c, hc, hform⟩, -⟩
    have hmem := hpairs.2 ⟨hc, hform, rfl⟩
    rw [List.isEmpty_iff.1 hempty] at hmem
    exact absurd hmem not_mem_nil
  · rw [map_eq_nil_iff, filter_eq_nil_iff]
    constructor
    · intro h
      obtain ⟨⟨region, c⟩, hc⟩ := exists_mem_of_ne_nil _ (mt List.isEmpty_iff.2 hempty)
      refine ⟨⟨c, (hpairs.1 hc).1, (hpairs.1 hc).2.1⟩, fun c hc hform => ?_⟩
      simpa using h _ (hpairs.2 ⟨hc, hform, rfl⟩)
    · rintro ⟨-, h⟩ ⟨region, c⟩ hc
      simp [h c (hpairs.1 hc).1 (hpairs.1 hc).2.1]

lemma regionRoutes_eq_nil (hkeyed : (ev.coverage.map fun c => (c.form, c.region)).Nodup) :
    regionRoutes service form (coverageRows ev form) enabledRegions = [] ↔
      (∀ region ∈ enabledRegions, ∃ c ∈ ev.coverage, c.form = form ∧ c.region = region ∧
        c.state = .complete) ∧ ∀ c ∈ ev.coverage, c.form = form → c.state = .complete := by
  have hkeys : ∀ {region}, region ∈ sortedKeys (coverageRows ev form) ↔
      ∃ c, (coverageRows ev form).get? region = some c := by
    simp [sortedKeys, GoMap.mem_sortedPairs]
  rw [regionRoutes, filterMap_eq_nil_iff]
  simp only [mem_sortedUnique, mem_append]
  constructor
  · intro h
    have hrow : ∀ region, (region ∈ enabledRegions ∨ region ∈ sortedKeys (coverageRows ev form)) →
        ∃ c, (coverageRows ev form).get? region = some c ∧ c.state = .complete := by
      intro region hregion
      have hnone := h region hregion
      cases hget : (coverageRows ev form).get? region with
      | none => simp [hget] at hnone
      | some c =>
          refine ⟨c, rfl, ?_⟩
          by_contra hstate
          simp [hget, hstate] at hnone
    refine ⟨fun region hregion => ?_, fun c hc hform => ?_⟩
    · obtain ⟨c, hget, hstate⟩ := hrow region (Or.inl hregion)
      obtain ⟨hc, hform, hat⟩ := (get?_coverageRows hkeyed).1 hget
      exact ⟨c, hc, hform, hat, hstate⟩
    · have hget := (get?_coverageRows hkeyed).2 ⟨hc, hform, rfl⟩
      obtain ⟨c', hget', hstate⟩ := hrow c.region (Or.inr (hkeys.2 ⟨c, hget⟩))
      rwa [Option.some.inj (hget.symm.trans hget')]
  · rintro ⟨henabled, hrows⟩ region hregion
    obtain ⟨c, hget⟩ : ∃ c, (coverageRows ev form).get? region = some c := by
      rcases hregion with hregion | hregion
      · obtain ⟨c, hc, hform, hat, -⟩ := henabled region hregion
        exact ⟨c, (get?_coverageRows hkeyed).2 ⟨hc, hform, hat⟩⟩
      · exact hkeys.1 hregion
    obtain ⟨hc, hform, -⟩ := (get?_coverageRows hkeyed).1 hget
    simp [hget, hrows c hc hform]

end

/-! ## The analysis of a stored scan -/

namespace StoredScan

variable {scan : StoredScan} {service : String} {role : RoleRef} {enabledRegions : List String}

/-- The evidence of a scan that has rows. -/
def evidence (scan : StoredScan) : ResourcePolicyEvidence where
  coverage := scan.coverage
  observations := scan.policies.map StoredPolicy.load
  enabledRegionsUnknown := scan.enabledRegionsUnknown

lemma load_eq_some (h : scan.coverage ≠ []) :
    loadResourcePolicyEvidence scan = some scan.evidence :=
  if_neg (mt List.isEmpty_iff.1 h)

lemma load_eq_none (h : scan.coverage = []) : loadResourcePolicyEvidence scan = none :=
  if_pos (List.isEmpty_iff.2 h)

lemma formRoutes_eq_nil {f : PolicyBearingForm} :
    formRoutes service scan.evidence enabledRegions f = [] ↔ scan.FormRead enabledRegions f := by
  have hkeyed : (scan.evidence.coverage.map fun c => (c.form, c.region)).Nodup := scan.keyed
  rw [formRoutes]
  cases hstate : f.state with
  | uncollected =>
      rw [if_pos rfl]
      refine iff_of_false (cons_ne_nil _ _) fun h => ?_
      cases hstate.symm.trans h.collected
  | collected =>
      rw [if_neg (by simp)]
      cases hscope : f.scope with
      | account =>
          rw [if_pos rfl, accountRoutes_eq_nil hkeyed]
          constructor
          · exact fun h => ⟨⟨hstate, fun _ => h, by simp [hscope]⟩, by simp [hscope], h.2⟩
          · exact fun h => h.account hscope
      | region =>
          rw [if_neg (by simp), append_eq_nil_iff, regionRoutes_eq_nil hkeyed]
          constructor
          · rintro ⟨hunknown, henabled, hrows⟩
            refine ⟨⟨hstate, by simp [hscope], fun _ => henabled⟩, fun _ => ?_, hrows⟩
            by_contra hne
            rw [Bool.not_eq_false] at hne
            exact absurd hunknown (by simp [evidence, hne])
          · exact fun h => ⟨by simp [evidence, h.known hscope], h.region hscope, h.rows⟩

end StoredScan

section

variable {o : StoredPolicy} {service : String} {role : RoleRef}

lemma StoredPolicy.load_fields : o.load.form = o.form ∧ o.load.policyPresent = o.policyPresent ∧
    o.load.resourceARN = o.resourceARN := by
  rw [load]
  split
  · split <;> exact ⟨rfl, rfl, rfl⟩
  · exact ⟨rfl, rfl, rfl⟩

lemma StoredPolicy.considered_load :
    considered service role o.load = true ↔ o.Reaches service role := by
  obtain ⟨hform, hpresent, harn⟩ := load_fields (o := o)
  simp only [considered, hform, hpresent, harn, Bool.and_eq_true, Bool.not_eq_true',
    Bool.and_eq_false_iff, bne_eq_false_iff_eq, contains_iff_mem]
  constructor
  · rintro ⟨⟨hf, hp⟩, haccount⟩
    exact ⟨hf, hp, or_assoc.1 haccount⟩
  · rintro ⟨hf, hp, haccount⟩
    exact ⟨⟨hf, hp⟩, or_assoc.2 haccount⟩

/-- The document of a loaded policy is the one that its row holds. -/
lemma StoredPolicy.load_document (hpresent : o.policyPresent = true) {doc : PolicyDocument} :
    o.load.parseState = .parsed ∧ o.load.document = some doc ↔ o.Holds doc := by
  cases hstate : o.parseState with
  | unparseable =>
      constructor
      · rintro ⟨hparsed, -⟩
        simp [load, hpresent, hstate, load.observation] at hparsed
      · rintro ⟨hparsed, -⟩
        rw [hstate] at hparsed
        cases hparsed
  | parsed =>
      cases htext : o.canonical with
      | none =>
          constructor
          · rintro ⟨-, hdoc⟩
            simp [load, hpresent, hstate, htext, load.observation] at hdoc
          · rintro ⟨-, text, hcanonical, -⟩
            rw [htext] at hcanonical
            cases hcanonical
      | some text =>
          cases hdecode : decodePolicyDocument text with
          | error e =>
              constructor
              · rintro ⟨hparsed, -⟩
                simp [load, hpresent, hstate, htext, hdecode, load.observation] at hparsed
              · rintro ⟨-, text', hcanonical, hok⟩
                rw [htext] at hcanonical
                cases hcanonical
                rw [hdecode] at hok
                cases hok
          | ok doc' =>
              simp only [load, hpresent, hstate, htext, hdecode, load.observation, true_and,
                Option.some.injEq]
              constructor
              · rintro rfl
                exact ⟨hstate, text, htext, hdecode⟩
              · rintro ⟨-, text', hcanonical, hok⟩
                rw [htext] at hcanonical
                cases hcanonical
                rw [hdecode] at hok
                exact Except.ok.inj hok

/-- A row holds one document. -/
lemma StoredPolicy.Holds.unique {doc doc' : PolicyDocument} (h : o.Holds doc) (h' : o.Holds doc') :
    doc = doc' := by
  obtain ⟨text, htext, hdecode⟩ := h.decodes
  obtain ⟨text', htext', hdecode'⟩ := h'.decodes
  cases htext.symm.trans htext'
  exact Except.ok.inj (hdecode.symm.trans hdecode')

end

namespace StoredScan

variable {scan : StoredScan} {service : String} {role : RoleRef} {enabledRegions : List String}

/-- A scan without rows has no policies. -/
lemma coverage_ne_nil {o : StoredPolicy} (ho : o ∈ scan.policies) : scan.coverage ≠ [] := by
  obtain ⟨c, hc, -⟩ := scan.covered o ho
  exact ne_nil_of_mem hc

lemma bypassKnown_iff_sessionOnly :
    (analyzeRoutes service role (loadResourcePolicyEvidence scan) enabledRegions).state =
        .bypassKnown ↔ scan.GrantsSessionOnly service role := by
  by_cases hrows : scan.coverage = []
  · rw [load_eq_none hrows]
    constructor
    · intro h
      exact absurd h (by simp [analyzeRoutes, finishRoutes]; decide)
    · rintro ⟨st, ⟨o, ho, -⟩, -⟩
      exact absurd hrows (coverage_ne_nil ho)
  · rw [load_eq_some hrows, bypassKnown_iff]
    constructor
    · rintro ⟨ob, hob, hconsidered, hparsed, doc, hdoc, st, hst, hsession⟩
      obtain ⟨o, ho, rfl⟩ := mem_map.1 hob
      have hreaches := StoredPolicy.considered_load.1 hconsidered
      have hholds := (StoredPolicy.load_document hreaches.present).1 ⟨hparsed, hdoc⟩
      obtain ⟨hgrants, -, p, hp, hwildcard, v, hv, hnamed⟩ := session_mem_statementRoutes.1 hsession
      refine ⟨st, ⟨o, ho, hreaches, doc, hholds, hst, hgrants⟩, p, hp, fun hstar => ?_, v, hv, hnamed⟩
      obtain ⟨text, -, hdecode⟩ := hholds.decodes
      rw [((decodePolicyDocument_principals hdecode hst).wildcard p hp v hv).2 hstar] at hwildcard
      cases hwildcard
    · rintro ⟨st, ⟨o, ho, hreaches, doc, hholds, hst, hgrants⟩, p, hp, hstar, v, hv, hnamed⟩
      obtain ⟨hparsed, hdoc⟩ := (StoredPolicy.load_document hreaches.present).2 hholds
      obtain ⟨text, -, hdecode⟩ := hholds.decodes
      have hread := decodePolicyDocument_principals hdecode hst
      refine ⟨o.load, mem_map_of_mem ho, StoredPolicy.considered_load.2 hreaches, hparsed, doc,
        hdoc, st, hst, session_mem_statementRoutes.2 ⟨hgrants, ?_, p, hp, ?_, v, hv, hnamed⟩⟩
      · exact hread.exclusive.resolve_right (by simp [hp])
      · rw [← Bool.not_eq_true, hread.wildcard p hp v hv]
        exact hstar

/-- No route of a policy that reaches the role is observed if it was parsed and, of its granting
statements, none names the role but those that except a session. -/
lemma observationRoutes_load {o : StoredPolicy} (hreaches : o.Reaches service role) :
    observationRoutes service role o.load = [] ↔ ∃ doc, o.Holds doc ∧ ∀ st ∈ doc.statements,
      st.effect = .allow → st.grantsNamespace service = true →
        st.NamesRole role → st.ExceptsSession role := by
  rw [observationRoutes_eq_nil, ← exists_and_left]
  refine exists_congr fun doc => ?_
  rw [← and_assoc, StoredPolicy.load_document hreaches.present]
  refine and_congr_right fun hholds => forall₂_congr fun st hst => ?_
  obtain ⟨text, -, hdecode⟩ := hholds.decodes
  have hread := decodePolicyDocument_principals hdecode hst
  by_cases hgrants : st.effect = .allow ∧ st.grantsNamespace service = true
  · rw [statementRoutes_eq_nil hread hgrants.1 hgrants.2]
    exact ⟨fun h _ _ => h, fun h => h hgrants.1 hgrants.2⟩
  · refine iff_of_true ?_ fun heffect hns => absurd ⟨heffect, hns⟩ hgrants
    rw [statementRoutes, if_pos]
    simpa only [not_and_or, Bool.not_eq_true, ne_eq] using hgrants

/-- Where no route was observed, nothing is left open but statements that except a session. -/
theorem noneObserved_iff :
    (analyzeRoutes service role (loadResourcePolicyEvidence scan) enabledRegions).usage =
        .noneObserved ↔
      scan.coverage ≠ [] ∧ scan.SettledButSessions service role enabledRegions := by
  by_cases hrows : scan.coverage = []
  · rw [load_eq_none hrows]
    exact iff_of_false (by rintro ⟨⟩) fun h => h.1 hrows
  · have hpolicies : (∀ ob ∈ scan.evidence.observations.filter (considered service role),
        observationRoutes service role ob = []) ↔
        ∀ o ∈ scan.policies, o.Reaches service role →
          observationRoutes service role o.load = [] := by
      simp [evidence, StoredPolicy.considered_load]
    rw [load_eq_some hrows, analyzeRoutes_some, usage_noneObserved_iff, append_eq_nil_iff,
      flatMap_eq_nil_iff, flatMap_eq_nil_iff, hpolicies]
    simp only [formRoutes_eq_nil]
    constructor
    · rintro ⟨hforms, hobserved⟩
      refine ⟨hrows, hforms, fun o ho hreaches => ?_, ?_⟩
      · obtain ⟨doc, hholds, -⟩ := (observationRoutes_load hreaches).1 (hobserved o ho hreaches)
        exact ⟨doc, hholds⟩
      · rintro st ⟨o, ho, hreaches, doc, hholds, hst, heffect, hgrants⟩
        obtain ⟨doc', hholds', h⟩ := (observationRoutes_load hreaches).1 (hobserved o ho hreaches)
        rw [hholds.unique hholds'] at hst
        exact h st hst heffect hgrants
    · rintro ⟨-, hread, hparsed, hexcepted⟩
      refine ⟨hread, fun o ho hreaches => (observationRoutes_load hreaches).2 ?_⟩
      obtain ⟨doc, hholds⟩ := hparsed o ho hreaches
      exact ⟨doc, hholds, fun st hst heffect hgrants =>
        hexcepted st ⟨o, ho, hreaches, doc, hholds, hst, heffect, hgrants⟩⟩

end StoredScan

/-- A policy that grants the namespace to a session of the role makes a bypass known, and where no
route was observed nothing is left open, exactly if two inputs are excluded: that every policy with
such a grant has a wildcard beside the session, and that a granting statement's `NotPrincipal` lists
sessions of the role, but not the role, and nothing else is left open. -/
theorem analyzeRoutes_bypass (scan : StoredScan) (service : String) (role : RoleRef)
    (enabledRegions : List String) :
    ((scan.GrantsSession service role →
        (analyzeRoutes service role (loadResourcePolicyEvidence scan) enabledRegions).state =
          .bypassKnown) ∧
      ((analyzeRoutes service role (loadResourcePolicyEvidence scan) enabledRegions).usage =
          .noneObserved → scan.Settled service role enabledRegions)) ↔
    (scan.GrantsSession service role → scan.GrantsSessionOnly service role) ∧
      ¬((∃ st, scan.Grants service role st ∧ st.ExceptsSession role) ∧
        scan.SettledButSessions service role enabledRegions) := by
  rw [StoredScan.bypassKnown_iff_sessionOnly, StoredScan.noneObserved_iff]
  refine and_congr_right fun _ => ⟨?_, ?_⟩
  · rintro h ⟨⟨st, hst, np, hnp, -, hlisted⟩, hsettled⟩
    have hrows : scan.coverage ≠ [] := by
      obtain ⟨o, ho, -⟩ := hst
      exact StoredScan.coverage_ne_nil ho
    exact (h ⟨hrows, hsettled⟩).unnamed st hst (Or.inr ⟨np, hnp, hlisted⟩)
  · rintro h ⟨-, hsettled⟩
    refine ⟨fun f hf => (hsettled.read f hf).toFormComplete, hsettled.parsed, fun st hst hnames => ?_⟩
    exact h ⟨⟨st, hst, hsettled.excepted st hst hnames⟩, hsettled⟩

/-! ## Examples -/

def queueRole : RoleRef where
  roleID := "AROAEXAMPLE"
  arn := "arn:aws:iam::123456789012:role/jobs"
  name := "jobs"
  accountID := "123456789012"
  partition := "aws"

/-- A session of the role. -/
def queueSession : String := "arn:aws:sts::123456789012:assumed-role/jobs/worker"

/-- The policy of a queue with one statement, which allows everything to the principals. -/
def queuePolicy (principals : String) : Bytes :=
  utf8 ("\x7b\"Statement\":[\x7b\"Action\":\"sqs:*\",\"Effect\":\"Allow\"," ++ principals ++
    "\x7d]\x7d")

/-- The queue is open to everyone, and its policy names a session of the role besides. -/
def publicQueuePolicy : Bytes :=
  queuePolicy ("\"Principal\":\x7b\"AWS\":[\"*\",\"" ++ queueSession ++ "\"]\x7d")

/-- The queue is open to everyone but a session of the role. -/
def exceptingQueuePolicy : Bytes :=
  queuePolicy ("\"NotPrincipal\":\x7b\"AWS\":\"" ++ queueSession ++ "\"\x7d")

/-- One queue with the policy, read completely. -/
def queueScan (policy : Bytes) : StoredScan where
  coverage := [⟨"sqs_queue", "us-east-1", .complete⟩]
  policies := [⟨"sqs_queue", "us-east-1", "arn:aws:sqs:us-east-1:123456789012:jobs", true, .parsed,
    some policy⟩]
  enabledRegionsUnknown := false
  keyed := by decide
  covered := by
    intro o ho
    rw [mem_singleton.1 ho]
    exact ⟨_, mem_singleton.2 rfl, rfl, rfl⟩

/-- The statement of a queue's policy, with what is checked of it. -/
lemma exists_queueScan_grants (policy : Bytes) (check : Statement → Bool)
    (h : ((decodePolicyDocument policy).toOption.any fun doc => doc.statements.any fun st =>
      st.effect == .allow && st.grantsNamespace "sqs" && check st) = true) :
    ∃ st, (queueScan policy).Grants "sqs" queueRole st ∧ check st = true := by
  have hform : "sqs_queue" ∈ (formsForNamespace "sqs").map PolicyBearingForm.name := by
    decide +kernel
  have haccount : arnAccount "arn:aws:sqs:us-east-1:123456789012:jobs" = queueRole.accountID := by
    decide +kernel
  cases hdecode : decodePolicyDocument policy with
  | error e =>
      rw [hdecode] at h
      cases h
  | ok doc =>
      rw [hdecode] at h
      obtain ⟨st, hst, hcheck⟩ := any_eq_true.1 h
      simp only [Bool.and_eq_true, beq_iff_eq] at hcheck
      obtain ⟨⟨heffect, hgrants⟩, hcheck⟩ := hcheck
      exact ⟨st, ⟨_, mem_singleton.2 rfl, ⟨hform, rfl, Or.inr (Or.inr haccount)⟩, doc,
        ⟨rfl, policy, rfl, hdecode⟩, hst, heffect, hgrants⟩, hcheck⟩

/-- A session that the policy names beside a wildcard is not found; and where the policy grants
everyone but a session, no route is observed, although the role itself is granted. -/
theorem analyzeRoutes_session_hidden :
    ((queueScan publicQueuePolicy).GrantsSession "sqs" queueRole ∧
      (analyzeRoutes "sqs" queueRole (loadResourcePolicyEvidence (queueScan publicQueuePolicy))
        ["us-east-1"]).state = .effectUnknown) ∧
    (∃ st, (queueScan exceptingQueuePolicy).Grants "sqs" queueRole st ∧ st.NamesRole queueRole) ∧
      (analyzeRoutes "sqs" queueRole (loadResourcePolicyEvidence (queueScan exceptingQueuePolicy))
        ["us-east-1"]).usage = .noneObserved := by
  refine ⟨⟨?_, by decide +kernel⟩, ?_, by decide +kernel⟩
  · obtain ⟨st, hst, hcheck⟩ := exists_queueScan_grants publicQueuePolicy
      (fun st => st.principal.any fun p => p.aws.contains queueSession) (by decide +kernel)
    obtain ⟨p, hp, hv⟩ := (Option.any_eq_true _ _).1 hcheck
    exact ⟨st, hst, p, hp, queueSession, contains_iff_mem.1 hv, by decide, by decide +kernel⟩
  · obtain ⟨st, hst, hcheck⟩ := exists_queueScan_grants exceptingQueuePolicy
      (fun st => st.notPrincipal.any fun np => np.aws == [queueSession]) (by decide +kernel)
    obtain ⟨np, hnp, hv⟩ := (Option.any_eq_true _ _).1 hcheck
    refine ⟨st, hst, Or.inr ⟨np, hnp, ?_⟩⟩
    rw [eq_of_beq hv]
    simp [RoleRef.IsListed, RoleRef.IsNamed, queueRole, queueSession, RoleRef.partitionOr]

end AuthSec

import AuthSec.Evidence.Bundle

/-!
# Bundles do not depend on the order they are read in

`buildBundle_order_free`: every order of the lists of an input gives the same bundle exactly when
entries that the bundle cannot tell apart by their sort key, or by their gap key, are recorded
alike.
-/

namespace AuthSec

open List

/-! ## What the canonical text determines -/

lemma alike_strArray {l l' : List String} : (strArray l).Alike (strArray l') ↔ l = l' :=
  alike_arr_map fun _ _ => alike_str

lemma BundleSource.eq_of_alike {a b : BundleSource} (h : a.toJson.Alike b.toJson)
    (hrev : a.rev = b.rev) (ha : a.freshnessHours.toInt.natAbs ≤ 2 ^ 53)
    (hb : b.freshnessHours.toInt.natAbs ≤ 2 ^ 53) : a = b := by
  have hmembers := h.forall₂ (by simp) (by simp)
  simp only [List.forall₂_cons, alike_str, alike_goPtr, alike_bool, alike_strArray] at hmembers
  obtain ⟨hkind, -, hpublished, hconnector, hrun, hauth, hord, htrust, hreasons, hfresh, hreport,
    hcoverage, hpolicyRun, -⟩ := hmembers
  have hfresh := (alike_int ha hb).1 hfresh
  cases a
  cases b
  simp_all

lemma BundleGrant.eq_of_alike {a b : BundleGrant} (h : a.toJson.Alike b.toJson) : a = b := by
  have hmembers := h.forall₂ (by simp) (by simp)
  simp only [List.forall₂_cons, alike_str, alike_strArray] at hmembers
  cases a
  cases b
  simp_all

/-- The strings of a gap. -/
def Gap.fields (g : Gap) : List (String × Bool × String) :=
  [("kind", false, g.kind), ("key", false, g.key), ("service", true, g.service),
    ("form", true, g.form), ("region", true, g.region), ("resource", true, g.resource),
    ("reason", true, g.reason)]

def Gap.countMember (g : Gap) : Members GoNum :=
  if g.count = 0 then [] else [("count", goInt g.count)]

lemma Gap.toJson_eq (g : Gap) : g.toJson = .obj (strMembers g.fields ++ g.countMember) := by
  simp [toJson, fields, strMembers, countMember]

lemma Gap.not_mem_countMember {g : Gap} {k s : String} : (k, Json.str s) ∉ g.countMember := by
  rw [countMember]
  split_ifs <;> simp [goInt]

lemma Gap.nodup_members (g : Gap) :
    ((strMembers g.fields ++ g.countMember).map Prod.fst).Nodup := by
  have hcount : (g.countMember.map Prod.fst).Sublist ["count"] := by
    rw [countMember]
    split_ifs <;> simp
  rw [map_append]
  refine List.Nodup.sublist ((names_strMembers g.fields).append hcount) ?_
  simp [fields]

lemma Gap.fits (g : Gap) (room : ℕ) : g.toJson.Fits (room + 2) := by
  rw [g.toJson_eq]
  refine .obj (room + 1) _ g.nodup_members fun m hm => ?_
  rcases mem_append.1 hm with hm | hm
  · obtain ⟨f, -, rfl⟩ := mem_strMembers hm
    exact .str room _
  · rw [countMember] at hm
    split_ifs at hm
    · simp at hm
    · rw [mem_singleton.1 hm]
      exact .num room _

/-- The strings of a gap are determined by its canonical text. -/
lemma Gap.fields_of_alike {a b : Gap} (h : a.toJson.Alike b.toJson) :
    a.fields.map (·.2.2) = b.fields.map (·.2.2) := by
  have hfits := fun g : Gap => g.toJson_eq ▸ g.fits maxJSONDepth.pred
  rw [a.toJson_eq, b.toJson_eq] at h
  exact strMembers_append_inj (by simp [fields]) (by simp [fields])
    (fun _ _ => not_mem_countMember) (fun _ _ => not_mem_countMember) (hfits a) (hfits b) h

lemma Gap.key_of_alike {a b : Gap} (h : a.toJson.Alike b.toJson) : a.key = b.key :=
  (List.cons.inj (List.cons.inj (fields_of_alike h)).2).1

lemma Gap.eq_of_alike {a b : Gap} (h : a.toJson.Alike b.toJson) (hcount : a.count = b.count) :
    a = b := by
  have hstrings := fields_of_alike h
  simp only [fields, map_cons, List.cons.injEq] at hstrings
  cases a
  cases b
  simp_all

/-- The hours of a source's age are small. -/
lemma freshnessHours_le (s : BundleSourceInput) (builtAt : Time) (rules : TrustRules) :
    (sourceTrust s builtAt rules).freshnessHours.toInt.natAbs ≤ 2 ^ 53 := by
  have hage : 0 ≤ s.age builtAt ∧ s.age builtAt ≤ 2 ^ 63 - 1 := by
    simp only [BundleSourceInput.age, timeSub]
    omega
  have hhours : 0 ≤ s.age builtAt / hour ∧ s.age builtAt / hour ≤ 2 ^ 53 := by
    simp only [hour, second]
    omega
  have htoInt : (Int64.ofInt (s.age builtAt / hour)).toInt = s.age builtAt / hour :=
    Int64.toInt_ofInt_of_le (by omega) (by omega)
  simp only [sourceTrust, htoInt]
  omega

/-! ## Results of the builder -/

@[simp]
lemma fits_goInt (n : Int64) (room : ℕ) : (goInt n).Fits (room + 1) :=
  .num room _

lemma BundleSource.fits (s : BundleSource) (room : ℕ) : s.toJson.Fits (room + 3) := by
  simp [toJson]

lemma BundleTarget.fits (t : BundleTarget) (room : ℕ) : t.toJson.Fits (room + 2) := by
  simp [toJson]

lemma BundleGrant.fits (g : BundleGrant) (room : ℕ) : g.toJson.Fits (room + 3) := by
  simp [toJson]

lemma BundleActivity.fits (a : BundleActivity) (room : ℕ) : a.toJson.Fits (room + 2) := by
  simp [toJson]

/-- The facts of a bundle always have a canonical text. -/
lemma BundleFacts.fits (f : BundleFacts) : f.toJson.Fits (maxJSONDepth + 1) := by
  refine .obj maxJSONDepth _ (by simp) fun m hm => ?_
  simp only [mem_cons, not_mem_nil, or_false] at hm
  rcases hm with rfl | rfl | rfl | rfl | rfl | rfl | rfl | rfl | rfl | rfl | rfl | rfl | rfl
  iterate 3 exact .str _ _
  · exact fits_arr (fun s => s.fits _) _
  · exact f.target.fits _
  · exact fits_strArray _ _
  · exact fits_arr (fun g => g.fits _) _
  · exact fits_arr (fun c => c.fits _) _
  · exact fits_goInt _ _
  · exact fits_strArray _ _
  · exact fits_arr (fun a => a.fits _) _
  · exact fits_arr (fun r => Route.stringStruct.fits r _) _
  · exact fits_arr (fun g => g.fits _) _

section

variable [Sha256] {f : BundleFacts} {inp : BundleInput} {rules : TrustRules} {b : Bundle}

lemma gapRef_ok (g : Gap) : gapRef g = .ok ⟨g.key, taggedHash .gap [goText g.toJson]⟩ := by
  rw [gapRef, gapHash, hashCanonicalTagged, canonField,
    canonicalizeValue_of_fits (g.fits maxJSONDepth.pred)]
  rfl

lemma sealBundle_eq_ok : sealBundle f = .ok b ↔ checkStorable (goText f.toJson) = .ok () ∧
    b = { facts := f, canonical := goText f.toJson, hash := contentHash (goText f.toJson),
          trust := (classifyBundleTrust f).1, trustReasons := (classifyBundleTrust f).2,
          gapRefs := f.gaps.map fun g => ⟨g.key, taggedHash .gap [goText g.toJson]⟩ } := by
  have hrefs : f.gaps.mapM gapRef =
      .ok (f.gaps.map fun g => ⟨g.key, taggedHash .gap [goText g.toJson]⟩) := by
    rw [mapM_eq_ok, List.forall₂_map_right_iff]
    exact List.forall₂_same.2 fun g _ => gapRef_ok g
  simp only [sealBundle, bind_eq_ok, canonField, mapError_eq_ok, canonicalizeValue_eq, hrefs]
  constructor
  · rintro ⟨canon, ⟨-, rfl⟩, ⟨⟩, hstore, refs, ⟨⟩, hb⟩
    exact ⟨hstore, (Except.ok.inj hb).symm⟩
  · rintro ⟨hstore, rfl⟩
    exact ⟨_, ⟨f.fits, rfl⟩, (), hstore, _, rfl, rfl⟩

lemma buildBundle_eq_ok : buildBundle inp rules = .ok b ↔
    inp.check = .ok () ∧ activityTwice (inp.facts rules).activity = none ∧
      sealBundle (inp.facts rules) = .ok b := by
  rw [buildBundle, bind_eq_ok]
  constructor
  · rintro ⟨⟨⟩, hcheck, hbuild⟩
    cases htwice : activityTwice (inp.facts rules).activity with
    | none =>
        rw [htwice] at hbuild
        exact ⟨hcheck, rfl, hbuild⟩
    | some svc =>
        rw [htwice] at hbuild
        cases hbuild
  · rintro ⟨hcheck, htwice, hbuild⟩
    refine ⟨(), hcheck, ?_⟩
    rw [htwice]
    exact hbuild

/-- A bundle is built from every input that passes the checks and whose text can be stored. -/
lemma exists_buildBundle (hcheck : inp.check = .ok ())
    (htwice : activityTwice (inp.facts rules).activity = none)
    (hstore : checkStorable (goText (inp.facts rules).toJson) = .ok ()) :
    ∃ b, buildBundle inp rules = .ok b :=
  ⟨_, buildBundle_eq_ok.2 ⟨hcheck, htwice, sealBundle_eq_ok.2 ⟨hstore, rfl⟩⟩⟩

end

/-- Sorted activities that name no service twice in a row name none twice. -/
lemma nodup_of_activityTwice {l : List BundleActivity} (h : activityTwice l = none)
    (hsorted : l.Pairwise fun a b => a.service ≤ b.service) : (l.map BundleActivity.service).Nodup := by
  induction l with
  | nil => exact .nil
  | cons a l ih =>
      cases l with
      | nil => simp
      | cons b l =>
          rw [activityTwice] at h
          split_ifs at h with hab
          obtain ⟨ha, hl⟩ := pairwise_cons.1 hsorted
          rw [map_cons]
          refine nodup_cons.2 ⟨fun hmem => ?_, ih h hl⟩
          obtain ⟨c, hc, hca⟩ := mem_map.1 hmem
          -- the service would stand between those of its two occurrences
          have hbc : b.service ≤ c.service := by
            rcases mem_cons.1 hc with rfl | hc
            · exact le_rfl
            · exact (pairwise_cons.1 hl).1 c hc
          exact hab (le_antisymm (ha b (mem_cons_self ..)) (hca ▸ hbc))

/-! ## Rearranged inputs -/

/-- The same analysis, its routes in any order. -/
structure RouteAnalysis.Rearranges (a b : RouteAnalysis) : Prop where
  service : a.service = b.service
  usage : a.usage = b.usage
  state : a.state = b.state
  routes : a.routes.Perm b.routes

namespace BundleInput

/-- The same input, its lists in any order. -/
structure Rearranges (inp inp' : BundleInput) : Prop where
  builtAt : inp.builtAt = inp'.builtAt
  target : inp.target = inp'.target
  removedServices : inp.removedServices = inp'.removedServices
  consumersUnresolved : inp.consumersUnresolved = inp'.consumersUnresolved
  sources : inp.sources.Perm inp'.sources
  grants : inp.grants.Perm inp'.grants
  consumers : inp.consumers.Perm inp'.consumers
  owners : inp.owners.Perm inp'.owners
  activity : inp.activity.Perm inp'.activity
  routeAnalyses : ∃ l, inp.routeAnalyses.Perm l ∧
    List.Forall₂ RouteAnalysis.Rearranges l inp'.routeAnalyses

/-- Sources and grants of one sort key, and routes of one gap key, are recorded alike. -/
structure OrderFree (inp : BundleInput) (rules : TrustRules) : Prop where
  sources : ∀ s ∈ inp.sources, ∀ t ∈ inp.sources, s.kind = t.kind →
    s.connectorID = t.connectorID → s.rev = t.rev → s.connectorRun = t.connectorRun →
    sourceTrust s inp.builtAt rules = sourceTrust t inp.builtAt rules
  grants : ∀ g ∈ inp.grants, ∀ h ∈ inp.grants, g.policyARN = h.policyARN →
    g.statementKey = h.statementKey → g.statementHash = h.statementHash →
    g.assignmentKind = h.assignmentKind ∧ ∀ x, x ∈ g.services ↔ x ∈ h.services
  gaps : ∀ r ∈ inp.blindRoutes, ∀ r' ∈ inp.blindRoutes, (gapFor r).key = (gapFor r').key →
    gapFor r = gapFor r'

end BundleInput

section

variable {inp inp' : BundleInput} {rules : TrustRules}

lemma BundleSource.sortKey_eq_iff {a b : BundleSource} : a.sortKey = b.sortKey ↔
    a.kind = b.kind ∧ a.connectorID = b.connectorID ∧ a.rev = b.rev ∧
      a.connectorRun = b.connectorRun := by
  simp [sortKey, Int64.toInt_inj]

lemma BundleGrant.sortKey_eq_iff {a b : BundleGrant} : a.sortKey = b.sortKey ↔
    a.policyARN = b.policyARN ∧ a.statementKey = b.statementKey ∧
      a.statementHash = b.statementHash := by
  simp [sortKey]

lemma perm_flatMap_routes {as bs : List RouteAnalysis} {p : String → Bool}
    (h : List.Forall₂ RouteAnalysis.Rearranges as bs) :
    ((as.filter (p ·.service)).flatMap RouteAnalysis.routes).Perm
      ((bs.filter (p ·.service)).flatMap RouteAnalysis.routes) := by
  induction h with
  | nil => exact .nil
  | @cons a b as bs hab _ ih =>
      simp only [filter_cons, hab.service]
      split_ifs
      · rw [flatMap_cons, flatMap_cons]
        exact hab.routes.append ih
      · exact ih

namespace BundleInput

lemma perm_routes (h : inp.Rearranges inp') : inp.routes.Perm inp'.routes := by
  obtain ⟨l, hperm, hrows⟩ := h.routeAnalyses
  rw [routes, routes, h.removedServices]
  exact ((hperm.filter _).flatMap_right _).trans (perm_flatMap_routes hrows)

lemma perm_blindRoutes (h : inp.Rearranges inp') : inp.blindRoutes.Perm inp'.blindRoutes :=
  (perm_routes h).filter _

lemma perm_sourceFacts (h : inp.Rearranges inp') :
    (inp.sourceFacts rules).Perm (inp'.sourceFacts rules) := by
  rw [sourceFacts, sourceFacts, h.builtAt]
  exact h.sources.map _

lemma perm_grantFacts (h : inp.Rearranges inp') : inp.grantFacts.Perm inp'.grantFacts :=
  h.grants.map _

lemma OrderFree.sourceFacts_inj (h : inp.OrderFree rules) :
    ∀ a ∈ inp.sourceFacts rules, ∀ b ∈ inp.sourceFacts rules, a.sortKey = b.sortKey → a = b := by
  intro a ha b hb hkey
  obtain ⟨s, hs, rfl⟩ := mem_map.1 ha
  obtain ⟨t, ht, rfl⟩ := mem_map.1 hb
  obtain ⟨hkind, hconnector, hrev, hrun⟩ := BundleSource.sortKey_eq_iff.1 hkey
  exact h.sources s hs t ht hkind hconnector hrev hrun

lemma OrderFree.grantFacts_inj (h : inp.OrderFree rules) :
    ∀ a ∈ inp.grantFacts, ∀ b ∈ inp.grantFacts, a.sortKey = b.sortKey → a = b := by
  intro a ha b hb hkey
  obtain ⟨g, hg, rfl⟩ := mem_map.1 ha
  obtain ⟨g', hg', rfl⟩ := mem_map.1 hb
  obtain ⟨harn, hstatement, hhash⟩ := BundleGrant.sortKey_eq_iff.1 hkey
  obtain ⟨hkind, hservices⟩ := h.grants g hg g' hg' harn hstatement hhash
  simp only [BundleGrant.mk.injEq]
  exact ⟨harn, hkind, hstatement, hhash, sortedUnique_eq_iff.2 hservices⟩

/-- No route has the key of the gap for unresolved consumers. -/
lemma gapFor_key_ne (r : Route) : (gapFor r).key ≠ gapConsumersUnresolved := by
  intro h
  have hhead := congrArg (fun s : String => s.toList.take 9) h
  simp only [gapFor] at hhead
  split_ifs at hhead <;> simp [gapConsumersUnresolved] at hhead

lemma eq_of_mem_consumersGap {g : Gap} (h : g ∈ inp.consumersGap) :
    g = { kind := gapConsumersUnresolved, key := gapConsumersUnresolved,
          count := inp.consumersUnresolved } := by
  rw [consumersGap] at h
  split_ifs at h
  · exact mem_singleton.1 h
  · simp at h

/-- Where routes of one gap key have one gap, no gap of a key hides another. -/
lemma gaps_agree (h : ∀ r ∈ inp.blindRoutes, ∀ r' ∈ inp.blindRoutes,
      (gapFor r).key = (gapFor r').key → gapFor r = gapFor r') :
    ∀ e ∈ (inp.blindRoutes.map gapFor ++ inp.consumersGap).map fun g => (g.key, g),
      ∀ e' ∈ (inp.blindRoutes.map gapFor ++ inp.consumersGap).map fun g => (g.key, g),
        e.1 = e'.1 → e = e' := by
  intro e he e' he' hkey
  obtain ⟨g, hg, rfl⟩ := mem_map.1 he
  obtain ⟨g', hg', rfl⟩ := mem_map.1 he'
  simp only at hkey
  rcases mem_append.1 hg with hg | hg <;> rcases mem_append.1 hg' with hg' | hg'
  · obtain ⟨r, hr, rfl⟩ := mem_map.1 hg
    obtain ⟨r', hr', rfl⟩ := mem_map.1 hg'
    rw [h r hr r' hr' hkey]
  · obtain ⟨r, -, rfl⟩ := mem_map.1 hg
    rw [eq_of_mem_consumersGap hg'] at hkey
    exact absurd hkey (gapFor_key_ne r)
  · obtain ⟨r, -, rfl⟩ := mem_map.1 hg'
    rw [eq_of_mem_consumersGap hg] at hkey
    exact absurd hkey.symm (gapFor_key_ne r)
  · rw [eq_of_mem_consumersGap hg, eq_of_mem_consumersGap hg']

/-- Where the order does not matter, rearranged inputs have the same facts. -/
lemma OrderFree.facts_eq (h : inp.OrderFree rules) (hperm : inp.Rearranges inp')
    (htwice : activityTwice (inp.facts rules).activity = none) :
    inp'.facts rules = inp.facts rules := by
  have hsources := sortOn_congr_of_inj (perm_sourceFacts hperm) h.sourceFacts_inj
  have hgrants := sortOn_congr_of_inj (perm_grantFacts hperm) h.grantFacts_inj
  have hconsumers := (uniq_sortOn_eq_iff ImpactConsumer.sortKey_injective).2
    fun c => hperm.consumers.mem_iff
  have howners := sortedUnique_eq_iff.2 fun o => hperm.owners.mem_iff
  have hnodup := nodup_of_activityTwice htwice (sortOn_sorted _ _)
  have hactivity := sortOn_congr hperm.activity
    (((perm_sortOn _ inp.activity).map BundleActivity.service).nodup_iff.1 hnodup)
  have hroutes := (sortOn_eq_iff_perm_of_injective Route.sortKey_injective).2
    ((perm_routes hperm).filter (·.effect != RouteEffect.notAnalysed.text))
  have hgaps : inp.gapMap = inp'.gapMap := by
    refine GoMap.ofList_perm_of_agree (gaps_agree h.gaps) (.map _ ?_)
    rw [consumersGap, consumersGap, hperm.consumersUnresolved]
    exact ((perm_blindRoutes hperm).map _).append_right _
  simp only [facts, Impact.normalized, uniqueConsumers, sortRoutes, targetFacts, hsources, hgrants,
    hconsumers, howners, hactivity, hroutes, hgaps, hperm.builtAt, hperm.target,
    hperm.removedServices, hperm.consumersUnresolved]

end BundleInput

end

/-! ## Orders that the canonical text shows -/

lemma sources_eq_of_alike {l l' : List BundleSource}
    (h : List.Forall₂ (fun a b => a.toJson.Alike b.toJson) l l')
    (hkeys : l.map BundleSource.sortKey = l'.map BundleSource.sortKey)
    (hfresh : ∀ a ∈ l, a.freshnessHours.toInt.natAbs ≤ 2 ^ 53)
    (hfresh' : ∀ a ∈ l', a.freshnessHours.toInt.natAbs ≤ 2 ^ 53) : l = l' := by
  induction h with
  | nil => rfl
  | @cons a b l l' hab _ ih =>
      obtain ⟨hkey, hkeys⟩ := List.cons.inj hkeys
      have hrev := (BundleSource.sortKey_eq_iff.1 hkey).2.2.1
      have heq := BundleSource.eq_of_alike hab hrev (hfresh a (by simp)) (hfresh' b (by simp))
      rw [heq, ih hkeys (fun c hc => hfresh c (by simp [hc])) fun c hc => hfresh' c (by simp [hc])]

/-- Facts with alike texts list alike sources, grants and gaps. -/
lemma BundleFacts.of_alike {f f' : BundleFacts} (h : f.toJson.Alike f'.toJson) :
    List.Forall₂ (fun a b => a.toJson.Alike b.toJson) f.sources f'.sources ∧
      f.grants = f'.grants ∧
      List.Forall₂ (fun a b => a.toJson.Alike b.toJson) f.gaps f'.gaps := by
  have hmembers := h.forall₂ (by simp) (by simp)
  simp only [List.forall₂_cons, alike_arr, List.forall₂_map_left_iff,
    List.forall₂_map_right_iff] at hmembers
  obtain ⟨-, -, -, hsources, -, -, hgrants, -, -, -, -, -, hgaps, -⟩ := hmembers
  refine ⟨hsources, ?_, hgaps⟩
  rw [← List.forall₂_eq_eq_eq]
  exact hgrants.imp fun _ _ hab => BundleGrant.eq_of_alike hab

/-- Two inputs list the same sources and grants in order, and alike gaps. -/
structure BundleInput.SameRows (inp inp' : BundleInput) (rules : TrustRules) : Prop where
  sources : sortOn BundleSource.sortKey (inp.sourceFacts rules) =
    sortOn BundleSource.sortKey (inp'.sourceFacts rules)
  grants : sortOn BundleGrant.sortKey inp.grantFacts = sortOn BundleGrant.sortKey inp'.grantFacts
  gaps : List.Forall₂ (fun a b => a.toJson.Alike b.toJson) (inp.facts rules).gaps
    (inp'.facts rules).gaps

section

variable [Sha256] {inp inp' : BundleInput} {rules : TrustRules} {b b' : Bundle}

/-- Rearranged inputs with the same text have the same rows. -/
lemma sameRows_of_canonical (hb : buildBundle inp rules = .ok b)
    (hb' : buildBundle inp' rules = .ok b') (hperm : inp.Rearranges inp')
    (hcanonical : b.canonical = b'.canonical) : inp.SameRows inp' rules := by
  obtain ⟨-, -, hseal⟩ := buildBundle_eq_ok.1 hb
  obtain ⟨-, -, hseal'⟩ := buildBundle_eq_ok.1 hb'
  obtain ⟨-, rfl⟩ := sealBundle_eq_ok.1 hseal
  obtain ⟨-, rfl⟩ := sealBundle_eq_ok.1 hseal'
  obtain ⟨hsources, hgrants, hgaps⟩ :=
    BundleFacts.of_alike ((goText_eq_iff (inp.facts rules).fits (inp'.facts rules).fits).1 hcanonical)
  have hfresh : ∀ (i : BundleInput), ∀ a ∈ sortOn BundleSource.sortKey (i.sourceFacts rules),
      a.freshnessHours.toInt.natAbs ≤ 2 ^ 53 := by
    intro i a ha
    obtain ⟨s, -, rfl⟩ := mem_map.1 ((mem_sortOn _ _).1 ha)
    exact freshnessHours_le s _ _
  refine ⟨sources_eq_of_alike hsources ?_ (hfresh inp) (hfresh inp'), hgrants, hgaps⟩
  exact map_key_sortOn (BundleInput.perm_sourceFacts hperm)

end

/-! ## The theorem -/

namespace BundleInput

lemma Rearranges.refl (inp : BundleInput) : inp.Rearranges inp :=
  ⟨rfl, rfl, rfl, rfl, .refl _, .refl _, .refl _, .refl _, .refl _, inp.routeAnalyses, .refl _,
    List.forall₂_same.2 fun _ _ => ⟨rfl, rfl, rfl, .refl _⟩⟩

/-- The input with a source in front. -/
def sourceFirst (inp : BundleInput) (s : BundleSourceInput) : BundleInput :=
  { inp with sources := s :: inp.sources.erase s }

/-- The input with a grant in front. -/
def grantFirst (inp : BundleInput) (g : BundleGrant) : BundleInput :=
  { inp with grants := g :: inp.grants.erase g }

/-- The input with a route of an analysis behind all others. -/
def routeLast (inp : BundleInput) (a : RouteAnalysis) (r : Route) : BundleInput :=
  { inp with routeAnalyses :=
      inp.routeAnalyses.erase a ++ [{ a with routes := a.routes.erase r ++ [r] }] }

variable {inp : BundleInput}

lemma rearranges_sourceFirst {s : BundleSourceInput} (hs : s ∈ inp.sources) :
    inp.Rearranges (inp.sourceFirst s) :=
  { Rearranges.refl inp with sources := perm_cons_erase hs }

lemma rearranges_grantFirst {g : BundleGrant} (hg : g ∈ inp.grants) :
    inp.Rearranges (inp.grantFirst g) :=
  { Rearranges.refl inp with grants := perm_cons_erase hg }

lemma rearranges_routeLast {a : RouteAnalysis} {r : Route} (ha : a ∈ inp.routeAnalyses)
    (hr : r ∈ a.routes) : inp.Rearranges (inp.routeLast a r) := by
  refine { Rearranges.refl inp with routeAnalyses := ⟨inp.routeAnalyses.erase a ++ [a], ?_, ?_⟩ }
  · exact (perm_cons_erase ha).trans (perm_append_singleton ..).symm
  · refine rel_append (List.forall₂_same.2 fun _ _ => ⟨rfl, rfl, rfl, .refl _⟩)
      (.cons ⟨rfl, rfl, rfl, ?_⟩ .nil)
    exact (perm_cons_erase hr).trans (perm_append_singleton ..).symm

lemma mem_blindRoutes {r : Route} (hr : r ∈ inp.blindRoutes) :
    ∃ a ∈ inp.routeAnalyses, inp.removedServices.contains a.service = true ∧ r ∈ a.routes ∧
      (r.effect == RouteEffect.notAnalysed.text) = true := by
  obtain ⟨hr, hblind⟩ := mem_filter.1 hr
  obtain ⟨a, ha, hra⟩ := List.mem_flatMap.1 hr
  obtain ⟨ha, hremoved⟩ := mem_filter.1 ha
  exact ⟨a, ha, hremoved, hra, hblind⟩

/-- The last route is the one whose gap is kept under its key. -/
lemma gapMap_routeLast {a : RouteAnalysis} {r : Route}
    (hremoved : inp.removedServices.contains a.service = true)
    (hblind : (r.effect == RouteEffect.notAnalysed.text) = true) :
    (inp.routeLast a r).gapMap.get? (gapFor r).key = some (gapFor r) := by
  have hroutes : ∃ rs, (inp.routeLast a r).blindRoutes = rs ++ [r] := by
    refine ⟨(((inp.routeAnalyses.erase a).filter (inp.removedServices.contains ·.service)).flatMap
      RouteAnalysis.routes ++ a.routes.erase r).filter (·.effect == RouteEffect.notAnalysed.text),
      ?_⟩
    have hlast : [({ a with routes := a.routes.erase r ++ [r] } : RouteAnalysis)].filter
        (inp.removedServices.contains ·.service) = [{ a with routes := a.routes.erase r ++ [r] }] :=
      filter_cons_of_pos hremoved
    rw [blindRoutes, routes, routeLast, filter_append, hlast]
    simp [filter_append, beq_iff_eq.1 hblind]
  obtain ⟨rs, hrs⟩ := hroutes
  have hconsumers : (inp.routeLast a r).consumersGap.filter
      (fun g => decide (g.key = (gapFor r).key)) = [] := by
    refine filter_eq_nil_iff.2 fun g hg hkey => ?_
    rw [eq_of_mem_consumersGap hg] at hkey
    exact gapFor_key_ne r (of_decide_eq_true hkey).symm
  rw [gapMap, GoMap.get?_ofList_eq, hrs, filter_map, Function.comp_def, filter_append, hconsumers]
  simp [filter_append]

/-- The gaps of the facts are those of the map. -/
lemma mem_facts_gaps {rules : TrustRules} {g : Gap} :
    g ∈ (inp.facts rules).gaps ↔ inp.gapMap.get? g.key = some g := by
  constructor
  · intro h
    obtain ⟨⟨k, g'⟩, hpair, rfl⟩ := mem_map.1 h
    have hget := (GoMap.mem_sortedPairs _ _ _).1 hpair
    have hkey : g'.key = k := by
      rw [gapMap, GoMap.get?_ofList_eq, Option.map_eq_some_iff] at hget
      obtain ⟨e, he, rfl⟩ := hget
      obtain ⟨hmem, hk⟩ := mem_filter.1 (mem_of_getLast? he)
      obtain ⟨g, -, rfl⟩ := mem_map.1 hmem
      exact of_decide_eq_true hk
    rwa [hkey]
  · intro h
    exact mem_map.2 ⟨(g.key, g), (GoMap.mem_sortedPairs _ _ _).2 h, rfl⟩

/-- The gaps are those of the routes and of the unresolved consumers. -/
lemma gap_cases {rules : TrustRules} {g : Gap} (h : g ∈ (inp.facts rules).gaps) :
    (∃ r ∈ inp.blindRoutes, gapFor r = g) ∨ g ∈ inp.consumersGap := by
  have hget := mem_facts_gaps.1 h
  rw [gapMap, GoMap.get?_ofList_eq, Option.map_eq_some_iff] at hget
  obtain ⟨e, he, hsnd⟩ := hget
  obtain ⟨g', hg', rfl⟩ := mem_map.1 (mem_filter.1 (mem_of_getLast? he)).1
  simp only at hsnd
  subst hsnd
  exact (mem_append.1 hg').imp_left mem_map.1

/-- A gap with another key than that of the unresolved consumers is the gap of a route. -/
lemma route_of_gap {rules : TrustRules} {g : Gap} (h : g ∈ (inp.facts rules).gaps)
    (hkey : g.key ≠ gapConsumersUnresolved) : ∃ r ∈ inp.blindRoutes, gapFor r = g := by
  refine (gap_cases h).resolve_right fun hconsumers => hkey ?_
  rw [eq_of_mem_consumersGap hconsumers]

end BundleInput

open BundleInput

lemma gapFor_count (r : Route) : (gapFor r).count = 0 := by
  simp only [gapFor]
  split_ifs <;> rfl

lemma check_of_rearranges {inp inp' : BundleInput} (h : inp.Rearranges inp') :
    inp.check = inp'.check := by
  have hempty : inp.sources = [] ↔ inp'.sources = [] :=
    ⟨fun hs => (hs ▸ h.sources).nil_eq.symm, fun hs => (hs ▸ h.sources).eq_nil⟩
  simp only [check, hempty, h.builtAt, h.target, h.consumersUnresolved]

/-- If no order shows in the text, every route that was not analysed has its own gap. -/
lemma gap_of_sameRows {inp : BundleInput} {rules : TrustRules}
    (h : ∀ inp', inp.Rearranges inp' → inp.SameRows inp' rules) {r : Route}
    (hr : r ∈ inp.blindRoutes) : inp.gapMap.get? (gapFor r).key = some (gapFor r) := by
  obtain ⟨a, ha, hremoved, hra, hblind⟩ := mem_blindRoutes hr
  have hrows := h _ (rearranges_routeLast ha hra)
  have hmem : gapFor r ∈ ((inp.routeLast a r).facts rules).gaps :=
    mem_facts_gaps.2 (gapMap_routeLast hremoved hblind)
  obtain ⟨g, hg, halike⟩ := exists_of_forall₂ hrows.gaps.flip hmem
  have hkey := Gap.key_of_alike halike
  obtain ⟨r', -, rfl⟩ := route_of_gap hg (hkey ▸ gapFor_key_ne r)
  have heq := Gap.eq_of_alike halike (by rw [gapFor_count, gapFor_count])
  rw [← heq]
  exact mem_facts_gaps.1 hg

section

variable [Sha256] {inp : BundleInput} {rules : TrustRules} {b : Bundle}

/-- The bundle of an input is the one of all its rearrangements exactly when sources and grants of
one sort key, and routes of one gap key, are recorded alike. -/
theorem buildBundle_order_free (hb : buildBundle inp rules = .ok b) :
    (∀ inp', inp.Rearranges inp' → ∃ b', buildBundle inp' rules = .ok b' ∧
      b'.canonical = b.canonical ∧ b'.hash = b.hash ∧ b'.trust = b.trust ∧
      b'.trustReasons = b.trustReasons ∧ b'.gapRefs = b.gapRefs) ↔ inp.OrderFree rules := by
  constructor
  · intro h
    have hrows : ∀ inp', inp.Rearranges inp' → inp.SameRows inp' rules := by
      intro inp' hperm
      obtain ⟨b', hb', hcanonical, -⟩ := h inp' hperm
      exact sameRows_of_canonical hb hb' hperm hcanonical.symm
    refine ⟨?_, ?_, ?_⟩
    · intro s hs t ht hkind hconnector hrev hrun
      have hsort := (hrows _ (rearranges_sourceFirst hs)).sources.symm.trans
        (hrows _ (rearranges_sourceFirst ht)).sources
      exact eq_of_sortOn_eq hsort
        (BundleSource.sortKey_eq_iff.2 ⟨hkind, hconnector, hrev, hrun⟩)
    · intro g hg g' hg' harn hstatement hhash
      have hsort := (hrows _ (rearranges_grantFirst hg)).grants.symm.trans
        (hrows _ (rearranges_grantFirst hg')).grants
      have heq := eq_of_sortOn_eq hsort (BundleGrant.sortKey_eq_iff.2 ⟨harn, hstatement, hhash⟩)
      simp only [BundleGrant.mk.injEq] at heq
      exact ⟨heq.2.1, sortedUnique_eq_iff.1 heq.2.2.2.2⟩
    · intro r hr r' hr' hkey
      have hgap := gap_of_sameRows hrows hr
      have hgap' := gap_of_sameRows hrows hr'
      rw [← hkey, hgap] at hgap'
      exact Option.some.inj hgap'
  · intro h inp' hperm
    obtain ⟨hcheck, htwice, hseal⟩ := buildBundle_eq_ok.1 hb
    have hfacts := h.facts_eq hperm htwice
    refine ⟨b, buildBundle_eq_ok.2 ⟨?_, ?_, ?_⟩, rfl, rfl, rfl, rfl, rfl⟩
    · rw [← check_of_rearranges hperm, hcheck]
    · rw [hfacts, htwice]
    · rw [hfacts, hseal]

end

/-! ## Examples -/

/-- The publication of one connector's run. -/
def publication (connector : String) (report : Option Time) : BundleSourceInput where
  kind := sourceAWSPublication
  rev := 812
  publishedAt := 1709208000 * second
  connectorID := connector
  connectorRun := "run-1"
  authenticated := true
  ordered := true
  activityReportGeneratedAt := report
  resourcePolicyCoverage := CoverageState.complete.text

/-- An input with these sources and nothing else. -/
def sourcesInput (sources : List BundleSourceInput) : BundleInput where
  builtAt := 1709211600 * second
  sources := sources
  target := ⟨"123456789012", "AROAEXAMPLE", "arn:aws:iam::123456789012:role/jobs", ""⟩
  removedServices := []

/-- Two connectors, whose publications may come in either order. -/
theorem buildBundle_two_connectors : ∃ b,
    @buildBundle ⟨fun _ => []⟩ (sourcesInput [publication "c1" none, publication "c2" none])
        defaultTrustRules = .ok b ∧
      ∀ inp', (sourcesInput [publication "c1" none, publication "c2" none]).Rearranges inp' →
        ∃ b', @buildBundle ⟨fun _ => []⟩ inp' defaultTrustRules = .ok b' ∧
          b'.canonical = b.canonical ∧ b'.hash = b.hash ∧ b'.trust = b.trust ∧
          b'.trustReasons = b.trustReasons ∧ b'.gapRefs = b.gapRefs := by
  let _ : Sha256 := ⟨fun _ => []⟩
  obtain ⟨b, hb⟩ := exists_buildBundle
    (show (sourcesInput [publication "c1" none, publication "c2" none]).check = .ok () by decide)
    (show activityTwice (facts _ defaultTrustRules).activity = none from rfl)
    (by decide +kernel)
  refine ⟨b, hb, (buildBundle_order_free hb).2 ⟨?_, ?_, ?_⟩⟩
  · decide +kernel
  · simp [sourcesInput]
  · simp [sourcesInput, blindRoutes, routes]

/-- Two reads of one run, of which one has an activity report, are listed in the order they came
in. -/
theorem buildBundle_source_order : ∃ b b',
    (sourcesInput [publication "c1" none, publication "c1" (some (1709204400 * second))]).Rearranges
        (sourcesInput [publication "c1" (some (1709204400 * second)), publication "c1" none]) ∧
      @buildBundle ⟨fun _ => []⟩ (sourcesInput [publication "c1" none,
        publication "c1" (some (1709204400 * second))]) defaultTrustRules = .ok b ∧
      @buildBundle ⟨fun _ => []⟩ (sourcesInput [publication "c1" (some (1709204400 * second)),
        publication "c1" none]) defaultTrustRules = .ok b' ∧ b.canonical ≠ b'.canonical := by
  let _ : Sha256 := ⟨fun _ => []⟩
  obtain ⟨b, hb⟩ := exists_buildBundle
    (show (sourcesInput [publication "c1" none,
      publication "c1" (some (1709204400 * second))]).check = .ok () by decide)
    (show activityTwice (facts _ defaultTrustRules).activity = none from rfl)
    (by decide +kernel)
  obtain ⟨b', hb'⟩ := exists_buildBundle
    (show (sourcesInput [publication "c1" (some (1709204400 * second)),
      publication "c1" none]).check = .ok () by decide)
    (show activityTwice (facts _ defaultTrustRules).activity = none from rfl)
    (by decide +kernel)
  have hperm : (sourcesInput [publication "c1" none,
      publication "c1" (some (1709204400 * second))]).Rearranges
      (sourcesInput [publication "c1" (some (1709204400 * second)), publication "c1" none]) :=
    { BundleInput.Rearranges.refl _ with sources := .swap .. }
  refine ⟨b, b', hperm, hb, hb', fun hcanonical => ?_⟩
  have hrows := (sameRows_of_canonical hb hb' hperm hcanonical).sources
  revert hrows
  decide +kernel

end AuthSec

import AuthSec.Intent
import AuthSec.Lib.Lists

/-!
# Retains of owners

`ForSubject` is the intent as it applies to one subject: what its owners retain leaves the removals,
and what other owners retain is dropped.  A valid intent stays valid under it, and what the owners
of other subjects retain does not show in it.

* `validateRightSize_eq_nil`: the checks of the validator as one structure of facts;
* `Checked.forSubject`: they hold of the intent of a subject;
* `forSubject_owners_apart`: the intent of a subject, and what it does not depend on.
-/

namespace AuthSec

open List

@[simp]
lemma flag_eq_nil {bad : Bool} {field code message : String} :
    flag bad field code message = [] ↔ bad = false := by
  cases bad <;> simp [flag]

/-! ## Entries -/

/-- The checks on an entry that none of the other entries has a part in. -/
structure RetainEntry.Ok (e : RetainEntry) (ids : List String) : Prop where
  service : reService e.service = true
  owner : e.subjects ≠ [] → e.basis = "owner"
  subjects : ∀ s ∈ e.subjects, s ∈ ids
  nodup : e.subjects.Nodup
  basis : validateRetainBasis "" e = []

/-- No service is retained twice for anybody. -/
def RetainEntry.Apart (e' e : RetainEntry) : Prop :=
  e'.service = e.service →
    ¬ (e'.subjects = [] ∧ e.subjects = []) ∧ ∀ s ∈ e.subjects, s ∉ e'.subjects

lemma validateRetainBasis_eq_nil (f : String) (e : RetainEntry) :
    validateRetainBasis f e = [] ↔ validateRetainBasis "" e = [] := by
  unfold validateRetainBasis
  split_ifs
  · simp
  · cases parseDependencyRef e.catalog <;> simp
  · simp
  · simp

/-- What is asked of every element is asked of every element with its position. -/
lemma forall_zipIdx {α : Type} {l : List α} {P : α → Prop} :
    (∀ p ∈ l.zipIdx, P p.1) ↔ ∀ a ∈ l, P a := by
  conv_rhs => rw [← zipIdx_map_fst 0 l]
  simp only [forall_mem_map]

lemma validateScope_eq_nil {r : RightSizeIntent} {i : ℕ} {e : RetainEntry} :
    validateScope r i e = [] ↔ e.basis = "owner" ∧
      (∀ s ∈ e.subjects, s ∈ r.subjects.map Subject.identityAccountID) ∧
      (∀ s ∈ e.subjects, ∀ e' ∈ r.retain.take i, e'.service = e.service → s ∉ e'.subjects) ∧
      e.subjects.Nodup := by
  rw [List.Nodup, ← forall_zipIdx_take_iff_pairwise,
    ← forall_zipIdx (P := fun s => s ∈ r.subjects.map Subject.identityAccountID),
    ← forall_zipIdx (P := fun s => ∀ e' ∈ r.retain.take i, e'.service = e.service →
      s ∉ e'.subjects)]
  simp only [validateScope, append_eq_nil_iff, flag_eq_nil, flatMap_eq_nil_iff, Bool.eq_false_iff,
    ne_eq, bne_iff_ne, not_not, Bool.not_eq_true', contains_iff_mem, mem_append, mem_flatMap,
    mem_filter, beq_iff_eq, not_or, not_exists, not_and]
  constructor
  · rintro ⟨howner, hall⟩
    refine ⟨howner, fun p hp => (hall p hp).1, fun p hp e' he' hsvc => ?_, fun p hp a ha hap => ?_⟩
    · exact (hall p hp).2.1 e' ⟨he', hsvc⟩
    · exact (hall p hp).2.2 (hap ▸ ha)
  · rintro ⟨howner, hids, hothers, hnodup⟩
    refine ⟨howner, fun p hp => ⟨hids p hp, fun e' he' => hothers p hp e' he'.1 he'.2,
      fun hmem => ?_⟩⟩
    exact hnodup p hp p.1 hmem rfl

lemma mem_retainedServices {es : List RetainEntry} {svc : String} :
    svc ∈ retainedServices es ↔ ∃ e ∈ es, e.subjects = [] ∧ e.service = svc := by
  simp [retainedServices, mem_map, mem_filter, and_assoc]

/-- One entry, against those before it. -/
lemma validateRetain_eq_nil {r : RightSizeIntent} {i : ℕ} {e : RetainEntry} :
    validateRetain r i e = [] ↔ e.Ok (r.subjects.map Subject.identityAccountID) ∧
      ∀ e' ∈ r.retain.take i, e'.Apart e := by
  simp only [validateRetain, append_eq_nil_iff, flag_eq_nil, validateRetainBasis_eq_nil,
    Bool.not_eq_false', and_assoc]
  cases hsub : e.subjects with
  | nil =>
      simp only [isEmpty_nil, if_true, flag_eq_nil, Bool.eq_false_iff, ne_eq,
        contains_iff_mem, mem_retainedServices, not_exists, not_and]
      constructor
      · rintro ⟨hsvc, hfree, hbasis⟩
        refine ⟨⟨hsvc, by simp [hsub], by simp [hsub], by simp [hsub], hbasis⟩, fun e' he' heq => ?_⟩
        exact ⟨fun hnil => hfree e' he' hnil.1 heq, by simp [hsub]⟩
      · rintro ⟨hok, hapart⟩
        exact ⟨hok.service, fun e' he' hnil heq => (hapart e' he' heq).1 ⟨hnil, hsub⟩, hok.basis⟩
  | cons s ss =>
      have hne : e.subjects ≠ [] := by simp [hsub]
      simp only [isEmpty_cons, Bool.false_eq_true, if_false, validateScope_eq_nil]
      constructor
      · rintro ⟨hsvc, ⟨howner, hids, hothers, hnodup⟩, hbasis⟩
        refine ⟨⟨hsvc, fun _ => howner, hids, hnodup, hbasis⟩, fun e' he' heq => ?_⟩
        exact ⟨fun hnil => hne hnil.2, fun s hs => hothers s hs e' he' heq⟩
      · rintro ⟨hok, hapart⟩
        refine ⟨hok.service, ⟨hok.owner hne, hok.subjects, ?_, hok.nodup⟩, hok.basis⟩
        exact fun s hs e' he' heq => (hapart e' he' heq).2 s hs

/-- The checks on a removal that no other entry has a part in. -/
structure RemoveEntry.Ok (e : RemoveEntry) : Prop where
  service : reService e.service = true
  basis : e.basis = "no_attempt"
  qualifiedDays : minQualifiedDays ≤ e.qualifiedDays
  grantAgeBasis : e.grantAgeBasis = grantAgeObservedSinceChange ∨
    e.grantAgeBasis = grantAgePredatesObservation
  routes : validateRemoveRoutes "" e = []

lemma validateRemoveRoutes_eq_nil (f : String) (e : RemoveEntry) :
    validateRemoveRoutes f e = [] ↔ validateRemoveRoutes "" e = [] := by
  simp only [validateRemoveRoutes, validateRoute, append_eq_nil_iff, flag_eq_nil,
    flatMap_eq_nil_iff]

lemma validateRemove_eq_nil {r : RightSizeIntent} {i : ℕ} {e : RemoveEntry} :
    validateRemove r i e = [] ↔ (e.Ok ∧ e.service ∉ retainedServices r.retain) ∧
      ∀ e' ∈ r.remove.take i, e'.service ≠ e.service := by
  simp only [validateRemove, append_eq_nil_iff, flag_eq_nil, validateRemoveRoutes_eq_nil,
    Bool.eq_false_iff, ne_eq, Bool.not_eq_true', contains_iff_mem,
    mem_map, not_exists, not_and, and_assoc, bne_iff_ne, Bool.and_eq_true, decide_eq_true_eq, not_not, not_lt]
  constructor
  · rintro ⟨hsvc, hdup, hret, hbasis, hdays, hage, hroutes⟩
    refine ⟨⟨hsvc, hbasis, hdays, ?_, hroutes⟩, hret, hdup⟩
    by_cases hsince : e.grantAgeBasis = grantAgeObservedSinceChange
    · exact .inl hsince
    · exact .inr (hage hsince)
  · rintro ⟨hok, hret, hdup⟩
    refine ⟨hok.service, hdup, hret, hok.basis, hok.qualifiedDays, fun hsince => ?_, hok.routes⟩
    exact hok.grantAgeBasis.resolve_left hsince

/-! ## The whole intent -/

/-- What the validator checks. -/
structure RightSizeIntent.Checked (r : RightSizeIntent) : Prop where
  subjects : validateSubjects r = []
  terms : validateTerms r = []
  retains : ∀ e ∈ r.retain, e.Ok (r.subjects.map Subject.identityAccountID)
  apart : r.retain.Pairwise RetainEntry.Apart
  /-- No service is retained for every subject and again for some. -/
  mixed : ∀ e ∈ r.retain, e.subjects ≠ [] → e.service ∉ retainedServices r.retain
  nonempty : r.remove ≠ []
  left : ∀ s ∈ r.subjects, (r.forSubject s.identityAccountID).remove ≠ []
  removes : ∀ e ∈ r.remove, e.Ok
  conflict : ∀ e ∈ r.remove, e.service ∉ retainedServices r.retain
  distinct : (r.remove.map RemoveEntry.service).Nodup

lemma validateRetains_eq_nil {r : RightSizeIntent} :
    (r.retain.zipIdx.flatMap fun (e, i) => validateRetain r i e) = [] ↔
      (∀ e ∈ r.retain, e.Ok (r.subjects.map Subject.identityAccountID)) ∧
        r.retain.Pairwise RetainEntry.Apart := by
  rw [← forall_zipIdx_take_iff_pairwise, ← forall_zipIdx]
  simp only [flatMap_eq_nil_iff, validateRetain_eq_nil, forall_and]

lemma validateRemoves_eq_nil {r : RightSizeIntent} :
    (r.remove.zipIdx.flatMap fun (e, i) => validateRemove r i e) = [] ↔
      ((∀ e ∈ r.remove, e.Ok) ∧ ∀ e ∈ r.remove, e.service ∉ retainedServices r.retain) ∧
        (r.remove.map RemoveEntry.service).Nodup := by
  rw [List.Nodup, pairwise_map, ← forall_zipIdx_take_iff_pairwise,
    ← forall_zipIdx (P := RemoveEntry.Ok),
    ← forall_zipIdx (P := fun e : RemoveEntry => e.service ∉ retainedServices r.retain)]
  simp only [flatMap_eq_nil_iff, validateRemove_eq_nil, forall_and]

lemma validateMixed_eq_nil {r : RightSizeIntent} :
    ((sortedUnique ((r.retain.filter (!·.subjects.isEmpty)).map RetainEntry.service)).flatMap
      fun svc => flag ((retainedServices r.retain).contains svc) "retain" "duplicate"
        ("service " ++ svc ++ " is retained for every subject and again for some")) = [] ↔
      ∀ e ∈ r.retain, e.subjects ≠ [] → e.service ∉ retainedServices r.retain := by
  simp only [flatMap_eq_nil_iff, flag_eq_nil, mem_sortedUnique, mem_map, mem_filter,
    Bool.not_eq_true', List.isEmpty_iff, Bool.eq_false_iff, ne_eq, contains_iff_mem]
  constructor
  · intro h e he hne
    exact h e.service ⟨e, ⟨he, hne⟩, rfl⟩
  · rintro h svc ⟨e, ⟨he, hne⟩, rfl⟩
    exact h e he hne

lemma validateLeft_eq_nil {r : RightSizeIntent} (hne : r.remove ≠ []) :
    (r.subjects.zipIdx.flatMap fun (s, i) =>
      flag (!r.remove.isEmpty && (r.forSubject s.identityAccountID).remove.isEmpty)
        (elementField "subjects" i) "nothing_to_remove"
        ("the owners' retains leave nothing to remove for role " ++ s.roleID)) = [] ↔
      ∀ s ∈ r.subjects, (r.forSubject s.identityAccountID).remove ≠ [] := by
  rw [← forall_zipIdx]
  simp [flatMap_eq_nil_iff, hne]

/-- The checks report no error exactly for checked intents. -/
theorem validateRightSize_eq_nil {r : RightSizeIntent} :
    validateRightSize r = [] ↔ r.Checked := by
  simp only [validateRightSize, append_eq_nil_iff, validateRetains_eq_nil,
    validateRemoves_eq_nil, validateMixed_eq_nil, and_assoc]
  constructor
  · rintro ⟨hsubs, hret, hapart, hmixed, hne, hleft, hrem, hconf, hdist, hterms⟩
    have hne : r.remove ≠ [] := by simpa using hne
    exact ⟨hsubs, hterms, hret, hapart, hmixed, hne, (validateLeft_eq_nil hne).1 hleft, hrem, hconf,
      hdist⟩
  · rintro ⟨hsubs, hterms, hret, hapart, hmixed, hne, hleft, hrem, hconf, hdist⟩
    exact ⟨hsubs, hret, hapart, hmixed, by simpa using hne, (validateLeft_eq_nil hne).2 hleft, hrem,
      hconf, hdist, hterms⟩

/-! ## The intent of one subject -/

section Subject

variable {r r' : RightSizeIntent} {s : String}

lemma appliesTo_iff {e : RetainEntry} :
    e.appliesTo s = true ↔ e.subjects = [] ∨ s ∈ e.subjects := by
  simp [RetainEntry.appliesTo]

lemma mem_keptFor {svc : String} :
    svc ∈ r.keptFor s ↔ ∃ e ∈ r.retain, s ∈ e.subjects ∧ e.service = svc := by
  simp only [RightSizeIntent.keptFor, mem_map, mem_filter, Bool.and_eq_true,
    appliesTo_iff, Bool.not_eq_true', isEmpty_eq_false_iff]
  constructor
  · rintro ⟨e, ⟨he, happ, hne⟩, rfl⟩
    exact ⟨e, he, happ.resolve_left hne, rfl⟩
  · rintro ⟨e, he, hs, rfl⟩
    exact ⟨e, ⟨he, .inr hs, ne_nil_of_mem hs⟩, rfl⟩

lemma mem_forSubject_retain {k : RetainEntry} :
    k ∈ (r.forSubject s).retain ↔
      ∃ e ∈ r.retain, e.appliesTo s = true ∧ { e with subjects := [] } = k := by
  simp only [RightSizeIntent.forSubject, mem_sortOn, mem_map, mem_filter, and_assoc]

/-- What a subject retains is retained for every subject of its intent. -/
lemma subjects_eq_nil_of_mem_forSubject {k : RetainEntry} (h : k ∈ (r.forSubject s).retain) :
    k.subjects = [] := by
  obtain ⟨e, -, -, rfl⟩ := mem_forSubject_retain.1 h
  rfl

lemma keptFor_forSubject (t : String) : (r.forSubject s).keptFor t = [] := by
  refine eq_nil_iff_forall_not_mem.2 fun svc hsvc => ?_
  obtain ⟨e, he, ht, -⟩ := mem_keptFor.1 hsvc
  rw [subjects_eq_nil_of_mem_forSubject he] at ht
  exact absurd ht not_mem_nil

lemma forSubject_remove (t : String) :
    ((r.forSubject s).forSubject t).remove = (r.forSubject s).remove := by
  rw [RightSizeIntent.forSubject, keptFor_forSubject]
  exact filter_eq_self.2 (by simp)

/-- A second look at the same subject shows nothing new. -/
lemma forSubject_forSubject : (r.forSubject s).forSubject s = r.forSubject s := by
  have hretain : ((r.forSubject s).forSubject s).retain = (r.forSubject s).retain := by
    have hfilter : (r.forSubject s).retain.filter (·.appliesTo s) = (r.forSubject s).retain :=
      filter_eq_self.2 fun k hk =>
        appliesTo_iff.2 (.inl (subjects_eq_nil_of_mem_forSubject hk))
    have hmap : (r.forSubject s).retain.map (fun e => { e with subjects := [] }) =
        (r.forSubject s).retain := by
      refine (map_congr_left fun k hk => ?_).trans (map_id' _)
      obtain ⟨e, -, -, rfl⟩ := mem_forSubject_retain.1 hk
      rfl
    change sortOn RetainEntry.service _ = _
    rw [hfilter, hmap]
    exact sortOn_of_sorted (sortOn_sorted _ _)
  have hremove := forSubject_remove (r := r) (s := s) s
  calc (r.forSubject s).forSubject s
      = { r.forSubject s with
          retain := ((r.forSubject s).forSubject s).retain
          remove := ((r.forSubject s).forSubject s).remove } := rfl
    _ = r.forSubject s := by rw [hretain, hremove]

/-- No service is retained twice for one subject. -/
lemma RightSizeIntent.Checked.nodup (h : r.Checked) (s : String) :
    ((r.retain.filter (·.appliesTo s)).map RetainEntry.service).Nodup := by
  rw [List.Nodup, pairwise_map]
  refine (h.apart.filter (·.appliesTo s)).imp_of_mem fun {e' e} he' he hapart heq => ?_
  obtain ⟨he', happ'⟩ := mem_filter.1 he'
  obtain ⟨he, happ⟩ := mem_filter.1 he
  rcases appliesTo_iff.1 happ' with hnil' | hs' <;> rcases appliesTo_iff.1 happ with hnil | hs
  · exact (hapart heq).1 ⟨hnil', hnil⟩
  · exact h.mixed e he (ne_nil_of_mem hs) (mem_retainedServices.2 ⟨e', he', hnil', heq⟩)
  · exact h.mixed e' he' (ne_nil_of_mem hs')
      (mem_retainedServices.2 ⟨e, he, hnil, heq.symm⟩)
  · exact (hapart heq).2 s hs hs'

/-- What the subject removes, it does not retain. -/
lemma RightSizeIntent.Checked.disjoint (h : r.Checked) {e : RemoveEntry} {k : RetainEntry}
    (he : e ∈ (r.forSubject s).remove) (hk : k ∈ (r.forSubject s).retain) :
    e.service ≠ k.service := by
  intro heq
  obtain ⟨hmem, hkept⟩ := mem_filter.1 he
  obtain ⟨k₀, hk₀, happ, rfl⟩ := mem_forSubject_retain.1 hk
  rcases appliesTo_iff.1 happ with hnil | hs
  · exact h.conflict e hmem (mem_retainedServices.2 ⟨k₀, hk₀, hnil, heq.symm⟩)
  · exact of_decide_eq_true hkept (mem_keptFor.2 ⟨k₀, hk₀, hs, heq.symm⟩)

/-- The intent of a subject passes the checks again. -/
theorem RightSizeIntent.Checked.forSubject (h : r.Checked) {t : Subject} (ht : t ∈ r.subjects) :
    (r.forSubject t.identityAccountID).Checked where
  subjects := h.subjects
  terms := h.terms
  retains k hk := by
    obtain ⟨e, he, -, rfl⟩ := mem_forSubject_retain.1 hk
    have hok := h.retains e he
    exact ⟨hok.service, by simp, by simp, nodup_nil, hok.basis⟩
  apart := by
    have hnodup : ((r.forSubject t.identityAccountID).retain.map RetainEntry.service).Nodup := by
      refine nodup_map_sortOn ?_
      rw [List.map_map]
      exact h.nodup t.identityAccountID
    exact (pairwise_map.1 hnodup).imp fun hne heq => absurd heq hne
  mixed k hk hne := absurd (subjects_eq_nil_of_mem_forSubject hk) hne
  nonempty := h.left t ht
  left s _ := by
    rw [forSubject_remove]
    exact h.left t ht
  removes e he := h.removes e (mem_of_mem_filter he)
  conflict e he hsvc := by
    obtain ⟨k, hk, -, heq⟩ := mem_retainedServices.1 hsvc
    exact h.disjoint he hk heq.symm
  distinct := h.distinct.sublist (filter_sublist.map _)

/-! ## Other owners -/

/-- What of the retains is about the subject: the entries that apply to it, without the other
subjects they are scoped to. -/
def RightSizeIntent.retainsOf (r : RightSizeIntent) (s : String) : List RetainEntry :=
  (r.retain.filter (·.appliesTo s)).map fun e => { e with subjects := e.subjects.filter (· = s) }

/-- The intents differ only in what is retained for other subjects. -/
structure RightSizeIntent.SameFor (r r' : RightSizeIntent) (s : String) : Prop where
  rest : { r with retain := [] } = { r' with retain := [] }
  retain : (r.retainsOf s).Perm (r'.retainsOf s)

lemma map_service_retainsOf :
    (r.retainsOf s).map RetainEntry.service =
      (r.retain.filter (·.appliesTo s)).map RetainEntry.service := by
  rw [RightSizeIntent.retainsOf, List.map_map]
  rfl

lemma forSubject_retain_eq :
    (r.forSubject s).retain =
      sortOn RetainEntry.service ((r.retainsOf s).map fun e => { e with subjects := [] }) := by
  rw [RightSizeIntent.retainsOf, List.map_map]
  rfl

lemma mem_keptFor_iff_retainsOf {svc : String} :
    svc ∈ r.keptFor s ↔ ∃ e ∈ r.retainsOf s, e.subjects ≠ [] ∧ e.service = svc := by
  rw [mem_keptFor]
  constructor
  · rintro ⟨e, he, hs, rfl⟩
    refine ⟨_, mem_map.2 ⟨e, mem_filter.2 ⟨he, appliesTo_iff.2 (.inr hs)⟩, rfl⟩, ?_, rfl⟩
    exact ne_nil_of_mem (mem_filter.2 ⟨hs, by simp⟩)
  · rintro ⟨k, hk, hne, rfl⟩
    obtain ⟨e, he, rfl⟩ := mem_map.1 hk
    obtain ⟨t, ht⟩ := exists_mem_of_ne_nil _ hne
    obtain ⟨ht, heq⟩ := mem_filter.1 ht
    exact ⟨e, (mem_filter.1 he).1, of_decide_eq_true heq ▸ ht, rfl⟩

/-- What other owners retain does not show in the intent of a subject. -/
theorem RightSizeIntent.SameFor.forSubject_eq (hsame : r.SameFor r' s) (h : r.Checked) :
    r'.forSubject s = r.forSubject s := by
  have hretain : (r'.forSubject s).retain = (r.forSubject s).retain := by
    rw [forSubject_retain_eq, forSubject_retain_eq]
    refine (sortOn_congr (hsame.retain.map _) ?_).symm
    rw [List.map_map]
    exact map_service_retainsOf ▸ h.nodup s
  have hkept : ∀ svc, svc ∈ r'.keptFor s ↔ svc ∈ r.keptFor s := fun svc => by
    simp only [mem_keptFor_iff_retainsOf, hsame.retain.mem_iff]
  have hremove : (r'.forSubject s).remove = (r.forSubject s).remove := by
    have hrest : r'.remove = r.remove := (congrArg RightSizeIntent.remove hsame.rest).symm
    simp only [RightSizeIntent.forSubject, hrest, hkept]
  have hrest : r'.forSubject s = { r.forSubject s with
      retain := (r'.forSubject s).retain, remove := (r'.forSubject s).remove } :=
    congrArg (fun q : RightSizeIntent => { q with
      retain := (r'.forSubject s).retain, remove := (r'.forSubject s).remove }) hsame.rest.symm
  rw [hrest, hretain, hremove]

end Subject

/-- `ValidateIntent` finds no problem. -/
def RightSizeIntent.Valid (r : RightSizeIntent) : Prop :=
  validateIntent { kind := intentRightSizeServices, rightSize := some r } = []

lemma RightSizeIntent.valid_iff_checked {r : RightSizeIntent} : r.Valid ↔ r.Checked := by
  rw [RightSizeIntent.Valid, validateIntent, if_pos rfl, ← validateRightSize_eq_nil,
    ← length_eq_zero_iff, length_sortOn, length_eq_zero_iff]

/-- The intent of a subject is valid, and it is its own intent of the subject.  It removes what the
intent removes, except for the services that an entry scoped to the subject retains; it retains
nothing that it removes, and everything else stays as it is.  What the owners of other subjects
retain does not change it. -/
theorem forSubject_owners_apart {r : RightSizeIntent} (hr : r.Valid) {t : Subject}
    (ht : t ∈ r.subjects) :
    (r.forSubject t.identityAccountID).Valid ∧
      (r.forSubject t.identityAccountID).forSubject t.identityAccountID =
        r.forSubject t.identityAccountID ∧
      (r.forSubject t.identityAccountID).remove = r.remove.filter (fun e =>
        ¬ ∃ k ∈ r.retain, t.identityAccountID ∈ k.subjects ∧ k.service = e.service) ∧
      (∀ e ∈ (r.forSubject t.identityAccountID).remove,
        ∀ k ∈ (r.forSubject t.identityAccountID).retain, e.service ≠ k.service) ∧
      { r.forSubject t.identityAccountID with retain := r.retain, remove := r.remove } = r ∧
      ∀ r', r'.Valid → r.SameFor r' t.identityAccountID →
        r'.forSubject t.identityAccountID = r.forSubject t.identityAccountID := by
  have h := RightSizeIntent.valid_iff_checked.1 hr
  refine ⟨RightSizeIntent.valid_iff_checked.2 (h.forSubject ht), forSubject_forSubject, ?_,
    fun e he k hk => h.disjoint he hk, rfl, fun r' _ hsame => hsame.forSubject_eq h⟩
  exact filter_congr fun e _ => decide_eq_decide.2 (not_congr mem_keptFor)

/-- Two roles, of which the owner of the first one retains a service. -/
def ownedRoles : RightSizeIntent where
  kind := intentRightSizeServices
  subjects := [⟨"00000000-0000-0000-0000-00000000000a", "AROAAAAAAAAA", "123456789012"⟩,
    ⟨"00000000-0000-0000-0000-00000000000b", "AROABBBBBBBB", "123456789012"⟩]
  retain := [{ service := "s3", basis := "owner", reason := "quarterly export",
               reviewBy := "2026-12-31", subjects := ["00000000-0000-0000-0000-00000000000a"] }]
  remove := [⟨"s3", "no_attempt", 90, grantAgePredatesObservation, "", "", []⟩,
    ⟨"sqs", "no_attempt", 90, grantAgePredatesObservation, "", "", []⟩]
  observationDays := 30
  delivery := deliveryDirect
  evidenceRev := 1

/-- The owner of the second role retains the other service. -/
def bothOwnedRoles : RightSizeIntent :=
  { ownedRoles with
    retain := { service := "sqs", basis := "owner", reason := "batch", reviewBy := "2026-12-31",
                subjects := ["00000000-0000-0000-0000-00000000000b"] } :: ownedRoles.retain }

/-- Two owners of two roles: what the second retains does not reach the first. -/
theorem forSubject_owners_apart_two :
    ownedRoles.Valid ∧ bothOwnedRoles.Valid ∧
      (ownedRoles.forSubject "00000000-0000-0000-0000-00000000000a").remove.map
        RemoveEntry.service = ["sqs"] ∧
      bothOwnedRoles.forSubject "00000000-0000-0000-0000-00000000000a" =
        ownedRoles.forSubject "00000000-0000-0000-0000-00000000000a" := by
  have hvalid : ownedRoles.Valid := by
    unfold RightSizeIntent.Valid
    decide +kernel
  have hboth : bothOwnedRoles.Valid := by
    unfold RightSizeIntent.Valid
    decide +kernel
  have hall := forSubject_owners_apart hvalid
    (t := ⟨"00000000-0000-0000-0000-00000000000a", "AROAAAAAAAAA", "123456789012"⟩) (by decide)
  refine ⟨hvalid, hboth, by decide +kernel, hall.2.2.2.2.2 bothOwnedRoles hboth ⟨rfl, ?_⟩⟩
  decide +kernel

end AuthSec

import AuthSec.Plans.Recognition

/-!
# Reads of a plan under way

A direct plan runs operation by operation, and a run that stopped is taken up again from a read.
The read after some of the operations shows the facts that they moved at their values after the
plan, and the other facts at their values before it (`Plan.SeenAt`).

* `compileTarget_classified`: the read that an apply plan was compiled from shows the state before
  the plan, whichever boundary the role has.
* `compileTarget_resumes`: after every prefix of the operations of a direct apply or undo plan the
  classifier goes on behind the prefix, but for operations that no read shows, and an operation with
  an unknown outcome is resolved as it went.
-/

namespace AuthSec

open List

/-! ## Values under way -/

/-- The keys of the facts that the operations move. -/
def movedKeys (ops : List Op) : List String :=
  ops.flatMap opEffects

section

variable {ops : List Op} {j k : ℕ}

lemma getElem?_prefixStates (hk : k ≤ ops.length) :
    (prefixStates ops)[k]? = some (movedKeys (ops.take k)) := by
  rw [prefixStates, getElem?_scanl, if_pos hk, foldl_append_eq_append, nil_append,
    movedKeys, flatMap_def]

lemma movedKeys_mono (h : j ≤ k) :
    movedKeys (ops.take j) ⊆ movedKeys (ops.take k) := by
  intro key hkey
  obtain ⟨o, ho, hmem⟩ := mem_flatMap.1 hkey
  exact mem_flatMap.2 ⟨o, (take_prefix_take_left h).subset ho, hmem⟩

lemma mem_movedKeys_take {o : Op} {key : String} (ho : ops[j]? = some o) (hjk : j < k)
    (hkey : key ∈ opEffects o) : key ∈ movedKeys (ops.take k) :=
  mem_flatMap.2 ⟨o, mem_of_getElem? (by rwa [getElem?_take_of_lt hjk]), hkey⟩

end

/-- The value of a fact when the facts of these keys have moved. -/
def Fact.valueAt (f : Fact) (moved : List String) : String :=
  if f.key ∈ moved then f.after else f.before

lemma Fact.position_valueAt (f : Fact) (moved : List String) :
    factPosition f (f.valueAt moved) =
      if f.changes then if f.key ∈ moved then .after else .before else .both := by
  unfold factPosition valueAt changes
  split_ifs <;> simp_all

/-- The facts that only tell a state before the plan from a conflict do not change. -/
def Steady (facts : List Fact) : Prop :=
  ∀ f ∈ facts, f.onlyBefore = true → f.changes = false

lemma Steady.counted {facts : List Fact} (h : Steady facts) {f : Fact} (hf : f ∈ facts)
    (hchanges : f.changes = true) : f.onlyBefore = false := by
  rw [← Bool.not_eq_true]
  exact fun honly => absurd hchanges (by rw [h f hf honly]; decide)

/-- Every operation that a read shows moves a changing fact that none before it moved. -/
def Visible (facts : List Fact) : List String → List Op → Prop
  | _, [] => True
  | moved, o :: ops =>
      (opEffects o = [] ∨ ∃ f ∈ facts, f.changes = true ∧ f.key ∈ opEffects o ∧ f.key ∉ moved) ∧
        Visible facts (moved ++ opEffects o) ops

lemma Visible.mono {facts facts' : List Fact} (h : facts ⊆ facts') :
    ∀ {moved : List String} {ops : List Op}, Visible facts moved ops → Visible facts' moved ops
  | _, [], _ => trivial
  | _, _ :: _, ⟨hfirst, hrest⟩ =>
      ⟨hfirst.imp_right fun ⟨f, hf, hmoves⟩ => ⟨f, h hf, hmoves⟩, hrest.mono h⟩

lemma Visible.exists_fact {facts : List Fact} {o : Op} (hne : opEffects o ≠ []) :
    ∀ {ops : List Op} {moved : List String} {j : ℕ}, Visible facts moved ops →
      ops[j]? = some o → ∃ f ∈ facts, f.changes = true ∧ f.key ∈ opEffects o ∧
        f.key ∉ moved ++ movedKeys (ops.take j)
  | o' :: ops, moved, 0, ⟨hfirst, _⟩, ho => by
      obtain rfl := Option.some.inj ho
      simpa [movedKeys] using hfirst.resolve_left hne
  | o' :: ops, moved, j + 1, ⟨_, hrest⟩, ho => by
      simpa [movedKeys] using hrest.exists_fact hne ho

/-- Every read after a prefix of the operations tells how far a plan with these facts is. -/
structure Stepwise (facts : List Fact) (ops : List Op) : Prop where
  nonempty : facts ≠ []
  steady : Steady facts
  kinds : (facts.map Fact.kind).Nodup
  visible : Visible facts [] ops
  moved : ∀ f ∈ facts, f.changes = true → f.key ∈ movedKeys ops

namespace Plan

variable {p : Plan} {live : LiveRead} {moved keys : List String}

/-- What the classifier finds of the facts. -/
def resultsAt (p : Plan) (moved : List String) : List FactResult :=
  p.facts.map fun f => ⟨f, f.valueAt moved, factPosition f (f.valueAt moved)⟩

/-- The class of a read, by the changing facts that have moved. -/
def classAt (p : Plan) (moved : List String) : PlanClass :=
  if ∃ f ∈ p.facts, f.changes ∧ f.key ∉ moved then
    if ∃ f ∈ p.facts, f.changes ∧ f.key ∈ moved then .intermediate else .before
  else .after

lemma exists_position (hsteady : Steady p.facts) {pos : FactPosition}
    (hpos : pos = .before ∨ pos = .after) :
    (∃ r ∈ p.resultsAt moved, r.fact.onlyBefore = false ∧ r.position = pos) ↔
      ∃ f ∈ p.facts, f.changes = true ∧ (f.key ∈ moved ↔ pos = .after) := by
  simp only [resultsAt, mem_map]
  constructor
  · rintro ⟨_, ⟨f, hf, rfl⟩, -, hposition⟩
    rw [f.position_valueAt] at hposition
    refine ⟨f, hf, ?_⟩
    rcases hpos with rfl | rfl <;> split_ifs at hposition <;> simp_all
  · rintro ⟨f, hf, hchanges, hmoved⟩
    refine ⟨_, ⟨f, hf, rfl⟩, hsteady.counted hf hchanges, ?_⟩
    rw [f.position_valueAt, if_pos hchanges]
    rcases hpos with rfl | rfl <;> simp_all

/-- The read matches the states in which the same changing facts have moved. -/
lemma matchesState_resultsAt (hsteady : Steady p.facts) (hkinds : (p.facts.map Fact.kind).Nodup)
    (moved keys : List String) : matchesState (p.resultsAt moved) keys = true ↔
      ∀ f ∈ p.facts, f.changes → (f.key ∈ moved ↔ f.key ∈ keys) := by
  have hagree : ∀ e ∈ (p.resultsAt moved).map (fun r => (r.fact.key, r.position)),
      ∀ e' ∈ (p.resultsAt moved).map (fun r => (r.fact.key, r.position)), e.1 = e'.1 → e = e' := by
    simp only [resultsAt, List.map_map, forall_mem_map, Function.comp_apply]
    intro f hf g hg hkey
    rw [inj_on_of_nodup_map hkinds hf hg (factKey_inj.1 hkey).1]
  simp only [matchesState, all_eq_true, resultsAt, forall_mem_map]
  refine forall₂_congr fun f hf => ?_
  have hat : (GoMap.ofList ((p.resultsAt moved).map fun r => (r.fact.key, r.position))).get? f.key =
      some (factPosition f (f.valueAt moved)) := by
    rw [GoMap.get?_ofList_of_agree hagree]
    exact mem_map.2 ⟨_, mem_map_of_mem hf, rfl⟩
  rw [resultsAt] at hat
  rw [hat, f.position_valueAt]
  by_cases hchanges : f.changes = true
  · have honly := hsteady.counted hf hchanges
    by_cases hmoved : f.key ∈ moved <;> by_cases hkey : f.key ∈ keys <;>
      simp [hchanges, honly, hmoved, hkey]
  · simp [hchanges]

lemma classAt_ne_conflict : p.classAt moved ≠ .conflict := by
  unfold classAt
  split_ifs <;> decide

/-- The first state that matches is that of the prefix, or one before it with nothing to see in
between. -/
lemma exists_findIdx (hp : Stepwise p.facts p.ops) {k : ℕ} (hk : k ≤ p.ops.length) :
    ∃ m, (prefixStates p.ops).findIdx? (matchesState (p.resultsAt (movedKeys (p.ops.take k)))) =
        some m ∧ m ≤ k ∧
      ∀ j o, m ≤ j → j < k → p.ops[j]? = some o → opEffects o = [] := by
  have hmatches := matchesState_resultsAt hp.steady hp.kinds (movedKeys (p.ops.take k))
  have hself := (hmatches (movedKeys (p.ops.take k))).2 fun _ _ _ => Iff.rfl
  cases hfind : (prefixStates p.ops).findIdx?
      (matchesState (p.resultsAt (movedKeys (p.ops.take k)))) with
  | none =>
      have hfalse := findIdx?_eq_none_iff.1 hfind _
        (mem_of_getElem? (getElem?_prefixStates hk))
      rw [hself] at hfalse
      cases hfalse
  | some m =>
      obtain ⟨hm, hmatch, hfirst⟩ := findIdx?_eq_some_iff_getElem.1 hfind
      have hlen : m ≤ p.ops.length := by
        simpa [prefixStates, length_scanl, Nat.lt_succ_iff] using hm
      have hat : ∀ i, (hi : i < (prefixStates p.ops).length) → i ≤ p.ops.length →
          (prefixStates p.ops)[i] = movedKeys (p.ops.take i) := by
        intro i hi hle
        exact Option.some.inj ((getElem?_eq_getElem hi).symm.trans (getElem?_prefixStates hle))
      have hmk : m ≤ k := by
        by_contra hlt
        refine hfirst k (not_le.1 hlt) ?_
        rw [hat k _ hk]
        exact hself
      rw [hat m hm hlen, hmatches] at hmatch
      refine ⟨m, rfl, hmk, fun j o hmj hjk ho => ?_⟩
      by_contra hne
      obtain ⟨f, hf, hchanges, hkey, hfresh⟩ := hp.visible.exists_fact hne ho
      have hmoved := (hmatch f hf hchanges).1 (mem_movedKeys_take ho hjk hkey)
      exact hfresh (movedKeys_mono hmj hmoved)

variable [Sha256]

/-- The read shows the facts of these keys moved, and no others. -/
def SeenAt (p : Plan) (live : LiveRead) (moved : List String) : Prop :=
  ∀ f ∈ p.facts, observeFact live (factsRoleID p.facts) f = .ok (f.valueAt moved)

lemma SeenAt.observed (h : p.SeenAt live moved) :
    ∃ obs, observeFacts p.facts live = .ok obs ∧ factResults p.facts obs = p.resultsAt moved := by
  obtain ⟨obs, hobs⟩ := exists_observeFacts.2 fun f hf => (exists_observeFact _).1 ⟨_, h f hf⟩
  refine ⟨obs, hobs, map_congr_left fun f hf => ?_⟩
  obtain ⟨v, hv, hget⟩ := get?_observeFacts hobs hf
  obtain rfl := Except.ok.inj ((h f hf).symm.trans hv)
  rw [GoMap.str, hget, Option.getD_some]

/-- A read of a plan under way is in conflict with no fact; of a direct plan it has to match a
prefix of the operations besides. -/
lemma SeenAt.classified (h : p.SeenAt live moved) (hfacts : p.facts ≠ []) (hsteady : Steady p.facts)
    {m : ℕ} (hmatch : p.delivery = deliveryDirect →
      (prefixStates p.ops).findIdx? (matchesState (p.resultsAt moved)) = some m) :
    ∃ cl, classify p live = .ok cl ∧ cl.facts = p.resultsAt moved ∧ cl.conflicts = [] ∧
      cl.reason = none ∧ cl.cls = p.classAt moved ∧
      (p.delivery = deliveryDirect → cl.nextOp = some m) := by
  obtain ⟨obs, hobs, hresults⟩ := h.observed
  have hclassify : classify p live = .ok (classifyObserved p obs) :=
    bind_eq_ok.2 ⟨(), require_eq_ok.2 hfacts, bind_eq_ok.2 ⟨obs, hobs, rfl⟩⟩
  have hneither : ((p.resultsAt moved).filter (!·.fact.onlyBefore)).filter
      (·.position == .neither) = [] := by
    simp only [filter_eq_nil_iff, mem_filter, resultsAt, mem_map]
    rintro _ ⟨⟨f, -, rfl⟩, -⟩
    rw [f.position_valueAt]
    split_ifs <;> simp
  have honly : (p.resultsAt moved).filter (fun r => r.fact.onlyBefore && r.position != .both) =
      [] := by
    simp only [filter_eq_nil_iff, resultsAt, mem_map]
    rintro _ ⟨f, hf, rfl⟩
    rw [f.position_valueAt]
    cases hb : f.onlyBefore <;> simp [hsteady f hf, hb]
  refine ⟨_, hclassify, ?_⟩
  simp only [classifyObserved, hresults, hneither, honly]
  by_cases hdirect : p.delivery = deliveryDirect
  · simp [hdirect, hmatch hdirect, classAt, exists_position hsteady]
  · simp [hdirect, classAt, exists_position hsteady]

/-- The first `k` operations have run, and the plan is taken up behind them: what is repeated no
read shows, and an operation with an unknown outcome is resolved as it went. -/
def ResumesAt (p : Plan) (live : LiveRead) (k : ℕ) : Prop :=
  ∃ cl m, classify p live = .ok cl ∧ cl.conflicts = [] ∧ cl.reason = none ∧
    cl.cls = p.classAt (movedKeys (p.ops.take k)) ∧ (k = p.ops.length → cl.cls = .after) ∧
    cl.nextOp = some m ∧ m ≤ k ∧
    (∀ j o, m ≤ j → j < k → p.ops[j]? = some o → opEffects o = []) ∧
    ∀ j o, p.ops[j]? = some o → opEffects o ≠ [] →
      (j = k → resolveUnknownOp p j live = .ok ⟨.notApplied, cl⟩) ∧
      (j + 1 = k → resolveUnknownOp p j live = .ok ⟨.applied, cl⟩)

/-- A plan that runs step by step is taken up where it stopped. -/
theorem resumes (hp : Stepwise p.facts p.ops) (hdirect : p.delivery = deliveryDirect) {k : ℕ}
    (hk : k ≤ p.ops.length) (h : p.SeenAt live (movedKeys (p.ops.take k))) :
    p.ResumesAt live k := by
  have hmatches := matchesState_resultsAt hp.steady hp.kinds (movedKeys (p.ops.take k))
  obtain ⟨m, hfind, hmk, hbetween⟩ := exists_findIdx hp hk
  obtain ⟨cl, hcl, hresults, hconflicts, hreason, hcls, hnext⟩ :=
    h.classified hp.nonempty hp.steady fun _ => hfind
  refine ⟨cl, m, hcl, hconflicts, hreason, hcls, ?_, hnext hdirect, hmk, hbetween, ?_⟩
  · rintro rfl
    rw [hcls, classAt, if_neg]
    rintro ⟨f, hf, hchanges, hkey⟩
    rw [take_length] at hkey
    exact hkey (hp.moved f hf hchanges)
  · intro j o ho hne
    have hj : j < p.ops.length := (List.getElem?_eq_some_iff.1 ho).1
    have hresolve : resolveUnknownOp p j live = .ok ⟨resolveWith p j o cl, cl⟩ := by
      refine bind_eq_ok.2 ⟨(), require_eq_ok.2 hdirect, ?_⟩
      rw [ho]
      exact bind_eq_ok.2 ⟨cl, hcl, rfl⟩
    have hno : cl.cls ≠ .conflict := hcls ▸ classAt_ne_conflict
    simp only [hresolve, resolveWith, if_neg hno, if_neg hne, hresults, getD_eq_getElem?_getD,
      getElem?_prefixStates hj.le, getElem?_prefixStates hj, Option.getD_some, hmatches]
    constructor
    · rintro rfl
      obtain ⟨f, hf, hchanges, hkey, hfresh⟩ := hp.visible.exists_fact hne ho
      rw [if_neg fun hall => hfresh ((hall f hf hchanges).2
        (mem_movedKeys_take ho (Nat.lt_succ_self j) hkey)), if_pos fun _ _ _ => Iff.rfl]
    · rintro rfl
      rw [if_pos fun _ _ _ => Iff.rfl]

end Plan

/-! ## The plans of a target -/

section

variable {p : Plan} {kind : PlanKind} {delivery arn : String} {facts : List Fact} {ops : List Op}
  {live : LiveRead}

lemma Plan.Is.stepwise (h : p.Is kind delivery facts ops) (hs : Stepwise facts ops) :
    Stepwise p.facts p.ops := by
  have hmem : ∀ f, f ∈ p.facts ↔ f ∈ facts := fun f => by rw [h.facts, sortFacts, mem_sortOn]
  obtain ⟨hfacts, hsteady, hkinds, hvisible, hmoved⟩ := hs
  rw [h.ops]
  refine ⟨?_, by simpa only [Steady, hmem] using hsteady, ?_, hvisible.mono fun f => (hmem f).2,
    by simpa only [hmem] using hmoved⟩
  · rw [h.facts]
    exact fun hnil => hfacts (length_eq_zero_iff.1 (by
      rw [← length_sortOn Fact.key facts, ← sortFacts, hnil, length_nil]))
  · rw [h.facts]
    exact ((perm_sortOn Fact.key facts).map Fact.kind).nodup_iff.2 hkinds

/-- A policy that the plan is to read and that AWS does not have. -/
lemma Plan.Is.absent (h : p.Is kind delivery facts ops)
    (hread : ∀ arn ∈ p.policiesToRead, ∃ found, live.policies.get? arn = some found)
    (hf : ∃ f ∈ facts, f.kind = .policyDocument ∧ f.subject = arn)
    (hnot : ∀ pol, live.policies.get? arn ≠ some (some pol)) :
    live.policies.get? arn = some none := by
  obtain ⟨f, hf, hkind, rfl⟩ := hf
  obtain ⟨found, hfound⟩ := hread f.subject (by
    rw [policiesToRead, mem_sortedUnique, h.facts]
    exact mem_map_of_mem (mem_filter.2 ⟨(mem_sortOn ..).2 hf, beq_iff_eq.2 hkind⟩))
  cases found with
  | none => exact hfound
  | some pol => exact absurd hfound (hnot pol)

/-- A read that shows every fact of a plan at its value before the plan. -/
lemma Plan.Is.seenAt_nil [Sha256] {role : LiveRole} (hrole : live.role = some role)
    (h : p.Is kind delivery (factRole role.roleID :: facts) ops)
    (hfacts : ∀ f ∈ facts, f.kind ≠ .role ∧ (f.onlyBefore = true → f.changes = false) ∧
      observeFact live role.roleID f = .ok f.before) :
    p.SeenAt live [] ∧ p.facts ≠ [] ∧ Steady p.facts := by
  have hmem : ∀ f, f ∈ p.facts ↔ f = factRole role.roleID ∨ f ∈ facts := fun f => by
    rw [h.facts, sortFacts, mem_sortOn, mem_cons]
  have hfirst : factRole role.roleID ∈ p.facts := (hmem _).2 (Or.inl rfl)
  have hid : factsRoleID p.facts = role.roleID := by
    have hfilter : factRole role.roleID ∈ p.facts.filter (·.kind == .role) :=
      mem_filter.2 ⟨hfirst, rfl⟩
    obtain ⟨f, hf⟩ := Option.isSome_iff_exists.1
      (getLast?_isSome.2 (ne_nil_of_mem hfilter))
    obtain ⟨hin, hkind⟩ := mem_filter.1 (mem_of_getLast? hf)
    rw [factsRoleID, hf]
    rcases (hmem f).1 hin with rfl | hin
    · rfl
    · exact absurd (beq_iff_eq.1 hkind) (hfacts f hin).1
  refine ⟨fun f hf => ?_, ne_nil_of_mem hfirst, fun f hf => ?_⟩
  · rw [hid, Fact.valueAt, if_neg not_mem_nil]
    rcases (hmem f).1 hf with rfl | hf
    · simp [observeFact, hrole]
    · exact (hfacts f hf).2.2
  · rcases (hmem f).1 hf with rfl | hf
    · exact fun honly => absurd honly Bool.false_ne_true
    · exact (hfacts f hf).2.1

lemma LiveRead.free_of_hasPolicy (h : live.hasPolicy arn = false) (pol : LivePolicy) :
    live.policies.get? arn ≠ some (some pol) := by
  intro hpol
  rw [hasPolicy, hpol] at h
  cases h

end

lemma ne_of_head {s t : String} (h : s.toList.head? ≠ t.toList.head?) : s ≠ t :=
  fun heq => h (by rw [heq])

section

variable (c : ApplyCtx)

lemma ApplyCtx.newARN_ne_none : c.newARN ≠ valueNone :=
  ne_of_head (by simp [newARN, authSecBoundaryARN, valueNone, String.append_assoc])

/-- A name that a plan may take is free. -/
lemma ApplyCtx.newARN_free {c : ApplyCtx} (h : c.nameInUseRefusal = []) (pol : LivePolicy) :
    c.inp.live.policies.get? c.newARN ≠ some (some pol) := by
  intro hpol
  rw [nameInUseRefusal, hpol] at h
  dsimp only at h
  split_ifs at h

lemma ApplyCtx.ownerValue_of_owned {c : ApplyCtx} {cur : CurrentBoundary}
    (h : c.ownerRefusal cur = []) : ownerValue cur.policy.tags = c.inp.control.ownerValue := by
  unfold ownerRefusal at h
  split_ifs at h
  simp only [refuseIf_eq_nil, Bool.or_eq_false_iff, bne_eq_false_iff_eq] at h
  exact h.1

lemma ApplyCtx.stepwise_none {h : String} (hh : h ≠ valueAbsent) :
    Stepwise (c.noneFacts h) (c.noneOps h) := by
  refine ⟨by simp [noneFacts], by simp [Steady, noneFacts, roleFacts, Fact.changes],
    by simp [noneFacts, roleFacts], ?_, ?_⟩
  · simp [Visible, noneFacts, noneOps, or_and_right, exists_or, opEffects, Fact.changes, Fact.key,
      factKey_inj, hh.symm, c.newARN_ne_none.symm]
  · simp [noneFacts, roleFacts, movedKeys, noneOps, opEffects, Fact.key, Fact.changes]

lemma ApplyCtx.stepwise_noneUndo {h : String} (hh : h ≠ valueAbsent) :
    Stepwise (c.noneUndoFacts h) (c.deleteBoundaryOp :: deletePolicyOps c.newARN) := by
  refine ⟨by simp [noneUndoFacts], by simp [Steady, noneUndoFacts, roleFacts],
    by simp [noneUndoFacts, roleFacts], ?_, ?_⟩
  · simp [Visible, noneUndoFacts, deletePolicyOps, or_and_right, exists_or, opEffects, Fact.changes,
      Fact.key, factKey_inj, hh, c.newARN_ne_none]
  · simp [noneUndoFacts, roleFacts, movedKeys, deletePolicyOps, opEffects, Fact.key, Fact.changes]

lemma ApplyCtx.stepwise_version {withDefinition : Bool} {others : List AttachedEntity}
    {before after : String} {versions : ℤ} (same : Prop) [Decidable same]
    (hsame : same ↔ before = after) :
    Stepwise (c.versionFacts withDefinition others before after)
      (if same then [] else newVersionOps c.inp.control c.role.boundaryARN after versions) := by
  refine ⟨by simp [versionFacts], ?_, ?_, ?_, ?_⟩
  · cases withDefinition <;> simp [Steady, versionFacts, roleFacts, Fact.changes]
  · cases withDefinition <;> simp [versionFacts, roleFacts]
  · split_ifs with hs
    · trivial
    · have hne : before ≠ after := mt hsame.2 hs
      unfold newVersionOps
      split_ifs <;> simp [Visible, versionFacts, pruneOp, or_and_right, exists_or, opEffects,
        Fact.changes, Fact.key, hne]
  · by_cases hs : same
    · have heq := hsame.1 hs
      cases withDefinition <;> simp [versionFacts, roleFacts, Fact.changes, heq]
    · cases withDefinition <;>
        simp [versionFacts, roleFacts, Fact.changes, Fact.key, hs, movedKeys, newVersionOps,
          opEffects]

end

section

variable [Sha256] {c : ApplyCtx} {a u : Plan}

lemma contentHash_ne_absent (doc : Bytes) : contentHash doc ≠ valueAbsent :=
  ne_of_head (by simp [contentHash, sha256Label, hashLabel, valueAbsent])

/-- The direct plans of a target run step by step. -/
lemma ApplyCtx.Compiled.stepwise (h : c.Compiled a u)
    (hdirect : c.inp.intent.delivery = deliveryDirect) :
    Stepwise a.facts a.ops ∧ Stepwise u.facts u.ops := by
  cases h with
  | none _ _ _ _ ha hu =>
      have hne := contentHash_ne_absent
      exact ⟨ha.stepwise (c.stepwise_none (hne _)), hu.stepwise (c.stepwise_noneUndo (hne _))⟩
  | authsec _ _ _ _ _ ha hu =>
      exact ⟨ha.stepwise (c.stepwise_version _ eq_comm), hu.stepwise (c.stepwise_version _ Iff.rfl)⟩
  | exclusive _ _ hdelivery => exact absurd hdirect hdelivery
  | shared _ _ hdelivery => exact absurd hdirect hdelivery

/-- The read that an apply plan was compiled from shows the plan before it runs. -/
lemma ApplyCtx.Compiled.seen (h : c.Compiled a u) (hready : c.Ready)
    (hread : ∀ arn ∈ a.policiesToRead, ∃ found, c.inp.live.policies.get? arn = some found) :
    a.SeenAt c.inp.live [] ∧ a.facts ≠ [] ∧ Steady a.facts := by
  have hrole := hready.role
  have hdef := hready.defHash
  cases h with
  | none hboundary hdoc hfree hproof ha hu =>
      have habsent : c.inp.live.policies.get? c.newARN = some .none := by
        exact ha.absent hread (by simp [noneFacts, or_and_right, exists_or]) (newARN_free hfree)
      exact ha.seenAt_nil hrole (by simp [observeFact, hrole, hdef, hboundary, boundaryValue,
        LiveRead.policy, habsent, Fact.changes])
  | authsec hcur hpath hdoc howner hothers ha hu =>
      obtain ⟨harn, hpol, hhash, husers⟩ := hcur
      exact ha.seenAt_nil hrole (by simp [observeFact, hrole, hdef, harn, boundaryValue,
        LiveRead.policy, hpol, observePolicy, hhash, ownerValue_of_owned howner, husers,
        Fact.changes])
  | exclusive hcur hpath hdelivery hothers hdoc ha hu =>
      obtain ⟨harn, hpol, hhash, husers⟩ := hcur
      rw [hothers] at husers
      exact ha.seenAt_nil hrole (by simp [observeFact, hrole, hdef, harn, boundaryValue,
        LiveRead.policy, hpol, observePolicy, hhash, ← husers, Fact.changes])
  | @shared cur _ _ hcur hpath hdelivery hothers hdoc hfree ha hu =>
      obtain ⟨harn, hpol, hhash, husers⟩ := hcur
      split_ifs at ha with hn
      · have habsent : c.inp.live.policies.get? (c.copyARN cur) = some .none := by
          exact ha.absent hread (by simp [copyFacts, or_and_right, exists_or])
            (LiveRead.free_of_hasPolicy (refuseIf_eq_nil.1 (hfree hn)))
        exact ha.seenAt_nil hrole (by simp [observeFact, hrole, hdef, harn, boundaryValue,
          LiveRead.policy, hpol, habsent, observePolicy, hhash, husers, Fact.changes])
      · exact ha.seenAt_nil hrole (by simp [observeFact, hrole, hdef, harn, boundaryValue,
          LiveRead.policy, hpol, observePolicy, hhash, husers, Fact.changes])

/-- The read that an eligible apply plan was compiled from, if it covers the policies of the plan,
shows the state before the plan, or after it when nothing is to change. -/
theorem compileTarget_classified {inp : TargetInput} {plans : TargetPlans}
    (h : compileTarget inp = .ok plans) (he : plans.apply.eligible)
    (hread : ∀ arn ∈ plans.apply.policiesToRead, ∃ found, inp.live.policies.get? arn = some found) :
    ∃ cl, classify plans.apply inp.live = .ok cl ∧ cl.conflicts = [] ∧ cl.reason = none ∧
      cl.cls = (if ∃ f ∈ plans.apply.facts, f.changes then .before else .after) ∧
      (plans.apply.delivery = deliveryDirect → cl.nextOp = some 0) := by
  obtain ⟨c, rfl, hready, u, -, hcompiled⟩ := compileTarget_compiled h he
  obtain ⟨hseen, hfacts, hsteady⟩ := hcompiled.seen hready hread
  have hfirst : plans.apply.delivery = deliveryDirect → (prefixStates plans.apply.ops).findIdx?
      (matchesState (plans.apply.resultsAt [])) = some 0 := by
    intro hdirect
    obtain ⟨m, hm, hle, -⟩ := Plan.exists_findIdx
      (hcompiled.stepwise (hcompiled.delivery.1 ▸ hdirect)).1 (Nat.zero_le _)
    rw [Nat.le_zero.1 hle] at hm
    exact hm
  obtain ⟨cl, hcl, -, hconflicts, hreason, hcls, hnext⟩ := hseen.classified hfacts hsteady hfirst
  refine ⟨cl, hcl, hconflicts, hreason, ?_, hnext⟩
  simp [hcls, Plan.classAt]

/-- The direct apply and undo plans of a target are taken up after every prefix of their
operations. -/
theorem compileTarget_resumes {inp : TargetInput} {plans : TargetPlans}
    (h : compileTarget inp = .ok plans) (he : plans.apply.eligible)
    (hdirect : inp.intent.delivery = deliveryDirect) {p : Plan}
    (hp : p = plans.apply ∨ plans.undo = some p) {k : ℕ} (hk : k ≤ p.ops.length)
    {live : LiveRead} (hseen : p.SeenAt live (movedKeys (p.ops.take k))) : p.ResumesAt live k := by
  obtain ⟨c, rfl, hready, u, hu, hcompiled⟩ := compileTarget_compiled h he
  obtain ⟨happly, hundo⟩ := hcompiled.stepwise hdirect
  rcases hp with rfl | hp
  · exact Plan.resumes happly (hcompiled.delivery.1.trans hdirect) hk hseen
  · obtain rfl := Option.some.inj (hu.symm.trans hp)
    exact Plan.resumes hundo (hcompiled.delivery.2.trans hdirect) hk hseen

end

/-! ## The first boundary of a role -/

/-- The plan for the first boundary: the read that it was compiled from has the policies that it
reads, and the read after the first of its operations shows what that operation moved. -/
lemma firstTarget_compiled :
    let _ : Sha256 := ⟨fun _ => []⟩
    ∃ plans, compileTarget firstTarget = .ok plans ∧ plans.apply.eligible ∧
      (∀ arn ∈ plans.apply.policiesToRead,
        ∃ found, firstTarget.live.policies.get? arn = some found) ∧
      1 < plans.apply.ops.length ∧
      plans.apply.SeenAt createdRead (movedKeys (plans.apply.ops.take 1)) := by
  intro sha
  have hrun : (compileTarget firstTarget).toOption.any (fun plans =>
      plans.apply.eligible && (plans.apply.policiesToRead.all fun arn =>
        (firstTarget.live.policies.get? arn).isSome) && decide (1 < plans.apply.ops.length) &&
        plans.apply.facts.all fun f =>
          (observeFact createdRead (factsRoleID plans.apply.facts) f).toOption ==
            some (f.valueAt (movedKeys (plans.apply.ops.take 1)))) := by decide +kernel
  cases h : compileTarget firstTarget with
  | error e =>
      rw [h] at hrun
      cases hrun
  | ok plans =>
      rw [h] at hrun
      simp only [Except.toOption, Option.any_some, Bool.and_eq_true, all_eq_true,
        Option.isSome_iff_exists, decide_eq_true_eq, beq_iff_eq] at hrun
      obtain ⟨⟨⟨he, hread⟩, hlength⟩, hseen⟩ := hrun
      refine ⟨plans, rfl, he, hread, hlength, fun f hf => ?_⟩
      have hvalue := hseen f hf
      cases hobs : observeFact createdRead (factsRoleID plans.apply.facts) f with
      | error e => simp [hobs] at hvalue
      | ok v => simpa [hobs] using hvalue

/-- The plan for a first boundary, before anything is sent. -/
theorem compileTarget_classified_first :
    let _ : Sha256 := ⟨fun _ => []⟩
    ∃ plans cl, compileTarget firstTarget = .ok plans ∧
      classify plans.apply firstTarget.live = .ok cl ∧ cl.conflicts = [] := by
  intro sha
  obtain ⟨plans, h, he, hread, -⟩ := firstTarget_compiled
  obtain ⟨cl, hcl, hconflicts, -⟩ := compileTarget_classified h he hread
  exact ⟨plans, cl, h, hcl, hconflicts⟩

/-- A run that stopped between the creation of the policy and its use goes on with the second
operation. -/
theorem compileTarget_resumes_created :
    let _ : Sha256 := ⟨fun _ => []⟩
    ∃ plans, compileTarget firstTarget = .ok plans ∧ 1 < plans.apply.ops.length ∧
      plans.apply.ResumesAt createdRead 1 := by
  intro sha
  obtain ⟨plans, h, he, -, hlength, hseen⟩ := firstTarget_compiled
  exact ⟨plans, h, hlength, compileTarget_resumes h he rfl (Or.inl rfl) hlength.le hseen⟩

end AuthSec

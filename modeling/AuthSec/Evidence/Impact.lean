import AuthSec.Canonical.Objects
import AuthSec.Routes

/-!
# Impact

What a plan changes for the users of a role, and its hash.  `Impact.normalized` sorts every list;
consumers, owners and statement revisions come out as sets, the services and the routes keep their
repetitions (`Impact.normalized_eq_iff`).
-/

namespace AuthSec

structure ImpactConsumer where
  workloadID : String
  relationship : String
  deriving DecidableEq

def ImpactConsumer.toJson (c : ImpactConsumer) : Json GoNum :=
  .obj [("workload_id", .str c.workloadID), ("relationship", .str c.relationship)]

def ImpactConsumer.sortKey (c : ImpactConsumer) : String ×ₗ String :=
  toLex (c.workloadID, c.relationship)

/-- A removed, retained or restored service with its basis. -/
structure ImpactService where
  service : String
  basis : String
  deriving DecidableEq

def ImpactService.toJson (s : ImpactService) : Json GoNum :=
  .obj [("service", .str s.service), ("basis", .str s.basis)]

/-- The comparison of `svcLess`. -/
def ImpactService.sortKey (s : ImpactService) : String ×ₗ String :=
  toLex (s.service, s.basis)

/-- What a plan changes, and for whom. -/
structure Impact where
  consumers : List ImpactConsumer := []
  ownerUserIDs : List String := []
  removed : List ImpactService := []
  retained : List ImpactService := []
  statementRevisions : List String := []
  routes : List Route := []
  restored : List ImpactService := []
  deriving DecidableEq

/-- `uniqueConsumers`. -/
def uniqueConsumers (cs : List ImpactConsumer) : List ImpactConsumer :=
  uniq cs

/-- An array of strings. -/
def strArray (l : List String) : Json GoNum :=
  .arr (l.map .str)

namespace Impact

/-- `Impact.Normalized`. -/
def normalized (im : Impact) : Impact where
  consumers := uniqueConsumers (sortOn ImpactConsumer.sortKey im.consumers)
  ownerUserIDs := sortedUnique im.ownerUserIDs
  removed := sortOn ImpactService.sortKey im.removed
  retained := sortOn ImpactService.sortKey im.retained
  statementRevisions := sortedUnique im.statementRevisions
  routes := sortRoutes im.routes
  restored := sortOn ImpactService.sortKey im.restored

/-- The members of an impact; the restored services are left out when there are none. -/
def members (im : Impact) : Members GoNum :=
  [("consumers", .arr (im.consumers.map ImpactConsumer.toJson)),
    ("owners", strArray im.ownerUserIDs),
    ("removed", .arr (im.removed.map ImpactService.toJson)),
    ("retained", .arr (im.retained.map ImpactService.toJson)),
    ("statement_revisions", strArray im.statementRevisions),
    ("routes", .arr (im.routes.map Route.toJson))] ++
    if im.restored = [] then [] else [("restored", .arr (im.restored.map ImpactService.toJson))]

def toJson (im : Impact) : Json GoNum :=
  .obj im.members

end Impact

/-- `ImpactHash`. -/
def impactHash [Sha256] (im : Impact) : Except GoErr String :=
  hashCanonicalTagged .impact im.normalized.toJson

/-! ## The members of an impact -/

def Route.fields (r : Route) : List (String × Bool × String) :=
  [("service", false, r.service), ("form", true, r.form), ("region", true, r.region),
    ("resource", true, r.resource), ("principal", true, r.principal), ("effect", false, r.effect),
    ("reason", true, r.reason)]

lemma Route.stringStruct : StringStruct toJson fields where
  json r := by simp [toJson, fields, strMembers]
  nodup r := by simp [fields]
  names a b := rfl
  ext a b h := by
    cases a
    cases b
    simpa [fields] using h

def ImpactService.fields (s : ImpactService) : List (String × Bool × String) :=
  [("service", false, s.service), ("basis", false, s.basis)]

lemma ImpactService.stringStruct : StringStruct toJson fields where
  json s := rfl
  nodup s := by simp [fields]
  names a b := rfl
  ext a b h := by
    cases a
    cases b
    simpa [fields] using h

lemma ImpactConsumer.fits (c : ImpactConsumer) (room : ℕ) : c.toJson.Fits (room + 2) := by
  simp [toJson]

@[simp]
lemma fits_strArray (l : List String) (room : ℕ) : (strArray l).Fits (room + 2) := by
  simp [strArray]

namespace Impact

variable {a b : Impact}

lemma nodup_members (im : Impact) : (im.members.map Prod.fst).Nodup := by
  rw [members]
  split_ifs <;> simp

lemma fits (im : Impact) : im.toJson.Fits (maxJSONDepth + 1) := by
  refine .obj maxJSONDepth _ im.nodup_members fun m hm => ?_
  have hservices : ∀ l : List ImpactService,
      (Json.arr (l.map ImpactService.toJson)).Fits maxJSONDepth :=
    fits_arr fun s => ImpactService.stringStruct.fits s _
  rcases List.mem_append.1 hm with hm | hm
  · simp only [List.mem_cons, List.not_mem_nil, or_false] at hm
    rcases hm with rfl | rfl | rfl | rfl | rfl | rfl
    · exact fits_arr (fun c => c.fits _) _
    · exact fits_strArray _ _
    · exact hservices _
    · exact hservices _
    · exact fits_strArray _ _
    · exact fits_arr (fun r => Route.stringStruct.fits r _) _
  · split_ifs at hm
    · simp at hm
    · rw [List.mem_singleton.1 hm]
      exact hservices _

lemma mem_removed (im : Impact) :
    ("removed", .arr (im.removed.map ImpactService.toJson)) ∈ im.members := by
  simp [members]

lemma mem_retained (im : Impact) :
    ("retained", .arr (im.retained.map ImpactService.toJson)) ∈ im.members := by
  simp [members]

lemma mem_routes (im : Impact) : ("routes", .arr (im.routes.map Route.toJson)) ∈ im.members := by
  simp [members]

lemma mem_restored {im : Impact} {v : Json GoNum} : ("restored", v) ∈ im.members ↔
    im.restored ≠ [] ∧ v = .arr (im.restored.map ImpactService.toJson) := by
  rw [members]
  split_ifs with hempty <;> simp [hempty]

/-- The restored services are the ones of an alike impact, also when there are none. -/
lemma restored_of_alike (h : a.toJson.Alike b.toJson) : a.restored = b.restored := by
  by_cases ha : a.restored = []
  · by_contra hne
    have hb : b.restored ≠ [] := fun hb => hne (ha.trans hb.symm)
    obtain ⟨v, hv, -⟩ := (h.symm a.fits b.fits).exists_member (mem_restored.2 ⟨hb, rfl⟩)
    exact (mem_restored.1 hv).1 ha
  · obtain ⟨v, hv, halike⟩ := h.exists_member (mem_restored.2 ⟨ha, rfl⟩)
    rw [(mem_restored.1 hv).2] at halike
    exact (alike_arr_map fun _ _ => ImpactService.stringStruct.alike_iff).1 halike

/-- The canonical text determines the services and the routes. -/
lemma of_alike (h : a.toJson.Alike b.toJson) :
    a.removed = b.removed ∧ a.retained = b.retained ∧ a.restored = b.restored ∧
      a.routes = b.routes := by
  have hservices := @alike_arr_map _ ImpactService.toJson fun _ _ => ImpactService.stringStruct.alike_iff
  have hroutes := @alike_arr_map _ Route.toJson fun _ _ => Route.stringStruct.alike_iff
  have hkeys := b.nodup_members
  refine ⟨hservices.1 ?_, hservices.1 ?_, restored_of_alike h, hroutes.1 ?_⟩
  · exact h.member hkeys a.mem_removed b.mem_removed
  · exact h.member hkeys a.mem_retained b.mem_retained
  · exact h.member hkeys a.mem_routes b.mem_routes

/-! ## Impacts with the same members -/

/-- The lists of the two impacts have the same elements, in any order and number. -/
structure SameMembers (a b : Impact) : Prop where
  consumers : ∀ x, x ∈ a.consumers ↔ x ∈ b.consumers
  ownerUserIDs : ∀ x, x ∈ a.ownerUserIDs ↔ x ∈ b.ownerUserIDs
  removed : ∀ x, x ∈ a.removed ↔ x ∈ b.removed
  retained : ∀ x, x ∈ a.retained ↔ x ∈ b.retained
  statementRevisions : ∀ x, x ∈ a.statementRevisions ↔ x ∈ b.statementRevisions
  routes : ∀ x, x ∈ a.routes ↔ x ∈ b.routes
  restored : ∀ x, x ∈ a.restored ↔ x ∈ b.restored

/-- The services and the routes are the same up to order, each as often as in the other. -/
structure Rearranged (a b : Impact) : Prop where
  removed : a.removed.Perm b.removed
  retained : a.retained.Perm b.retained
  restored : a.restored.Perm b.restored
  routes : a.routes.Perm b.routes

end Impact

lemma ImpactConsumer.sortKey_injective : Function.Injective ImpactConsumer.sortKey := by
  intro a b h
  cases a
  cases b
  simpa [sortKey] using h

lemma ImpactService.sortKey_injective : Function.Injective ImpactService.sortKey := by
  intro a b h
  cases a
  cases b
  simpa [sortKey] using h

lemma Route.sortKey_injective : Function.Injective Route.sortKey := by
  intro a b h
  cases a
  cases b
  simp only [sortKey, List.cons.injEq, and_true] at h
  simp only [Route.mk.injEq]
  tauto

namespace Impact

variable {a b : Impact}

/-- Of impacts with the same members, those that come out equal are the rearranged ones. -/
theorem normalized_eq_iff (h : a.SameMembers b) : a.normalized = b.normalized ↔ a.Rearranged b := by
  have hconsumers := (uniq_sortOn_eq_iff ImpactConsumer.sortKey_injective).2 h.consumers
  have howners := sortedUnique_eq_iff.2 h.ownerUserIDs
  have hrevisions := sortedUnique_eq_iff.2 h.statementRevisions
  have hservices : ∀ {l l' : List ImpactService}, sortOn ImpactService.sortKey l =
      sortOn ImpactService.sortKey l' ↔ l.Perm l' :=
    sortOn_eq_iff_perm_of_injective ImpactService.sortKey_injective
  have hroutes : sortRoutes a.routes = sortRoutes b.routes ↔ a.routes.Perm b.routes :=
    sortOn_eq_iff_perm_of_injective Route.sortKey_injective
  simp only [normalized, uniqueConsumers, hconsumers, howners, hrevisions, Impact.mk.injEq,
    hservices, hroutes, true_and]
  constructor
  · rintro ⟨hremoved, hretained, hroutes, hrestored⟩
    exact ⟨hremoved, hretained, hrestored, hroutes⟩
  · intro hperm
    exact ⟨hperm.removed, hperm.retained, hperm.routes, hperm.restored⟩

end Impact

section

variable [Sha256] {a b : Impact}

lemma impactHash_ok (im : Impact) :
    impactHash im = .ok (taggedHash .impact [goText im.normalized.toJson]) := by
  rw [impactHash, hashCanonicalTagged, canonField, canonicalizeValue_of_fits im.normalized.fits]
  rfl

lemma impactHash_of_rearranged (h : a.SameMembers b) (hperm : a.Rearranged b) :
    impactHash a = impactHash b := by
  rw [impactHash_ok, impactHash_ok, (Impact.normalized_eq_iff h).2 hperm]

/-- Under an injective digest the hash tells how often a service or a route stands in an impact. -/
lemma rearranged_of_impactHash_eq (hsum : Function.Injective Sha256.sum)
    (h : impactHash a = impactHash b) : a.Rearranged b := by
  rw [impactHash_ok, impactHash_ok] at h
  have hsep : ∀ im : Impact, ∀ p ∈ [goText im.normalized.toJson], unitSep ∉ p := fun im =>
    no_sep_goText [im.normalized.toJson]
  have htext := taggedHash_inj hsum (hsep a) (hsep b) (Except.ok.inj h)
  have halike := (goText_eq_iff a.normalized.fits b.normalized.fits).1 (List.cons.inj htext).1
  obtain ⟨hremoved, hretained, hrestored, hroutes⟩ := Impact.of_alike halike
  refine ⟨?_, ?_, ?_, ?_⟩
  · exact perm_of_sortOn_eq hremoved
  · exact perm_of_sortOn_eq hretained
  · exact perm_of_sortOn_eq hrestored
  · exact perm_of_sortOn_eq hroutes

end

end AuthSec

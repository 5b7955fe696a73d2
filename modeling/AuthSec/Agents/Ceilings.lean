import Mathlib.Data.Finset.Basic
import Mathlib.Data.List.Dedup
import AuthSec.Go.Collections
import AuthSec.Lib.Least

/-!
# Ceilings of agent policies

Every policy that covers an agent may name a ceiling role and a ceiling of scopes; `Effective`
resolves them into one state.

* `narrowestRole_order_free`: the role is the same in every order of the policies exactly when no
  two candidates are incomparable beside one that is below all.

Ids are their texts.  What the database answers is a parameter.
-/

namespace AuthSec

open List

/-! ## Permissions of roles -/

inductive CeilingErr
  | message (text : String)
  /-- `ids[0]` of an empty slice. -/
  | indexOutOfRange
deriving DecidableEq

/-- The rows of `role_permissions` that a query for a role gives. -/
abbrev RolePermissions := String → Except String (List String)

def rolePermissionIDs (db : RolePermissions) (roleID : String) : Except CeilingErr (Finset String) :=
  match db roleID with
  | .error e => .error (.message ("read permissions for role " ++ roleID ++ ": " ++ e))
  | .ok ids => .ok ids.toFinset

/-- `notSubset`; in Go a slice in no particular order. -/
def notSubset (candidate held : Finset String) : Finset String :=
  candidate \ held

lemma card_notSubset_eq_zero {candidate held : Finset String} :
    (notSubset candidate held).card = 0 ↔ candidate ≤ held := by
  rw [notSubset, Finset.card_eq_zero, Finset.sdiff_eq_empty_iff_subset]

/-! ## The narrowest role -/

/-- What `narrowestRole` answers when nothing fails. -/
inductive Narrowest
  | role (id : String)
  | ambiguous (text : String)
deriving DecidableEq

/-- The permissions of each candidate, read once. -/
def readPermissions (db : RolePermissions) :
    List String → GoMap (Finset String) → Except CeilingErr (GoMap (Finset String))
  | [], perms => .ok perms
  | id :: ids, perms =>
      if (perms.get? id).isSome then readPermissions db ids perms
      else do
        let p ← rolePermissionIDs db id
        readPermissions db ids (perms.insert id p)

def incomparable (best id : String) : String :=
  "role ceilings " ++ best ++ " and " ++ id ++
    " are incomparable — neither grants a subset of the other, so no ceiling was applied. " ++
    "Resolve the overlap before either can take effect"

/-- `narrowestRole`, from the permissions that were read. -/
def narrowestOf (perms : String → Finset String) (best : String) : List String → Narrowest
  | [] => .role best
  | id :: ids =>
      if id = best then narrowestOf perms best ids
      else if (notSubset (perms id) (perms best)).card = 0 then narrowestOf perms id ids
      else if (notSubset (perms best) (perms id)).card = 0 then narrowestOf perms best ids
      else .ambiguous (incomparable best id)

def narrowestRole (db : RolePermissions) (ids : List String) : Except CeilingErr Narrowest := do
  let perms ← readPermissions db ids ∅
  match ids with
  | [] => .error .indexOutOfRange
  | best :: _ => .ok (narrowestOf (fun id => (perms.get? id).getD ∅) best ids)

/-- The loop is the scan for a least set of permissions. -/
lemma narrowestOf_eq_scanLeast (perms : String → Finset String) (best : String)
    (ids : List String) :
    narrowestOf perms best ids = match scanLeast perms best ids with
      | .ok m => .role m
      | .error (b, a) => .ambiguous (incomparable b a) := by
  induction ids generalizing best with
  | nil => rfl
  | cons id ids ih =>
      rw [narrowestOf, scanLeast, foldlM_cons, closer]
      simp only [card_notSubset_eq_zero]
      split_ifs with heq hle hle'
      · exact ih best
      · exact ih id
      · exact ih best
      · rfl

section Reads

variable {db : RolePermissions}

lemma readPermissions_of_ok {ps : String → List String} (hdb : ∀ id, db id = .ok (ps id))
    (ids : List String) (perms : GoMap (Finset String))
    (hperms : ∀ id p, perms.get? id = some p → p = (ps id).toFinset) :
    ∃ perms', readPermissions db ids perms = .ok perms' ∧
      (∀ id, (id ∈ ids ∨ (perms.get? id).isSome) → perms'.get? id = some (ps id).toFinset) := by
  induction ids generalizing perms with
  | nil =>
      refine ⟨perms, rfl, fun id hid => ?_⟩
      rcases hid with hid | hid
      · exact absurd hid not_mem_nil
      · obtain ⟨p, hp⟩ := Option.isSome_iff_exists.1 hid
        rw [hp, hperms id p hp]
  | cons id ids ih =>
      rw [readPermissions]
      split_ifs with hseen
      · obtain ⟨perms', hread, hall⟩ := ih perms hperms
        refine ⟨perms', hread, fun id' hid' => hall id' ?_⟩
        rcases hid' with hid' | hid'
        · rcases mem_cons.1 hid' with rfl | hid'
          · exact .inr hseen
          · exact .inl hid'
        · exact .inr hid'
      · rw [rolePermissionIDs, hdb id]
        obtain ⟨perms', hread, hall⟩ := ih (perms.insert id (ps id).toFinset) (by
          intro id' p hp
          by_cases hid : id' = id
          · subst hid
            rw [GoMap.get?_insert] at hp
            exact (Option.some.inj hp).symm
          · rw [GoMap.get?_insert_ne _ _ hid] at hp
            exact hperms id' p hp)
        refine ⟨perms', hread, fun id' hid' => hall id' ?_⟩
        by_cases hid : id' = id
        · subst hid
          exact .inr (by rw [GoMap.get?_insert]; rfl)
        · rw [GoMap.get?_insert_ne _ _ hid]
          simpa [hid] using hid'

lemma narrowestOf_congr {perms perms' : String → Finset String} {best : String}
    {ids : List String} (h : ∀ id ∈ best :: ids, perms id = perms' id) :
    narrowestOf perms best ids = narrowestOf perms' best ids := by
  induction ids generalizing best with
  | nil => rfl
  | cons id ids ih =>
      have hbest := h best mem_cons_self
      have hid := h id (by simp)
      have hrest : ∀ {b}, perms b = perms' b → narrowestOf perms b ids = narrowestOf perms' b ids :=
        fun hb => ih fun id' hid' => by
          rcases mem_cons.1 hid' with rfl | hid'
          · exact hb
          · exact h id' (by simp [hid'])
      rw [narrowestOf, narrowestOf, hbest, hid, hrest hbest, hrest hid]

/-- With a database that answers, only the permissions of the candidates matter. -/
lemma narrowestRole_cons (ps : String → List String) (best : String) (ids : List String) :
    narrowestRole (fun id => .ok (ps id)) (best :: ids) =
      .ok (narrowestOf (fun id => (ps id).toFinset) best (best :: ids)) := by
  obtain ⟨perms, hread, hall⟩ := readPermissions_of_ok (fun _ => rfl) (best :: ids) ∅ (by simp)
  rw [narrowestRole, hread]
  refine congrArg Except.ok (narrowestOf_congr fun id hid => ?_)
  rw [hall id (.inl (by simpa using hid))]
  rfl

end Reads

section Order

variable (ps : String → List String)

/-- The permissions of the role that was chosen, if one was. -/
def Narrowest.permissions : Narrowest → Option (Finset String)
  | .role id => some (ps id).toFinset
  | .ambiguous _ => none

/-- The role grants nothing that one of the candidates does not grant. -/
def NarrowestAmong (ids : List String) (id : String) : Prop :=
  id ∈ ids ∧ ∀ id' ∈ ids, (ps id).toFinset ⊆ (ps id').toFinset

/-- The answer does not depend on the order of the candidates, is one that grants no more than any
other whenever there is one, and says that it is ambiguous whenever there is none. -/
structure OrderFree (ids : List String) : Prop where
  same : ∀ ids', ids'.Perm ids →
    (narrowestRole (fun id => .ok (ps id)) ids').map (Narrowest.permissions ps) =
      (narrowestRole (fun id => .ok (ps id)) ids).map (Narrowest.permissions ps)
  narrowest : (∃ id, NarrowestAmong ps ids id) →
    ∃ id, narrowestRole (fun id => .ok (ps id)) ids = .ok (.role id) ∧ NarrowestAmong ps ids id
  ambiguous : (¬ ∃ id, NarrowestAmong ps ids id) →
    ∃ text, narrowestRole (fun id => .ok (ps id)) ids = .ok (.ambiguous text)

variable {ps} {ids : List String}

lemma NarrowestAmong.perm {ids' : List String} {id : String} (h : NarrowestAmong ps ids id)
    (hperm : ids'.Perm ids) : NarrowestAmong ps ids' id :=
  ⟨hperm.mem_iff.2 h.1, fun id' hid' => h.2 id' (hperm.mem_iff.1 hid')⟩

/-- A role that is chosen is a narrowest one. -/
lemma narrowestRole_eq_role {id : String}
    (h : narrowestRole (fun id => .ok (ps id)) ids = .ok (.role id)) :
    NarrowestAmong ps ids id := by
  cases ids with
  | nil => exact absurd h (by simp [narrowestRole, readPermissions])
  | cons best ids =>
      rw [narrowestRole_cons, narrowestOf_eq_scanLeast] at h
      cases hscan : scanLeast (fun id => (ps id).toFinset) best (best :: ids) with
      | error e => simp [hscan] at h
      | ok m =>
          obtain rfl : m = id := by simpa [hscan] using h
          obtain ⟨hmem, hle⟩ := scanLeast_eq_ok hscan
          exact ⟨by simpa using hmem, fun id' hid' => hle id' (List.mem_cons_of_mem _ hid')⟩

/-- Where two candidates are called incomparable they are. -/
lemma narrowestRole_eq_ambiguous {text : String}
    (h : narrowestRole (fun id => .ok (ps id)) ids = .ok (.ambiguous text)) :
    ∃ a ∈ ids, ∃ b ∈ ids, ¬ (ps a).toFinset ⊆ (ps b).toFinset ∧
      ¬ (ps b).toFinset ⊆ (ps a).toFinset := by
  cases ids with
  | nil => exact absurd h (by simp [narrowestRole, readPermissions])
  | cons best ids =>
      rw [narrowestRole_cons, narrowestOf_eq_scanLeast] at h
      cases hscan : scanLeast (fun id => (ps id).toFinset) best (best :: ids) with
      | ok m => simp [hscan] at h
      | error e =>
          obtain ⟨hb, ha, hinc⟩ := scanLeast_eq_error (b := e.1) (a := e.2) hscan
          exact ⟨e.2, by simpa using ha, e.1, by simpa using hb, hinc⟩

/-- Something is answered for every candidates there are. -/
lemma narrowestRole_ok (ps : String → List String) (h : ids ≠ []) :
    ∃ ans, narrowestRole (fun id => .ok (ps id)) ids = .ok ans := by
  cases ids with
  | nil => exact absurd rfl h
  | cons best ids => exact ⟨_, narrowestRole_cons ps best ids⟩

/-- Two incomparable candidates, in the order that compares them first. -/
lemma exists_perm_ambiguous {a b : String} (ha : a ∈ ids) (hb : b ∈ ids)
    (hab : ¬ (ps a).toFinset ⊆ (ps b).toFinset) (hba : ¬ (ps b).toFinset ⊆ (ps a).toFinset) :
    ∃ ids' text, ids'.Perm ids ∧
      narrowestRole (fun id => .ok (ps id)) ids' = .ok (.ambiguous text) := by
  have hne : b ≠ a := by
    rintro rfl
    exact hab (subset_refl _)
  have hmem : b ∈ ids.erase a := (mem_erase_of_ne hne).2 hb
  refine ⟨a :: b :: (ids.erase a).erase b, incomparable a b, ?_, ?_⟩
  · exact ((perm_cons_erase hmem).symm.cons a).trans (perm_cons_erase ha).symm
  · rw [narrowestRole_cons, narrowestOf, if_pos rfl, narrowestOf_eq_scanLeast,
      scanLeast_incomparable (f := fun id => (ps id).toFinset) hab hba]

/-- All candidates can be compared. -/
def Comparable (ps : String → List String) (ids : List String) : Prop :=
  ∀ a ∈ ids, ∀ b ∈ ids, (ps a).toFinset ⊆ (ps b).toFinset ∨ (ps b).toFinset ⊆ (ps a).toFinset

lemma narrowestRole_of_comparable (hne : ids ≠ []) (h : Comparable ps ids) :
    ∃ id, narrowestRole (fun id => .ok (ps id)) ids = .ok (.role id) := by
  obtain ⟨ans, hans⟩ := narrowestRole_ok ps hne
  cases ans with
  | role id => exact ⟨id, hans⟩
  | ambiguous text =>
      obtain ⟨a, ha, b, hb, hab, hba⟩ := narrowestRole_eq_ambiguous hans
      rcases h a ha b hb with hle | hle
      · exact absurd hle hab
      · exact absurd hle hba

lemma narrowestRole_of_none (hne : ids ≠ []) (h : ¬ ∃ id, NarrowestAmong ps ids id) :
    ∃ text, narrowestRole (fun id => .ok (ps id)) ids = .ok (.ambiguous text) := by
  obtain ⟨ans, hans⟩ := narrowestRole_ok ps hne
  cases ans with
  | role id => exact absurd ⟨id, narrowestRole_eq_role hans⟩ h
  | ambiguous text => exact ⟨text, hans⟩

/-- Where candidates can be compared, every order gives a narrowest one. -/
lemma OrderFree.of_comparable (hne : ids ≠ []) (h : Comparable ps ids) : OrderFree ps ids := by
  obtain ⟨id, hid⟩ := narrowestRole_of_comparable hne h
  have hmin := narrowestRole_eq_role hid
  refine ⟨fun ids' hperm => ?_, fun _ => ⟨id, hid, hmin⟩, fun hnone => absurd ⟨id, hmin⟩ hnone⟩
  obtain ⟨id', hid'⟩ := narrowestRole_of_comparable
    (fun hnil => hne (nil_perm.1 (hnil ▸ hperm)))
    fun a ha b hb => h a (hperm.mem_iff.1 ha) b (hperm.mem_iff.1 hb)
  have hmin' := (narrowestRole_eq_role hid').perm hperm.symm
  rw [hid', hid]
  exact congrArg (fun s => Except.ok (some s))
    (subset_antisymm (hmin'.2 id hmin.1) (hmin.2 id' hmin'.1))

/-- Where none is narrowest, every order is ambiguous. -/
lemma OrderFree.of_none (hne : ids ≠ []) (h : ¬ ∃ id, NarrowestAmong ps ids id) :
    OrderFree ps ids := by
  obtain ⟨text, htext⟩ := narrowestRole_of_none hne h
  refine ⟨fun ids' hperm => ?_, fun hex => absurd hex h, fun _ => ⟨text, htext⟩⟩
  obtain ⟨text', htext'⟩ := narrowestRole_of_none
    (fun hnil => hne (nil_perm.1 (hnil ▸ hperm)))
    fun ⟨id, hid⟩ => h ⟨id, hid.perm hperm.symm⟩
  rw [htext', htext]
  rfl

/-- The answer is free of the order exactly when there is a candidate and, where one of them is
narrowest, all of them are comparable. -/
theorem narrowestRole_order_free (ps : String → List String) (ids : List String) :
    OrderFree ps ids ↔
      ids ≠ [] ∧ ((∃ id, NarrowestAmong ps ids id) → Comparable ps ids) := by
  constructor
  · rintro ⟨hsame, hnarrow, hamb⟩
    refine ⟨?_, fun hex a ha b hb => ?_⟩
    · rintro rfl
      obtain ⟨text, htext⟩ := hamb (by simp [NarrowestAmong])
      exact absurd htext (by simp [narrowestRole, readPermissions])
    · by_contra hinc
      rw [not_or] at hinc
      obtain ⟨ids', text, hperm, htext⟩ := exists_perm_ambiguous ha hb hinc.1 hinc.2
      obtain ⟨id, hid, -⟩ := hnarrow hex
      have heq := hsame ids' hperm
      rw [htext, hid] at heq
      exact absurd (Except.ok.inj heq) (by simp [Narrowest.permissions])
  · rintro ⟨hne, hcomp⟩
    by_cases hex : ∃ id, NarrowestAmong ps ids id
    · exact .of_comparable hne (hcomp hex)
    · exact .of_none hne hex

/-- A reader, a writer, and a role that grants nothing: in this order they are called incomparable,
and with the last one first it is the answer. -/
theorem narrowestRole_depends_on_order : ¬ OrderFree
    (fun id => if id = "reader" then ["read"] else if id = "writer" then ["write"] else [])
    ["reader", "writer", "none"] := by
  intro h
  have heq := h.same ["none", "reader", "writer"] (by decide)
  exact absurd heq (by decide)

end Order

/-! ## The ceiling of scopes -/

/-- In how many ceilings a scope stands. -/
def scopeCounts (sets : List (List String)) : GoMap ℕ :=
  sets.foldl (fun counts s => s.dedup.foldl
    (fun counts v => counts.insert v ((counts.get? v).getD 0 + 1)) counts) ∅

/-- `intersectScopes`. -/
def intersectScopes (sets : List (List String)) : List String :=
  ((scopeCounts sets).sortedPairs.filter fun e => e.2 = sets.length).map Prod.fst

/-- The count of one more ceiling, whose scopes are distinct. -/
lemma get?_foldl_bump (s : List String) (hs : s.Nodup) (counts : GoMap ℕ) (v : String) :
    (s.foldl (fun counts v => counts.insert v ((counts.get? v).getD 0 + 1)) counts).get? v =
      if v ∈ s then some ((counts.get? v).getD 0 + 1) else counts.get? v := by
  induction s generalizing counts with
  | nil => rfl
  | cons u s ih =>
      obtain ⟨hu, hs⟩ := nodup_cons.1 hs
      rw [foldl_cons, ih hs]
      by_cases hv : v = u
      · subst hv
        simp [hu]
      · simp [hv, GoMap.get?_insert_ne]

lemma get?_scopeCounts (sets : List (List String)) (v : String) :
    (scopeCounts sets).get? v =
      if sets.countP (v ∈ ·) = 0 then none else some (sets.countP (v ∈ ·)) := by
  induction sets using List.reverseRecOn with
  | nil => rfl
  | append_singleton sets s ih =>
      rw [scopeCounts, foldl_append, foldl_cons, foldl_nil, ← scopeCounts,
        get?_foldl_bump _ s.nodup_dedup, ih, countP_append, countP_singleton]
      by_cases hv : v ∈ s <;> by_cases hzero : sets.countP (v ∈ ·) = 0 <;> simp [hv, hzero]

/-- A scope is in the result when it is in every ceiling. -/
lemma mem_intersectScopes {sets : List (List String)} (hne : sets ≠ []) (v : String) :
    v ∈ intersectScopes sets ↔ ∀ s ∈ sets, v ∈ s := by
  have hlen : sets.length ≠ 0 := fun h => hne (length_eq_zero_iff.1 h)
  have hall : sets.countP (v ∈ ·) = sets.length ↔ ∀ s ∈ sets, v ∈ s := by
    simp [countP_eq_length]
  rw [intersectScopes, mem_map, ← hall]
  constructor
  · rintro ⟨⟨u, n⟩, he, rfl⟩
    obtain ⟨hmem, hn⟩ := mem_filter.1 he
    rw [GoMap.mem_sortedPairs, get?_scopeCounts] at hmem
    split_ifs at hmem with hzero
    rw [Option.some.inj hmem]
    exact of_decide_eq_true hn
  · intro hcount
    refine ⟨(v, sets.length), mem_filter.2 ⟨?_, by simp⟩, rfl⟩
    rw [GoMap.mem_sortedPairs, get?_scopeCounts, hcount, if_neg hlen]

/-! ## The effective policy -/

def agentPolicyStateActive : String := "active"
def agentPolicyStateQuarantined : String := "quarantined"

/-- `AgentPolicy`: what `Effective` reads of it. -/
structure AgentPolicy where
  id : String
  desiredState : String
  scopeCeiling : List String
  roleCeilingID : Option String
deriving DecidableEq

structure EffectivePolicy where
  agentID : String
  desiredState : String
  scopeCeiling : Option (List String)
  roleCeilingID : Option String
  ambiguous : String
  policyIDs : List String
deriving DecidableEq

/-- The policies that cover the agent; one with a broken selector covers nobody. -/
def covering (expand : AgentPolicy → Except String (List String)) (agentID : String)
    (policies : List AgentPolicy) : List AgentPolicy :=
  policies.filter fun p =>
    match expand p with
    | .ok agents => agents.contains agentID
    | .error _ => false

/-- The most restrictive state that a policy asks for. -/
def desiredStateOf (policies : List AgentPolicy) : String :=
  if policies.any fun p => p.desiredState = agentPolicyStateQuarantined then
    agentPolicyStateQuarantined
  else agentPolicyStateActive

/-- The scopes that every ceiling leaves, if there is one. -/
def scopeCeilingOf (policies : List AgentPolicy) : Option (List String) :=
  let ceilings := (policies.map (·.scopeCeiling)).filter (· ≠ [])
  if ceilings = [] then none else some (intersectScopes ceilings)

/-- The role that no ceiling is narrower than, or why there is none. -/
def roleCeilingOf (db : RolePermissions) (policies : List AgentPolicy) :
    Except CeilingErr (Option String × String) := do
  let roleCeilings := policies.filterMap (·.roleCeilingID)
  if roleCeilings = [] then return (none, "")
  else
    match ← narrowestRole db roleCeilings with
    | .ambiguous text => return (none, text)
    | .role id => return (some id, "")

/-- `Effective`, from the policies of the workspace that are enabled. -/
def effective (db : RolePermissions) (expand : AgentPolicy → Except String (List String))
    (policies : List AgentPolicy) (agentID : String) : Except CeilingErr EffectivePolicy := do
  let covered := covering expand agentID policies
  let (roleCeilingID, ambiguous) ← roleCeilingOf db covered
  return { agentID, desiredState := desiredStateOf covered, scopeCeiling := scopeCeilingOf covered,
           roleCeilingID, ambiguous, policyIDs := covered.map (·.id) }

end AuthSec

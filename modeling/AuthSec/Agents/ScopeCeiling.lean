import AuthSec.Agents.Ceilings
import AuthSec.Go.Strings

/-!
# Scopes beyond the ceiling

`Reconcile` compares the scopes that an agent holds with the scopes that every ceiling of its
policies leaves, and reports those beyond.  It takes an intersection without scopes for no ceiling.

* `mem_reportedScopes`: when a scope is reported;
* `reportedScopes_insert_iff`: a further policy takes nothing from the report, and disjoint ceilings
  report everything, exactly when no ceilings are disjoint and the ceilings still leave a scope
  where one was reported before.
-/

namespace AuthSec

/-- `DiscoveredAgent`: what the evaluation reads of it. -/
structure DiscoveredAgent where
  id : String
  matchedClientID : Option String
deriving DecidableEq

/-- The scopes that a query for a client gives. -/
abbrev HeldScopes := String → Except String (List String)

/-- `evaluateScopeCeiling`. -/
def evaluateScopeCeiling (db : HeldScopes) (agent : DiscoveredAgent) (allowed : List String) :
    Except CeilingErr (List String) :=
  match allowed, agent.matchedClientID with
  | [], _ => .ok []
  | _, none => .ok []
  | allowed, some client =>
      match db client with
      | .error e => .error (.message ("resolve held scopes for agent " ++ agent.id ++ ": " ++ e))
      | .ok held => .ok (held.filter fun s => !(allowed.map trimSpace).contains s)

/-- The round of `Reconcile` for an agent, up to the scopes that it reports.  Ambiguous role
ceilings end the round before. -/
def reconcileScopes (roles : RolePermissions) (db : HeldScopes)
    (expand : AgentPolicy → Except String (List String)) (agent : DiscoveredAgent)
    (policies : List AgentPolicy) : Except CeilingErr (List String) := do
  let eff ← effective roles expand policies agent.id
  if eff.ambiguous ≠ "" then return []
  else
    match eff.scopeCeiling.getD [] with
    | [] => return []
    | allowed => evaluateScopeCeiling db agent allowed

section

variable (roles : RolePermissions) (held : String → List String)
  (expand : AgentPolicy → Except String (List String)) (agent : DiscoveredAgent)

/-- The scopes that a round reports, with a database that answers what each client holds; a round
that fails reports none. -/
def reportedScopes (policies : List AgentPolicy) : List String :=
  ((reconcileScopes roles (fun client => .ok (held client)) expand agent policies).toOption).getD []

/-- The scopes of the client that the agent was matched with. -/
def DiscoveredAgent.heldScopes : List String :=
  (agent.matchedClientID.map held).getD []

/-! ## Ceilings -/

/-- The ceilings of scopes that policies name. -/
def scopeCeilings (policies : List AgentPolicy) : List (List String) :=
  (policies.map (·.scopeCeiling)).filter (· ≠ [])

/-- There are ceilings, and a scope that is in all of them. -/
def LeavesScope (policies : List AgentPolicy) : Prop :=
  scopeCeilings policies ≠ [] ∧ ∃ v, ∀ c ∈ scopeCeilings policies, v ∈ c

/-- Two of the ceilings have no scope in common. -/
def DisjointCeilings (policies : List AgentPolicy) : Prop :=
  ∃ c ∈ scopeCeilings policies, ∃ d ∈ scopeCeilings policies, c.Disjoint d

/-- The role ceilings have a narrowest one, if there are any. -/
def RolesResolve (policies : List AgentPolicy) : Prop :=
  ∃ role, roleCeilingOf roles policies = .ok (role, "")

/-- No scope in all of the ceilings is the given one. -/
def BeyondCeilings (policies : List AgentPolicy) (s : String) : Prop :=
  ∀ v, (∀ c ∈ scopeCeilings policies, v ∈ c) → trimSpace v ≠ s

variable {roles held expand agent} {policies : List AgentPolicy} {s : String}

lemma mem_scopeCeilings {c : List String} :
    c ∈ scopeCeilings policies ↔ (∃ p ∈ policies, p.scopeCeiling = c) ∧ c ≠ [] := by
  simp [scopeCeilings]

lemma scopeCeilings_subset {policies' : List AgentPolicy} (h : policies ⊆ policies') :
    scopeCeilings policies ⊆ scopeCeilings policies' := by
  intro c hc
  obtain ⟨⟨p, hp, rfl⟩, hne⟩ := mem_scopeCeilings.1 hc
  exact mem_scopeCeilings.2 ⟨⟨p, h hp, rfl⟩, hne⟩

/-- More ceilings leave fewer scopes. -/
lemma BeyondCeilings.mono {policies' : List AgentPolicy} (hs : BeyondCeilings policies s)
    (h : policies ⊆ policies') : BeyondCeilings policies' s :=
  fun v hv => hs v fun c hc => hv c (scopeCeilings_subset h hc)

lemma DisjointCeilings.not_leavesScope (h : DisjointCeilings policies) : ¬LeavesScope policies := by
  rintro ⟨-, v, hv⟩
  obtain ⟨c, hc, d, hd, hdisj⟩ := h
  exact hdisj (hv c hc) (hv d hd)

/-- The intersection is not empty when the ceilings leave a scope. -/
lemma scopeCeilingOf_ne_nil (policies : List AgentPolicy) :
    (scopeCeilingOf policies).getD [] ≠ [] ↔ LeavesScope policies := by
  rw [scopeCeilingOf, ← scopeCeilings, LeavesScope]
  split_ifs with hne
  · simp [hne]
  · rw [Option.getD_some, ne_eq, List.eq_nil_iff_forall_not_mem, not_forall_not]
    simp only [mem_intersectScopes hne, ne_eq, hne, not_false_eq_true, true_and]

lemma mem_scopeCeilingOf (h : LeavesScope policies) {v : String} :
    v ∈ (scopeCeilingOf policies).getD [] ↔ ∀ c ∈ scopeCeilings policies, v ∈ c := by
  rw [scopeCeilingOf, ← scopeCeilings, if_neg h.1, Option.getD_some, mem_intersectScopes h.1]

/-! ## What is reported -/

lemma mem_evaluateScopeCeiling {allowed : List String} (hne : allowed ≠ []) :
    s ∈ ((evaluateScopeCeiling (fun client => .ok (held client)) agent allowed).toOption).getD [] ↔
      s ∈ agent.heldScopes held ∧ ∀ v ∈ allowed, trimSpace v ≠ s := by
  rw [evaluateScopeCeiling.eq_def, DiscoveredAgent.heldScopes]
  cases agent.matchedClientID with
  | none => cases allowed <;> simp [Except.toOption]
  | some client =>
      cases allowed with
      | nil => exact absurd rfl hne
      | cons v vs => simp [Except.toOption, @eq_comm _ s (trimSpace v)]

/-- A scope is reported when it is held and the ceilings leave some scope, but not this one. -/
lemma mem_reportedScopes :
    s ∈ reportedScopes roles held expand agent policies ↔
      s ∈ agent.heldScopes held ∧ RolesResolve roles (covering expand agent.id policies) ∧
        LeavesScope (covering expand agent.id policies) ∧
        BeyondCeilings (covering expand agent.id policies) s := by
  rw [reportedScopes, reconcileScopes, effective, RolesResolve]
  cases hrole : roleCeilingOf roles (covering expand agent.id policies) with
  | error e => simp [bind, Except.bind, Except.toOption]
  | ok out =>
      obtain ⟨role, ambiguous⟩ := out
      simp only [ok_bind, pure_eq_ok]
      by_cases hamb : ambiguous = ""
      · rw [if_neg (not_not.2 hamb)]
        by_cases hleaves : LeavesScope (covering expand agent.id policies)
        · have hne := (scopeCeilingOf_ne_nil _).2 hleaves
          split
          · exact absurd ‹_› hne
          · rw [mem_evaluateScopeCeiling hne]
            simp only [mem_scopeCeilingOf hleaves, hleaves, BeyondCeilings, hamb, true_and,
              Except.ok.injEq, Prod.mk.injEq, and_true, exists_eq']
        · have hnil := not_not.1 (mt (scopeCeilingOf_ne_nil _).1 hleaves)
          simp [hnil, hleaves, Except.toOption]
      · rw [if_pos hamb]
        simp [hamb, Except.toOption]

/-- A further policy takes nothing from the report, and disjoint ceilings report every scope, exactly
when no two ceilings are disjoint while a scope is held, and the ceilings leave a scope, with role
ceilings that resolve, wherever a held scope was beyond ceilings that left one. -/
theorem reportedScopes_insert_iff {before after : List AgentPolicy} {p : AgentPolicy} :
    ((∀ s ∈ reportedScopes roles held expand agent (before ++ after),
        s ∈ reportedScopes roles held expand agent (before ++ p :: after)) ∧
      (DisjointCeilings (covering expand agent.id (before ++ p :: after)) →
        ∀ s ∈ agent.heldScopes held,
          s ∈ reportedScopes roles held expand agent (before ++ p :: after))) ↔
    ∀ s ∈ agent.heldScopes held,
      ¬DisjointCeilings (covering expand agent.id (before ++ p :: after)) ∧
      (RolesResolve roles (covering expand agent.id (before ++ after)) →
        LeavesScope (covering expand agent.id (before ++ after)) →
        BeyondCeilings (covering expand agent.id (before ++ after)) s →
        RolesResolve roles (covering expand agent.id (before ++ p :: after)) ∧
          LeavesScope (covering expand agent.id (before ++ p :: after))) := by
  have hsub : covering expand agent.id (before ++ after) ⊆
      covering expand agent.id (before ++ p :: after) :=
    ((List.sublist_cons_self p after).append_left before).filter _ |>.subset
  simp only [mem_reportedScopes]
  constructor
  · rintro ⟨hmono, hdisjoint⟩ s hs
    refine ⟨fun hd => hd.not_leavesScope (hdisjoint hd s hs).2.2.1, fun hroles hleaves hbeyond => ?_⟩
    obtain ⟨-, hroles', hleaves', -⟩ := hmono s ⟨hs, hroles, hleaves, hbeyond⟩
    exact ⟨hroles', hleaves'⟩
  · intro h
    refine ⟨?_, fun hd s hs => absurd hd (h s hs).1⟩
    rintro s ⟨hs, hroles, hleaves, hbeyond⟩
    obtain ⟨hroles', hleaves'⟩ := (h s hs).2 hroles hleaves hbeyond
    exact ⟨hs, hroles', hleaves', hbeyond.mono hsub⟩

end

/-! ## Examples -/

/-- A policy with a ceiling of scopes only. -/
def scopePolicy (id : String) (scopes : List String) : AgentPolicy where
  id := id
  desiredState := agentPolicyStateActive
  scopeCeiling := scopes
  roleCeilingID := none

/-- An agent that holds `admin` is reported under a ceiling of `read`, and no longer under ceilings
of `read` and of `write`. -/
theorem reportedScopes_disjoint :
    reportedScopes (fun _ => .ok []) (fun _ => ["admin"]) (fun _ => .ok ["agent"])
        ⟨"agent", some "client"⟩ [scopePolicy "p" ["read"]] = ["admin"] ∧
      reportedScopes (fun _ => .ok []) (fun _ => ["admin"]) (fun _ => .ok ["agent"])
        ⟨"agent", some "client"⟩ [scopePolicy "p" ["read"], scopePolicy "q" ["write"]] = [] := by
  decide +kernel

end AuthSec

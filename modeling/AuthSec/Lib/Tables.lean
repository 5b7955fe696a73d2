import Mathlib.Data.List.Pairwise
import AuthSec.Lib.Except

/-!
# Tables under constraints

A table of a database as the list of its rows, with the constraints the database enforces on every
statement: triggers before a row is inserted or updated, checks on a row, and unique indexes.  A
statement that breaks a constraint changes nothing.

* `Schema.insert_eq_ok`, `Schema.update_eq_ok`: when a statement goes through, and what it leaves;
* `Schema.Valid`: no statement leaves a table that breaks a check or an index;
* `Follows`: what becomes of the rows that are there, from one table to a later one.
-/

namespace AuthSec

open List

variable {ρ : Type}

/-- A unique index: no two rows of a table clash. -/
structure UniqueIndex (ρ : Type) where
  name : String
  clash : ρ → ρ → Bool
  symm : ∀ r r', clash r r' = clash r' r

/-- The index on the rows that have a key, by their key. -/
def UniqueIndex.on {κ : Type} [DecidableEq κ] (name : String) (key : ρ → Option κ) :
    UniqueIndex ρ where
  name
  clash r r' := (key r).isSome && decide (key r = key r')
  symm r r' := by
    by_cases h : key r = key r'
    · rw [h]
    · simp [h, Ne.symm h]

lemma UniqueIndex.clash_on {κ : Type} [DecidableEq κ] {name : String} {key : ρ → Option κ}
    {r r' : ρ} {k : κ} (h : key r = some k) (h' : key r' = some k) :
    (UniqueIndex.on name key).clash r r' = true := by
  simp [UniqueIndex.on, h, h']

/-- Rows that keep their key, or lose it, clash no more than they did. -/
lemma UniqueIndex.clash_on_map {κ : Type} [DecidableEq κ] {name : String} {key : ρ → Option κ}
    {g : ρ → ρ} (hg : ∀ r, key (g r) = key r ∨ key (g r) = none) {r r' : ρ}
    (h : (UniqueIndex.on name key).clash r r' = false) :
    (UniqueIndex.on name key).clash (g r) (g r') = false := by
  simp only [UniqueIndex.on, Bool.and_eq_false_imp, decide_eq_false_iff_not] at h ⊢
  intro hsome heq
  rcases hg r with hr | hr
  · rcases hg r' with hr' | hr'
    · exact h (hr ▸ hsome) (by rw [← hr, ← hr', heq])
    · rw [heq, hr'] at hsome
      exact absurd hsome (by simp)
  · rw [hr] at hsome
    exact absurd hsome (by simp)

/-- The constraints of a table. -/
structure Schema (ρ : Type) where
  /-- The trigger before an insert lets the row pass. -/
  insertable : ρ → Bool
  /-- The trigger before an update lets the old row become the new one. -/
  updatable : ρ → ρ → Bool
  check : ρ → Bool
  unique : List (UniqueIndex ρ)

/-- Why a statement is refused. -/
inductive Violation
  | trigger
  | check
  | unique (index : String)
deriving DecidableEq

/-- The first index that is broken refuses the statement. -/
def UniqueIndex.refuse (unique : List (UniqueIndex ρ)) (broken : UniqueIndex ρ → Bool) :
    Except Violation Unit :=
  match unique.find? broken with
  | some u => .error (.unique u.name)
  | none => .ok ()

lemma UniqueIndex.refuse_map_eq_ok {unique : List (UniqueIndex ρ)}
    {broken : UniqueIndex ρ → Bool} {α : Type} {a b : α} :
    (refuse unique broken).map (fun _ => a) = .ok b ↔
      (∀ u ∈ unique, broken u = false) ∧ a = b := by
  unfold refuse
  cases hfind : unique.find? broken with
  | some u =>
      simp only [except_map_error, reduceCtorEq, false_iff, not_and]
      intro hfree
      have hbroken := find?_some hfind
      rw [hfree u (mem_of_find?_eq_some hfind)] at hbroken
      exact absurd hbroken (by simp)
  | none =>
      have hfree : ∀ u ∈ unique, broken u = false := by simpa using hfind
      simpa using fun _ => hfree

namespace Schema

variable (S : Schema ρ)

def insert (rows : List ρ) (r : ρ) : Except Violation (List ρ) :=
  if S.insertable r then
    if S.check r then
      (UniqueIndex.refuse S.unique fun u => rows.any (u.clash r)).map fun _ => rows ++ [r]
    else .error .check
  else .error .trigger

/-- The rows after `set` has been applied to those that `which` selects. -/
def updated (rows : List ρ) (which : ρ → Bool) (set : ρ → ρ) : List ρ :=
  rows.map fun r => if which r then set r else r

/-- An update returns the table and the number of rows it affected. -/
def update (rows : List ρ) (which : ρ → Bool) (set : ρ → ρ) : Except Violation (List ρ × ℕ) :=
  if ∀ r ∈ rows, which r → S.updatable r (set r) then
    if ∀ r ∈ rows, which r → S.check (set r) then
      (UniqueIndex.refuse S.unique fun u =>
        !decide ((updated rows which set).Pairwise fun r r' => u.clash r r' = false)).map
          fun _ => (updated rows which set, rows.countP which)
    else .error .check
  else .error .trigger

/-- The checks and the indexes hold. -/
structure Valid (rows : List ρ) : Prop where
  checked : ∀ r ∈ rows, S.check r = true
  unique : ∀ u ∈ S.unique, rows.Pairwise fun r r' => u.clash r r' = false

variable {S} {rows rows' : List ρ} {r r' : ρ} {which : ρ → Bool} {set : ρ → ρ} {n : ℕ}

lemma mem_updated : r' ∈ updated rows which set ↔
    ∃ r ∈ rows, (if which r then set r else r) = r' :=
  mem_map

lemma insert_eq_ok : S.insert rows r = .ok rows' ↔
    S.insertable r = true ∧ S.check r = true ∧
      (∀ u ∈ S.unique, ∀ r' ∈ rows, u.clash r r' = false) ∧ rows' = rows ++ [r] := by
  unfold insert
  split_ifs with hins hchk
  · simp only [UniqueIndex.refuse_map_eq_ok, any_eq_false, Bool.not_eq_true, hins, hchk, true_and]
    exact and_congr_right fun _ => eq_comm
  · simp [hchk]
  · simp [hins]

lemma update_eq_ok : S.update rows which set = .ok (rows', n) ↔
    (∀ r ∈ rows, which r = true → S.updatable r (set r) = true) ∧
      (∀ r ∈ rows, which r = true → S.check (set r) = true) ∧
      (∀ u ∈ S.unique, rows'.Pairwise fun r r' => u.clash r r' = false) ∧
      rows' = updated rows which set ∧ n = rows.countP which := by
  unfold update
  split_ifs with htrig hchk
  · simp only [UniqueIndex.refuse_map_eq_ok, Bool.not_eq_eq_eq_not, Bool.not_false,
      decide_eq_true_eq, Prod.mk.injEq]
    refine ⟨?_, ?_⟩
    · rintro ⟨hfree, rfl, rfl⟩
      exact ⟨htrig, hchk, hfree, rfl, rfl⟩
    · rintro ⟨-, -, hfree, rfl, rfl⟩
      exact ⟨hfree, rfl, rfl⟩
  · simp only [hchk, false_and, and_false]
  · simp only [htrig, false_and]

/-! ## What statements keep -/

lemma Valid.insert (h : S.Valid rows) (hins : S.insert rows r = .ok rows') : S.Valid rows' := by
  obtain ⟨-, hchk, hfree, rfl⟩ := insert_eq_ok.1 hins
  refine ⟨?_, fun u hu => pairwise_append.2 ⟨h.unique u hu, pairwise_singleton _ _, ?_⟩⟩
  · simp only [mem_append, mem_singleton]
    rintro r' (hr' | rfl)
    · exact h.checked r' hr'
    · exact hchk
  · simp only [mem_singleton]
    rintro r' hr' _ rfl
    rw [u.symm]
    exact hfree u hu r' hr'

lemma Valid.update (h : S.Valid rows) (hupd : S.update rows which set = .ok (rows', n)) :
    S.Valid rows' := by
  obtain ⟨-, hchk, hfree, rfl, -⟩ := update_eq_ok.1 hupd
  refine ⟨fun r' hr' => ?_, hfree⟩
  obtain ⟨r, hr, rfl⟩ := mem_updated.1 hr'
  cases hw : which r with
  | false => exact h.checked r hr
  | true => exact hchk r hr hw

/-- Rows that clash are the same row. -/
lemma Valid.eq_of_clash (h : S.Valid rows) {u : UniqueIndex ρ} (hu : u ∈ S.unique) (hr : r ∈ rows)
    (hr' : r' ∈ rows) (hclash : u.clash r r' = true) : r = r' := by
  by_contra hne
  have : Std.Symm fun r r' => u.clash r r' = false := ⟨fun a b hab => (u.symm b a).trans hab⟩
  rw [(h.unique u hu).forall hr hr' hne] at hclash
  exact absurd hclash (by simp)

/-- Of rows that clash pairwise there is at most one. -/
lemma Valid.countP_le_one (h : S.Valid rows) {u : UniqueIndex ρ} (hu : u ∈ S.unique)
    (hclash : ∀ r r', which r = true → which r' = true → u.clash r r' = true) :
    rows.countP which ≤ 1 := by
  have hpair := (h.unique u hu).filter which
  rw [countP_eq_length_filter]
  rcases hf : rows.filter which with _ | ⟨r, _ | ⟨r', rest⟩⟩
  · exact Nat.zero_le 1
  · exact Nat.le_refl 1
  · have hmem : ∀ r₀ ∈ rows.filter which, which r₀ = true := fun r₀ hr₀ => (mem_filter.1 hr₀).2
    rw [hf] at hpair hmem
    have hfree := (pairwise_cons.1 hpair).1 r' mem_cons_self
    rw [hclash r r' (hmem r mem_cons_self)
      (hmem r' (List.mem_cons_of_mem _ mem_cons_self))] at hfree
    exact absurd hfree (by simp)

/-- An update that the triggers and checks allow, and that gives no row a new key, goes through. -/
lemma Valid.update_ok (h : S.Valid rows)
    (htrig : ∀ r ∈ rows, which r = true → S.updatable r (set r) = true)
    (hchk : ∀ r ∈ rows, which r = true → S.check (set r) = true)
    (hkeys : ∀ u ∈ S.unique, ∀ r r', u.clash r r' = false →
      u.clash (if which r then set r else r) (if which r' then set r' else r') = false) :
    S.update rows which set = .ok (updated rows which set, rows.countP which) :=
  update_eq_ok.2 ⟨htrig, hchk, fun u hu => (h.unique u hu).map _ (hkeys u hu), rfl, rfl⟩

end Schema

/-- The only row that is selected is the first one. -/
lemma find?_eq_some_of_unique {rows : List ρ} {which : ρ → Bool} {r : ρ} (hr : r ∈ rows)
    (hw : which r = true) (hunique : ∀ r' ∈ rows, which r' = true → r' = r) :
    rows.find? which = some r := by
  cases hfind : rows.find? which with
  | none => exact absurd hw (find?_eq_none.1 hfind r hr)
  | some r' =>
      rw [hunique r' (mem_of_find?_eq_some hfind) (find?_some hfind)]

/-- Each row is still there, as what `B` lets it become. -/
def Follows (B : ρ → ρ → Prop) (rows rows' : List ρ) : Prop :=
  ∀ r ∈ rows, ∃ r' ∈ rows', B r r'

namespace Follows

variable {B : ρ → ρ → Prop} {rows rows' rows'' : List ρ}

lemma refl (hrefl : ∀ r, B r r) : Follows B rows rows :=
  fun r hr => ⟨r, hr, hrefl r⟩

lemma trans (htrans : ∀ r r' r'', B r r' → B r' r'' → B r r'') (h : Follows B rows rows')
    (h' : Follows B rows' rows'') : Follows B rows rows'' := by
  intro r hr
  obtain ⟨r', hr', hB⟩ := h r hr
  obtain ⟨r'', hr'', hB'⟩ := h' r' hr'
  exact ⟨r'', hr'', htrans r r' r'' hB hB'⟩

lemma insert {S : Schema ρ} {r : ρ} (hrefl : ∀ r, B r r) (h : S.insert rows r = .ok rows') :
    Follows B rows rows' := by
  obtain ⟨-, -, -, rfl⟩ := Schema.insert_eq_ok.1 h
  exact fun r' hr' => ⟨r', mem_append_left _ hr', hrefl r'⟩

lemma updated {which : ρ → Bool} {set : ρ → ρ} (hrefl : ∀ r, B r r)
    (hset : ∀ r ∈ rows, which r = true → B r (set r)) :
    Follows B rows (Schema.updated rows which set) := by
  intro r hr
  refine ⟨_, Schema.mem_updated.2 ⟨r, hr, rfl⟩, ?_⟩
  cases hw : which r with
  | false => exact hrefl r
  | true => exact hset r hr hw

end Follows

end AuthSec

import Mathlib.Data.List.Induction
import Mathlib.Data.List.Nodup
import Mathlib.Data.List.Perm.Basic

/-!
# Computations that may fail

The equations that run an `Except` computation whose first step is known, and the inversions
that take a successful one apart.
-/

namespace AuthSec

open List

section

variable {ε α β : Type}

/-- The computation goes on only under the condition, and otherwise ends with the error. -/
def require {m : Type → Type*} [Monad m] [MonadExceptOf ε m] (c : Prop) [Decidable c] (e : ε) :
    m Unit :=
  if c then pure () else throw e

/-- A requirement that lets the computation go on holds. -/
lemma require_eq_ok {c : Prop} [Decidable c] {e : ε} {u : Unit} :
    (require c e : Except ε Unit) = .ok u ↔ c := by
  unfold require
  split_ifs with hc
  · exact iff_of_true rfl hc
  · exact iff_of_false (fun h => nomatch h) hc

@[simp]
lemma ok_bind (a : α) (f : α → Except ε β) : (Except.ok a >>= f) = f a := rfl

@[simp]
lemma error_bind (e : ε) (f : α → Except ε β) : (Except.error e >>= f) = .error e := rfl

@[simp]
lemma pure_eq_ok (a : α) : (pure a : Except ε α) = .ok a := rfl

@[simp]
lemma except_map_ok (f : α → β) (a : α) : (Except.ok a : Except ε α).map f = .ok (f a) := rfl

@[simp]
lemma except_map_error (f : α → β) (e : ε) : (Except.error e : Except ε α).map f = .error e := rfl

/-- The parts of a successful pair. -/
lemma ok_pair_inj {a a' : α} {b b' : β} (h : (.ok (a, b) : Except ε (α × β)) = .ok (a', b')) :
    a = a' ∧ b = b' :=
  Prod.mk.inj (Except.ok.inj h)

variable {x : Except ε α} {f : α → Except ε β} {a : α} {b : β}

lemma bind_eq_ok :
    (x >>= f) = .ok b ↔ ∃ a, x = .ok a ∧ f a = .ok b := by
  cases x with
  | error e => simp
  | ok a => simp

lemma bind_eq_error {e : ε} :
    (x >>= f) = .error e ↔ x = .error e ∨ ∃ a, x = .ok a ∧ f a = .error e := by
  cases x with
  | error e' => simp
  | ok a => simp

lemma map_eq_ok {f : α → β} :
    x.map f = .ok b ↔ ∃ a, x = .ok a ∧ f a = b := by
  cases x with
  | error e => simp
  | ok a => simp

lemma mapError_eq_ok {ε' : Type} {f : ε → ε'} :
    x.mapError f = .ok a ↔ x = .ok a := by
  cases x with
  | error e => simp [Except.mapError]
  | ok b => simp [Except.mapError]

lemma mapError_eq_error {ε' : Type} {f : ε → ε'} {e : ε'} :
    x.mapError f = .error e ↔ ∃ e', x = .error e' ∧ f e' = e := by
  cases x with
  | error e' => simp [Except.mapError]
  | ok a => simp [Except.mapError]

variable {as : List α} {bs : List β}

/-- The elements in turn, each with its result. -/
lemma mapM_eq_ok :
    as.mapM f = .ok bs ↔ List.Forall₂ (fun a b => f a = .ok b) as bs := by
  induction as generalizing bs with
  | nil =>
      rw [mapM_nil, List.forall₂_nil_left_iff]
      exact ⟨fun h => (Except.ok.inj h).symm, fun h => h ▸ rfl⟩
  | cons a as ih =>
      rw [mapM_cons, bind_eq_ok, List.forall₂_cons_left_iff]
      constructor
      · rintro ⟨b, hb, h⟩
        obtain ⟨bs', hbs, h⟩ := bind_eq_ok.1 h
        exact ⟨b, bs', hb, ih.1 hbs, (Except.ok.inj h).symm⟩
      · rintro ⟨b, bs', hb, hbs, rfl⟩
        exact ⟨b, hb, bind_eq_ok.2 ⟨bs', ih.2 hbs, rfl⟩⟩

lemma exists_mapM_eq_ok :
    (∃ bs, as.mapM f = .ok bs) ↔ ∀ a ∈ as, ∃ b, f a = .ok b := by
  simp only [mapM_eq_ok]
  induction as with
  | nil => simp
  | cons a as ih =>
      simp only [List.forall₂_cons_left_iff, forall_mem_cons, ← ih]
      constructor
      · rintro ⟨_, b, bs, hb, hbs, -⟩
        exact ⟨⟨b, hb⟩, bs, hbs⟩
      · rintro ⟨⟨b, hb⟩, bs, hbs⟩
        exact ⟨b :: bs, b, bs, hb, hbs, rfl⟩

lemma forM_eq_ok {f : α → Except ε Unit} :
    as.forM f = .ok () ↔ ∀ a ∈ as, f a = .ok () := by
  induction as with
  | nil => simp
  | cons a as ih =>
      change (f a >>= fun _ => as.forM f) = .ok () ↔ _
      rw [bind_eq_ok, forall_mem_cons, ← ih]
      exact ⟨fun ⟨_, ha, has⟩ => ⟨ha, has⟩, fun ⟨ha, has⟩ => ⟨(), ha, has⟩⟩

lemma mapM_eq_error {e : ε} (h : as.mapM f = .error e) :
    ∃ a ∈ as, f a = .error e := by
  induction as with
  | nil => cases h
  | cons a as ih =>
      rw [mapM_cons] at h
      rcases bind_eq_error.1 h with ha | ⟨b, -, h⟩
      · exact ⟨a, mem_cons_self .., ha⟩
      · rcases bind_eq_error.1 h with has | ⟨bs, -, h⟩
        · obtain ⟨a', ha', herr⟩ := ih has
          exact ⟨a', List.mem_cons_of_mem a ha', herr⟩
        · cases h

/-- What holds of every element and what it is read as holds along the lists. -/
lemma forall₂_of_mapM {P : α → β → Prop} (hP : ∀ a ∈ as, ∀ b, f a = .ok b → P a b)
    (h : as.mapM f = .ok bs) : List.Forall₂ P as bs := by
  rw [mapM_eq_ok] at h
  induction h with
  | nil => exact .nil
  | cons hb _ ih =>
      refine .cons (hP _ (mem_cons_self ..) _ hb) (ih fun a ha => ?_)
      exact hP a (List.mem_cons_of_mem _ ha)

/-- Reading translated elements gives the same results. -/
lemma mapM_map_eq_ok {γ : Type} {g : γ → Except ε β} {e : α → γ}
    (he : ∀ a ∈ as, ∀ b, f a = .ok b → g (e a) = .ok b) (h : as.mapM f = .ok bs) : (as.map e).mapM g = .ok bs :=
  mapM_eq_ok.2 (List.forall₂_map_left_iff.2 (forall₂_of_mapM he h))

/-- The results in another order of the elements. -/
lemma mapM_perm {as' : List α} (hperm : as'.Perm as) (h : as.mapM f = .ok bs) :
    ∃ bs', as'.mapM f = .ok bs' ∧ bs'.Perm bs := by
  obtain ⟨bs', hbs', hperm'⟩ := List.perm_comp_forall₂ hperm (mapM_eq_ok.1 h)
  exact ⟨bs', mapM_eq_ok.2 hbs', hperm'⟩

lemma mapM_map_fst {κ : Type} {key : α → κ} {key' : β → κ}
    (hkey : ∀ a b, f a = .ok b → key' b = key a) (h : as.mapM f = .ok bs) :
    bs.map key' = as.map key := by
  rw [mapM_eq_ok] at h
  induction h with
  | nil => rfl
  | cons hb _ ih => rw [map_cons, map_cons, hkey _ _ hb, ih]

lemma exists_of_mem_mapM (h : as.mapM f = .ok bs) (hb : b ∈ bs) : ∃ a ∈ as, f a = .ok b := by
  rw [mapM_eq_ok] at h
  induction h with
  | nil => exact absurd hb not_mem_nil
  | cons hab _ ih =>
      rcases mem_cons.1 hb with rfl | hb
      · exact ⟨_, mem_cons_self .., hab⟩
      · obtain ⟨a, ha, hok⟩ := ih hb
        exact ⟨a, List.mem_cons_of_mem _ ha, hok⟩

lemma exists_mem_of_mapM (h : as.mapM f = .ok bs) (ha : a ∈ as) : ∃ b ∈ bs, f a = .ok b := by
  rw [mapM_eq_ok] at h
  induction h with
  | nil => exact absurd ha not_mem_nil
  | cons hab _ ih =>
      rcases mem_cons.1 ha with rfl | ha
      · exact ⟨_, mem_cons_self .., hab⟩
      · obtain ⟨b, hb, hok⟩ := ih ha
        exact ⟨b, List.mem_cons_of_mem _ hb, hok⟩

/-! ## Computations whose success is decided -/

/-- The computation succeeds exactly under the condition, and then with the value. -/
def Succeeds (x : Except ε α) (p : Prop) (a : α) : Prop :=
  ∀ b, x = .ok b ↔ p ∧ b = a

namespace Succeeds

variable {p q : Prop}

lemma of_eq (hp : p) (h : x = .ok a) : Succeeds x p a := by
  intro c
  rw [h, Except.ok.injEq, eq_comm]
  exact (and_iff_right hp).symm

lemma eq_ok (h : Succeeds x p a) (hp : p) : x = .ok a :=
  (h a).2 ⟨hp, rfl⟩

lemma exists_error (h : Succeeds x p a) (hp : ¬ p) : ∃ e, x = .error e := by
  cases hx : x with
  | error e => exact ⟨e, rfl⟩
  | ok b => exact absurd ((h b).1 hx).1 hp

lemma congr (h : Succeeds x p a) (hpq : p ↔ q) : Succeeds x q a := by
  intro c
  rw [h c, hpq]

lemma bind (h : Succeeds x p a) (hf : p → Succeeds (f a) q b) : Succeeds (x >>= f) (p ∧ q) b := by
  intro c
  rw [bind_eq_ok]
  constructor
  · rintro ⟨a', ha', hc⟩
    obtain ⟨hp, rfl⟩ := (h a').1 ha'
    obtain ⟨hq, rfl⟩ := (hf hp c).1 hc
    exact ⟨⟨hp, hq⟩, rfl⟩
  · rintro ⟨⟨hp, hq⟩, rfl⟩
    exact ⟨a, h.eq_ok hp, (hf hp).eq_ok hq⟩

lemma bind_ok (h : Succeeds x p a) (hf : f a = .ok b) : Succeeds (x >>= f) p b :=
  (h.bind fun _ => .of_eq trivial hf).congr (and_iff_left trivial)

end Succeeds

/-! ## Loops in which every element sets a part of a state -/

variable {δ : Type} {d₀ d : δ}

/-- Reads the elements in turn, then applies what they set. -/
def runSets (f : α → Except ε (δ → δ)) (as : List α) (d : δ) : Except ε δ :=
  (as.mapM f).map fun sets => sets.foldl (fun d g => g d) d

/-- The order does not matter when different keys set different parts. -/
lemma runSets_perm {κ : Type} {f : α → Except ε (δ → δ)} {key : α → κ} {as' : List α}
    (hcomm : ∀ a b x y, key a ≠ key b → f a = .ok x → f b = .ok y → ∀ d, x (y d) = y (x d))
    (hkeys : (as.map key).Nodup) (hperm : as'.Perm as) (h : runSets f as d₀ = .ok d) :
    runSets f as' d₀ = .ok d := by
  obtain ⟨sets, hsets, rfl⟩ := map_eq_ok.1 h
  obtain ⟨sets', hsets', hp⟩ := mapM_perm hperm hsets
  refine map_eq_ok.2 ⟨sets', hsets', hp.foldl_eq' (fun x hx y hy z => ?_) d₀⟩
  obtain ⟨a, ha, hax⟩ := exists_of_mem_mapM hsets' hx
  obtain ⟨b, hb, hby⟩ := exists_of_mem_mapM hsets' hy
  by_cases hab : key a = key b
  · have heq := List.inj_on_of_nodup_map hkeys (hperm.mem_iff.1 ha) (hperm.mem_iff.1 hb) hab
    subst heq
    rw [hax] at hby
    cases hby
    rfl
  · exact hcomm b a y x (Ne.symm hab) hby hax z

/-- The last element. -/
lemma runSets_concat {f : α → Except ε (δ → δ)} :
    runSets f (as ++ [a]) d₀ = .ok d ↔
      ∃ d₁ g, runSets f as d₀ = .ok d₁ ∧ f a = .ok g ∧ d = g d₁ := by
  simp only [runSets, map_eq_ok, mapM_append, bind_eq_ok, mapM_cons, mapM_nil]
  constructor
  · rintro ⟨sets, ⟨sets₀, hsets₀, last, ⟨g, hg, rest, hrest, hlast⟩, hsets⟩, rfl⟩
    cases hrest
    cases hlast
    cases hsets
    exact ⟨_, g, ⟨sets₀, hsets₀, rfl⟩, hg, by rw [foldl_append]; rfl⟩
  · rintro ⟨d₁, g, ⟨sets₀, hsets₀, rfl⟩, hg, rfl⟩
    refine ⟨sets₀ ++ [g], ⟨sets₀, hsets₀, [g], ⟨g, hg, [], rfl, rfl⟩, rfl⟩, ?_⟩
    rw [foldl_append]
    rfl

/-- Translated elements that set translated parts. -/
lemma runSets_map {γ : Type} {f : α → Except ε (δ → δ)} {g : γ → Except ε (δ → δ)} {e : α → γ}
    {t : δ → δ}
    (he : ∀ a ∈ as, ∀ x, f a = .ok x → ∃ y, g (e a) = .ok y ∧ ∀ d, y (t d) = t (x d))
    (h : runSets f as d₀ = .ok d) : runSets g (as.map e) (t d₀) = .ok (t d) := by
  induction as using List.reverseRecOn generalizing d with
  | nil =>
      cases h
      rfl
  | append_singleton as a ih =>
      obtain ⟨d₁, x, hd₁, hx, rfl⟩ := runSets_concat.1 h
      obtain ⟨y, hy, hset⟩ := he a (mem_append_right _ (mem_singleton.2 rfl)) x hx
      have hrest := ih (fun b hb => he b (mem_append_left _ hb)) hd₁
      rw [map_append, map_singleton]
      exact runSets_concat.2 ⟨t d₁, y, hrest, hy, (hset d₁).symm⟩

end

end AuthSec

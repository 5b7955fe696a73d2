import Mathlib.Order.Defs.PartialOrder
import Mathlib.Data.List.Perm.Basic
import AuthSec.Lib.Except

/-!
# Scanning for a least element

A single pass over candidates that are compared through a map into a preorder.  The pass keeps one
best candidate, and gives up at the first one it cannot compare with it.

* `scanLeast_eq_ok`: what the pass returns is below every candidate;
* `scanLeast_eq_error`: where it gives up, two candidates are incomparable;
* `scanLeast_incomparable`: an order in which two incomparable candidates come first makes it give
  up, whatever follows.
-/

namespace AuthSec

open List

section Least

variable {α β : Type} [DecidableEq α] [Preorder β] [DecidableLE β] (f : α → β)

/-- The better one of the best candidate so far and a new one. -/
def closer (best a : α) : Except (α × α) α :=
  if a = best then .ok best
  else if f a ≤ f best then .ok a
  else if f best ≤ f a then .ok best
  else .error (best, a)

def scanLeast (best : α) (as : List α) : Except (α × α) α :=
  as.foldlM (closer f) best

/-- Nothing among the candidates is less. -/
def IsLeastOf (m : α) (as : List α) : Prop :=
  m ∈ as ∧ ∀ a ∈ as, f m ≤ f a

variable {f} {best m : α} {as : List α}

lemma closer_eq_ok (h : closer f best m = .ok m') :
    (m' = best ∨ m' = m) ∧ f m' ≤ f best ∧ f m' ≤ f m := by
  unfold closer at h
  split_ifs at h with heq hle hle'
  all_goals obtain rfl := Except.ok.inj h
  · exact ⟨.inl rfl, le_refl _, heq ▸ le_refl _⟩
  · exact ⟨.inr rfl, hle, le_refl _⟩
  · exact ⟨.inl rfl, le_refl _, hle'⟩

lemma closer_eq_error {a b c : α} (h : closer f best a = .error (b, c)) :
    b = best ∧ c = a ∧ ¬ f a ≤ f best ∧ ¬ f best ≤ f a := by
  unfold closer at h
  split_ifs at h with heq hle hle'
  obtain ⟨rfl, rfl⟩ := Prod.mk.inj (Except.error.inj h)
  exact ⟨rfl, rfl, hle, hle'⟩

lemma scanLeast_eq_ok (h : scanLeast f best as = .ok m) : IsLeastOf f m (best :: as) := by
  induction as generalizing best with
  | nil =>
      obtain rfl := Except.ok.inj h
      exact ⟨mem_cons_self, by simp⟩
  | cons a as ih =>
      rw [scanLeast, foldlM_cons] at h
      obtain ⟨next, hnext, h⟩ := bind_eq_ok.1 h
      obtain ⟨hmem, hbest, ha⟩ := closer_eq_ok hnext
      obtain ⟨hm, hle⟩ := ih h
      have hnext_le : f m ≤ f next := hle next mem_cons_self
      refine ⟨?_, ?_⟩
      · rcases mem_cons.1 hm with rfl | hm
        · rcases hmem with rfl | rfl <;> simp
        · exact List.mem_cons_of_mem _ (List.mem_cons_of_mem _ hm)
      · simp only [mem_cons]
        rintro c (rfl | rfl | hc)
        · exact le_trans hnext_le hbest
        · exact le_trans hnext_le ha
        · exact hle c (List.mem_cons_of_mem _ hc)

lemma scanLeast_eq_error {a b : α} (h : scanLeast f best as = .error (b, a)) :
    b ∈ best :: as ∧ a ∈ best :: as ∧ ¬ f a ≤ f b ∧ ¬ f b ≤ f a := by
  induction as generalizing best with
  | nil => exact absurd h (by simp [scanLeast, pure, Except.pure])
  | cons c as ih =>
      rw [scanLeast, foldlM_cons] at h
      cases hnext : closer f best c with
      | error e =>
          obtain rfl : e = (b, a) := by simpa [hnext, bind, Except.bind] using h
          obtain ⟨rfl, rfl, hinc⟩ := closer_eq_error hnext
          exact ⟨mem_cons_self, by simp, hinc⟩
      | ok next =>
          rw [hnext] at h
          obtain ⟨hb, ha, hinc⟩ := ih h
          have hnext_mem : ∀ x ∈ next :: as, x ∈ best :: c :: as := by
            intro x hx
            rcases mem_cons.1 hx with rfl | hx
            · rcases (closer_eq_ok hnext).1 with rfl | rfl <;> simp
            · exact List.mem_cons_of_mem _ (List.mem_cons_of_mem _ hx)
          exact ⟨hnext_mem b hb, hnext_mem a ha, hinc⟩

/-- Two incomparable candidates at the front. -/
lemma scanLeast_incomparable {a b : α} (hab : ¬ f a ≤ f b) (hba : ¬ f b ≤ f a) :
    scanLeast f a (b :: as) = .error (a, b) := by
  have hne : b ≠ a := by
    rintro rfl
    exact hab (le_refl _)
  have hstep : closer f a b = .error (a, b) := by
    rw [closer, if_neg hne, if_neg hba, if_neg hab]
  rw [scanLeast, foldlM_cons, hstep]
  rfl

end Least

end AuthSec

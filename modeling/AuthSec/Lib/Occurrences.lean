import Mathlib.Data.List.Count
import Mathlib.Logic.Function.Basic

/-!
# Numbering equal elements

A loop that numbers the elements of a list counts each value on its own: the first `k` gets 1, the
next one 2, and so on.

* `mem_numbered`: which numbers a value gets;
* `nodup_numbered`: no value gets a number twice;
* `numbered_congr`: the order of the list does not matter.
-/

namespace AuthSec

variable {κ : Type} [DecidableEq κ]

/-- The elements with their numbers, when `count k` of the elements `k` were numbered before. -/
def numbered (count : κ → ℕ) : List κ → List (κ × ℕ)
  | [] => []
  | k :: l => (k, count k + 1) :: numbered (Function.update count k (count k + 1)) l

lemma mem_numbered {count : κ → ℕ} {l : List κ} {k : κ} {n : ℕ} :
    (k, n) ∈ numbered count l ↔ count k < n ∧ n ≤ count k + l.count k := by
  induction l generalizing count with
  | nil =>
      simp only [numbered, List.not_mem_nil, List.count_nil, false_iff]
      omega
  | cons x l ih =>
      rw [numbered, List.mem_cons, ih, Prod.mk.injEq]
      by_cases hx : k = x
      · subst hx
        rw [Function.update_self, List.count_cons_self, eq_self_iff_true, true_and]
        omega
      · rw [Function.update_of_ne hx, List.count_cons_of_ne (Ne.symm hx)]
        simp [hx]

lemma nodup_numbered (count : κ → ℕ) (l : List κ) : (numbered count l).Nodup := by
  induction l generalizing count with
  | nil => exact List.nodup_nil
  | cons x l ih =>
      refine List.nodup_cons.2 ⟨fun hmem => ?_, ih _⟩
      have hlt := (mem_numbered.1 hmem).1
      rw [Function.update_self] at hlt
      exact Nat.lt_irrefl _ hlt

lemma numbered_congr {count : κ → ℕ} {l l' : List κ} (hperm : l.Perm l') (e : κ × ℕ) :
    e ∈ numbered count l ↔ e ∈ numbered count l' := by
  obtain ⟨k, n⟩ := e
  rw [mem_numbered, mem_numbered, hperm.count_eq]

end AuthSec

import Mathlib.Algebra.Order.Group.Nat
import Mathlib.Data.List.Basic

/-!
# Passes over a list with places

A pass over a list puts something in front of some places and leaves the elements at some places
out.  Everything is said by places of the list as it was, so nothing shifts.

* `passOver_append`: a pass over two parts, one behind the other;
* `passOver_drop`: where nothing is put in and the places left out are those in front, the rest stays;
* `passOver_first`: the same where something is put in at the first place.
-/

namespace AuthSec

variable {α : Type}

/-- The pass from place `i` on: `put j` goes in front of place `j`, and the element at place `j` is
left out where `skip j` holds. -/
def passOver (put : ℕ → List α) (skip : ℕ → Bool) : ℕ → List α → List α
  | _, [] => []
  | i, a :: l => put i ++ (if skip i then [] else [a]) ++ passOver put skip (i + 1) l

variable {put put' : ℕ → List α} {skip skip' : ℕ → Bool} {i k : ℕ} {l l' : List α}

lemma passOver_append :
    passOver put skip i (l ++ l') = passOver put skip i l ++ passOver put skip (i + l.length) l' := by
  induction l generalizing i with
  | nil => rfl
  | cons a l ih =>
      simp only [List.cons_append, passOver, ih, List.length_cons, List.append_assoc]
      rw [Nat.add_assoc, Nat.add_comm 1]

lemma passOver_congr (h : ∀ j, i ≤ j → j < i + l.length → put j = put' j ∧ skip j = skip' j) :
    passOver put skip i l = passOver put' skip' i l := by
  induction l generalizing i with
  | nil => rfl
  | cons a l ih =>
      obtain ⟨hput, hskip⟩ := h i (le_refl i) (by simp)
      have htail : ∀ j, i + 1 ≤ j → j < i + 1 + l.length → put j = put' j ∧ skip j = skip' j := by
        intro j hle hlt
        exact h j (by omega) (by rw [List.length_cons]; omega)
      rw [passOver, passOver, hput, hskip, ih htail]

lemma passOver_drop (hput : ∀ j, i ≤ j → put j = []) (hskip : ∀ j, i ≤ j → (skip j = true ↔ j < k)) :
    passOver put skip i l = l.drop (k - i) := by
  induction l generalizing i with
  | nil => simp [passOver]
  | cons a l ih =>
      rw [passOver, hput i (le_refl i), ih (fun j hj => hput j (by omega)) fun j hj => hskip j (by omega)]
      by_cases hlt : i < k
      · obtain ⟨m, hm⟩ : ∃ m, k - i = m + 1 := ⟨k - i - 1, by omega⟩
        have hm' : k - (i + 1) = m := by omega
        simp [(hskip i (le_refl i)).2 hlt, hm, hm']
      · have hkeep : skip i = false := by
          rw [← Bool.not_eq_true, hskip i (le_refl i)]
          exact hlt
        have hzero : k - i = 0 := by omega
        have hzero' : k - (i + 1) = 0 := by omega
        simp [hkeep, hzero, hzero']

/-- The same where something is put in at the first place only. -/
lemma passOver_first {a : α} (hput : ∀ j, i < j → put j = [])
    (hskip : ∀ j, i ≤ j → (skip j = true ↔ j < k)) :
    passOver put skip i (a :: l) = put i ++ (a :: l).drop (k - i) := by
  have hdrop : passOver (fun _ => []) skip i (a :: l) = (a :: l).drop (k - i) :=
    passOver_drop (fun _ _ => rfl) hskip
  have htail : passOver put skip (i + 1) l = passOver (fun _ => []) skip (i + 1) l :=
    passOver_congr fun j hj _ => ⟨hput j hj, rfl⟩
  rw [← hdrop, passOver, passOver, htail, List.nil_append, List.append_assoc]

end AuthSec

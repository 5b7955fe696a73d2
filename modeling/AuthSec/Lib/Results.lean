import Mathlib.Data.List.Basic

/-!
# Results of stateful programs

What a program in a state monad returns, whatever state it starts in.  The rules follow the shape of
the program: a program that is put together from others returns what they let it return.

* `Returns.bind`: a sequence;
* `Returns.foldlM`: a loop, by an invariant of its accumulator and the elements that remain;
* `Returns.mapM`: a loop that collects its results.
-/

namespace AuthSec

/-- The result has the property, from every state. -/
def Returns {σ α : Type} (m : StateM σ α) (P : α → Prop) : Prop :=
  ∀ s, P (m s).1

namespace Returns

variable {σ α β : Type} {m : StateM σ α} {P Q : α → Prop}

lemma pure {a : α} (h : P a) : Returns (Pure.pure a : StateM σ α) P :=
  fun _ => h

lemma mono (h : Returns m P) (hPQ : ∀ a, P a → Q a) : Returns m Q :=
  fun s => hPQ _ (h s)

lemma trivial : Returns m fun _ => True :=
  fun _ => True.intro

lemma bind {f : α → StateM σ β} {R : β → Prop} (h : Returns m P)
    (hf : ∀ a, P a → Returns (f a) R) : Returns (m >>= f) R :=
  fun s => hf _ (h s) (m s).2

lemma ite {c : Bool} {n : StateM σ α} (hthen : c = true → Returns m P)
    (helse : c = false → Returns n P) : Returns (if c then m else n) P := by
  cases c with
  | true => exact hthen rfl
  | false => exact helse rfl

/-- A loop keeps an invariant of its accumulator and the elements that remain. -/
theorem foldlM {f : β → α → StateM σ β} (I : List α → β → Prop)
    (hstep : ∀ a l b, I (a :: l) b → Returns (f b a) (I l)) :
    ∀ (l : List α) (b : β), I l b → Returns (l.foldlM f b) (I [])
  | [], b, hb => by
      rw [List.foldlM_nil]
      exact pure hb
  | a :: l, b, hb => by
      rw [List.foldlM_cons]
      exact (hstep a l b hb).bind fun b' hb' => foldlM I hstep l b' hb'

/-- What every round returns holds of all collected results. -/
theorem mapM {f : α → StateM σ β} {R : β → Prop} :
    ∀ l : List α, (∀ a ∈ l, Returns (f a) R) → Returns (l.mapM f) fun bs => ∀ b ∈ bs, R b
  | [], _ => by
      rw [List.mapM_nil]
      exact pure fun b hb => absurd hb List.not_mem_nil
  | a :: l, h => by
      rw [List.mapM_cons]
      refine (h a (List.mem_cons_self ..)).bind fun b hb => ?_
      refine (mapM l fun a' ha' => h a' (List.mem_cons_of_mem a ha')).bind fun bs hbs => pure ?_
      intro b' hb'
      rcases List.mem_cons.1 hb' with rfl | hb'
      · exact hb
      · exact hbs b' hb'

end Returns

end AuthSec

import Mathlib.Algebra.BigOperators.Group.Multiset.Basic
import Mathlib.Data.Set.Basic
import Mathlib.Logic.Relation

/-!
# Threads over shared state

A small language for programs that run at the same time over one shared state, and a logic for what
they keep true.

**Programs.**  A `Proc` takes atomic actions on the shared state, asks the outside for values
(`choose`: a clock, a reply, whether a connection holds), and forks.  Everything between two atomic
actions is local to the thread.

**Runs.**  A `Pool` is the shared state with the threads that are alive.  One `Step` lets one thread
act, lets a thread die where it stands, or starts a program; `Reachable` closes the steps, so a
statement about reachable pools is one about every interleaving with crashes everywhere.

**Ownership.**  What a thread may rely on, it owns as tokens.  The invariant speaks of the shared
state and of all tokens there are; `Proc.Keeps` says that a program, from the tokens it owns, keeps
the invariant whatever tokens the others own, and makes only moves that are allowed.  The tokens of
a dead thread are never given back.

* `Proc.keeps_bind`: a sequence;
* `Attempting.bind`: a sequence that ends at its first error;
* `ProgramLogic`: what this logic and others share, for rules about programs in any monad;
* `Reachable.exists_tokens`: the invariant holds in every reachable pool;
* `Reachable.move`, `Reachable.moves`: every step, and every run, makes allowed moves.
-/

namespace AuthSec

/-- A logic for the programs of a monad: from `s` a program ensures `Q` of its value and of where it
ends, if it ends with a value. -/
structure ProgramLogic (m : Type → Type 1) [Monad m] (σ : Type) where
  Ensures : {α : Type} → m α → σ → (α → σ → Prop) → Prop
  pure : ∀ {α : Type} {a : α} {s : σ} {Q : α → σ → Prop}, Q a s → Ensures (Pure.pure a) s Q
  bind : ∀ {α β : Type} {p : m α} {f : α → m β} {s : σ} {Q : α → σ → Prop} {R : β → σ → Prop},
    Ensures p s Q → (∀ a s', Q a s' → Ensures (f a) s' R) → Ensures (p >>= f) s R

/-- A program over the shared state `σ`. -/
inductive Proc (σ : Type) : Type → Type 1
  | ret {α : Type} (a : α) : Proc σ α
  | choose {α β : Type} (next : β → Proc σ α) : Proc σ α
  /-- An action that is not enabled gives `none`, and the thread waits. -/
  | atomic {α β : Type} (act : σ → Option (β × σ)) (next : β → Proc σ α) : Proc σ α
  | fork {α : Type} (child : Proc σ Unit) (next : Proc σ α) : Proc σ α

namespace Proc

variable {σ τ : Type}

def bind {β : Type} : {α : Type} → Proc σ α → (α → Proc σ β) → Proc σ β
  | _, .ret a, f => f a
  | _, .choose next, f => .choose fun b => (next b).bind f
  | _, .atomic act next, f => .atomic act fun b => (next b).bind f
  | _, .fork child next, f => .fork child (next.bind f)

instance : Monad (Proc σ) where
  pure := .ret
  bind := bind

/-- A value from outside, of which nothing is known. -/
def anything (σ β : Type) : Proc σ β :=
  .choose .ret

/-- One action on the shared state. -/
def act {β : Type} (f : σ → Option (β × σ)) : Proc σ β :=
  .atomic f .ret

/-- A thread of its own for the program. -/
def spawn (child : Proc σ Unit) : Proc σ Unit :=
  .fork child (.ret ())

end Proc

/-! ## Runs -/

/-- The shared state and the threads that are alive. -/
structure Pool (σ : Type) where
  shared : σ
  threads : Multiset (Proc σ Unit)

/-- One thread acts or dies, or a program is started. -/
inductive Step {σ : Type} (programs : Set (Proc σ Unit)) : Pool σ → Pool σ → Prop
  | choose {s : σ} {rest : Multiset (Proc σ Unit)} {β : Type} (next : β → Proc σ Unit) (b : β) :
      Step programs ⟨s, .choose next ::ₘ rest⟩ ⟨s, next b ::ₘ rest⟩
  | atomic {s s' : σ} {rest : Multiset (Proc σ Unit)} {β : Type} {act : σ → Option (β × σ)}
      (next : β → Proc σ Unit) {b : β} (h : act s = some (b, s')) :
      Step programs ⟨s, .atomic act next ::ₘ rest⟩ ⟨s', next b ::ₘ rest⟩
  | fork {s : σ} {rest : Multiset (Proc σ Unit)} (child next : Proc σ Unit) :
      Step programs ⟨s, .fork child next ::ₘ rest⟩ ⟨s, child ::ₘ next ::ₘ rest⟩
  | crash {s : σ} {rest : Multiset (Proc σ Unit)} (p : Proc σ Unit) :
      Step programs ⟨s, p ::ₘ rest⟩ ⟨s, rest⟩
  | start {s : σ} {rest : Multiset (Proc σ Unit)} {p : Proc σ Unit} (h : p ∈ programs) :
      Step programs ⟨s, rest⟩ ⟨s, p ::ₘ rest⟩

/-- Every pool a system gets to from an initial state without threads. -/
inductive Reachable {σ : Type} (programs : Set (Proc σ Unit)) (initial : σ → Prop) : Pool σ → Prop
  | init {s : σ} (h : initial s) : Reachable programs initial ⟨s, 0⟩
  | step {p p' : Pool σ} (h : Reachable programs initial p) (hs : Step programs p p') :
      Reachable programs initial p'

namespace Proc

variable {σ α β : Type} {s s₁ s' : σ} {a : α}

/-- Alone, and with some answers from outside, the program ends with the value and leaves the
state; a forked thread runs first. -/
def Ends : {α : Type} → Proc σ α → σ → α → σ → Prop
  | _, .ret a, s, a', s' => a = a' ∧ s = s'
  | _, .choose next, s, a, s' => ∃ b, (next b).Ends s a s'
  | _, .atomic act next, s, a, s' => ∃ b s₁, act s = some (b, s₁) ∧ (next b).Ends s₁ a s'
  | _, .fork child next, s, a, s' => ∃ s₁, child.Ends s () s₁ ∧ next.Ends s₁ a s'

/-- A sequence, by the value that the first program ends with. -/
lemma ends_bind {p : Proc σ α} {f : α → Proc σ β} {b : β} (h : p.Ends s a s₁)
    (hf : (f a).Ends s₁ b s') : (p >>= f).Ends s b s' := by
  change (p.bind f).Ends s b s'
  induction p generalizing s with
  | ret a' =>
      obtain ⟨rfl, rfl⟩ := h
      exact hf
  | choose next ih =>
      obtain ⟨c, h⟩ := h
      exact ⟨c, ih c h hf⟩
  | atomic act next ih =>
      obtain ⟨c, s₂, hact, h⟩ := h
      exact ⟨c, s₂, hact, ih c h hf⟩
  | fork child next _ ih =>
      obtain ⟨s₂, hchild, h⟩ := h
      exact ⟨s₂, hchild, ih h hf⟩

lemma ends_bind_ok {ε : Type} {p : ExceptT ε (Proc σ) α} {f : α → ExceptT ε (Proc σ) β}
    {r : Except ε β} (h : p.run.Ends s (.ok a) s₁)
    (hf : (f a).run.Ends s₁ r s') : (p >>= f).run.Ends s r s' :=
  ends_bind h hf

lemma bind_ret (p : Proc σ α) : p.bind .ret = p := by
  induction p with
  | ret a => rfl
  | choose next ih => exact congrArg _ (funext ih)
  | atomic act next ih => exact congrArg _ (funext ih)
  | fork child next _ ih => exact congrArg _ ih

end Proc

/-- A thread may run alone to where its program ends. -/
theorem Reachable.ends {σ α : Type} {programs : Set (Proc σ Unit)} {initial : σ → Prop} {s s' : σ}
    {rest : Multiset (Proc σ Unit)} {p : Proc σ α} {k : α → Proc σ Unit} {a : α}
    (h : Reachable programs initial ⟨s, p.bind k ::ₘ rest⟩) (he : p.Ends s a s') :
    Reachable programs initial ⟨s', k a ::ₘ rest⟩ := by
  induction p generalizing s s' rest with
  | ret a' =>
      obtain ⟨rfl, rfl⟩ := he
      exact h
  | choose next ih =>
      obtain ⟨b, he⟩ := he
      exact ih b (h.step (.choose _ b)) he
  | atomic act next ih =>
      obtain ⟨b, s₁, hact, he⟩ := he
      exact ih b (h.step (.atomic _ hact)) he
  | fork child next ihchild ih =>
      obtain ⟨s₁, hchild, he⟩ := he
      have hfork := h.step (.fork child (next.bind k))
      rw [← child.bind_ret] at hfork
      exact ih ((ihchild hfork hchild).step (.crash _)) he

/-! ## Ownership -/

section Ownership

variable {σ τ : Type} (I : σ → Multiset τ → Prop) (G : σ → σ → Prop)

/-- From the tokens `T`, the program keeps the invariant `I` beside whatever tokens `F` the others
own, makes only the moves `G`, and returns a value and tokens that `Q` accepts. -/
def Proc.Keeps : {α : Type} → Proc σ α → Multiset τ → (α → Multiset τ → Prop) → Prop
  | _, .ret a, T, Q => Q a T
  | _, .choose next, T, Q => ∀ b, Keeps (next b) T Q
  | _, .atomic act next, T, Q => ∀ s F b s', I s (T + F) → act s = some (b, s') →
      ∃ T', I s' (T' + F) ∧ G s s' ∧ Keeps (next b) T' Q
  | _, .fork child next, T, Q => ∃ T₁ T₂, T = T₁ + T₂ ∧ Keeps child T₁ (fun _ _ => True) ∧
      Keeps next T₂ Q

namespace Proc

variable {I G} {α β : Type} {T : Multiset τ}

lemma Keeps.mono {Q R : α → Multiset τ → Prop} (hQR : ∀ a T, Q a T → R a T) :
    ∀ {p : Proc σ α} {T : Multiset τ}, p.Keeps I G T Q → p.Keeps I G T R := by
  intro p
  induction p with
  | ret a => exact fun h => hQR a _ h
  | choose next ih => exact fun h b => ih b hQR (h b)
  | atomic act next ih =>
      intro T h s F b s' hI hact
      obtain ⟨T', hI', hG, hnext⟩ := h s F b s' hI hact
      exact ⟨T', hI', hG, ih b hQR hnext⟩
  | fork child next _ ih =>
      rintro T ⟨T₁, T₂, hT, hchild, hnext⟩
      exact ⟨T₁, T₂, hT, hchild, ih hQR hnext⟩

/-- A sequence: the second program starts from what the first leaves. -/
theorem keeps_bind {Q : β → Multiset τ → Prop} {p : Proc σ α} {f : α → Proc σ β} :
    ∀ {T : Multiset τ}, p.Keeps I G T (fun a T' => (f a).Keeps I G T' Q) →
      (p >>= f).Keeps I G T Q := by
  change ∀ {T : Multiset τ}, _ → (p.bind f).Keeps I G T Q
  induction p with
  | ret a => exact fun h => h
  | choose next ih => exact fun h b => ih b (h b)
  | atomic act next ih =>
      intro T h s F b s' hI hact
      obtain ⟨T', hI', hG, hnext⟩ := h s F b s' hI hact
      exact ⟨T', hI', hG, ih b hnext⟩
  | fork child next _ ih =>
      rintro T ⟨T₁, T₂, hT, hchild, hnext⟩
      exact ⟨T₁, T₂, hT, hchild, ih hnext⟩

lemma keeps_pure {Q : α → Multiset τ → Prop} {a : α} (h : Q a T) :
    (pure a : Proc σ α).Keeps I G T Q :=
  h

lemma keeps_anything {Q : β → Multiset τ → Prop} (h : ∀ b, Q b T) :
    (anything σ β).Keeps I G T Q :=
  h

lemma keeps_act {Q : β → Multiset τ → Prop} {f : σ → Option (β × σ)}
    (h : ∀ s F b s', I s (T + F) → f s = some (b, s') → ∃ T', I s' (T' + F) ∧ G s s' ∧ Q b T') :
    (act f).Keeps I G T Q :=
  h

/-- The new thread takes the tokens it needs along. -/
lemma keeps_spawn {child : Proc σ Unit} {T' : Multiset τ}
    (h : child.Keeps I G T fun _ _ => True) :
    (spawn child).Keeps I G (T + T') fun _ T'' => T'' = T' :=
  ⟨T, T', rfl, h, rfl⟩

end Proc

/-! ### Programs that stop at an error -/

/-- `Proc.Keeps` for a program that may fail: nothing is asked of what an error leaves. -/
def Attempting {ε α : Type} (p : ExceptT ε (Proc σ) α) (T : Multiset τ)
    (Q : α → Multiset τ → Prop) : Prop :=
  Proc.Keeps I G p.run T fun r T' => ∀ a, r = .ok a → Q a T'

namespace Attempting

variable {I G} {ε α β : Type} {T : Multiset τ} {Q : α → Multiset τ → Prop}
  {p : ExceptT ε (Proc σ) α}

lemma mono {R : α → Multiset τ → Prop} (h : Attempting I G p T Q)
    (hQR : ∀ a T', Q a T' → R a T') : Attempting I G p T R :=
  Proc.Keeps.mono (fun _ _ hr a ha => hQR a _ (hr a ha)) h

lemma pure {a : α} (h : Q a T) : Attempting I G (Pure.pure a : ExceptT ε (Proc σ) α) T Q := by
  rintro a' ⟨⟩
  exact h

lemma throw {e : ε} : Attempting I G (throw e : ExceptT ε (Proc σ) α) T Q := by
  rintro a ⟨⟩

lemma bind {R : β → Multiset τ → Prop} {f : α → ExceptT ε (Proc σ) β} (h : Attempting I G p T Q)
    (hf : ∀ a T', Q a T' → Attempting I G (f a) T' R) : Attempting I G (p >>= f) T R := by
  refine Proc.keeps_bind (Proc.Keeps.mono ?_ h)
  rintro (e | a) T' hr
  · rintro b ⟨⟩
  · exact hf a T' (hr a rfl)

lemma lift {p : Proc σ α} (h : p.Keeps I G T Q) :
    Attempting I G (ExceptT.lift p : ExceptT ε (Proc σ) α) T Q := by
  refine Proc.keeps_bind (Proc.Keeps.mono ?_ h)
  rintro a T' hQ a' ⟨⟩
  exact hQ

variable (I G ε) in
def logic : ProgramLogic (ExceptT ε (Proc σ)) (Multiset τ) where
  Ensures := Attempting I G
  pure := pure
  bind := bind

end Attempting

/-! ### Soundness -/

variable {programs : Set (Proc σ Unit)} {initial : σ → Prop}

/-- Each thread owns tokens from which it keeps the invariant; `F` are those of the dead. -/
def Pool.Owns (p : Pool σ) (owned : Multiset (Multiset τ)) (F : Multiset τ) : Prop :=
  Multiset.Rel (fun t T => t.Keeps I G T fun _ _ => True) p.threads owned ∧
    I p.shared (owned.sum + F)

variable {I G} {s : σ} {t : Proc σ Unit} {rest : Multiset (Proc σ Unit)}
  {owned : Multiset (Multiset τ)} {F : Multiset τ} {p p' : Pool σ}

/-- Splits off the thread that acts. -/
lemma Pool.Owns.uncons (h : Pool.Owns I G ⟨s, t ::ₘ rest⟩ owned F) :
    ∃ T owned', t.Keeps I G T (fun _ _ => True) ∧
      Multiset.Rel (fun t T => t.Keeps I G T fun _ _ => True) rest owned' ∧
      I s (T + (owned'.sum + F)) := by
  obtain ⟨hthreads, hI⟩ := h
  obtain ⟨T, owned', ht, hrest, rfl⟩ := Multiset.rel_cons_left.1 hthreads
  rw [Multiset.sum_cons, add_assoc] at hI
  exact ⟨T, owned', ht, hrest, hI⟩

/-- Puts a thread and its tokens beside the others. -/
lemma Pool.Owns.cons {T : Multiset τ} (ht : t.Keeps I G T fun _ _ => True)
    (hrest : Multiset.Rel (fun t T => t.Keeps I G T fun _ _ => True) rest owned)
    (hI : I s (T + (owned.sum + F))) : Pool.Owns I G ⟨s, t ::ₘ rest⟩ (T ::ₘ owned) F := by
  refine ⟨Multiset.rel_cons_left.2 ⟨T, owned, ht, hrest, rfl⟩, ?_⟩
  rw [Multiset.sum_cons, add_assoc]
  exact hI

/-- One step: the tokens are dealt anew, and a step that changes the shared state is allowed. -/
theorem Pool.Owns.step (hprograms : ∀ t ∈ programs, t.Keeps I G 0 fun _ _ => True)
    (h : Pool.Owns I G p owned F) (hs : Step programs p p') :
    (∃ owned' F', Pool.Owns I G p' owned' F') ∧
      (p'.shared = p.shared ∨ G p.shared p'.shared) := by
  cases hs with
  | choose next b =>
      obtain ⟨T, owned', ht, hrest, hI⟩ := h.uncons
      exact ⟨⟨_, F, .cons (ht b) hrest hI⟩, .inl rfl⟩
  | atomic next hact =>
      obtain ⟨T, owned', ht, hrest, hI⟩ := h.uncons
      obtain ⟨T', hI', hG, hnext⟩ := ht _ _ _ _ hI hact
      exact ⟨⟨_, F, .cons hnext hrest hI'⟩, .inr hG⟩
  | fork child next =>
      obtain ⟨T, owned', ⟨T₁, T₂, rfl, hchild, hnext⟩, hrest, hI⟩ := h.uncons
      have hpair := Multiset.rel_cons_left.2 ⟨T₂, owned', hnext, hrest, rfl⟩
      refine ⟨⟨_, F, .cons hchild hpair ?_⟩, .inl rfl⟩
      rwa [Multiset.sum_cons, add_assoc, ← add_assoc]
  | crash t =>
      obtain ⟨T, owned', -, hrest, hI⟩ := h.uncons
      refine ⟨⟨owned', T + F, hrest, ?_⟩, .inl rfl⟩
      rwa [add_left_comm]
  | start ht =>
      obtain ⟨hthreads, hI⟩ := h
      refine ⟨⟨_, F, .cons (hprograms _ ht) hthreads ?_⟩, .inl rfl⟩
      rwa [zero_add]

variable (hprograms : ∀ t ∈ programs, t.Keeps I G 0 fun _ _ => True)
  (hinitial : ∀ s, initial s → I s 0)

include hprograms hinitial

lemma Reachable.exists_owns (h : Reachable programs initial p) :
    ∃ owned F, Pool.Owns I G p owned F := by
  induction h with
  | init h => exact ⟨0, 0, Multiset.rel_zero_left.2 rfl, hinitial _ h⟩
  | step _ hs ih =>
      obtain ⟨owned, F, howns⟩ := ih
      exact (howns.step hprograms hs).1

/-- The invariant holds in every reachable pool, for the tokens there are. -/
theorem Reachable.exists_tokens (h : Reachable programs initial p) :
    ∃ T, I p.shared T := by
  obtain ⟨owned, F, -, hI⟩ := h.exists_owns hprograms hinitial
  exact ⟨_, hI⟩

/-- Every step from a reachable pool leaves the shared state or makes an allowed move. -/
theorem Reachable.move (h : Reachable programs initial p) (hs : Step programs p p') :
    p'.shared = p.shared ∨ G p.shared p'.shared := by
  obtain ⟨owned, F, howns⟩ := h.exists_owns hprograms hinitial
  exact (howns.step hprograms hs).2

/-- What every allowed move keeps, every run keeps. -/
theorem Reachable.moves {R : σ → σ → Prop} (hrefl : ∀ s, R s s)
    (htrans : ∀ s s' s'', R s s' → G s' s'' → R s s'')
    (h : Reachable programs initial p) (hs : Relation.ReflTransGen (Step programs) p p') :
    R p.shared p'.shared := by
  suffices Reachable programs initial p' ∧ R p.shared p'.shared from this.2
  induction hs with
  | refl => exact ⟨h, hrefl _⟩
  | tail _ hstep ih =>
      obtain ⟨hreach, hR⟩ := ih
      refine ⟨hreach.step hstep, ?_⟩
      rcases hreach.move hprograms hinitial hstep with hsame | hG
      · rwa [hsame]
      · exact htrans _ _ _ hR hG

end Ownership

end AuthSec

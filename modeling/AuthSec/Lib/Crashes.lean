import AuthSec.Lib.Threads

/-!
# Programs one after the other, with crashes

The programs of `Proc` run at the same time in `Threads`.  Here they run one after the other, and
each may die where it stands: `Proc.Passes` are the states a run alone goes through, so that the
next program starts from any of them.

`Proc.Safe` is what a run alone keeps: the invariant holds in every state it goes through, and at
its end the value and the state are as said.

* `Proc.safe_bind`, `Tries.bind`: a sequence;
* `Runs.invariant`: what every program keeps holds whatever ran and wherever it died.
-/

namespace AuthSec

namespace Proc

variable {σ : Type}

/-- The states that a run of the program alone goes through; a forked thread runs first. -/
def Passes : {α : Type} → Proc σ α → σ → σ → Prop
  | _, .ret _, s, s' => s' = s
  | _, .choose next, s, s' => s' = s ∨ ∃ b, (next b).Passes s s'
  | _, .atomic act next, s, s' => s' = s ∨ ∃ b s₁, act s = some (b, s₁) ∧ (next b).Passes s₁ s'
  | _, .fork child next, s, s' => child.Passes s s' ∨
      ∃ s₁, child.Ends s () s₁ ∧ next.Passes s₁ s'

/-- From the state, a run alone keeps the invariant and ends with what `Q` accepts. -/
def Safe (I : σ → Prop) : {α : Type} → Proc σ α → σ → (α → σ → Prop) → Prop
  | _, .ret a, s, Q => Q a s
  | _, .choose next, s, Q => ∀ b, (next b).Safe I s Q
  | _, .atomic act next, s, Q => ∀ b s', act s = some (b, s') → I s' ∧ (next b).Safe I s' Q
  | _, .fork child next, s, Q => child.Safe I s fun _ s' => next.Safe I s' Q

variable {I : σ → Prop} {α β : Type} {s s' : σ}

lemma Safe.mono {Q R : α → σ → Prop} (hQR : ∀ a s, Q a s → R a s) {p : Proc σ α} :
    ∀ {s : σ}, p.Safe I s Q → p.Safe I s R := by
  induction p with
  | ret a => exact fun h => hQR a _ h
  | choose next ih => exact fun h b => ih b hQR (h b)
  | atomic act next ih => exact fun h b s' hact => ⟨(h b s' hact).1, ih b hQR (h b s' hact).2⟩
  | fork child next ihchild ih => exact fun h => ihchild (fun _ _ hnext => ih hQR hnext) h

/-- A sequence: the second program starts from what the first leaves. -/
theorem safe_bind {Q : β → σ → Prop} {p : Proc σ α} {f : α → Proc σ β} :
    ∀ {s : σ}, p.Safe I s (fun a s' => (f a).Safe I s' Q) → (p >>= f).Safe I s Q := by
  change ∀ {s : σ}, _ → (p.bind f).Safe I s Q
  induction p with
  | ret a => exact fun h => h
  | choose next ih => exact fun h b => ih b (h b)
  | atomic act next ih => exact fun h b s' hact => ⟨(h b s' hact).1, ih b (h b s' hact).2⟩
  | fork child next ihchild ih => exact fun h => Safe.mono (fun _ _ hnext => ih hnext) h

lemma safe_anything {Q : β → σ → Prop} (h : ∀ b, Q b s) : (anything σ β).Safe I s Q :=
  h

lemma safe_act {Q : β → σ → Prop} {f : σ → Option (β × σ)}
    (h : ∀ b s', f s = some (b, s') → I s' ∧ Q b s') : (act f).Safe I s Q :=
  h

lemma Safe.ends {Q : α → σ → Prop} {p : Proc σ α} {a : α} :
    ∀ {s : σ}, p.Safe I s Q → I s → p.Ends s a s' → I s' ∧ Q a s' := by
  induction p generalizing s' with
  | ret a' =>
      rintro s h hI ⟨rfl, rfl⟩
      exact ⟨hI, h⟩
  | choose next ih =>
      rintro s h hI ⟨b, he⟩
      exact ih b (h b) hI he
  | atomic act next ih =>
      rintro s h hI ⟨b, s₁, hact, he⟩
      exact ih b (h b s₁ hact).2 (h b s₁ hact).1 he
  | fork child next ihchild ih =>
      rintro s h hI ⟨s₁, hchild, he⟩
      obtain ⟨hI₁, hnext⟩ := ihchild h hI hchild
      exact ih hnext hI₁ he

/-- The invariant holds in every state of a run. -/
theorem Safe.passes {Q : α → σ → Prop} {p : Proc σ α} :
    ∀ {s : σ}, p.Safe I s Q → I s → p.Passes s s' → I s' := by
  induction p generalizing s' with
  | ret a =>
      rintro s - hI rfl
      exact hI
  | choose next ih =>
      rintro s h hI (rfl | ⟨b, hp⟩)
      · exact hI
      · exact ih b (h b) hI hp
  | atomic act next ih =>
      rintro s h hI (rfl | ⟨b, s₁, hact, hp⟩)
      · exact hI
      · exact ih b (h b s₁ hact).2 (h b s₁ hact).1 hp
  | fork child next ihchild ih =>
      rintro s h hI (hp | ⟨s₁, hchild, hp⟩)
      · exact ihchild h hI hp
      · have hsafe : child.Safe I s fun _ s' => next.Safe I s' Q := h
        obtain ⟨hI₁, hnext⟩ := hsafe.ends hI hchild
        exact ih hnext hI₁ hp

/-- A run goes through the state it ends in. -/
lemma Ends.passes {p : Proc σ α} {a : α} : ∀ {s : σ}, p.Ends s a s' → p.Passes s s' := by
  induction p generalizing s' with
  | ret a' =>
      rintro s ⟨-, rfl⟩
      rfl
  | choose next ih =>
      rintro s ⟨b, he⟩
      exact Or.inr ⟨b, ih b he⟩
  | atomic act next ih =>
      rintro s ⟨b, s₁, hact, he⟩
      exact Or.inr ⟨b, s₁, hact, ih b he⟩
  | fork child next _ ih =>
      rintro s ⟨s₁, hchild, he⟩
      exact Or.inr ⟨s₁, hchild, ih he⟩

end Proc

/-! ## Programs that stop at an error -/

section Tries

variable {σ : Type} {I : σ → Prop} {ε α β : Type} {s : σ}

/-- `Proc.Safe` for a program that may fail, with what holds after a value and after an error. -/
def Tries (I : σ → Prop) (p : ExceptT ε (Proc σ) α) (s : σ) (Q : α → σ → Prop)
    (E : ε → σ → Prop) : Prop :=
  p.run.Safe I s fun r s' =>
    match r with
    | .ok a => Q a s'
    | .error e => E e s'

namespace Tries

variable {Q : α → σ → Prop} {E : ε → σ → Prop}

lemma mono {Q' : α → σ → Prop} {E' : ε → σ → Prop} {p : ExceptT ε (Proc σ) α}
    (h : Tries I p s Q E) (hQ : ∀ a s', Q a s' → Q' a s') (hE : ∀ e s', E e s' → E' e s') :
    Tries I p s Q' E' := by
  refine Proc.Safe.mono ?_ h
  rintro (e | a) s' hr
  · exact hE e s' hr
  · exact hQ a s' hr

lemma pure {a : α} (h : Q a s) : Tries I (Pure.pure a : ExceptT ε (Proc σ) α) s Q E :=
  h

lemma throw {e : ε} (h : E e s) : Tries I (throw e : ExceptT ε (Proc σ) α) s Q E :=
  h

lemma bind {R : β → σ → Prop} {p : ExceptT ε (Proc σ) α} {f : α → ExceptT ε (Proc σ) β}
    (h : Tries I p s Q E) (hf : ∀ a s', Q a s' → Tries I (f a) s' R E) :
    Tries I (p >>= f) s R E := by
  refine Proc.safe_bind (Proc.Safe.mono ?_ h)
  rintro (e | a) s' hr
  · exact hr
  · exact hf a s' hr

lemma lift {p : Proc σ α} (h : p.Safe I s Q) :
    Tries I (ExceptT.lift p : ExceptT ε (Proc σ) α) s Q E := by
  refine Proc.safe_bind (Proc.Safe.mono ?_ h)
  exact fun a s' hQ => hQ

def logic (I : σ → Prop) (E : ε → σ → Prop) : ProgramLogic (ExceptT ε (Proc σ)) σ where
  Ensures p s Q := Tries I p s Q E
  pure := pure
  bind := bind

end Tries

end Tries

/-! ## Runs -/

/-- The states a system goes through when one of its programs runs at a time. -/
inductive Runs {σ : Type} (programs : Set (Proc σ Unit)) (initial : σ → Prop) : σ → Prop
  | init {s : σ} (h : initial s) : Runs programs initial s
  | run {s s' : σ} {p : Proc σ Unit} (h : Runs programs initial s) (hp : p ∈ programs)
      (hs : p.Passes s s') : Runs programs initial s'

/-- What every program keeps holds whatever ran before and wherever it died. -/
theorem Runs.invariant {σ : Type} {programs : Set (Proc σ Unit)} {initial I : σ → Prop}
    (hprograms : ∀ p ∈ programs, ∀ s, I s → p.Safe I s fun _ _ => True)
    (hinitial : ∀ s, initial s → I s) {s : σ} (h : Runs programs initial s) : I s := by
  induction h with
  | init h => exact hinitial _ h
  | run _ hp hs ih => exact (hprograms _ hp _ ih).passes ih hs

end AuthSec

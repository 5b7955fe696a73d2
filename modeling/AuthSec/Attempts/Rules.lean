import AuthSec.Attempts.Ownership

/-!
# Rules for the programs of the service

`Holds`, for the tables and the calls of a `World`, is the invariant the threads keep; `Advance` is
what a step of theirs may do.  A program that is `Passive` does neither more nor less than let rows
move on, whatever it owns: the rules for it ask about one transaction at a time.

* `serves_transaction`, `serves_query`: one transaction, one read;
* `Passive.transaction`: a transaction that is quiet.
-/

namespace AuthSec

def Inv (w : World) (T : Multiset Token) : Prop :=
  Holds w.db w.sent T

/-- What one step may do: rows move on, and a call is made that nobody made before, of an attempt
whose row is committed as dispatched. -/
structure Advance (w w' : World) : Prop where
  rows : Follows Attempt.Becomes w.db.attempts w'.db.attempts
  sent : w'.sent = w.sent ∨ ∃ c, w'.sent = w.sent ++ [c] ∧ w'.db = w.db ∧
    (∀ c' ∈ w.sent, c'.attempt ≠ c.attempt) ∧ w.db.HasDispatched c.attempt c.version

lemma Advance.of_db_eq {w w' : World} (hdb : w'.db = w.db) (hsent : w'.sent = w.sent) :
    Advance w w' :=
  ⟨hdb ▸ .refl Attempt.Becomes.refl, .inl hsent⟩

/-- From its tokens the program keeps the invariant, and returns what `Q` accepts. -/
abbrev Serves {α : Type} (p : Service α) (T : Multiset Token) (Q : α → Multiset Token → Prop) :
    Prop :=
  Attempting Inv Advance p T Q

section Rules

variable {α β : Type} {T : Multiset Token} {Q : α → Multiset Token → Prop}

lemma serves_outside (h : ∀ b, Q b T) : Serves (outside α) T Q :=
  Attempting.lift (Proc.keeps_anything h)

lemma serves_require {c : Prop} [Decidable c] {e : AttemptErr}
    {Q : PUnit → Multiset Token → Prop} (h : c → Q ⟨⟩ T) :
    Serves (require c e) T Q := by
  unfold require
  split_ifs with hc
  · exact Attempting.pure (h hc)
  · exact Attempting.throw

/-- A transaction leaves nothing and fails, or leaves what its body did. -/
lemma finishTx_cases {body : Tx α} {fate : Fate} {w w' : World} {r : Except AttemptErr α}
    (h : finishTx body fate w = (r, w')) :
    (w' = w ∧ ∀ a, r ≠ .ok a) ∨
      ∃ a db', body w.db = .ok (a, db') ∧ w' = { w with db := db' } ∧ ∀ a', r = .ok a' → a' = a := by
  unfold finishTx at h
  split at h
  · obtain ⟨rfl, rfl⟩ := Prod.mk.inj h
    exact .inl ⟨rfl, fun a => by simp⟩
  · obtain ⟨rfl, rfl⟩ := Prod.mk.inj h
    exact .inr ⟨_, _, ‹_›, rfl, fun a' ha' => (Except.ok.inj ha').symm⟩
  · obtain ⟨rfl, rfl⟩ := Prod.mk.inj h
    exact .inr ⟨_, _, ‹_›, rfl, fun a' ha' => by simp at ha'⟩
  · obtain ⟨rfl, rfl⟩ := Prod.mk.inj h
    exact .inl ⟨rfl, fun a => by simp⟩

/-- A transaction: asked is only what its body does when it goes through. -/
lemma serves_transaction {body : Tx α}
    (h : ∀ db db' sent F a, Holds db sent (T + F) → body db = .ok (a, db') →
      ∃ T', Holds db' sent (T' + F) ∧ Follows Attempt.Becomes db.attempts db'.attempts ∧ Q a T') :
    Serves (transaction body) T Q := by
  refine Attempting.bind (Q := fun _ T' => T' = T) (serves_outside fun _ => rfl) ?_
  rintro fate T rfl
  refine Proc.keeps_act fun w F r w' hI hact => ?_
  rcases finishTx_cases (Option.some.inj hact) with ⟨rfl, hr⟩ | ⟨a, db', hbody, rfl, hr⟩
  · exact ⟨T, hI, .of_db_eq rfl rfl, fun a ha => absurd ha (hr a)⟩
  · obtain ⟨T', hI', hrows, hQ⟩ := h w.db db' w.sent F a hI hbody
    exact ⟨T', hI', ⟨hrows, .inl rfl⟩, fun a' ha' => hr a' ha' ▸ hQ⟩

/-- A read, after which other tokens may be held. -/
lemma serves_query {read : Database → α}
    (h : ∀ db sent F, Holds db sent (T + F) → ∃ T', Holds db sent (T' + F) ∧ Q (read db) T') :
    Serves (query read) T Q := by
  refine Attempting.bind (Q := fun _ T' => T' = T) (serves_outside fun _ => rfl) ?_
  rintro failed T rfl
  refine Attempting.bind (Q := fun _ T' => T' = T) (serves_require fun _ => rfl) ?_
  rintro ⟨⟩ T rfl
  refine Attempting.lift (Proc.keeps_act ?_)
  rintro w F r w' hI hact
  obtain ⟨rfl, rfl⟩ := Prod.mk.inj (Option.some.inj hact)
  obtain ⟨T', hI', hQ⟩ := h w.db w.sent F hI
  exact ⟨T', hI', .of_db_eq rfl rfl, hQ⟩

/-- The result of a program, with its error. -/
lemma serves_run {p : Service α} (h : Serves p T Q) :
    Serves (ExceptT.lift p.run) T fun r T' => ∀ a, r = .ok a → Q a T' :=
  Attempting.lift h

/-- An action that touches neither the tables nor the calls. -/
lemma keeps_silent {f : World → Option (α × World)}
    (h : ∀ w a w', f w = some (a, w') → w'.db = w.db ∧ w'.sent = w.sent) :
    (Proc.act f).Keeps Inv Advance T fun _ T' => T' = T := by
  refine Proc.keeps_act ?_
  rintro w F a w' hI hact
  obtain ⟨hdb, hsent⟩ := h w a w' hact
  refine ⟨T, ?_, .of_db_eq hdb hsent, rfl⟩
  unfold Inv
  rw [hdb, hsent]
  exact hI

end Rules

/-! ## Programs that own nothing -/

/-- The program serves from any tokens, and keeps them. -/
def Passive {α : Type} (p : Service α) : Prop :=
  ∀ T, Serves p T fun _ T' => T' = T

namespace Passive

variable {α β : Type}

lemma pure (a : α) : Passive (Pure.pure a) :=
  fun _ => Attempting.pure rfl

lemma throw (e : AttemptErr) : Passive (α := α) (MonadExcept.throw e) :=
  fun _ => Attempting.throw

lemma bind {p : Service α} {f : α → Service β} (hp : Passive p) (hf : ∀ a, Passive (f a)) :
    Passive (p >>= f) := by
  refine fun T => Attempting.bind (hp T) ?_
  rintro a _ rfl
  exact hf a _

lemma outside : Passive (AuthSec.outside α) :=
  fun _ => serves_outside fun _ => rfl

lemma require {c : Prop} [Decidable c] {e : AttemptErr} :
    Passive (AuthSec.require (m := ExceptT AttemptErr (Proc World)) c e) :=
  fun _ => serves_require fun _ => rfl

lemma transaction {body : Tx α} (h : ∀ db db' a, body db = .ok (a, db') → Quiet db db') :
    Passive (AuthSec.transaction body) := by
  refine fun T => serves_transaction fun db db' sent F a hI hbody => ?_
  have hq := h db db' a hbody
  exact ⟨T, hI.quiet hq, hq.attempts, rfl⟩

lemma inTx {f : Fence} {body : Tx α} (h : ∀ db db' a, body db = .ok (a, db') → Quiet db db') :
    Passive (AuthSec.transaction (AuthSec.inTx f body)) :=
  transaction fun db db' a hbody => h db db' a (inTx_eq_ok hbody).2

lemma query {read : Database → α} : Passive (AuthSec.query read) :=
  fun T => serves_query fun _ _ _ hI => ⟨T, hI, rfl⟩

lemma keeps {p : Service α} (hp : Passive p) {T : Multiset Token} {P : Multiset Token → Prop}
    (hT : P T) : Serves p T fun _ => P :=
  (hp T).mono fun _ _ h => h ▸ hT

/-- A program may come behind one that owns nothing. -/
lemma before {p : Service α} (hp : Passive p) {f : α → Service β} {T : Multiset Token}
    {Q : β → Multiset Token → Prop} (hf : ∀ a, Serves (f a) T Q) : Serves (p >>= f) T Q :=
  Attempting.bind (hp T) fun a _ h => h ▸ hf a

/-- Whatever a program leaves, one that owns nothing may follow. -/
lemma after {p : Service α} {f : Except AttemptErr α → Service β} {T : Multiset Token}
    (hp : Serves p T fun _ _ => True) (hf : ∀ r, Passive (f r)) :
    Serves (ExceptT.lift p.run >>= f) T fun _ _ => True :=
  Attempting.bind (serves_run hp) fun r T' _ => (hf r T').mono fun _ _ _ => trivial

end Passive

end AuthSec

import Mathlib.Logic.Relation

/-! # Reasoning about state with errors

Stateful fallible code is written in `EStateM`: an error leaves the state as it
was when the error was raised. The lemmas here take a sequence of steps apart,
and give the rules of pre- and postconditions for it, with a postcondition of
its own for failure.
-/

namespace Effect

variable {ε σ α β : Type}

section

variable (x : EStateM ε σ α)

/-- Run `x` and hand its outcome to the caller; whatever `x` did to the state stays. -/
def attempt : EStateM ε σ (Except ε α) := fun s =>
  match x.run s with
  | .ok a s' => .ok (.ok a) s'
  | .error e s' => .ok (.error e) s'

/-- The state `x` leaves, whether it returns or fails. -/
def after (s : σ) : σ :=
  match x.run s with
  | .ok _ s' => s'
  | .error _ s' => s'

/-- What `x` returns, without the state. -/
def outcome (s : σ) : Except ε α :=
  match x.run s with
  | .ok a _ => .ok a
  | .error e _ => .error e

end

theorem bind_ok {x : EStateM ε σ α} {f : α → EStateM ε σ β} {s s' : σ} {a : α}
    (h : x.run s = .ok a s') : (x >>= f).run s = (f a).run s' := by
  simp only [EStateM.run_bind, h]

theorem bind_error {x : EStateM ε σ α} {f : α → EStateM ε σ β} {s s' : σ} {e : ε}
    (h : x.run s = .error e s') : (x >>= f).run s = .error e s' := by
  simp only [EStateM.run_bind, h]

theorem run_get_bind (f : σ → EStateM ε σ α) (s : σ) : (get >>= f).run s = (f s).run s :=
  rfl

/-- A sequence that returns has returned at every step. -/
theorem of_bind_ok {x : EStateM ε σ α} {f : α → EStateM ε σ β} {s s'' : σ} {b : β}
    (h : (x >>= f).run s = .ok b s'') :
    ∃ a s', x.run s = .ok a s' ∧ (f a).run s' = .ok b s'' := by
  cases run : x.run s with
  | ok a s' => exact ⟨a, s', rfl, by rw [← h, bind_ok run]⟩
  | error e s' => rw [bind_error run] at h; cases h

theorem of_bind_error {x : EStateM ε σ α} {f : α → EStateM ε σ β} {s s'' : σ} {e : ε}
    (h : (x >>= f).run s = .error e s'') :
    x.run s = .error e s'' ∨ ∃ a s', x.run s = .ok a s' ∧ (f a).run s' = .error e s'' := by
  cases run : x.run s with
  | ok a s' => exact .inr ⟨a, s', rfl, by rw [← h, bind_ok run]⟩
  | error e' s' =>
    rw [bind_error run] at h
    cases h
    exact .inl rfl

theorem except_ok_bind (a : α) (f : α → Except ε β) : (Except.ok a >>= f) = f a :=
  rfl

theorem of_except_bind {x : Except ε α} {f : α → Except ε β} {b : β}
    (h : (x >>= f) = .ok b) : ∃ a, x = .ok a ∧ f a = .ok b := by
  cases x with
  | ok a => exact ⟨a, rfl, h⟩
  | error e => cases h

theorem of_except_bind_error {x : Except ε α} {f : α → Except ε β} {e : ε}
    (h : (x >>= f) = .error e) : x = .error e ∨ ∃ a, x = .ok a ∧ f a = .error e := by
  cases x with
  | ok a => exact .inr ⟨a, rfl, h⟩
  | error e' =>
    cases h
    exact .inl rfl

theorem attempt_eq (x : EStateM ε σ α) (s : σ) :
    (attempt x).run s = .ok (outcome x s) (after x s) := by
  change attempt x s = _
  cases run : x.run s <;> simp only [attempt, outcome, after, run]

theorem after_ok (h : x.run s = .ok a s') :
    after x s = s' := by
  simp only [after, h]

theorem after_error {x : EStateM ε σ α} {s s' : σ} {e : ε} (h : x.run s = .error e s') :
    after x s = s' := by
  simp only [after, h]

theorem of_discard_ok {x : EStateM ε σ α} {s s' : σ} {done : Unit}
    (h : (discard x).run s = .ok done s') : ∃ a, x.run s = .ok a s' := by
  obtain ⟨a, t, ran, rest⟩ := of_bind_ok h
  cases rest
  exact ⟨a, ran⟩

theorem after_discard (x : EStateM ε σ α) (s : σ) : after (discard x) s = after x s := by
  change after (x >>= fun _ => pure ()) s = _
  cases run : x.run s with
  | ok a s' => rw [after_ok run, after, bind_ok run]; rfl
  | error e s' => rw [after_error run, after_error (bind_error run)]

theorem outcome_ok (h : x.run s = .ok a s') :
    outcome x s = .ok a := by
  simp only [outcome, h]

theorem outcome_error (h : x.run s = .error e s') :
    outcome x s = .error e := by
  simp only [outcome, h]

theorem run_of_outcome_ok (h : outcome x s = .ok a) :
    x.run s = .ok a (after x s) := by
  cases run : x.run s with
  | ok b s' => rw [outcome_ok run] at h; cases h; rw [after_ok run]
  | error e s' => rw [outcome_error run] at h; cases h

/-- `x` does not fail with `bad`, and its value is in `post`. -/
def Avoids (bad : ε) (x : Except ε α) (post : α → Prop) : Prop :=
  match x with
  | .ok a => post a
  | .error e => e ≠ bad

namespace Avoids

variable {bad : ε} {post : α → Prop} {mid : β → Prop}

theorem bind {x : Except ε β} {f : β → Except ε α} (first : Avoids bad x mid)
    (next : ∀ b, mid b → Avoids bad (f b) post) : Avoids bad (x >>= f) post := by
  cases x with
  | ok b => exact next b first
  | error e => exact first

theorem ite [Decidable c] (hx : c → Avoids bad x post) (hy : ¬c → Avoids bad y post) :
    Avoids bad (if c then x else y) post := by
  split
  · exact hx ‹_›
  · exact hy ‹_›

theorem ne (holds : Avoids bad x post) : x ≠ .error bad := by
  rintro rfl
  exact holds rfl

end Avoids

/-- From a state in `pre`, `x` either returns into `post` or fails into `fail`. -/
def Spec (pre : σ → Prop) (x : EStateM ε σ α) (post : α → σ → Prop) (fail : ε → σ → Prop) : Prop :=
  ∀ s, pre s →
    match x.run s with
    | .ok a s' => post a s'
    | .error e s' => fail e s'

namespace Spec

variable {pre : σ → Prop} {post : α → σ → Prop} {fail : ε → σ → Prop}

theorem pure (a : α) (h : ∀ s, pre s → post a s) : Spec pre (Pure.pure a) post fail :=
  fun s hs => h s hs

theorem throw (e : ε) (h : ∀ s, pre s → fail e s) : Spec pre (MonadExcept.throw e) post fail :=
  fun s hs => h s hs

theorem bind {mid : β → σ → Prop} {x : EStateM ε σ β} {f : β → EStateM ε σ α}
    (hx : Spec pre x mid fail) (hf : ∀ b, Spec (mid b) (f b) post fail) :
    Spec pre (x >>= f) post fail := by
  intro s hs
  have first := hx s hs
  cases run : x.run s with
  | ok b s' =>
    simp only [run] at first
    simpa only [bind_ok run] using hf b s' first
  | error e s' =>
    simp only [run] at first
    simpa only [bind_error run] using first

theorem get_bind (h : ∀ s, pre s → Spec pre (f s) post fail) :
    Spec pre (get >>= f) post fail :=
  fun s hs => h s hs s hs

theorem throw_bind (e : ε) (h : ∀ s, pre s → fail e s) :
    Spec pre (MonadExcept.throw e >>= f) post fail :=
  fun s hs => h s hs

theorem assume (h : p → Spec pre x post fail) :
    Spec (fun s => pre s ∧ p) x post fail :=
  fun s hs => h hs.2 s hs.1

theorem exists_pre {ι : Type} {pres : ι → σ → Prop} {x : EStateM ε σ α}
    (h : ∀ i, Spec (pres i) x post fail) : Spec (fun s => ∃ i, pres i s) x post fail :=
  fun s ⟨i, hs⟩ => h i s hs

theorem ite [Decidable c] (hx : c → Spec pre x post fail) (hy : ¬c → Spec pre y post fail) :
    Spec pre (if c then x else y) post fail := by
  by_cases h : c
  · simpa only [if_pos h] using hx h
  · simpa only [if_neg h] using hy h

theorem weaken (hx : Spec pre' x post' fail') (hpre : ∀ s, pre s → pre' s)
    (hpost : ∀ a s, post' a s → post a s) (hfail : ∀ e s, fail' e s → fail e s) :
    Spec pre x post fail := by
  intro s hs
  have holds := hx s (hpre s hs)
  cases run : x.run s with
  | ok a s' => simp only [run] at holds; exact hpost a s' holds
  | error e s' => simp only [run] at holds; exact hfail e s' holds

theorem weaken_fail (hx : Spec pre x post fail') (hfail : ∀ e s, fail' e s → fail e s) :
    Spec pre x post fail :=
  hx.weaken (fun _ h => h) (fun _ _ h => h) hfail

theorem after {x : EStateM ε σ α} {post : σ → Prop} {s : σ}
    (hx : Spec pre x (fun _ => post) fun _ => post) (hs : pre s) : post (Effect.after x s) := by
  have holds := hx s hs
  cases run : x.run s with
  | ok a s' => simpa only [after_ok run, run] using holds
  | error e s' => simpa only [after_error run, run] using holds

theorem cases (hx : Spec pre x post fail) (hs : pre s) :
    (∃ a, outcome x s = .ok a ∧ post a (Effect.after x s)) ∨
      ∃ e, outcome x s = .error e ∧ fail e (Effect.after x s) := by
  have holds := hx s hs
  cases run : x.run s with
  | ok a s' =>
    rw [run] at holds
    exact .inl ⟨a, outcome_ok run, (after_ok run).symm ▸ holds⟩
  | error e s' =>
    rw [run] at holds
    exact .inr ⟨e, outcome_error run, (after_error run).symm ▸ holds⟩

theorem attempt (hx : Spec pre x post fail) :
    Spec pre (Effect.attempt x)
      (fun r s => match r with | .ok a => post a s | .error e => fail e s) never := by
  intro s hs
  have holds := hx s hs
  rw [attempt_eq]
  cases run : x.run s with
  | ok a s' => simpa only [outcome_ok run, after_ok run, run] using holds
  | error e s' => simpa only [outcome_error run, after_error run, run] using holds

end Spec

/-- Whether it returns or fails, `x` takes the state along `rel`. -/
def Moves (rel : σ → σ → Prop) (x : EStateM ε σ α) : Prop :=
  ∀ s, rel s (after x s)

namespace Moves

variable {rel : σ → σ → Prop}

theorem mono (moves : Moves rel x) (implies : ∀ s s', rel s s' → rel' s s') : Moves rel' x :=
  fun s => implies _ _ (moves s)

theorem pure [Std.Refl rel] (a : α) : Moves rel (Pure.pure a : EStateM ε σ α) :=
  fun s => Std.Refl.refl s

theorem throw [Std.Refl rel] (e : ε) : Moves rel (MonadExcept.throw e : EStateM ε σ α) :=
  fun s => Std.Refl.refl s

theorem bind [IsTrans σ rel] {x : EStateM ε σ β} {f : β → EStateM ε σ α} (first : Moves rel x)
    (next : ∀ b, Moves rel (f b)) : Moves rel (x >>= f) := by
  intro s
  have step := first s
  cases run : x.run s with
  | ok b s' =>
    rw [after_ok run] at step
    have rest : after (x >>= f) s = after (f b) s' := by rw [after, after, bind_ok run]
    rw [rest]
    exact IsTrans.trans _ _ _ step (next b s')
  | error e s' =>
    rw [after_error run] at step
    rw [after_error (bind_error run)]
    exact step

theorem get_bind (next : ∀ s, Moves rel (f s)) :
    Moves rel (get >>= f) :=
  fun s => next s s

theorem ite [Decidable c] (hx : c → Moves rel x) (hy : ¬c → Moves rel y) :
    Moves rel (if c then x else y) := by
  split
  · exact hx ‹_›
  · exact hy ‹_›

end Moves

end Effect

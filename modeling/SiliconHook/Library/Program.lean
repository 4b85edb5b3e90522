import SiliconHook.Library.Result

/-!
# Programs of transactions

A program makes its calls one after another, each a transaction of its own: a
failed call leaves the state alone, and a failing program keeps what the calls
before committed.
-/

namespace SiliconHook

variable {σ ε δ α β : Type}

def Program (σ ε α : Type) := σ → Except ε α × σ

namespace Program

def bind (m : Program σ ε α) (f : α → Program σ ε β) : Program σ ε β := fun s =>
  match m s with
  | (.ok a, s') => f a s'
  | (.error e, s') => (.error e, s')

instance : Monad (Program σ ε) where
  pure a := fun s => (.ok a, s)
  bind := Program.bind

/-- A decision made without the state. -/
def ofExcept (r : Except ε α) : Program σ ε α := fun s => (r, s)

instance : MonadLift (Except ε) (Program σ ε) := ⟨ofExcept⟩

def read (f : σ → Except ε α) : Program σ ε α := fun s => (f s, s)

/-- One transaction, rolled back where it fails. -/
def transact (call : σ → Except ε (α × σ)) : Program σ ε α := fun s =>
  match call s with
  | .ok (a, s') => (.ok a, s')
  | .error e => (.error e, s)

/-- One transaction whose failure the program handles itself. -/
def attempt (call : σ → Except δ (α × σ)) : Program σ ε (Except δ α) := fun s =>
  match call s with
  | .ok (a, s') => (.ok (.ok a), s')
  | .error e => (.ok (.error e), s)

def mapError (g : ε → δ) (m : Program σ ε α) : Program σ δ α := fun s =>
  ((m s).1.mapError g, (m s).2)

def exec (m : Program σ ε α) (s : σ) : σ := (m s).2

-- -----------------------------------------------------------------------------
-- What a program keeps and answers
-- -----------------------------------------------------------------------------

/-- From a state with `I` the program leaves one with `I`, and what it answers
meets `Q`. -/
def Holds (I : σ → Prop) (m : Program σ ε α) (Q : α → Prop) : Prop :=
  ∀ s, I s → I (m.exec s) ∧ ∀ a, (m s).1 = .ok a → Q a

variable {I : σ → Prop} {Q : α → Prop} {R : β → Prop} {m : Program σ ε α}
  {f : α → Program σ ε β}

theorem Holds.pure (h : Q a) : Holds I (Pure.pure a : Program σ ε α) Q := by
  intro s hs
  refine ⟨hs, fun b hb => ?_⟩
  cases hb
  exact h

theorem Holds.bind (hm : Holds I m Q) (hf : ∀ a, Q a → Holds I (f a) R) :
    Holds I (m >>= f) R := by
  intro s hs
  obtain ⟨hkeep, hans⟩ := hm s hs
  have hstep : (m >>= f) s = Program.bind m f s := rfl
  simp only [exec, hstep, Program.bind] at hkeep ⊢
  cases h : m s with
  | mk r s' =>
    rw [h] at hkeep hans
    cases r with
    | error e => exact ⟨hkeep, fun b hb => by cases hb⟩
    | ok a => exact hf a (hans a rfl) s' hkeep

theorem Holds.mapError {g : ε → δ} (hm : Holds I m Q) : Holds I (m.mapError g) Q := by
  intro s hs
  obtain ⟨hkeep, hans⟩ := hm s hs
  refine ⟨hkeep, fun a ha => hans a ?_⟩
  simp only [Program.mapError] at ha
  exact Except.mapError_ok.mp ha

theorem Holds.ofExcept {r : Except ε α} (h : ∀ a, r = .ok a → Q a) :
    Holds I (Program.ofExcept r : Program σ ε α) Q :=
  fun _ hs => ⟨hs, h⟩

theorem Holds.lift {r : Except ε α} (h : ∀ a, r = .ok a → Q a) :
    Holds I (liftM r : Program σ ε α) Q := .ofExcept h

theorem Holds.read {g : σ → Except ε α} (h : ∀ s a, I s → g s = .ok a → Q a) :
    Holds I (Program.read g) Q :=
  fun s hs => ⟨hs, fun a ha => h s a hs ha⟩

theorem Holds.transact {call : σ → Except ε (α × σ)}
    (h : ∀ s a s', I s → call s = .ok (a, s') → I s' ∧ Q a) :
    Holds I (Program.transact call) Q := by
  intro s hs
  simp only [exec, Program.transact]
  cases hc : call s with
  | error e => exact ⟨hs, fun a ha => by cases ha⟩
  | ok r =>
    obtain ⟨a, s'⟩ := r
    obtain ⟨hkeep, hans⟩ := h s a s' hs hc
    refine ⟨hkeep, fun b hb => ?_⟩
    cases hb
    exact hans

theorem Holds.attempt {call : σ → Except δ (α × σ)}
    (h : ∀ s a s', I s → call s = .ok (a, s') → I s' ∧ Q a) :
    Holds I (Program.attempt call : Program σ ε (Except δ α)) fun r => ∀ a, r = .ok a → Q a := by
  intro s hs
  simp only [exec, Program.attempt]
  cases hc : call s with
  | error e =>
    refine ⟨hs, fun r hr => ?_⟩
    cases hr
    exact fun a ha => by cases ha
  | ok r =>
    obtain ⟨a, s'⟩ := r
    obtain ⟨hkeep, hans⟩ := h s a s' hs hc
    refine ⟨hkeep, fun r hr => ?_⟩
    cases hr
    rintro b hb
    cases hb
    exact hans

-- -----------------------------------------------------------------------------
-- The state a program leaves, from the state it starts in
-- -----------------------------------------------------------------------------

theorem exec_bind (hm : ∀ e, (m s).1 = .error e → I (m.exec s))
    (hf : ∀ a, (m s).1 = .ok a → I ((f a).exec (m.exec s))) : I ((m >>= f).exec s) := by
  have hstep : (m >>= f) s = Program.bind m f s := rfl
  simp only [exec, hstep, Program.bind] at hm hf ⊢
  cases h : m s with
  | mk r s' =>
    rw [h] at hm hf
    cases r with
    | error e => exact hm e rfl
    | ok a => exact hf a rfl

theorem exec_read_bind {g : σ → Except ε α} (hs : I s)
    (hf : ∀ a, g s = .ok a → I ((f a).exec s)) : I ((Program.read g >>= f).exec s) :=
  exec_bind (fun _ _ => hs) hf

theorem exec_lift_bind {r : Except ε α} (hs : I s) (hf : ∀ a, r = .ok a → I ((f a).exec s)) :
    I (((liftM r : Program σ ε α) >>= f).exec s) :=
  exec_bind (fun _ _ => hs) hf

theorem exec_transact {call : σ → Except ε (α × σ)} (hs : I s)
    (hf : ∀ a s', call s = .ok (a, s') → I s') : I ((Program.transact call).exec s) := by
  simp only [exec, Program.transact]
  cases hc : call s with
  | error e => exact hs
  | ok r => exact hf r.1 r.2 hc

theorem exec_transact_bind {call : σ → Except ε (α × σ)} (hs : I s)
    (hf : ∀ a s', call s = .ok (a, s') → I ((f a).exec s')) :
    I ((Program.transact call >>= f).exec s) := by
  apply exec_bind
  · intro e h
    simp only [exec, Program.transact] at h ⊢
    cases hc : call s with
    | error e => exact hs
    | ok r => simp [hc] at h
  · intro a h
    simp only [exec, Program.transact] at h ⊢
    cases hc : call s with
    | error e => simp [hc] at h
    | ok r =>
      simp only [hc, Except.ok.injEq] at h
      subst h
      exact hf r.1 r.2 hc

theorem exec_attempt_bind {call : σ → Except δ (α × σ)} {g : Except δ α → Program σ ε β}
    (he : ∀ e, call s = .error e → I ((g (.error e)).exec s))
    (hf : ∀ a s', call s = .ok (a, s') → I ((g (.ok a)).exec s')) :
    I ((Program.attempt call >>= g).exec s) := by
  apply exec_bind
  · intro e h
    simp only [Program.attempt] at h
    split at h <;> cases h
  · intro a h
    simp only [exec, Program.attempt] at h ⊢
    cases hc : call s with
    | error e =>
      simp only [hc, Except.ok.injEq] at h
      subst h
      exact he e hc
    | ok r =>
      simp only [hc, Except.ok.injEq] at h
      subst h
      exact hf r.1 r.2 hc

theorem bind_answers {m : Program σ ε α} {f : α → Program σ ε β} (h : m s = (.ok a, s')) :
    (m >>= f) s = f a s' := by
  show Program.bind m f s = _
  rw [Program.bind, h]

theorem bind_fails {m : Program σ ε α} {f : α → Program σ ε β} (h : m s = (.error e, s')) :
    (m >>= f) s = (.error e, s') := by
  show Program.bind m f s = _
  rw [Program.bind, h]

/-- A program of two parts fails in the first, or in the second after the first. -/
theorem bind_error {m : Program σ ε α} {f : α → Program σ ε β} {s s' : σ} {e : ε}
    (h : (m >>= f) s = (.error e, s')) :
    m s = (.error e, s') ∨ ∃ a s₁, m s = (.ok a, s₁) ∧ f a s₁ = (.error e, s') := by
  change Program.bind m f s = _ at h
  rw [Program.bind] at h
  cases hm : m s with
  | mk answer s₁ =>
    rw [hm] at h
    cases answer with
    | error e' =>
      cases h
      exact .inl rfl
    | ok a => exact .inr ⟨a, s₁, rfl, h⟩

theorem bind_ok {m : Program σ ε α} {f : α → Program σ ε β} {s s' : σ} {b : β}
    (h : (m >>= f) s = (.ok b, s')) : ∃ a s₁, m s = (.ok a, s₁) ∧ f a s₁ = (.ok b, s') := by
  change Program.bind m f s = _ at h
  rw [Program.bind] at h
  cases hm : m s with
  | mk answer s₁ =>
    rw [hm] at h
    cases answer with
    | error e => cases h
    | ok a => exact ⟨a, s₁, rfl, h⟩

theorem lift_eq {r : Except ε α} {s s' : σ} {answer : Except ε α}
    (h : (liftM r : Program σ ε α) s = (answer, s')) : r = answer ∧ s = s' := by
  cases h
  exact ⟨rfl, rfl⟩

-- -----------------------------------------------------------------------------
-- Refusals
-- -----------------------------------------------------------------------------

/-- The program fails and leaves the state as it was. -/
def Refuses (m : Program σ ε α) (s : σ) : Prop := ∃ e, m s = (.error e, s)

theorem Refuses.bind (h : m.Refuses s) : (m >>= f).Refuses s := by
  obtain ⟨e, h⟩ := h
  exact ⟨e, bind_fails h⟩

/-- A program that answers without changing the state refuses with what follows. -/
theorem Refuses.after (h : ∀ a, m s = (.ok a, s) → (f a).Refuses s)
    (hm : (m.exec s) = s) : (m >>= f).Refuses s := by
  have hm' : m s = ((m s).1, s) := Prod.ext rfl hm
  cases hr : (m s).1 with
  | error e =>
    rw [hr] at hm'
    exact Refuses.bind ⟨e, hm'⟩
  | ok a =>
    rw [hr] at hm'
    obtain ⟨e, he⟩ := h a hm'
    refine ⟨e, ?_⟩
    show Program.bind m f s = _
    rw [Program.bind, hm']
    exact he

theorem Refuses.lift {r : Except ε α} (h : r = .error e) :
    (liftM r : Program σ ε α).Refuses s := by
  subst h
  exact ⟨e, rfl⟩

-- -----------------------------------------------------------------------------
-- Which errors a program answers
-- -----------------------------------------------------------------------------

/-- Whatever the state, the program fails with one of the errors at most. -/
def FailsOnly (m : Program σ ε α) (E : ε → Prop) : Prop := ∀ s e, (m s).1 = .error e → E e

variable {E : ε → Prop}

theorem FailsOnly.pure (a : α) : FailsOnly (Pure.pure a : Program σ ε α) E := by
  intro s e h
  cases h

theorem FailsOnly.bind (hm : FailsOnly m E) (hf : ∀ a, FailsOnly (f a) E) :
    FailsOnly (m >>= f) E := by
  intro s e h
  have hstep : (m >>= f) s = Program.bind m f s := rfl
  rw [hstep, Program.bind] at h
  cases hr : m s with
  | mk r s' =>
    rw [hr] at h
    cases r with
    | error e' =>
      cases h
      exact hm s e (by rw [hr])
    | ok a => exact hf a s' e h

theorem FailsOnly.read {g : σ → Except ε α} (h : ∀ s e, g s = .error e → E e) :
    FailsOnly (Program.read g) E := h

theorem FailsOnly.lift {r : Except ε α} (h : ∀ e, r = .error e → E e) :
    FailsOnly (liftM r : Program σ ε α) E := fun _ e he => h e he

theorem FailsOnly.mapError {D : δ → Prop} {g : ε → δ} (hm : FailsOnly m E)
    (hg : ∀ e, E e → D (g e)) : FailsOnly (m.mapError g) D := by
  intro s e h
  simp only [Program.mapError] at h
  cases hr : (m s).1 with
  | error e' =>
    rw [hr] at h
    cases h
    exact hg e' (hm s e' hr)
  | ok a =>
    rw [hr] at h
    cases h

end Program

end SiliconHook

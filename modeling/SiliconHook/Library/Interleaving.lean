import SiliconHook.Library.Program
import SiliconHook.Library.Transition

/-!
# Programs among others

Others take steps between the calls of a program, and a call may fail, or commit
without its answer arriving. The steps the others took are kept, so that a run
can be compared with the one without the program.
-/

namespace SiliconHook

variable {σ ι ε δ α β : Type}

inductive Fate
  | answered
  | rolledBack
  | unconfirmed
  deriving DecidableEq, Repr

/-- What the others do before a call, and what becomes of the call. -/
structure Turn (ι : Type) where
  others : List ι
  fate : Fate

/-- The state the parties share, the turns to come, and the others' steps so far. -/
structure Shared (σ ι : Type) where
  state : σ
  turns : List (Turn ι)
  others : List ι

namespace Shared

def begin (state : σ) (turns : List (Turn ι)) : Shared σ ι := ⟨state, turns, []⟩

def yield (step : σ → ι → σ) (s : Shared σ ι) : Fate × Shared σ ι :=
  match s.turns with
  | [] => (.answered, s)
  | turn :: turns => (turn.fate, ⟨run step s.state turn.others, turns, s.others ++ turn.others⟩)

/-- One call, after the others' turn; `lost` stands for an answer that does not come. -/
def call (step : σ → ι → σ) (lost : δ) (transaction : σ → Except δ (α × σ)) (s : Shared σ ι) :
    Except δ α × Shared σ ι :=
  let (fate, s) := s.yield step
  match fate, transaction s.state with
  | .rolledBack, _ => (.error lost, s)
  | _, .error e => (.error e, s)
  | .answered, .ok (a, state) => (.ok a, { s with state })
  | .unconfirmed, .ok (_, state) => (.error lost, { s with state })

variable {step : σ → ι → σ} {s s' : Shared σ ι} {lost : δ} {transaction : σ → Except δ (α × σ)}

theorem yield_steps : ∃ fate labels, s.yield step =
    (fate, ⟨run step s.state labels, s.turns.tail, s.others ++ labels⟩) := by
  unfold yield
  split
  · rename_i hturns
    refine ⟨.answered, [], ?_⟩
    rw [hturns, List.append_nil]
    cases s
    cases hturns
    rfl
  · rename_i turn turns hturns
    exact ⟨turn.fate, turn.others, by rw [hturns]; rfl⟩

/-- Only the others have changed the state. -/
def Untouched (step : σ → ι → σ) (initial : σ) (s : Shared σ ι) : Prop :=
  s.state = run step initial s.others

theorem untouched_begin (initial : σ) (turns : List (Turn ι)) :
    Untouched step initial (begin initial turns) := rfl

theorem Untouched.yield {initial : σ} (h : Untouched step initial s) :
    Untouched step initial (s.yield step).2 := by
  obtain ⟨fate, labels, hyield⟩ := @yield_steps σ ι step s
  rw [hyield, Untouched, run_append]
  exact congrArg (run step · labels) h

theorem call_read {f : σ → Except δ α} (lost : δ) :
    (s.call step lost fun state => (f state).map (·, state)).2 = (s.yield step).2 ∧
      ∀ a, (s.call step lost fun state => (f state).map (·, state)).1 = .ok a ↔
        (s.yield step).1 = .answered ∧ f (s.yield step).2.state = .ok a := by
  unfold call
  cases s.yield step with
  | mk fate after =>
    dsimp only
    cases fate <;> cases f after.state <;> simp [Except.map]

theorem call_ok {a : α} (h : s.call step lost transaction = (.ok a, s')) :
    transaction (s.yield step).2.state = .ok (a, s'.state) ∧ s'.turns = (s.yield step).2.turns ∧
      s'.others = (s.yield step).2.others := by
  unfold call at h
  cases hyield : s.yield step with
  | mk fate after =>
    rw [hyield] at h
    dsimp only at h ⊢
    cases htransaction : transaction after.state with
    | error e => cases fate <;> rw [htransaction] at h <;> cases h
    | ok made =>
      rw [htransaction] at h
      cases fate with
      | answered =>
        cases h
        exact ⟨rfl, rfl, rfl⟩
      | rolledBack | unconfirmed => cases h

theorem call_error {e : δ} (h : s.call step lost transaction = (.error e, s')) :
    ((s.yield step).1 ≠ .rolledBack ∧ transaction (s.yield step).2.state = .error e ∧
        s' = (s.yield step).2) ∨
      (e = lost ∧ s' = (s.yield step).2) ∨
      (e = lost ∧ (s.yield step).1 = .unconfirmed ∧ ∃ a state,
        transaction (s.yield step).2.state = .ok (a, state) ∧
          s' = { (s.yield step).2 with state }) := by
  unfold call at h
  cases hyield : s.yield step with
  | mk fate after =>
    rw [hyield] at h
    dsimp only at h ⊢
    cases htransaction : transaction after.state with
    | error e' =>
      rw [htransaction] at h
      cases fate with
      | rolledBack =>
        cases h
        exact .inr (.inl ⟨rfl, rfl⟩)
      | answered | unconfirmed =>
        cases h
        exact .inl ⟨by simp, rfl, rfl⟩
    | ok made =>
      rw [htransaction] at h
      cases fate with
      | answered => cases h
      | rolledBack =>
        cases h
        exact .inr (.inl ⟨rfl, rfl⟩)
      | unconfirmed =>
        cases h
        exact .inr (.inr ⟨rfl, rfl, made.1, made.2, rfl, rfl⟩)

end Shared

namespace Program

def transactAmong (step : σ → ι → σ) (lost : ε) (transaction : σ → Except ε (α × σ)) :
    Program (Shared σ ι) ε α := Shared.call step lost transaction

def attemptAmong (step : σ → ι → σ) (lost : δ) (transaction : σ → Except δ (α × σ)) :
    Program (Shared σ ι) ε (Except δ α) := fun s =>
  let made := s.call step lost transaction
  (.ok made.1, made.2)

/-- With nobody else, the program among others does what the plain one does. -/
def Alone (among : Program (Shared σ ι) ε α) (alone : Program σ ε α) : Prop :=
  ∀ state, among (.begin state []) = ((alone state).1, .begin (alone state).2 [])

namespace Alone

variable {step : σ → ι → σ}

theorem pure (a : α) : Alone (Pure.pure a : Program (Shared σ ι) ε α) (Pure.pure a) :=
  fun _ => rfl

theorem lift (r : Except ε α) :
    Alone (liftM r : Program (Shared σ ι) ε α) (liftM r : Program σ ε α) := fun _ => rfl

theorem bind {m : Program (Shared σ ι) ε α} {m' : Program σ ε α}
    {f : α → Program (Shared σ ι) ε β} {f' : α → Program σ ε β} (h : Alone m m')
    (hf : ∀ a, Alone (f a) (f' a)) : Alone (m >>= f) (m' >>= f') := by
  intro state
  show Program.bind m f _ = _
  rw [Program.bind, h state]
  show _ = ((Program.bind m' f' state).1, Shared.begin (Program.bind m' f' state).2 [])
  rw [Program.bind]
  cases hm : m' state with
  | mk answer left =>
    cases answer with
    | error e => rfl
    | ok a => exact hf a left

theorem read {lost : ε} (f : σ → Except ε α) :
    Alone (transactAmong step lost fun s => (f s).map (·, s)) (Program.read f) := by
  intro state
  show Shared.call step lost _ _ = _
  unfold Shared.call Program.read
  dsimp only [Shared.yield, Shared.begin]
  cases f state <;> rfl

theorem transact {lost : ε} (transaction : σ → Except ε (α × σ)) :
    Alone (transactAmong step lost transaction) (Program.transact transaction) := by
  intro state
  show Shared.call step lost _ _ = _
  unfold Shared.call Program.transact
  dsimp only [Shared.yield, Shared.begin]
  cases transaction state <;> rfl

theorem attempt {lost : δ} (transaction : σ → Except δ (α × σ)) :
    Alone (attemptAmong (ε := ε) step lost transaction) (Program.attempt transaction) := by
  intro state
  unfold attemptAmong Shared.call Program.attempt
  dsimp only [Shared.yield, Shared.begin]
  cases transaction state <;> rfl

end Alone

end Program

end SiliconHook

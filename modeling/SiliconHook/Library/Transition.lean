import Mathlib.Data.Set.Basic

/-!
# Runs of a transition system

A system is a step function over labels, total because a label that is not
enabled leaves the state alone. A run folds the steps; `Along` says what holds
at each of them, and one rule carries an invariant through every run.
-/

namespace SiliconHook

variable {σ ι : Type}

def run (step : σ → ι → σ) (s : σ) (labels : List ι) : σ := labels.foldl step s

/-- Every step of the run meets `P` in the state it starts from. -/
def Along (step : σ → ι → σ) (P : σ → ι → Prop) : σ → List ι → Prop
  | _, [] => True
  | s, label :: rest => P s label ∧ Along step P (step s label) rest

instance Along.decidable {step : σ → ι → σ} {P : σ → ι → Prop} [h : ∀ s label, Decidable (P s label)] :
    ∀ s labels, Decidable (Along step P s labels)
  | _, [] => isTrue trivial
  | s, label :: rest => @instDecidableAnd _ _ (h s label) (Along.decidable (step s label) rest)

/-- `P` holds in every state of the run. -/
def Always (step : σ → ι → σ) (P : σ → Prop) : σ → List ι → Prop
  | s, [] => P s
  | s, label :: rest => P s ∧ Always step P (step s label) rest

variable {step : σ → ι → σ} {P Q : σ → ι → Prop} {I : σ → Prop} {s : σ}

@[simp]
theorem run_nil : run step s [] = s := rfl

@[simp]
theorem run_cons : run step s (label :: rest) = run step (step s label) rest := rfl

@[simp]
theorem run_append : run step s (first ++ second) = run step (run step s first) second := by
  simp [run]

/-- The invariant rule: what every step keeps, every run keeps. -/
theorem run_invariant (hstep : ∀ s label, I s → P s label → I (step s label))
    (h : I s) (ha : Along step P s labels) : I (run step s labels) := by
  induction labels generalizing s with
  | nil => exact h
  | cons label rest ih => exact ih (hstep s label h ha.1) ha.2

theorem along_of_invariant (hstep : ∀ s label, I s → P s label → I (step s label))
    (hq : ∀ s label, I s → P s label → Q s label) (h : I s) (ha : Along step P s labels) :
    Along step Q s labels := by
  induction labels generalizing s with
  | nil => trivial
  | cons label rest ih => exact ⟨hq s label h ha.1, ih (hstep s label h ha.1) ha.2⟩

theorem always_of_invariant {R : σ → Prop}
    (hstep : ∀ s label, I s → P s label → I (step s label)) (hr : ∀ s, I s → R s) (h : I s)
    (ha : Along step P s labels) : Always step R s labels := by
  induction labels generalizing s with
  | nil => exact hr s h
  | cons label rest ih => exact ⟨hr s h, ih (hstep s label h ha.1) ha.2⟩

/-- Conditions that agree at every state with the invariant agree along every run. -/
theorem along_iff_of_invariant (hstep : ∀ s label, I s → I (step s label))
    (hpq : ∀ s label, I s → (P s label ↔ Q s label)) (h : I s) :
    Along step P s labels ↔ Along step Q s labels := by
  induction labels generalizing s with
  | nil => exact .rfl
  | cons label rest ih => exact and_congr (hpq s label h) (ih (hstep s label h))

theorem along_true : Along step (fun _ _ => True) s labels := by
  induction labels generalizing s with
  | nil => trivial
  | cons label rest ih => exact ⟨trivial, ih⟩

theorem along_append : Along step P s (first ++ second) ↔
    Along step P s first ∧ Along step P (run step s first) second := by
  induction first generalizing s with
  | nil => simp [Along]
  | cons label rest ih => simp [Along, ih, and_assoc]

theorem Always.run {P : σ → Prop} (h : Always step P s labels) : P (run step s labels) := by
  induction labels generalizing s with
  | nil => exact h
  | cons label rest ih => exact ih h.2

/-- Where a step keeps `P` exactly when it meets `Q`, a run keeps `P` throughout
exactly when all its steps meet `Q`. -/
theorem always_iff_along {L : σ → ι → Prop} {P : σ → Prop}
    (hstep : ∀ s label, I s → L s label → I (step s label))
    (hone : ∀ s label, I s → L s label → P s → (P (step s label) ↔ Q s label))
    (h : I s) (hp : P s) (hl : Along step L s labels) :
    Always step P s labels ↔ Along step Q s labels := by
  induction labels generalizing s with
  | nil => exact iff_of_true hp trivial
  | cons label rest ih =>
    obtain ⟨hlabel, hrest⟩ := hl
    have hnext := hstep s label h hlabel
    simp only [Always, Along]
    constructor
    · rintro ⟨-, ha⟩
      have hp' : P (step s label) := by
        cases rest with
        | nil => exact ha
        | cons => exact ha.1
      exact ⟨(hone s label h hlabel hp).mp hp', (ih hnext hp' hrest).mp ha⟩
    · rintro ⟨hq, ha⟩
      have hp' := (hone s label h hlabel hp).mpr hq
      exact ⟨hp, (ih hnext hp' hrest).mpr ha⟩

theorem along_of_forall {L : ι → Prop} (hl : ∀ label ∈ labels, L label) :
    Along step (fun _ label => L label) s labels := by
  induction labels generalizing s with
  | nil => trivial
  | cons label rest ih =>
    exact ⟨hl label List.mem_cons_self, ih fun l hm => hl l (List.mem_cons_of_mem _ hm)⟩

-- -----------------------------------------------------------------------------
-- Steps that commute
-- -----------------------------------------------------------------------------

/-- Steps that commute with each other and do nothing the second time. -/
structure Confluent (step : σ → ι → σ) (labels : Set ι) : Prop where
  comm : ∀ a ∈ labels, ∀ b ∈ labels, ∀ s, step (step s a) b = step (step s b) a
  idem : ∀ a ∈ labels, ∀ s, step (step s a) a = step s a

namespace Confluent

variable {set : Set ι} {a : ι}

theorem run_comm (h : Confluent step set) (hl : ∀ b ∈ labels, b ∈ set) (ha : a ∈ set) :
    step (run step s labels) a = run step (step s a) labels := by
  induction labels generalizing s with
  | nil => rfl
  | cons b rest ih =>
    have hb := hl b (List.mem_cons_self ..)
    rw [run_cons, run_cons, ih fun c hc => hl c (List.mem_cons_of_mem _ hc), h.comm b hb a ha]

theorem run_absorbs (h : Confluent step set) (hl : ∀ b ∈ labels, b ∈ set) (ha : a ∈ labels) :
    step (run step s labels) a = run step s labels := by
  induction labels generalizing s with
  | nil => cases ha
  | cons b rest ih =>
    have hb := hl b (List.mem_cons_self ..)
    have hrest := fun c hc => hl c (List.mem_cons_of_mem b hc)
    rw [run_cons]
    obtain rfl | ha := List.mem_cons.mp ha
    · rw [h.run_comm hrest hb, h.idem a hb]
    · exact ih hrest ha

/-- Runs of the same steps, in any order and with any repetition, end alike. -/
theorem run_eq (h : Confluent step set) (hl : ∀ b ∈ first, b ∈ set)
    (hsame : ∀ b, b ∈ first ↔ b ∈ second) : run step s first = run step s second := by
  have absorb : ∀ (xs ys : List ι), (∀ b ∈ xs, b ∈ set) → (∀ b ∈ ys, b ∈ xs) →
      run step (run step s xs) ys = run step s xs := by
    intro xs ys hx hy
    induction ys with
    | nil => rfl
    | cons y ys ih =>
      rw [run_cons, h.run_absorbs hx (hy y (List.mem_cons_self ..))]
      exact ih fun b hb => hy b (List.mem_cons_of_mem _ hb)
  have hl' : ∀ b ∈ second, b ∈ set := fun b hb => hl b ((hsame b).mpr hb)
  have swap : run step s (first ++ second) = run step s (second ++ first) := by
    refine List.perm_append_comm.foldl_eq' (fun a ha b hb s => ?_) s
    have hmem : ∀ c ∈ first ++ second, c ∈ set := by
      intro c hc
      obtain hc | hc := List.mem_append.mp hc
      · exact hl c hc
      · exact hl' c hc
    exact h.comm a (hmem a ha) b (hmem b hb) s
  calc run step s first
      = run step (run step s first) second := (absorb first second hl fun b hb =>
          (hsame b).mpr hb).symm
    _ = run step s (first ++ second) := (run_append ..).symm
    _ = run step s (second ++ first) := swap
    _ = run step (run step s second) first := run_append ..
    _ = run step s second := absorb second first hl' fun b hb => (hsame b).mp hb

end Confluent

end SiliconHook

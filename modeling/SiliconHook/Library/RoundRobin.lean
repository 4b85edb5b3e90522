import Mathlib.Data.List.Basic
import Mathlib.Logic.Function.Basic

/-!
# Round robin with retirement

A fixed list of tasks takes turns, a bounded number of rounds; a task that reports no
more work, or fails, takes no further turn. What a turn does is a parameter. Every task
gets its turns whatever the others do, and none gets ahead of one that is still at work.
-/

namespace SiliconHook

variable {τ σ : Type} [DecidableEq τ]

/-- The state the tasks work on, the tasks still at work, and the turns taken, each with
whether it left more to do. -/
structure Rota (τ σ : Type) where
  state : σ
  active : τ → Bool
  served : List (τ × Bool)

namespace Rota

variable (work : τ → σ → σ × Bool)

def start (s : σ) : Rota τ σ := ⟨s, fun _ => true, []⟩

def turn (c : Rota τ σ) (t : τ) : Rota τ σ :=
  if c.active t then
    let after := work t c.state
    ⟨after.1, Function.update c.active t after.2, c.served ++ [(t, after.2)]⟩
  else c

def round (tasks : List τ) (c : Rota τ σ) : Rota τ σ := tasks.foldl (turn work) c

def cycle (tasks : List τ) : Nat → Rota τ σ → Rota τ σ
  | 0, c => c
  | rounds + 1, c =>
    let c := round work tasks c
    if tasks.any c.active then cycle tasks rounds c else c

variable {work} {tasks : List τ} {c : Rota τ σ} {t u : τ}

theorem turn_idle (h : c.active t = false) : c.turn work t = c := by
  rw [turn, if_neg (by rw [h]; exact Bool.false_ne_true)]

theorem turn_active (h : c.active t = true) : c.turn work t =
    ⟨(work t c.state).1, Function.update c.active t (work t c.state).2,
      c.served ++ [(t, (work t c.state).2)]⟩ := if_pos h

theorem cycle_invariant {I : Rota τ σ → Prop}
    (hturn : ∀ c t, c.active t = true → I c → I (c.turn work t)) (h : I c) (rounds : Nat) :
    I (c.cycle work tasks rounds) := by
  have hround : ∀ (tasks : List τ) c, I c → I (c.round work tasks) := by
    intro tasks
    induction tasks with
    | nil => exact fun c h => h
    | cons t rest ih =>
      intro c h
      refine ih (c.turn work t) ?_
      cases ht : c.active t with
      | true => exact hturn c t ht h
      | false => exact (turn_idle ht).symm ▸ h
  induction rounds generalizing c with
  | zero => exact h
  | succ rounds ih =>
    rw [cycle]
    split
    · exact ih (hround tasks c h)
    · exact hround tasks c h

-- -----------------------------------------------------------------------------
-- Turns of one task
-- -----------------------------------------------------------------------------

def turnsOf (served : List (τ × Bool)) (t : τ) : List Bool :=
  (served.filter fun turn => turn.1 = t).map Prod.snd

/-- A task at work has taken as many turns as there were; one that is not stopped before. -/
def Kept (n : Nat) (active : Bool) (turns : List Bool) : Prop :=
  if active then turns = .replicate n true
  else ∃ k < n, turns = .replicate k true ++ [false]

theorem turnsOf_append (served : List (τ × Bool)) (more : Bool) :
    turnsOf (served ++ [(t, more)]) u =
      if t = u then turnsOf served u ++ [more] else turnsOf served u := by
  unfold turnsOf
  rw [List.filter_append, List.map_append]
  by_cases h : t = u
  · simp [h]
  · simp [h]

theorem Kept.mono {n : Nat} {turns : List Bool} (h : Kept n false turns) :
    Kept (n + 1) false turns := by
  obtain ⟨k, hk, rfl⟩ := h
  exact ⟨k, Nat.lt_succ_of_lt hk, rfl⟩

theorem Kept.append {n : Nat} {turns : List Bool} (h : Kept n true turns) (more : Bool) :
    Kept (n + 1) more (turns ++ [more]) := by
  obtain rfl : turns = .replicate n true := h
  cases more with
  | true => exact (List.replicate_succ' ..).symm
  | false => exact ⟨n, Nat.lt_succ_self n, rfl⟩

/-- No task is more than a turn ahead of one that has not stopped. -/
def Fair (tasks : List τ) (served : List (τ × Bool)) : Prop :=
  ∀ t ∈ tasks, ∀ u ∈ tasks, (turnsOf served t).length ≤ (turnsOf served u).length + 1 ∨
    (u, false) ∈ served

/-- The tasks of a round that had their turn have taken one more than the others. -/
def Even (tasks done : List τ) (n : Nat) (c : Rota τ σ) : Prop :=
  ∀ t ∈ tasks, Kept (if t ∈ done then n + 1 else n) (c.active t) (turnsOf c.served t)

theorem Kept.length_le {n : Nat} {active : Bool} {turns : List Bool} (h : Kept n active turns) :
    turns.length ≤ n := by
  cases active with
  | true =>
    obtain rfl : turns = .replicate n true := h
    exact Nat.le_of_eq List.length_replicate
  | false =>
    obtain ⟨k, hk, rfl⟩ := h
    rw [List.length_append, List.length_replicate, List.length_singleton]
    exact hk

section Records

variable {ρ : Type} {records : List ρ} {more : ρ → Bool} {n : Nat}

/-- The records of a task still at work: one for every round, each with more to do. -/
theorem Kept.working (h : Kept n true (records.map more)) :
    records.length = n ∧ ∀ record ∈ records, more record = true := by
  have hturns : records.map more = .replicate n true := h
  refine ⟨?_, fun record hm => ?_⟩
  · rw [← List.length_map more, hturns, List.length_replicate]
  · have hmem := List.mem_map_of_mem (f := more) hm
    rw [hturns] at hmem
    exact List.eq_of_mem_replicate hmem

theorem Kept.finished (h : Kept n false (records.map more)) :
    ∃ full last, records = full ++ [last] ∧ full.length < n ∧
      (∀ record ∈ full, more record = true) ∧ more last = false := by
  obtain ⟨k, hk, hturns⟩ := h
  obtain ⟨full, rest, rfl, hfull, hrest⟩ := List.map_eq_append_iff.mp hturns
  obtain ⟨last, rfl, hlast⟩ := List.map_eq_singleton_iff.mp hrest
  obtain ⟨hlength, hall⟩ := Kept.working (n := k) hfull
  exact ⟨full, last, rfl, hlength ▸ hk, hall, hlast⟩

theorem Kept.count_false {active : Bool} {turns : List Bool} (h : Kept n active turns) :
    turns.count false ≤ 1 := by
  cases active with
  | true =>
    obtain rfl : turns = .replicate n true := h
    simp [List.count_replicate]
  | false =>
    obtain ⟨k, -, rfl⟩ := h
    simp [List.count_append, List.count_replicate]

end Records

theorem mem_of_turnsOf {served : List (τ × Bool)} {more : Bool} (h : more ∈ turnsOf served t) :
    (t, more) ∈ served := by
  obtain ⟨turn, hturn, rfl⟩ := List.mem_map.mp h
  obtain ⟨hm, ht⟩ := List.mem_filter.mp hturn
  obtain rfl : turn.1 = t := of_decide_eq_true ht
  exact hm

theorem Even.fair {done : List τ} {n : Nat} (h : Even tasks done n c) : Fair tasks c.served := by
  intro t ht u hu
  have hahead := (h t ht).length_le
  have hbehind := h u hu
  cases ha : c.active u with
  | true =>
    rw [ha] at hbehind
    have hlength : (turnsOf c.served u).length = if u ∈ done then n + 1 else n := by
      rw [show turnsOf c.served u = .replicate _ true from hbehind, List.length_replicate]
    refine .inl ?_
    rw [hlength]
    split at hahead <;> split <;> omega
  | false =>
    rw [ha] at hbehind
    obtain ⟨k, -, hturns⟩ := hbehind
    exact .inr (mem_of_turnsOf (hturns ▸ List.mem_append_right _ (List.mem_singleton_self _)))

theorem Even.turn (work : τ → σ → σ × Bool) {done : List τ} {n : Nat}
    (h : Even tasks done n c) (ht : t ∉ done) : Even tasks (done ++ [t]) n (c.turn work t) := by
  intro u hu
  have hkept := h u hu
  cases ha : c.active t with
  | false =>
    rw [turn_idle ha]
    by_cases htu : t = u
    · subst htu
      rw [if_neg ht, ha] at hkept
      rw [if_pos (by simp), ha]
      exact hkept.mono
    · have hmem : u ∈ done ++ [t] ↔ u ∈ done := by simp [Ne.symm htu]
      simpa only [hmem] using hkept
  | true =>
    rw [turn_active ha]
    dsimp only
    rw [turnsOf_append]
    by_cases htu : t = u
    · subst htu
      rw [if_neg ht, ha] at hkept
      rw [if_pos (by simp), if_pos rfl, Function.update_self]
      exact hkept.append _
    · have hmem : u ∈ done ++ [t] ↔ u ∈ done := by simp [Ne.symm htu]
      rw [if_neg htu, Function.update_of_ne (Ne.symm htu)]
      simpa only [hmem] using hkept

-- -----------------------------------------------------------------------------
-- Cycles
-- -----------------------------------------------------------------------------

/-- Within a round: the tasks of the first list have had their turn of it, and no task
was ever ahead of one still at work. -/
structure Reached (tasks done : List τ) (n : Nat) (c : Rota τ σ) : Prop where
  even : Even tasks done n c
  fair : ∀ past, past <+: c.served → Fair tasks past

theorem Reached.turn (work : τ → σ → σ × Bool) {done : List τ} {n : Nat}
    (h : Reached tasks done n c) (ht : t ∉ done) :
    Reached tasks (done ++ [t]) n (c.turn work t) := by
  have heven := h.even.turn work ht
  refine ⟨heven, fun past hpast => ?_⟩
  cases ha : c.active t with
  | false =>
    rw [turn_idle ha] at hpast
    exact h.fair past hpast
  | true =>
    have hserved : (c.turn work t).served = c.served ++ [(t, (work t c.state).2)] := by
      rw [turn_active ha]
    rcases List.prefix_concat_iff.mp (hserved ▸ hpast) with rfl | hpast
    · exact hserved ▸ heven.fair
    · exact h.fair past hpast

theorem Reached.turns (work : τ → σ → σ × Bool) {done todo : List τ} {n : Nat}
    (hnodup : (done ++ todo).Nodup) (h : Reached tasks done n c) :
    Reached tasks (done ++ todo) n (todo.foldl (Rota.turn work) c) := by
  induction todo generalizing done c with
  | nil => simpa using h
  | cons t rest ih =>
    have ht : t ∉ done := fun hm =>
      (List.nodup_append.mp hnodup).2.2 t hm t List.mem_cons_self rfl
    have hnodup' : (done ++ [t] ++ rest).Nodup := by simpa using hnodup
    have hrest := ih hnodup' (h.turn work ht)
    simpa using hrest

theorem Reached.round (work : τ → σ → σ × Bool) {n : Nat} (hnodup : tasks.Nodup)
    (h : Reached tasks [] n c) : Reached tasks [] (n + 1) (c.round work tasks) := by
  have hall := Reached.turns work (by simpa using hnodup : ([] ++ tasks).Nodup) h
  refine ⟨fun t ht => ?_, hall.fair⟩
  have hkept := hall.even t ht
  rw [List.nil_append, if_pos ht] at hkept
  rw [if_neg List.not_mem_nil]
  exact hkept

theorem Reached.cycle (work : τ → σ → σ × Bool) {n : Nat} (rounds : Nat) (hnodup : tasks.Nodup)
    (h : Reached tasks [] n c) : Reached tasks [] (n + rounds) (c.cycle work tasks rounds) := by
  induction rounds generalizing n c with
  | zero => exact h
  | succ rounds ih =>
    have hround := h.round work hnodup
    rw [Rota.cycle]
    split
    · rw [show n + (rounds + 1) = n + 1 + rounds by omega]
      exact ih hround
    · rename_i hidle
      refine ⟨fun t ht => ?_, hround.fair⟩
      have hstop : (c.round work tasks).active t = false := by
        cases ha : (c.round work tasks).active t with
        | false => rfl
        | true => exact absurd (List.any_eq_true.mpr ⟨t, ht, ha⟩) hidle
      have hkept := hround.even t ht
      rw [if_neg List.not_mem_nil, hstop] at hkept ⊢
      obtain ⟨k, hk, hturns⟩ := hkept
      exact ⟨k, by omega, hturns⟩

theorem reached_start (tasks : List τ) (s : σ) : Reached tasks [] 0 (start s : Rota τ σ) := by
  refine ⟨fun t _ => ?_, fun past hpast => ?_⟩
  · rw [if_neg List.not_mem_nil]
    rfl
  · obtain rfl : past = [] := List.prefix_nil.mp hpast
    exact fun t _ u _ => .inl (Nat.zero_le _)

theorem cycle_reached (work : τ → σ → σ × Bool) (rounds : Nat) (hnodup : tasks.Nodup) (s : σ) :
    (∀ t ∈ tasks, Kept rounds (((start s).cycle work tasks rounds).active t)
      (turnsOf ((start s).cycle work tasks rounds).served t)) ∧
    ∀ past, past <+: ((start s).cycle work tasks rounds).served → Fair tasks past := by
  have h := (reached_start tasks s).cycle work rounds hnodup
  rw [Nat.zero_add] at h
  refine ⟨fun t ht => ?_, h.fair⟩
  have hkept := h.even t ht
  rw [if_neg List.not_mem_nil] at hkept
  exact hkept

end Rota

end SiliconHook

import Mathlib.Data.List.Forall2

/-!
# Fallible steps

What a sequence of checks and fallible calls returned, peeled apart one bind at
a time.
-/

namespace SiliconHook

theorem Except.bind_ok {x : Except ε α} {f : α → Except ε β} :
    x >>= f = .ok b ↔ ∃ a, x = .ok a ∧ f a = .ok b := by
  cases x with
  | error e => simp [bind, Except.bind]
  | ok a => simp [bind, Except.bind]

theorem Except.bind_error {x : Except ε α} {f : α → Except ε β} :
    x >>= f = .error e ↔ x = .error e ∨ ∃ a, x = .ok a ∧ f a = .error e := by
  cases x with
  | error e => simp [bind, Except.bind]
  | ok a => simp [bind, Except.bind]

theorem Except.map_ok {x : Except ε α} {f : α → β} :
    f <$> x = .ok b ↔ ∃ a, x = .ok a ∧ f a = b := by
  cases x with
  | error e => simp [Functor.map, Except.map]
  | ok a => simp [Functor.map, Except.map]

theorem Except.map_error {x : Except ε α} {f : α → β} :
    f <$> x = .error e ↔ x = .error e := by
  cases x <;> simp [Functor.map, Except.map]

theorem Except.map_inj {x y : Except ε α} {f : α → β} (hf : ∀ a b, f a = f b → a = b) :
    f <$> x = f <$> y ↔ x = y := by
  cases x <;> cases y <;> simp [Functor.map, Except.map]
  exact ⟨hf _ _, congrArg f⟩

theorem Except.pure_ok : (pure a : Except ε α) = .ok b ↔ a = b := by
  simp [pure, Except.pure]

theorem Except.mapError_error {x : Except ε α} {f : ε → ε'} :
    x.mapError f = .error e ↔ ∃ e', x = .error e' ∧ f e' = e := by
  cases x <;> simp [Except.mapError]

theorem Except.mapError_ok {x : Except ε α} {f : ε → ε'} : x.mapError f = .ok a ↔ x = .ok a := by
  cases x <;> simp [Except.mapError]

theorem Except.mapM_ok {f : α → Except ε β} {xs : List α} {ys : List β} :
    xs.mapM f = .ok ys ↔ List.Forall₂ (fun x y => f x = .ok y) xs ys := by
  induction xs generalizing ys with
  | nil =>
    rw [List.mapM_nil, Except.pure_ok, List.forall₂_nil_left_iff, eq_comm]
  | cons x xs ih =>
    simp only [List.mapM_cons, Except.bind_ok, Except.pure_ok, List.forall₂_cons_left_iff, ih]
    constructor
    · rintro ⟨y, hy, ys, hys, rfl⟩
      exact ⟨y, ys, hy, hys, rfl⟩
    · rintro ⟨y, ys, hy, hys, rfl⟩
      exact ⟨y, hy, ys, hys, rfl⟩

theorem Except.mapM_error {f : α → Except ε β} {xs : List α} {e : ε}
    (h : xs.mapM f = .error e) : ∃ x ∈ xs, f x = .error e := by
  induction xs with
  | nil => cases h
  | cons x xs ih =>
    rw [List.mapM_cons] at h
    cases hx : f x with
    | error e' =>
      rw [hx] at h
      cases h
      exact ⟨x, List.mem_cons_self .., hx⟩
    | ok y =>
      rw [hx] at h
      cases hxs : xs.mapM f with
      | error e' =>
        have h' : (Except.error e' : Except ε (List β)) = .error e := by
          rw [hxs] at h
          exact h
        obtain ⟨z, hm, hz⟩ := ih (hxs.trans h')
        exact ⟨z, List.mem_cons_of_mem _ hm, hz⟩
      | ok ys =>
        rw [hxs] at h
        cases h

theorem exists_mem_of_forall₂ {R : α → β → Prop} (h : List.Forall₂ R xs ys) (hm : x ∈ xs) :
    ∃ y ∈ ys, R x y := by
  induction h with
  | nil => cases hm
  | cons hr _ ih =>
    obtain _ | ⟨_, hm⟩ := hm
    · exact ⟨_, List.mem_cons_self .., hr⟩
    · obtain ⟨y, hy, hr⟩ := ih hm
      exact ⟨y, List.mem_cons_of_mem _ hy, hr⟩

theorem Except.mapM_answers {f : α → Except ε β} {xs : List α} :
    (∃ ys, xs.mapM f = .ok ys) ↔ ∀ x ∈ xs, ∃ y, f x = .ok y := by
  constructor
  · rintro ⟨ys, hys⟩ x hm
    obtain ⟨y, -, hy⟩ := exists_mem_of_forall₂ (Except.mapM_ok.mp hys) hm
    exact ⟨y, hy⟩
  · intro h
    induction xs with
    | nil => exact ⟨[], rfl⟩
    | cons x rest ih =>
      obtain ⟨y, hy⟩ := h x List.mem_cons_self
      obtain ⟨ys, hys⟩ := ih fun z hz => h z (List.mem_cons_of_mem _ hz)
      exact ⟨y :: ys, by rw [List.mapM_cons, hy, hys]; rfl⟩

theorem Except.mapM_all {f : α → Except ε β} {p : β → Prop} {xs : List α} {ys : List β}
    (h : ∀ x ∈ xs, ∀ y, f x = .ok y → p y) (hys : xs.mapM f = .ok ys) : ∀ y ∈ ys, p y := by
  intro y hm
  obtain ⟨x, hx, hy⟩ := exists_mem_of_forall₂ (Except.mapM_ok.mp hys).flip hm
  exact h x hx y hy

theorem Except.mapM_eq_iff {f g : α → Except ε β} {xs : List α}
    (hf : ∀ x ∈ xs, ∃ y, f x = .ok y) (hg : ∀ x ∈ xs, ∃ y, g x = .ok y) :
    xs.mapM f = xs.mapM g ↔ ∀ x ∈ xs, f x = g x := by
  induction xs with
  | nil => exact iff_of_true rfl fun _ hm => nomatch hm
  | cons x rest ih =>
    have hf' := fun z hz => hf z (List.mem_cons_of_mem _ hz)
    have hg' := fun z hz => hg z (List.mem_cons_of_mem _ hz)
    obtain ⟨y, hy⟩ := hf x List.mem_cons_self
    obtain ⟨z, hz⟩ := hg x List.mem_cons_self
    obtain ⟨ys, hys⟩ := Except.mapM_answers.mpr hf'
    obtain ⟨zs, hzs⟩ := Except.mapM_answers.mpr hg'
    have hleft : (x :: rest).mapM f = .ok (y :: ys) := by rw [List.mapM_cons, hy, hys]; rfl
    have hright : (x :: rest).mapM g = .ok (z :: zs) := by rw [List.mapM_cons, hz, hzs]; rfl
    rw [hleft, hright, List.forall_mem_cons, ← ih hf' hg', hy, hz, hys, hzs]
    simp

theorem forall₂_split {R : α → β → Prop} {before after : List α} {x : α} {ys : List β}
    (h : List.Forall₂ R (before ++ x :: after) ys) : ∃ ys₁ y ys₂, ys = ys₁ ++ y :: ys₂ ∧
      List.Forall₂ R before ys₁ ∧ R x y ∧ List.Forall₂ R after ys₂ := by
  induction before generalizing ys with
  | nil =>
    cases h with
    | cons hxy h => exact ⟨[], _, _, rfl, .nil, hxy, h⟩
  | cons z before ih =>
    cases h with
    | cons hzy h =>
      obtain ⟨ys₁, y, ys₂, rfl, hbefore, hxy, hafter⟩ := ih h
      exact ⟨_ :: ys₁, y, ys₂, rfl, .cons hzy hbefore, hxy, hafter⟩

theorem forall₂_trans {R : α → β → Prop} {S : β → γ → Prop} (h : List.Forall₂ R xs ys)
    (h' : List.Forall₂ S ys zs) : List.Forall₂ (fun x z => ∃ y, R x y ∧ S y z) xs zs := by
  induction h generalizing zs with
  | nil =>
    cases h'
    exact .nil
  | cons hr _ ih =>
    cases h' with
    | cons hs h' => exact .cons ⟨_, hr, hs⟩ (ih h')

theorem forall₂_filterMap {f : α → Option β} {xs : List α}
    (h : (xs.filterMap f).length = xs.length) :
    List.Forall₂ (fun x y => f x = some y) xs (xs.filterMap f) := by
  induction xs with
  | nil => exact .nil
  | cons x xs ih =>
    cases hx : f x with
    | none =>
      rw [List.filterMap_cons_none hx, List.length_cons] at h
      have := List.length_filterMap_le f xs
      omega
    | some y =>
      rw [List.filterMap_cons_some hx, List.length_cons, List.length_cons] at h
      rw [List.filterMap_cons_some hx]
      exact .cons hx (ih (Nat.succ.inj h))

/-- The state a transaction leaves: its own where it committed, the one it began
in where it failed. -/
def commit (s : σ) : Except ε (α × σ) → σ
  | .ok (_, s') => s'
  | .error _ => s

theorem commit_keeps {P : σ → Prop} {r : Except ε (α × σ)} (h : P s)
    (hr : ∀ a s', r = .ok (a, s') → P s') : P (commit s r) := by
  cases r with
  | error e => exact h
  | ok r => exact hr r.1 r.2 rfl

/-- A check: continue where `c` holds, fail with `e` otherwise. -/
def ensure (c : Prop) [Decidable c] (e : ε) : Except ε Unit := if c then .ok () else .error e

@[simp]
theorem ensure_ok [Decidable c] {e : ε} : ensure c e = .ok u ↔ c := by
  unfold ensure
  split <;> simp_all

@[simp]
theorem ensure_error [Decidable c] {e : ε} : ensure c e = .error e' ↔ ¬c ∧ e = e' := by
  unfold ensure
  split <;> simp_all

end SiliconHook

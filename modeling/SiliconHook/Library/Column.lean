import SiliconHook.Library.Table

/-!
# Columns

A column is read and assigned by a lens. An `UPDATE` that assigns a column only
where it is distinct from its target leaves the same rows as one that always
assigns it; what it skips shows in its row count alone.
-/

namespace SiliconHook

structure Column (α β : Type) where
  get : α → β
  set : β → α → α
  get_set : ∀ v r, get (set v r) = v
  set_get : ∀ r, set (get r) r = r

namespace Column

variable {α β : Type} (c : Column α β) (target : α → Option β)

/-- The row with its target in the column, where it has one. -/
def assign (r : α) : α := (target r).elim r (c.set · r)

variable {c target} {r : α} {v : β}

theorem assign_of_none (h : target r = none) : c.assign target r = r := by
  rw [assign, h]
  rfl

theorem assign_of_some (h : target r = some v) : c.assign target r = c.set v r := by
  rw [assign, h]
  rfl

variable [DecidableEq β]

/-- `c IS DISTINCT FROM target`. -/
def differs (c : Column α β) (target : α → Option β) (r : α) : Bool :=
  (target r).any fun v => v ≠ c.get r

def affected (c : Column α β) (target : α → Option β) (rows : List α) : Nat :=
  rows.countP (c.differs target)

theorem assign_of_same (h : c.differs target r = false) : c.assign target r = r := by
  cases ht : target r with
  | none => exact assign_of_none ht
  | some v =>
    have hv : v = c.get r := by simpa [differs, ht] using h
    rw [assign_of_some ht, hv, c.set_get]

theorem update_eq (c : Column α β) (target : α → Option β) (r : α) :
    (if c.differs target r then c.assign target r else r) = c.assign target r := by
  split
  · rfl
  · rename_i h
    exact (assign_of_same (Bool.not_eq_true _ ▸ h)).symm

theorem differs_of_get (h : ∀ v, target r = some v → c.get r = v) : c.differs target r = false := by
  rw [differs, Option.any_eq_false]
  intro v hv
  simp [h v hv]

theorem affected_eq_zero {rows : List α} (h : ∀ r ∈ rows, c.differs target r = false) :
    c.affected target rows = 0 := by
  rw [affected, List.countP_eq_zero]
  intro r hr
  rw [h r hr]
  exact Bool.false_ne_true

theorem map_assign_of_same {rows : List α} (h : ∀ r ∈ rows, c.differs target r = false) :
    rows.map (c.assign target) = rows := by
  have hid : ∀ r ∈ rows, c.assign target r = r := fun r hr => assign_of_same (h r hr)
  exact (List.map_congr_left hid).trans (List.map_id' _)

end Column

namespace Table

open Column

variable {α β κ : Type} [Keyed α κ] [DecidableEq β]

/-- `UPDATE … SET c = target WHERE c IS DISTINCT FROM target`. -/
def assign (t : Table α) (c : Column α β) (target : α → Option β)
    (hkey : ∀ v r, Keyed.key (c.set v r) = Keyed.key r) : Table α :=
  t.update (c.differs target) (c.assign target) fun r => by
    cases ht : target r with
    | none => rw [assign_of_none ht]
    | some v => rw [assign_of_some ht, hkey]

variable {t : Table α} {c : Column α β} {target : α → Option β}
  {hkey : ∀ v r, Keyed.key (c.set v r) = Keyed.key r}

theorem assign_rows : (t.assign c target hkey).rows = t.rows.map (c.assign target) :=
  List.map_congr_left fun r _ => c.update_eq target r

theorem assign_eq_self (h : ∀ r ∈ t.rows, c.differs target r = false) :
    t.assign c target hkey = t :=
  ext (assign_rows.trans (map_assign_of_same h))

theorem find_assign [DecidableEq κ] {k : κ} :
    (t.assign c target hkey).find k = (t.find k).map (c.assign target) := by
  rw [assign, find_update]
  cases t.find k with
  | none => rfl
  | some r => exact congrArg some (c.update_eq target r)

end Table

end SiliconHook

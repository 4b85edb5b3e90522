import Mathlib.Data.List.Basic
import Mathlib.Data.List.Nodup

/-!
# Keyed tables

A table is a list of rows with pairwise distinct keys, in insertion order. Its
operations are those of SQL on one relation: select by key, insert with and
without a conflict clause, update and delete by predicate. Every operation is
described by what `find` returns afterwards, so a proof about rows never looks
at the list.
-/

namespace SiliconHook

class Keyed (α : Type) (κ : outParam Type) where
  key : α → κ

open Keyed (key)

structure Table (α : Type) {κ : Type} [Keyed α κ] where
  rows : List α
  nodup : (rows.map (key (κ := κ))).Nodup

namespace Table

variable {α κ : Type} [Keyed α κ] {t : Table α} {r r' : α} {k : κ}

@[ext]
theorem ext {t u : Table α} (h : t.rows = u.rows) : t = u := by
  cases t
  cases u
  simp_all

instance [DecidableEq α] : DecidableEq (Table α) := fun t u =>
  decidable_of_iff (t.rows = u.rows) ⟨ext, fun h => h ▸ rfl⟩

def empty : Table α := ⟨[], .nil⟩

/-- `SELECT … WHERE p`, in insertion order. -/
def select (t : Table α) (p : α → Bool) : List α := t.rows.filter p

/-- `UPDATE … SET f WHERE p`; the key columns are not assigned. -/
def update (t : Table α) (p : α → Bool) (f : α → α) (hf : ∀ r, key (f r) = key r) : Table α where
  rows := t.rows.map fun r => if p r then f r else r
  nodup := by
    have h : (key ∘ fun r => if p r then f r else r) = key (α := α) := by
      funext r
      simp only [Function.comp]
      split
      · exact hf r
      · rfl
    rw [List.map_map, h]
    exact t.nodup

/-- `DELETE … WHERE p`. -/
def delete (t : Table α) (p : α → Bool) : Table α where
  rows := t.rows.filter fun r => !p r
  nodup := (List.filter_sublist.map key).nodup t.nodup

theorem mem_update (hf : ∀ r, key (f r) = key r) :
    r ∈ (t.update p f hf).rows ↔ ∃ r' ∈ t.rows, (if p r' then f r' else r') = r := by
  simp [update]

theorem mem_delete : r ∈ (t.delete p).rows ↔ r ∈ t.rows ∧ p r = false := by
  simp [delete]

theorem delete_eq_self : t.delete p = t ↔ ∀ r ∈ t.rows, p r = false := by
  constructor
  · intro h r hr
    rw [← h] at hr
    exact (mem_delete.mp hr).2
  · intro h
    refine ext (List.filter_eq_self.mpr ?_)
    intro r hr
    simp [h r hr]

theorem update_eq_self (hf : ∀ r, key (f r) = key r) (h : ∀ r ∈ t.rows, p r = false) :
    t.update p f hf = t := by
  refine ext ?_
  have hid : ∀ r ∈ t.rows, (if p r then f r else r) = r := by
    intro r hr
    simp [h r hr]
  exact (List.map_congr_left hid).trans (List.map_id' _)

theorem select_update_le {q : α → Bool} (hf : ∀ r, key (f r) = key r)
    (h : ∀ r, p r = true → q (f r) = true → q r = true) :
    ((t.update p f hf).select q).length ≤ (t.select q).length := by
  rw [select, select, ← List.countP_eq_length_filter, ← List.countP_eq_length_filter]
  show (t.rows.map fun r => if p r then f r else r).countP q ≤ _
  rw [List.countP_map]
  refine List.countP_mono_left fun r _ hq => ?_
  rw [Function.comp_apply] at hq
  split at hq
  · rename_i hp
    exact h r hp hq
  · exact hq

theorem select_delete_le {q : α → Bool} :
    ((t.delete p).select q).length ≤ (t.select q).length := by
  rw [select, select, delete, List.filter_filter]
  refine (List.monotone_filter_right _ fun r h => ?_).length_le
  exact (Bool.and_eq_true_iff.mp h).1

theorem nodup_rows (t : Table α) : t.rows.Nodup := t.nodup.of_map

theorem eq_of_key (hr : r ∈ t.rows) (hr' : r' ∈ t.rows) (h : key r = key r') : r = r' :=
  List.inj_on_of_nodup_map t.nodup hr hr' h

variable [DecidableEq κ]

def find (t : Table α) (k : κ) : Option α := t.rows.find? fun r => key r = k

theorem find_none : t.find k = none ↔ ∀ r ∈ t.rows, key r ≠ k := by
  simp [find, List.find?_eq_none]

theorem find_some : t.find k = some r ↔ r ∈ t.rows ∧ key r = k := by
  constructor
  · intro h
    exact ⟨List.mem_of_find?_eq_some h, by simpa using List.find?_some h⟩
  · rintro ⟨hr, rfl⟩
    cases hf : t.find (key r) with
    | none => exact absurd rfl (find_none.mp hf r hr)
    | some r' =>
      have hk : key r' = key r := by simpa using List.find?_some hf
      rw [List.inj_on_of_nodup_map t.nodup (List.mem_of_find?_eq_some hf) hr hk]

theorem find_key (h : t.find k = some r) : key r = k := (find_some.mp h).2

theorem mem_rows : r ∈ t.rows ↔ t.find (key r) = some r := by simp [find_some]

/-- `INSERT`, refused when the key is taken. -/
def insert (t : Table α) (r : α) : Option (Table α) :=
  if h : t.find (key r) = none then
    some {
      rows := t.rows ++ [r]
      nodup := by
        rw [List.map_append, List.nodup_append]
        refine ⟨t.nodup, by simp, ?_⟩
        intro k hk k' hk' e
        obtain ⟨r', hr', rfl⟩ := List.mem_map.mp hk
        simp only [List.map_cons, List.map_nil, List.mem_singleton] at hk'
        exact find_none.mp h r' hr' (e.trans hk') }
  else none

/-- `INSERT … ON CONFLICT (key) DO UPDATE SET f`. -/
def upsert (t : Table α) (r : α) (f : α → α) (hf : ∀ r, key (f r) = key r) : Table α :=
  match t.insert r with
  | some t' => t'
  | none => t.update (fun r' => key r' = key r) f hf

def upserted (t : Table α) (r : α) (f : α → α) : α := (t.find (key r)).elim r f

/-- `INSERT … ON CONFLICT DO NOTHING`. -/
def insertOrKeep (t : Table α) (r : α) : Table α := (t.insert r).getD t

@[simp]
theorem find_empty : (empty : Table α).find k = none := rfl

theorem find_update (hf : ∀ r, key (f r) = key r) :
    (t.update p f hf).find k = (t.find k).map fun r => if p r then f r else r := by
  have h : ∀ r : α, key (if p r then f r else r) = key r := by
    intro r
    split
    · exact hf r
    · rfl
  simp only [find, update, List.find?_map]
  congr 2
  funext r
  simp [h r]

theorem select_key {q : α → Bool} :
    (t.select fun r => decide (key r = k) && q r) = (t.find k).toList.filter q := by
  have h : (t.rows.filter fun r => decide (key r = k)) = (t.find k).toList := by
    obtain ⟨rows, hn⟩ := t
    simp only [find]
    induction rows with
    | nil => rfl
    | cons r rows ih =>
      simp only [List.map_cons, List.nodup_cons] at hn
      by_cases hk : key r = k
      · have he : rows.filter (fun r => decide (key r = k)) = [] := by
          rw [List.filter_eq_nil_iff]
          intro r' hr' h
          exact hn.1 (List.mem_map.mpr ⟨r', hr', (of_decide_eq_true h).trans hk.symm⟩)
        simp [hk, he]
      · simpa [hk] using ih hn.2
  rw [← h, List.filter_filter]
  simp only [select, Bool.and_comm]

/-- Where an update concerns one key, the other rows stay around its row. -/
theorem update_split (hf : ∀ r, key (f r) = key r) (hr : t.find k = some r)
    (hp : ∀ r' ∈ t.rows, p r' = true ↔ key r' = k) :
    ∃ before after, t.rows = before ++ r :: after ∧
      (t.update p f hf).rows = before ++ f r :: after := by
  obtain ⟨hm, hk⟩ := find_some.mp hr
  obtain ⟨before, after, hsplit⟩ := List.append_of_mem hm
  have hnodup := t.nodup
  rw [hsplit, List.map_append, List.map_cons, List.nodup_middle, List.nodup_cons] at hnodup
  have hother : ∀ r' ∈ before ++ after, (if p r' then f r' else r') = r' := by
    intro r' hm'
    refine if_neg fun hp' => hnodup.1 ?_
    have hin : r' ∈ t.rows := by
      rw [hsplit, List.mem_append, List.mem_cons]
      obtain hb | ha := List.mem_append.mp hm'
      · exact .inl hb
      · exact .inr (.inr ha)
    rw [hk, ← (hp r' hin).mp hp', ← List.map_append]
    exact List.mem_map_of_mem hm'
  refine ⟨before, after, hsplit, ?_⟩
  show (t.rows.map fun r => if p r then f r else r) = _
  rw [hsplit, List.map_append, List.map_cons, if_pos ((hp r hm).mpr hk)]
  congr 1
  · exact (List.map_congr_left fun r' h => hother r' (List.mem_append.mpr (.inl h))).trans
      (List.map_id _)
  · congr 1
    exact (List.map_congr_left fun r' h => hother r' (List.mem_append.mpr (.inr h))).trans
      (List.map_id _)

theorem find_delete : (t.delete p).find k = (t.find k).filter fun r => !p r := by
  cases hf : t.find k with
  | none =>
    simp only [Option.filter_none, find_none]
    intro r hr
    exact find_none.mp hf r (List.mem_of_mem_filter hr)
  | some r =>
    obtain ⟨hr, rfl⟩ := find_some.mp hf
    cases hp : p r with
    | true =>
      simp only [Option.filter, hp, Bool.not_true, Bool.false_eq_true, if_false, find_none]
      intro r' hr' hk
      obtain ⟨hm, hn⟩ := List.mem_filter.mp hr'
      rw [List.inj_on_of_nodup_map t.nodup hm hr hk, hp] at hn
      exact absurd hn (by decide)
    | false =>
      simp only [Option.filter, hp, Bool.not_false, if_true, find_some]
      exact ⟨List.mem_filter.mpr ⟨hr, by simp [hp]⟩, trivial⟩

theorem insert_eq_none : t.insert r = none ↔ ∃ r', t.find (key r) = some r' := by
  unfold insert
  split
  · simp_all
  · rename_i h
    simpa using Option.ne_none_iff_exists'.mp h

theorem find_insert (h : t.insert r = some t') :
    t'.find k = if k = key r then some r else t.find k := by
  unfold insert at h
  split at h
  · rename_i hn
    cases h
    simp only [find, List.find?_append]
    by_cases hk : k = key r
    · subst hk
      simp only [find] at hn
      simp [hn]
    · simp [hk, Ne.symm hk]
  · cases h

theorem insert_rows (h : t.insert r = some t') : t'.rows = t.rows ++ [r] := by
  unfold insert at h
  split at h
  · cases h
    rfl
  · cases h

theorem insert_fresh (h : t.insert r = some t') : t.find (key r) = none := by
  unfold insert at h
  split at h
  · assumption
  · cases h

theorem mem_insert (h : t.insert r = some t') : r' ∈ t'.rows ↔ r' ∈ t.rows ∨ r' = r := by
  simp [insert_rows h]

theorem find_upsert (hf : ∀ r, key (f r) = key r) :
    (t.upsert r f hf).find k =
      if k = key r then some ((t.find k).elim r f) else t.find k := by
  unfold upsert
  split
  · rename_i t' h
    rw [find_insert h]
    have hn : t.find (key r) = none := by
      cases hn : t.find (key r) with
      | none => rfl
      | some r' => simp [insert_eq_none.mpr ⟨r', hn⟩] at h
    by_cases hk : k = key r
    · simp [hk, hn]
    · simp [hk]
  · rename_i h
    obtain ⟨r', hr⟩ := insert_eq_none.mp h
    rw [find_update]
    by_cases hk : k = key r
    · subst hk
      simp [hr, find_key hr]
    · cases hr' : t.find k with
      | none => simp [hk]
      | some r'' => simp [hk, find_key hr']

theorem find_upserted (hf : ∀ r, key (f r) = key r) :
    (t.upsert r f hf).find (key r) = some (t.upserted r f) := by
  rw [find_upsert, if_pos rfl, upserted]

theorem find_insertOrKeep :
    (t.insertOrKeep r).find k =
      if k = key r then some ((t.find k).getD r) else t.find k := by
  unfold insertOrKeep
  cases h : t.insert r with
  | some t' =>
    have hn : t.find (key r) = none := by
      cases hn : t.find (key r) with
      | none => rfl
      | some r' => simp [insert_eq_none.mpr ⟨r', hn⟩] at h
    simp only [Option.getD_some, find_insert h]
    by_cases hk : k = key r
    · simp [hk, hn]
    · simp [hk]
  | none =>
    obtain ⟨r', hr⟩ := insert_eq_none.mp h
    by_cases hk : k = key r
    · simp [hk, hr]
    · simp [hk]

theorem upsert_rows (hf : ∀ r, key (f r) = key r) :
    (t.upsert r f hf).rows = if (t.find (key r)).isSome then
        t.rows.map fun r' => if key r' = key r then f r' else r' else t.rows ++ [r] := by
  unfold upsert
  split
  · rename_i t' h
    rw [insert_rows h, insert_fresh h]
    rfl
  · rename_i h
    obtain ⟨r', hr⟩ := insert_eq_none.mp h
    simp [hr, update]

-- -----------------------------------------------------------------------------
-- Many rows at once
-- -----------------------------------------------------------------------------

/-- `INSERT … SELECT … ON CONFLICT (key) DO UPDATE SET f`, row after row. -/
def upsertAll (t : Table α) (f : α → α → α) (hf : ∀ new r, key (f new r) = key r) (news : List α) :
    Table α :=
  news.foldl (fun t new => t.upsert new (f new) (hf new)) t

def overwritten (f : α → α → α) (news : List α) (r : α) : α :=
  (news.find? fun new => key new = key r).elim r (f · r)

variable {news : List α} {f : α → α → α} {hf : ∀ new r, key (f new r) = key r}

theorem overwritten_of_not_mem (h : key r ∉ news.map key) : overwritten f news r = r := by
  have hnone : (news.find? fun new => key new = key r) = none := by
    rw [List.find?_eq_none]
    intro new hm
    simpa using fun he => h (List.mem_map.mpr ⟨new, hm, he⟩)
  rw [overwritten, hnone]
  rfl

theorem overwritten_cons {new : α} (hf : ∀ new r, key (f new r) = key r)
    (hnew : key new ∉ news.map key) :
    overwritten f (new :: news) r =
      overwritten f news (if key r = key new then f new r else r) := by
  by_cases h : key r = key new
  · have hkept : key (f new r) ∉ news.map key := by rwa [hf, h]
    rw [if_pos h, overwritten_of_not_mem hkept, overwritten,
      List.find?_cons_of_pos (p := fun new => key new = key r) (decide_eq_true h.symm)]
    rfl
  · have hother : ¬ decide (key new = key r) = true := by
      rw [decide_eq_true_eq]
      exact Ne.symm h
    rw [if_neg h, overwritten, overwritten,
      List.find?_cons_of_neg (p := fun new => key new = key r) hother]

theorem upsertAll_rows (hnodup : (news.map (key (κ := κ))).Nodup) :
    (t.upsertAll f hf news).rows =
      t.rows.map (overwritten f news) ++ news.filter fun new => (t.find (key new)).isNone := by
  induction news generalizing t with
  | nil =>
    have hid : ∀ r ∈ t.rows, overwritten f [] r = r := fun r _ => rfl
    rw [List.filter_nil, List.append_nil, List.map_congr_left hid, List.map_id']
    rfl
  | cons new news ih =>
    rw [List.map_cons, List.nodup_cons] at hnodup
    obtain ⟨hnew, hrest⟩ := hnodup
    have hfind : ∀ other ∈ news, ((t.upsert new (f new) (hf new)).find (key other)).isNone =
        (t.find (key other)).isNone := by
      intro other hm
      have hne : key other ≠ key new := fun he => hnew (List.mem_map.mpr ⟨other, hm, he⟩)
      rw [find_upsert, if_neg hne]
    have hrows := ih (t := t.upsert new (f new) (hf new)) hrest
    rw [List.filter_congr hfind] at hrows
    have hall : t.upsertAll f hf (new :: news) =
      (t.upsert new (f new) (hf new)).upsertAll f hf news := rfl
    rw [hall, hrows, upsert_rows, List.filter_cons]
    cases hf' : t.find (key new) with
    | some r' =>
      have hmap : ∀ r ∈ t.rows, overwritten f news (if key r = key new then f new r else r) =
          overwritten f (new :: news) r := fun r _ => (overwritten_cons hf hnew).symm
      rw [if_pos (by rfl), if_neg (by simp), List.map_map, ← List.map_congr_left hmap]
      rfl
    | none =>
      have hmap : ∀ r ∈ t.rows, overwritten f news r = overwritten f (new :: news) r := by
        intro r hm
        rw [overwritten_cons hf hnew, if_neg (find_none.mp hf' r hm)]
      rw [if_neg (by simp), if_pos (by rfl), List.map_append, List.map_congr_left hmap,
        List.map_singleton, overwritten_of_not_mem hnew, List.append_assoc]
      rfl

theorem find_upsertAll (hnodup : (news.map (key (κ := κ))).Nodup) :
    (t.upsertAll f hf news).find k =
      match news.find? fun new => key new = k with
      | none => t.find k
      | some new => some ((t.find k).elim new (f new)) := by
  induction news generalizing t with
  | nil => rfl
  | cons new news ih =>
    rw [List.map_cons, List.nodup_cons] at hnodup
    obtain ⟨hnew, hrest⟩ := hnodup
    have hall : t.upsertAll f hf (new :: news) =
      (t.upsert new (f new) (hf new)).upsertAll f hf news := rfl
    rw [hall, ih hrest, find_upsert]
    by_cases hk : k = key new
    · have hnone : (news.find? fun other => key other = k) = none := by
        rw [List.find?_eq_none]
        intro other hm
        simpa using fun he => hnew (List.mem_map.mpr ⟨other, hm, he.trans hk⟩)
      rw [hnone, if_pos hk,
        List.find?_cons_of_pos (p := fun new => key new = k) (decide_eq_true hk.symm)]
    · have hother : ¬ decide (key new = k) = true := by
        rw [decide_eq_true_eq]
        exact Ne.symm hk
      rw [if_neg hk, List.find?_cons_of_neg (p := fun new => key new = k) hother]

end Table

end SiliconHook

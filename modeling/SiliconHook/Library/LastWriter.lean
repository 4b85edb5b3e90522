import Mathlib.Order.Bounds.Basic
import Mathlib.Data.Set.Insert

/-!
# Registers that only move forward

A register keeps the write with the largest stamp, or the largest of the marks
it was raised to. Writes commute and repeat without effect, and what they leave
is read off the set of writes.
-/

namespace SiliconHook

variable {τ β : Type} [LinearOrder τ]

namespace LastWriter

/-- The write, where its stamp is later than the register's. -/
def put (register : Option τ × β) (write : τ × β) : Option τ × β :=
  if register.1.all (· < write.1) then (some write.1, write.2) else register

theorem put_idem (register : Option τ × β) (write : τ × β) :
    put (put register write) write = put register write := by
  cases h : register.1.all (· < write.1) with
  | true => simp [put, h]
  | false => simp [put, h]

theorem put_comm {v w : τ × β} (h : v.1 = w.1 → v = w) (register : Option τ × β) :
    put (put register v) w = put (put register w) v := by
  obtain heq | hne := eq_or_ne v.1 w.1
  · rw [h heq]
  · obtain ⟨stamp, value⟩ := register
    cases stamp with
    | none =>
      rcases lt_or_gt_of_ne hne with hlt | hlt
      · simp [put, hlt, hlt.le]
      · simp [put, hlt, hlt.le]
    | some t =>
      by_cases hv : t < v.1 <;> by_cases hw : t < w.1
      · rcases lt_or_gt_of_ne hne with hlt | hlt
        · simp [put, hv, hw, hlt, hlt.le]
        · simp [put, hv, hw, hlt, hlt.le]
      · simp [put, hv, hw, (not_lt.mp hw).trans hv.le]
      · simp [put, hv, hw, (not_lt.mp hv).trans hw.le]
      · simp [put, hv, hw]

/-- The register holds the latest of the writes that are later than what it held
at first, or what it held at first. -/
def Settled (first : Option τ × β) (writes : Set (τ × β)) (register : Option τ × β) : Prop :=
  (register = first ∧ ∀ w ∈ writes, first.1.all (· < w.1) = false) ∨
    ∃ w ∈ writes, first.1.all (· < w.1) = true ∧ register = (some w.1, w.2) ∧
      ∀ w' ∈ writes, w'.1 ≤ w.1

theorem Settled.empty (first : Option τ × β) : Settled first ∅ first :=
  .inl ⟨rfl, by simp⟩

theorem Settled.put {first register : Option τ × β} {writes : Set (τ × β)}
    (h : Settled first writes register) (write : τ × β) :
    Settled first (insert write writes) (put register write) := by
  unfold LastWriter.put
  obtain ⟨rfl, hnone⟩ | ⟨w, hw, hfirst, rfl, hmax⟩ := h
  · cases hlater : register.1.all (· < write.1) with
    | true =>
      refine .inr ⟨write, Set.mem_insert _ _, hlater, rfl, ?_⟩
      rintro w' (rfl | hw')
      · exact le_rfl
      · -- an earlier write is not later than the first content
        have hfalse := hnone w' hw'
        by_contra hgt
        have : register.1.all (· < w'.1) = true := by
          cases hr : register.1 with
          | none => rfl
          | some t =>
            simp only [hr, Option.all_some, decide_eq_true_eq] at hlater ⊢
            exact hlater.trans (not_le.mp hgt)
        rw [this] at hfalse
        cases hfalse
    | false =>
      refine .inl ⟨rfl, ?_⟩
      rintro w' (rfl | hw')
      · exact hlater
      · exact hnone w' hw'
  · by_cases hlt : w.1 < write.1
    · simp only [Option.all_some, hlt, decide_true, if_true]
      refine .inr ⟨write, Set.mem_insert _ _, ?_, rfl, ?_⟩
      · cases hr : first.1 with
        | none => rfl
        | some t =>
          simp only [hr, Option.all_some, decide_eq_true_eq] at hfirst ⊢
          exact hfirst.trans hlt
      · rintro w' (rfl | hw')
        · exact le_rfl
        · exact (hmax w' hw').trans hlt.le
    · simp only [Option.all_some, hlt, decide_false, Bool.false_eq_true, if_false]
      refine .inr ⟨w, Set.mem_insert_of_mem _ hw, hfirst, rfl, ?_⟩
      rintro w' (rfl | hw')
      · exact not_lt.mp hlt
      · exact hmax w' hw'

end LastWriter

namespace HighWater

def raise (register : Option τ) (mark : τ) : Option τ := some (register.elim mark (max mark))

theorem raise_idem (register : Option τ) (mark : τ) :
    raise (raise register mark) mark = raise register mark := by
  cases register <;> simp [raise]

theorem raise_comm (register : Option τ) (a b : τ) :
    raise (raise register a) b = raise (raise register b) a := by
  cases register with
  | none => simp [raise, max_comm]
  | some m => simp [raise, max_left_comm]

/-- The register holds the greatest mark. -/
def Holds (register : Option τ) (marks : Set τ) : Prop :=
  match register with
  | none => marks = ∅
  | some stored => IsGreatest marks stored

theorem Holds.first (register : Option τ) : Holds register { mark | register = some mark } := by
  cases register with
  | none => simp [Holds]
  | some stored =>
    refine ⟨rfl, ?_⟩
    rintro _ ⟨⟩
    exact le_rfl

theorem Holds.raise {register : Option τ} {marks : Set τ} (h : Holds register marks) (mark : τ) :
    Holds (raise register mark) (insert mark marks) := by
  cases register with
  | none =>
    cases (show marks = ∅ from h)
    simp [HighWater.raise, Holds, IsGreatest, upperBounds]
  | some stored => exact IsGreatest.insert mark h

end HighWater

end SiliconHook

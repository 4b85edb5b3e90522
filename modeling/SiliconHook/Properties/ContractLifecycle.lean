import SiliconHook.Api.Contracts
import SiliconHook.Library.Result
import SiliconHook.Library.Transition

/-!
# A version ends only after its notice

Requests, handshakes, status checks and the operator's commands in any order: the
served major is refused exactly once a deprecation was in force and the major was not
requested for the whole window, and a client that keeps asking is never cut off.
-/

namespace SiliconHook

open Api Text

-- -----------------------------------------------------------------------------
-- Runs
-- -----------------------------------------------------------------------------

inductive ContractEvent
  | seen (major : String) (status : ContractStatus) (at' : Instant)
  | served (major : String) (at' : Instant)
  | commanded (deprecated : Bool) (major : String) (at' : Instant)
  deriving DecidableEq, Repr

namespace ContractEvent

def major : ContractEvent → String
  | seen major _ _ | served major _ | commanded _ major _ => major

def at' : ContractEvent → Instant
  | seen _ _ at' | served _ at' | commanded _ _ at' => at'

def deprecates (major : String) (event : ContractEvent) : Bool :=
  event = .commanded true major event.at'

def renews (major : String) (event : ContractEvent) : Bool :=
  match event with
  | .seen .. => false
  | .served m _ | .commanded _ m _ => m = major

def closes (major : String) (event : ContractEvent) : Bool :=
  match event with
  | .seen m status _ => m = major ∧ status = .sunset
  | .served .. => false
  | .commanded deprecated m _ => m = major ∧ deprecated = false

end ContractEvent

/-- The contracts, the clock, and what happened, newest first. -/
structure ContractWorld where
  contracts : ContractVersions
  clock : Instant
  history : List ContractEvent

/-- The requests, the handshakes, the status checks of the catalog and of the maintenance
cycle, and the operator's commands. -/
inductive ContractLabel
  | requested (headers : HeaderMap) (path : String) (now : Instant)
  | negotiated (headers : HeaderMap) (now : Instant)
  | inspected (major : String) (now : Instant)
  | commanded (deprecated : Bool) (major : String) (now : Instant)

def ContractLabel.now : ContractLabel → Instant
  | requested _ _ now | negotiated _ now | inspected _ now | commanded _ _ now => now

namespace ContractWorld

def seen (major : String) (now : Instant) (contracts : ContractVersions) : List ContractEvent :=
  ((contracts.contractStatus major false now).1.map fun contract =>
    ContractEvent.seen major contract.status now).toList

/-- What a request leaves to see; one that is not admitted to its major leaves nothing. -/
def answered (headers : HeaderMap) (path : String) (now : Instant) (contracts : ContractVersions) :
    List ContractEvent :=
  match (checkPinned headers path).toOption, splitPath path with
  | some _, some (major, _) =>
    match (enforceApiVersion headers path now contracts).1.outcome with
    | .ok _ => [.served major now]
    | .error _ => [.seen major .sunset now]
  | _, _ => []

def step (w : ContractWorld) : ContractLabel → ContractWorld
  | .requested headers path now =>
    ⟨(enforceApiVersion headers path now w.contracts).2, now,
      answered headers path now w.contracts ++ w.history⟩
  | .negotiated headers now =>
    ⟨(negotiate headers now w.contracts).2, now,
      supportedApiVersions.flatMap (seen · now w.contracts) ++ w.history⟩
  | .inspected major now =>
    ⟨(statusMajor major false now w.contracts).2, now, seen major now w.contracts ++ w.history⟩
  | .commanded deprecated major now =>
    ⟨w.contracts.command deprecated major now, now,
      if major ∈ contractMajors then .commanded deprecated major now :: w.history
      else w.history⟩

/-- The database's clock does not go back. -/
def Ordered (w : ContractWorld) (label : ContractLabel) : Prop := w.clock ≤ label.now

instance : DecidableRel Ordered := fun w label => inferInstanceAs (Decidable (w.clock ≤ label.now))

/-- A database as the migrations leave it: only retired majors have rows, all ended. -/
structure Migrated (w : ContractWorld) : Prop where
  retired : ∀ row ∈ w.contracts.rows, row.major ≠ "v3" ∧ row.status = .sunset
  requested : ∀ row ∈ w.contracts.rows, ∀ at' ∈ row.lastRequestedAt, at' ≤ w.clock
  fresh : w.history = []

end ContractWorld

-- -----------------------------------------------------------------------------
-- Notice
-- -----------------------------------------------------------------------------

/-- The operator deprecated the major at the instant, and since then it was neither
activated nor found ended. -/
def InForce (history : List ContractEvent) (major : String) (since : Instant) : Prop :=
  ∃ later earlier, history = later ++ .commanded true major since :: earlier ∧
    ∀ event ∈ later, event.closes major = false

/-- The major was found ended after a whole window of notice in which nothing requested
it, and nothing renewed it since. -/
def Ended (history : List ContractEvent) (major : String) : Prop :=
  ∃ later found earlier since,
    history = later ++ .seen major .sunset found :: earlier ∧
    InForce earlier major since ∧ since + contractIdle ≤ found ∧
    (∀ at', .served major at' ∈ earlier → at' + contractIdle ≤ found) ∧
    ∀ event ∈ later, event.renews major = false

variable {history : List ContractEvent} {major : String} {event : ContractEvent}

theorem inForce_cons {since : Instant} : InForce (event :: history) major since ↔
    event = .commanded true major since ∨
      event.closes major = false ∧ InForce history major since := by
  constructor
  · rintro ⟨later, earlier, h, hlater⟩
    rcases List.cons_eq_append_iff.mp h with ⟨rfl, hevent⟩ | ⟨rest, rfl, hrest⟩
    · exact .inl (List.cons.inj hevent).1.symm
    · exact .inr ⟨hlater event List.mem_cons_self, rest, earlier, hrest,
        fun other hm => hlater other (List.mem_cons_of_mem _ hm)⟩
  · rintro (rfl | ⟨hcloses, later, earlier, rfl, hlater⟩)
    · exact ⟨[], history, rfl, fun _ hm => absurd hm List.not_mem_nil⟩
    · exact ⟨event :: later, earlier, rfl, List.forall_mem_cons.mpr ⟨hcloses, hlater⟩⟩

def EndsAt (history : List ContractEvent) (major : String) (now : Instant) : Prop :=
  ∃ since, InForce history major since ∧ since + contractIdle ≤ now ∧
    ∀ at', .served major at' ∈ history → at' + contractIdle ≤ now

theorem ended_cons : Ended (event :: history) major ↔
    (∃ found, event = .seen major .sunset found ∧ EndsAt history major found) ∨
      event.renews major = false ∧ Ended history major := by
  constructor
  · rintro ⟨later, found, earlier, since, h, hforce, hsince, hserved, hlater⟩
    rcases List.cons_eq_append_iff.mp h with ⟨rfl, hevent⟩ | ⟨rest, rfl, hrest⟩
    · obtain ⟨rfl, rfl⟩ := List.cons.inj hevent
      exact .inl ⟨found, rfl, since, hforce, hsince, hserved⟩
    · exact .inr ⟨hlater event List.mem_cons_self, rest, found, earlier, since, hrest, hforce,
        hsince, hserved, fun other hm => hlater other (List.mem_cons_of_mem _ hm)⟩
  · rintro (⟨found, rfl, since, hforce, hsince, hserved⟩ |
      ⟨hrenews, later, found, earlier, since, rfl, hforce, hsince, hserved, hlater⟩)
    · exact ⟨[], found, history, since, rfl, hforce, hsince, hserved,
        fun _ hm => absurd hm List.not_mem_nil⟩
    · exact ⟨event :: later, found, earlier, since, rfl, hforce, hsince, hserved,
        List.forall_mem_cons.mpr ⟨hrenews, hlater⟩⟩

theorem InForce.mem {since : Instant} (h : InForce history major since) :
    .commanded true major since ∈ history := by
  obtain ⟨later, earlier, rfl, -⟩ := h
  exact List.mem_append_right _ List.mem_cons_self

theorem Ended.major_eq (h : Ended history major) : ∃ event ∈ history, event.major = major := by
  obtain ⟨later, found, earlier, since, rfl, -⟩ := h
  exact ⟨_, List.mem_append_right _ List.mem_cons_self, rfl⟩

theorem closes_of_ne (h : event.major ≠ major) : event.closes major = false := by
  cases event with
  | seen m status at' => exact decide_eq_false fun hc => h hc.1
  | served m at' => rfl
  | commanded deprecated m at' => exact decide_eq_false fun hc => h hc.1

theorem renews_of_ne (h : event.major ≠ major) : event.renews major = false := by
  cases event with
  | seen m status at' => rfl
  | served m at' => exact decide_eq_false h
  | commanded deprecated m at' => exact decide_eq_false h

theorem inForce_cons_of_ne {since : Instant} (h : event.major ≠ major) :
    InForce (event :: history) major since ↔ InForce history major since := by
  rw [inForce_cons]
  constructor
  · rintro (rfl | ⟨-, hforce⟩)
    · exact absurd rfl h
    · exact hforce
  · exact fun hforce => .inr ⟨closes_of_ne h, hforce⟩

theorem ended_cons_of_ne (h : event.major ≠ major) :
    Ended (event :: history) major ↔ Ended history major := by
  rw [ended_cons]
  constructor
  · rintro (⟨found, rfl, -⟩ | ⟨-, hended⟩)
    · exact absurd rfl h
    · exact hended
  · exact fun hended => .inr ⟨renews_of_ne h, hended⟩

-- -----------------------------------------------------------------------------
-- Rows
-- -----------------------------------------------------------------------------

def servedCount (history : List ContractEvent) (major : String) : Nat :=
  history.countP fun event => event = .served major event.at'

/-- What the row of a major says about what happened. -/
structure RowInv (row : ContractRow) (history : List ContractEvent) (clock : Instant)
    (major : String) (base : Int) : Prop where
  deprecated : row.status = .deprecated →
    ∃ since, row.deprecatedAt = some since ∧ InForce history major since
  inForce : ∀ since, InForce history major since →
    row.status = .deprecated ∧ ∃ first, row.deprecatedAt = some first ∧ first ≤ since
  active : row.status = .active → row.deprecatedAt = none
  sunset : row.status = .sunset →
    Ended history major ∨ major ≠ "v3" ∧ ∀ event ∈ history, event.renews major = false
  ended : Ended history major → row.status = .sunset
  requested : ∀ at', .served major at' ∈ history →
    ∃ last, row.lastRequestedAt = some last ∧ at' ≤ last
  last : ∀ at', row.lastRequestedAt = some at' →
    at' ≤ clock ∧ (.served major at' ∈ history ∨ ∀ event ∈ history, at' ≤ event.at')
  times : ∀ event ∈ history, event.at' ≤ clock
  count : row.requestCount = base + servedCount history major

namespace RowInv

variable {row : ContractRow} {clock now : Instant} {base : Int}

theorem le_sub_idle {at' : Instant} : at' ≤ now - contractIdle ↔ at' + contractIdle ≤ now :=
  ⟨Int.add_le_of_le_sub_right, Int.le_sub_right_of_add_le⟩

/-- The status check ends the major exactly where its notice has run out. -/
theorem idle_iff (h : RowInv row history clock major base) (hd : row.status = .deprecated) :
    row.idle now = true ↔ EndsAt history major now := by
  obtain ⟨first, hfirst, hforce⟩ := h.deprecated hd
  have hidle : row.idle now = true ↔ first + contractIdle ≤ now ∧
      ∀ at' ∈ row.lastRequestedAt, at' + contractIdle ≤ now := by
    unfold ContractRow.idle
    rw [hfirst]
    cases row.lastRequestedAt with
    | none => simp [le_sub_idle]
    | some last => simp [le_sub_idle]
  rw [hidle]
  constructor
  · rintro ⟨hnotice, hlast⟩
    refine ⟨first, hforce, hnotice, fun at' hm => ?_⟩
    obtain ⟨last, hl, hle⟩ := h.requested at' hm
    exact (Int.add_le_add_right hle _).trans (hlast last hl)
  · rintro ⟨since, hsince, hnotice, hserved⟩
    obtain ⟨-, first', hfirst', hle⟩ := h.inForce since hsince
    obtain rfl : first = first' := Option.some.inj (hfirst.symm.trans hfirst')
    refine ⟨(Int.add_le_add_right hle _).trans hnotice, fun at' hm => ?_⟩
    rcases (h.last at' hm).2 with hm | hm
    · exact hserved at' hm
    · exact (Int.add_le_add_right (hm _ hsince.mem) _).trans hnotice

theorem servedCount_cons (event : ContractEvent) :
    servedCount (event :: history) major =
      servedCount history major + if event = .served major event.at' then 1 else 0 := by
  unfold servedCount
  rw [List.countP_cons]
  simp only [decide_eq_true_eq]

theorem requested_cons (h : RowInv row history clock major base)
    (hserves : ∀ at', event ≠ .served major at') (at' : Instant)
    (hm : .served major at' ∈ event :: history) :
    ∃ last, row.lastRequestedAt = some last ∧ at' ≤ last := by
  rcases List.mem_cons.mp hm with heq | hm
  · exact absurd heq.symm (hserves at')
  · exact h.requested at' hm

theorem count_cons (h : RowInv row history clock major base)
    (hserves : ∀ at', event ≠ .served major at') :
    row.requestCount = base + servedCount (event :: history) major := by
  rw [servedCount_cons, if_neg (hserves event.at')]
  exact h.count

theorem last_cons (h : RowInv row history clock major base) (hat : event.at' = clock)
    (at' : Instant) (hl : row.lastRequestedAt = some at') :
    at' ≤ clock ∧ (.served major at' ∈ event :: history ∨
      ∀ other ∈ event :: history, at' ≤ other.at') := by
  obtain ⟨hle, hlast⟩ := h.last at' hl
  refine ⟨hle, hlast.imp (List.mem_cons_of_mem _) fun hall => ?_⟩
  exact List.forall_mem_cons.mpr ⟨hat ▸ hle, hall⟩

theorem pass (h : RowInv row history clock major base) (hnow : clock ≤ now) :
    RowInv row history now major base where
  deprecated := h.deprecated
  inForce := h.inForce
  active := h.active
  sunset := h.sunset
  ended := h.ended
  requested := h.requested
  last at' hl := ⟨(h.last at' hl).1.trans hnow, (h.last at' hl).2⟩
  times event hm := (h.times event hm).trans hnow
  count := h.count

theorem other (h : RowInv row history clock major base) (hne : event.major ≠ major)
    (hat : event.at' = clock) : RowInv row (event :: history) clock major base where
  deprecated hd := by
    obtain ⟨since, hsince, hforce⟩ := h.deprecated hd
    exact ⟨since, hsince, (inForce_cons_of_ne hne).mpr hforce⟩
  inForce since hforce := h.inForce since ((inForce_cons_of_ne hne).mp hforce)
  active := h.active
  sunset hs := by
    rcases h.sunset hs with hended | ⟨hv3, hrenews⟩
    · exact .inl ((ended_cons_of_ne hne).mpr hended)
    · exact .inr ⟨hv3, List.forall_mem_cons.mpr ⟨renews_of_ne hne, hrenews⟩⟩
  ended hended := h.ended ((ended_cons_of_ne hne).mp hended)
  requested := h.requested_cons fun at' heq => hne (congrArg ContractEvent.major heq)
  last := h.last_cons hat
  times := List.forall_mem_cons.mpr ⟨hat.le, h.times⟩
  count := h.count_cons fun at' heq => hne (congrArg ContractEvent.major heq)

theorem ends (h : RowInv row history clock major base) (hends : EndsAt history major clock) :
    RowInv { row with status := .sunset, sunsetAt := some clock }
      (.seen major .sunset clock :: history) clock major base where
  deprecated hd := by cases hd
  inForce since hforce := by
    rcases inForce_cons.mp hforce with heq | ⟨hcloses, -⟩
    · cases heq
    · exact absurd hcloses (by simp [ContractEvent.closes])
  active ha := by cases ha
  sunset _ := .inl (ended_cons.mpr (.inl ⟨clock, rfl, hends⟩))
  ended _ := rfl
  requested := h.requested_cons fun at' heq => by cases heq
  last := h.last_cons rfl
  times := List.forall_mem_cons.mpr ⟨Int.le_refl _, h.times⟩
  count := h.count_cons fun at' heq => by cases heq

theorem look (h : RowInv row history clock major base) :
    RowInv row (.seen major row.status clock :: history) clock major base where
  deprecated hd := by
    obtain ⟨since, hsince, hforce⟩ := h.deprecated hd
    refine ⟨since, hsince, inForce_cons.mpr (.inr ⟨?_, hforce⟩)⟩
    simp [ContractEvent.closes, hd]
  inForce since hforce := by
    rcases inForce_cons.mp hforce with heq | ⟨-, hforce⟩
    · cases heq
    · exact h.inForce since hforce
  active := h.active
  sunset hs := by
    rcases h.sunset hs with hended | ⟨hv3, hrenews⟩
    · exact .inl (ended_cons.mpr (.inr ⟨rfl, hended⟩))
    · exact .inr ⟨hv3, List.forall_mem_cons.mpr ⟨rfl, hrenews⟩⟩
  ended hended := by
    rcases ended_cons.mp hended with ⟨found, heq, -⟩ | ⟨-, hended⟩
    · exact (ContractEvent.seen.inj heq).2.1
    · exact h.ended hended
  requested := h.requested_cons fun at' heq => by cases heq
  last := h.last_cons rfl
  times := List.forall_mem_cons.mpr ⟨Int.le_refl _, h.times⟩
  count := h.count_cons fun at' heq => by cases heq

theorem serve (h : RowInv row history clock major base) (hs : row.status ≠ .sunset) :
    RowInv { row with lastRequestedAt := some clock, requestCount := row.requestCount + 1 }
      (.served major clock :: history) clock major base where
  deprecated hd := by
    obtain ⟨since, hsince, hforce⟩ := h.deprecated hd
    exact ⟨since, hsince, inForce_cons.mpr (.inr ⟨rfl, hforce⟩)⟩
  inForce since hforce := by
    rcases inForce_cons.mp hforce with heq | ⟨-, hforce⟩
    · cases heq
    · exact h.inForce since hforce
  active := h.active
  sunset hsunset := absurd hsunset hs
  ended hended := by
    rcases ended_cons.mp hended with ⟨found, heq, -⟩ | ⟨-, hended⟩
    · cases heq
    · exact h.ended hended
  requested at' hm := by
    refine ⟨clock, rfl, ?_⟩
    rcases List.mem_cons.mp hm with heq | hm
    · exact (ContractEvent.served.inj heq).2.le
    · exact h.times _ hm
  last at' hl := by
    obtain rfl : clock = at' := Option.some.inj hl
    exact ⟨Int.le_refl _, .inl List.mem_cons_self⟩
  times := List.forall_mem_cons.mpr ⟨Int.le_refl _, h.times⟩
  count := by
    have hone : servedCount (.served major clock :: history) major =
        servedCount history major + 1 := by
      rw [servedCount_cons]
      exact congrArg _ (if_pos rfl)
    rw [hone, Int.natCast_add, ← Int.add_assoc, ← h.count]
    rfl

theorem checked (h : RowInv row history clock major base) (recordRequest : Bool) :
    RowInv (row.checked recordRequest clock)
      ((if recordRequest = true ∧ (row.checked recordRequest clock).status ≠ .sunset
        then .served major clock
        else .seen major (row.checked recordRequest clock).status clock) :: history)
      clock major base := by
  by_cases hends : row.status = .deprecated ∧ row.idle clock = true
  · have hsettle : row.settle clock = { row with status := .sunset, sunsetAt := some clock } :=
      if_pos hends
    have hchecked : row.checked recordRequest clock = row.settle clock := by
      rw [ContractRow.checked, hsettle]
      split <;> rfl
    rw [hchecked, hsettle, if_neg fun hr => hr.2 rfl]
    exact h.ends ((h.idle_iff hends.1).mp hends.2)
  · have hsettle : row.settle clock = row := if_neg hends
    cases recordRequest with
    | false =>
      rw [ContractRow.checked, if_neg Bool.false_ne_true, hsettle, if_neg fun hr => by cases hr.1]
      exact h.look
    | true =>
      rw [ContractRow.checked, if_pos rfl, hsettle]
      by_cases hs : row.status = .sunset
      · have hrecorded : row.recorded clock = row := if_pos hs
        rw [hrecorded, if_neg fun hr => hr.2 hs]
        exact h.look
      · have hrecorded : row.recorded clock =
            { row with lastRequestedAt := some clock, requestCount := row.requestCount + 1 } :=
          if_neg hs
        rw [hrecorded, if_pos ⟨rfl, hs⟩]
        exact h.serve hs

/-- A status check finds the served major ended exactly where it ended, or ends it. -/
theorem checked_sunset (h : RowInv row history clock "v3" base) (recordRequest : Bool) :
    (row.checked recordRequest clock).status = .sunset ↔
      Ended (.seen "v3" .sunset clock :: history) "v3" := by
  have hchecked := h.checked recordRequest
  constructor
  · intro hs
    rw [if_neg fun hr => hr.2 hs, hs] at hchecked
    rcases hchecked.sunset hs with hended | ⟨hne, -⟩
    · exact hended
    · exact absurd rfl hne
  · intro hended
    have hsettled : (row.settle clock).status = .sunset := by
      rcases ended_cons.mp hended with ⟨found, heq, hends⟩ | ⟨-, hended⟩
      · obtain rfl : clock = found := (ContractEvent.seen.inj heq).2.2
        obtain ⟨since, hforce, -⟩ := id hends
        have hd := (h.inForce since hforce).1
        rw [ContractRow.settle, if_pos ⟨hd, (h.idle_iff hd).mpr hends⟩]
      · have hs := h.ended hended
        rw [ContractRow.settle, if_neg fun hd => by rw [hs] at hd; cases hd.1]
        exact hs
    unfold ContractRow.checked
    split
    · rw [ContractRow.recorded, if_pos hsettled]
      exact hsettled
    · exact hsettled

theorem commanded (h : RowInv row history clock major base) (deprecated : Bool) :
    RowInv (row.commanded deprecated clock) (.commanded deprecated major clock :: history) clock
      major base where
  deprecated hd := by
    cases deprecated with
    | false => cases hd
    | true =>
      by_cases hrow : row.status = .deprecated
      · obtain ⟨since, hsince, hforce⟩ := h.deprecated hrow
        refine ⟨since, ?_, inForce_cons.mpr (.inr ⟨by simp [ContractEvent.closes], hforce⟩)⟩
        simp [ContractRow.commanded, hrow, hsince]
      · exact ⟨clock, by simp [ContractRow.commanded, hrow], inForce_cons.mpr (.inl rfl)⟩
  inForce since hforce := by
    rcases inForce_cons.mp hforce with heq | ⟨hcloses, hforce⟩
    · obtain ⟨rfl, -, rfl⟩ := ContractEvent.commanded.inj heq
      refine ⟨rfl, ?_⟩
      by_cases hrow : row.status = .deprecated
      · obtain ⟨first, hfirst, hforce⟩ := h.deprecated hrow
        refine ⟨first, by simp [ContractRow.commanded, hrow, hfirst], h.times _ hforce.mem⟩
      · exact ⟨clock, by simp [ContractRow.commanded, hrow], Int.le_refl _⟩
    · obtain ⟨hrow, first, hfirst, hle⟩ := h.inForce since hforce
      obtain rfl : deprecated = true := by simpa [ContractEvent.closes] using hcloses
      exact ⟨rfl, first, by simp [ContractRow.commanded, hrow, hfirst], hle⟩
  active ha := by
    cases deprecated with
    | false => rfl
    | true => cases ha
  sunset hs := by cases deprecated <;> cases hs
  ended hended := by
    rcases ended_cons.mp hended with ⟨found, heq, -⟩ | ⟨hrenews, -⟩
    · cases heq
    · exact absurd hrenews (by simp [ContractEvent.renews])
  requested := h.requested_cons fun at' heq => by cases heq
  last := h.last_cons rfl
  times := List.forall_mem_cons.mpr ⟨Int.le_refl _, h.times⟩
  count := h.count_cons fun at' heq => by cases heq

end RowInv

-- -----------------------------------------------------------------------------
-- Steps
-- -----------------------------------------------------------------------------

inductive ContractEffect (w w' : ContractWorld) (major : String) : Prop
  | none (hfind : w'.contracts.find major = w.contracts.find major)
      (hhistory : w'.history = w.history)
  | other (event : ContractEvent) (hfind : w'.contracts.find major = w.contracts.find major)
      (hne : event.major ≠ major) (hat : event.at' = w'.clock)
      (hhistory : w'.history = event :: w.history)
  | checked (recordRequest : Bool)
      (hfind : w'.contracts.find major =
        some ((w.contracts.current major w'.clock).checked recordRequest w'.clock))
      (hhistory : w'.history =
        (if recordRequest = true ∧
            ((w.contracts.current major w'.clock).checked recordRequest w'.clock).status ≠ .sunset
          then .served major w'.clock
          else .seen major
            ((w.contracts.current major w'.clock).checked recordRequest w'.clock).status
            w'.clock) :: w.history)
  | commanded (deprecated : Bool)
      (hfind : w'.contracts.find major =
        some ((w.contracts.current major w'.clock).commanded deprecated w'.clock))
      (hhistory : w'.history = .commanded deprecated major w'.clock :: w.history)

namespace ContractWorld

variable {w : ContractWorld} {headers : HeaderMap} {path rest : String} {now : Instant}

theorem statusMajor_eq (hm : major ∈ contractMajors) (record : Bool) (now : Instant)
    (contracts : ContractVersions) :
    statusMajor major record now contracts =
      (.ok ((contracts.current major now).checked record now),
        (contracts.contractStatus major record now).2) := by
  unfold statusMajor
  have h := ContractVersions.contractStatus_fst hm record now contracts
  cases hs : contracts.contractStatus major record now with
  | mk row contracts' =>
    rw [hs] at h
    cases h
    rfl

theorem seen_eq (hm : major ∈ contractMajors) (now : Instant) (contracts : ContractVersions) :
    seen major now contracts =
      [.seen major ((contracts.current major now).checked false now).status now] := by
  rw [seen, ContractVersions.contractStatus_fst hm]
  rfl

theorem splitPath_major (h : splitPath path = some (major, rest)) : major = "v3" := by
  unfold splitPath supportedApiVersions at h
  rw [List.findSome?_singleton] at h
  obtain ⟨relative, -, hpair⟩ := Option.map_eq_some_iff.mp h
  exact (Prod.mk.inj hpair).1.symm

theorem v3_mem : "v3" ∈ contractMajors := by decide

theorem enforceApiVersion_eq (hpin : checkPinned headers path = .ok ())
    (hpath : splitPath path = some (major, rest)) (now : Instant) (contracts : ContractVersions) :
    enforceApiVersion headers path now contracts =
      (⟨admissionHeaders ((contracts.current major now).checked true now), some major⟩,
        (contracts.contractStatus major true now).2) := by
  have hm : major ∈ contractMajors := splitPath_major hpath ▸ v3_mem
  unfold enforceApiVersion scope admitMajor
  rw [hpin, hpath]
  dsimp only
  rw [statusMajor_eq hm]
  rfl

theorem enforceApiVersion_skip (headers : HeaderMap) (path : String) (now : Instant)
    (contracts : ContractVersions)
    (h : (checkPinned headers path).toOption = none ∨ splitPath path = none) :
    (enforceApiVersion headers path now contracts).2 = contracts ∧
      answered headers path now contracts = [] := by
  unfold enforceApiVersion answered scope
  cases hpin : checkPinned headers path with
  | error e => exact ⟨rfl, rfl⟩
  | ok u =>
    rcases h with h | h
    · rw [hpin] at h
      cases h
    · rw [h]
      exact ⟨rfl, rfl⟩

theorem availableVersions_eq (now : Instant) (contracts : ContractVersions) :
    availableVersions now supportedApiVersions contracts =
      (.ok (if ((contracts.current "v3" now).checked false now).status = .sunset then []
          else ["v3"]),
        (contracts.contractStatus "v3" false now).2) := by
  unfold supportedApiVersions availableVersions
  rw [statusMajor_eq v3_mem]
  rfl

theorem negotiate_eq (headers : HeaderMap) (now : Instant) (contracts : ContractVersions) :
    negotiate headers now contracts =
      ((advertisedVersions headers).bind fun advertised =>
        if ((contracts.current "v3" now).checked false now).status = .sunset then
          (negotiateAvailable advertised []).map fun selected => (selected, [])
        else (negotiateVersion advertised).map fun selected => (selected, ["v3"]),
      (contracts.contractStatus "v3" false now).2) := by
  unfold negotiate
  rw [availableVersions_eq]
  by_cases hs : ((contracts.current "v3" now).checked false now).status = .sunset
  · simp only [if_pos hs]
    rfl
  · simp only [if_neg hs]
    rfl

theorem effect_checked {w' : ContractWorld} {other : String} (recordRequest : Bool)
    (hm : other ∈ contractMajors)
    (hcontracts : w'.contracts =
      (w.contracts.contractStatus other recordRequest w'.clock).2)
    (hhistory : w'.history =
      (if recordRequest = true ∧
          ((w.contracts.current other w'.clock).checked recordRequest w'.clock).status ≠ .sunset
        then .served other w'.clock
        else .seen other
          ((w.contracts.current other w'.clock).checked recordRequest w'.clock).status
          w'.clock) :: w.history) (major : String) :
    ContractEffect w w' major := by
  have hfind := ContractVersions.find_contractStatus hm recordRequest w'.clock w.contracts major
  rw [← hcontracts] at hfind
  by_cases hmajor : major = other
  · subst hmajor
    rw [if_pos rfl] at hfind
    exact .checked recordRequest hfind hhistory
  · rw [if_neg hmajor] at hfind
    refine .other _ hfind ?_ ?_ hhistory
    · split <;> exact fun h => hmajor h.symm
    · split <;> rfl

theorem step_effect (w : ContractWorld) (label : ContractLabel) (major : String) :
    ContractEffect w (w.step label) major := by
  cases label with
  | requested headers path now =>
    cases hpin : checkPinned headers path with
    | error e =>
      obtain ⟨hcontracts, hanswered⟩ := enforceApiVersion_skip headers path now w.contracts
        (.inl (by rw [hpin]; rfl))
      refine .none ?_ ?_
      · exact congrArg (Table.find · major) hcontracts
      · show answered headers path now w.contracts ++ w.history = w.history
        rw [hanswered, List.nil_append]
    | ok u =>
      cases hpath : splitPath path with
      | none =>
        obtain ⟨hcontracts, hanswered⟩ := enforceApiVersion_skip headers path now w.contracts
          (.inr hpath)
        refine .none ?_ ?_
        · exact congrArg (Table.find · major) hcontracts
        · show answered headers path now w.contracts ++ w.history = w.history
          rw [hanswered, List.nil_append]
      | some pair =>
        have heq := enforceApiVersion_eq hpin hpath now w.contracts
        have hm : pair.1 ∈ contractMajors := splitPath_major hpath ▸ v3_mem
        refine effect_checked true hm (congrArg Prod.snd heq) ?_ major
        show answered headers path now w.contracts ++ w.history = _
        unfold answered
        rw [hpin, hpath, heq]
        dsimp only [Except.toOption, admissionHeaders]
        by_cases hs : ((w.contracts.current pair.1 now).checked true now).status = .sunset
        · rw [if_pos hs, if_neg fun h => h.2 hs]
          show .seen pair.1 .sunset now :: w.history = .seen pair.1 _ now :: w.history
          rw [← hs]
          rfl
        · rw [if_neg hs, if_pos ⟨rfl, hs⟩]
          rfl
  | negotiated headers now =>
    refine effect_checked false v3_mem ?_ ?_ major
    · exact congrArg Prod.snd (negotiate_eq headers now w.contracts)
    · show supportedApiVersions.flatMap (seen · now w.contracts) ++ w.history = _
      rw [supportedApiVersions, List.flatMap_singleton, seen_eq v3_mem, if_neg fun h => by cases h.1]
      rfl
  | inspected other now =>
    by_cases hm : other ∈ contractMajors
    · refine effect_checked false hm ?_ ?_ major
      · exact congrArg Prod.snd (statusMajor_eq hm false now w.contracts)
      · show seen other now w.contracts ++ w.history = _
        rw [seen_eq hm, if_neg fun h => by cases h.1]
        rfl
    · -- no row can be of this major, so the function returns none
      have hnone : w.contracts.contractStatus other false now = (none, w.contracts) := if_neg hm
      refine .none ?_ ?_
      · show (statusMajor other false now w.contracts).2.find major = _
        rw [statusMajor, hnone]
      · show seen other now w.contracts ++ w.history = _
        rw [seen, hnone]
        rfl
  | commanded deprecated other now =>
    by_cases hm : other ∈ contractMajors
    · have hfind := ContractVersions.find_command hm deprecated now w.contracts major
      have hhistory : (w.step (.commanded deprecated other now)).history =
          .commanded deprecated other now :: w.history := if_pos hm
      by_cases hmajor : major = other
      · subst hmajor
        rw [if_pos rfl] at hfind
        exact .commanded deprecated hfind hhistory
      · rw [if_neg hmajor] at hfind
        exact .other (.commanded deprecated other now) hfind (fun h => hmajor h.symm) rfl hhistory
    · have hsame : w.contracts.command deprecated other now = w.contracts := if_neg hm
      refine .none ?_ (if_neg hm)
      exact congrArg (Table.find · major) hsame

theorem step_clock (w : ContractWorld) (label : ContractLabel) :
    (w.step label).clock = label.now := by
  cases label <;> rfl

def Inv (major : String) (base : Int) (w : ContractWorld) : Prop :=
  ∀ now, RowInv (w.contracts.current major now) w.history w.clock major base

theorem current_of_find {contracts : ContractVersions} {row : ContractRow}
    (h : contracts.find major = some row) (now : Instant) : contracts.current major now = row := by
  rw [ContractVersions.current, h, Option.getD_some]

theorem current_congr {contracts contracts' : ContractVersions}
    (h : contracts'.find major = contracts.find major) (now : Instant) :
    contracts'.current major now = contracts.current major now := by
  rw [ContractVersions.current, h, ContractVersions.current]

theorem Inv.step {base : Int} (h : Inv major base w) {label : ContractLabel}
    (ho : Ordered w label) : Inv major base (w.step label) := by
  intro now
  have hclock : w.clock ≤ (w.step label).clock := (step_clock w label).symm ▸ ho
  cases step_effect w label major with
  | none hfind hhistory =>
    rw [current_congr hfind, hhistory]
    exact (h now).pass hclock
  | other event hfind hne hat hhistory =>
    rw [current_congr hfind, hhistory]
    exact ((h now).pass hclock).other hne hat
  | checked recordRequest hfind hhistory =>
    rw [current_of_find hfind, hhistory]
    exact ((h _).pass hclock).checked recordRequest
  | commanded deprecated hfind hhistory =>
    rw [current_of_find hfind, hhistory]
    exact ((h _).pass hclock).commanded deprecated

theorem Migrated.inv (h : w.Migrated) (major : String) :
    Inv major ((w.contracts.find major).elim 0 ContractRow.requestCount) w := by
  intro now
  rw [h.fresh]
  have hempty : ∀ event ∈ ([] : List ContractEvent), event.renews major = false :=
    fun _ hm => absurd hm List.not_mem_nil
  have hforce : ∀ since, ¬ InForce [] major since := fun since hf => absurd hf.mem List.not_mem_nil
  have hended : ¬ Ended [] major := by
    intro he
    obtain ⟨event, hm, -⟩ := he.major_eq
    exact absurd hm List.not_mem_nil
  cases hfind : w.contracts.find major with
  | none =>
    rw [ContractVersions.current, hfind]
    refine ⟨fun hd => ?_, fun since hf => absurd hf (hforce since), fun _ => rfl, fun hs => ?_,
      fun he => absurd he hended, fun _ hm => absurd hm List.not_mem_nil, fun _ hl => (by cases hl),
      fun _ hm => absurd hm List.not_mem_nil, rfl⟩
    · simp only [Option.getD_none, ContractRow.initial] at hd
      split at hd <;> cases hd
    · refine .inr ⟨fun hv3 => ?_, hempty⟩
      subst hv3
      cases hs
  | some row =>
    rw [current_of_find hfind]
    obtain ⟨hm, hmajor⟩ := Table.find_some.mp hfind
    obtain ⟨hv3, hs⟩ := h.retired row hm
    refine ⟨fun hd => ?_, fun since hf => absurd hf (hforce since), fun ha => ?_,
      fun _ => .inr ⟨hmajor ▸ hv3, hempty⟩, fun he => absurd he hended,
      fun _ hm => absurd hm List.not_mem_nil,
      fun at' hl => ⟨h.requested row hm at' hl, .inr fun _ hm => absurd hm List.not_mem_nil⟩,
      fun _ hm => absurd hm List.not_mem_nil, (Int.add_zero _).symm⟩
    · rw [hs] at hd
      cases hd
    · rw [hs] at ha
      cases ha

theorem Migrated.find_v3 (h : w.Migrated) : w.contracts.find "v3" = none :=
  Table.find_none.mpr fun row hm => (h.retired row hm).1

/-- The advertisement, where there is one, can be read and names the served major. -/
def Offers (headers : HeaderMap) : Prop :=
  advertisedVersions headers = .ok none ∨
    ∃ advertised, advertisedVersions headers = .ok (some advertised) ∧
      (requestedVersions advertised).length ≤ maxAdvertisedVersions ∧
      ∃ candidate ∈ requestedVersions advertised, asciiLowercase candidate = "v3"

/-- What the callers of the served major can rely on, now and at any later instant. -/
structure Honoured (w : ContractWorld) : Prop where
  refused : ∀ headers path rest now, w.clock ≤ now → checkPinned headers path = .ok () →
    splitPath path = some ("v3", rest) →
    ((enforceApiVersion headers path now w.contracts).1.outcome =
        .error (.gone "api_version_sunset") ↔
      Ended (.seen "v3" .sunset now :: w.history) "v3")
  served : ∀ headers path rest now, w.clock ≤ now → checkPinned headers path = .ok () →
    splitPath path = some ("v3", rest) → ¬ Ended (.seen "v3" .sunset now :: w.history) "v3" →
    (∃ since, InForce w.history "v3" since ∧
      (enforceApiVersion headers path now w.contracts).1.outcome =
        .ok (deprecationHeaders since)) ∨
    (∀ since, ¬ InForce w.history "v3" since) ∧
      (enforceApiVersion headers path now w.contracts).1.outcome = .ok []
  kept : ∀ headers path rest at' now, w.clock ≤ now → checkPinned headers path = .ok () →
    splitPath path = some ("v3", rest) → .served "v3" at' ∈ w.history →
    now < at' + contractIdle →
    ∃ fields, (enforceApiVersion headers path now w.contracts).1.outcome = .ok fields
  negotiated : ∀ headers now answer, w.clock ≤ now →
    ((negotiate headers now w.contracts).1 = .ok answer ↔
      ¬ Ended (.seen "v3" .sunset now :: w.history) "v3" ∧ Offers headers ∧
        answer = ("v3", ["v3"]))
  counted : ∀ row, w.contracts.find "v3" = some row →
    row.requestCount = servedCount w.history "v3"

theorem negotiateVersion_ok {advertised : Option String} {selected : String} :
    negotiateVersion advertised = .ok selected ↔ selected = "v3" ∧
      ∀ text ∈ advertised, (requestedVersions text).length ≤ maxAdvertisedVersions ∧
        ∃ candidate ∈ requestedVersions text, asciiLowercase candidate = "v3" := by
  have hlower : asciiLowercase "v3" = "v3" := by decide
  cases advertised with
  | none =>
    show Except.ok "v3" = Except.ok selected ↔ _
    simp [eq_comm]
  | some text =>
    unfold negotiateVersion negotiateAvailable supportedApiVersions
    simp only [Bool.or_eq_true, decide_eq_true_eq, List.isEmpty_iff, Option.mem_some_iff,
      forall_eq', List.find?_singleton, List.any_eq_true, hlower]
    by_cases hsize : maxAdvertisedVersions < (requestedVersions text).length
    · rw [if_pos (.inr hsize)]
      exact ⟨fun h => (by cases h), fun h => absurd h.2.1 (Nat.not_le.mpr hsize)⟩
    · by_cases hoffered : ∃ candidate ∈ requestedVersions text, asciiLowercase candidate = "v3"
      · obtain ⟨candidate, hm, hc⟩ := id hoffered
        have hne : ¬ (requestedVersions text = [] ∨
            maxAdvertisedVersions < (requestedVersions text).length) := by
          rintro (hnil | hlong)
          · rw [hnil] at hm
            exact absurd hm List.not_mem_nil
          · exact hsize hlong
        rw [if_neg hne, if_pos hoffered]
        simp only [Except.ok.injEq]
        exact ⟨fun h => ⟨h.symm, Nat.not_lt.mp hsize, hoffered⟩, fun h => h.1.symm⟩
      · rw [if_neg hoffered]
        constructor
        · intro h
          split at h <;> cases h
        · exact fun h => absurd h.2.2 hoffered

theorem negotiateAvailable_nil (advertised : Option String) (selected : String) :
    negotiateAvailable advertised [] ≠ .ok selected := by
  intro h
  unfold negotiateAvailable at h
  cases advertised with
  | none => cases h
  | some text =>
    dsimp only [List.find?_nil] at h
    split at h <;> cases h

theorem offers_iff {headers : HeaderMap} {advertised : Option String}
    (h : advertisedVersions headers = .ok advertised) :
    Offers headers ↔ ∀ text ∈ advertised,
      (requestedVersions text).length ≤ maxAdvertisedVersions ∧
        ∃ candidate ∈ requestedVersions text, asciiLowercase candidate = "v3" := by
  unfold Offers
  rw [h]
  cases advertised <;> simp

/-- A handshake answers the served major, to those that offer it and while it has not ended. -/
theorem negotiate_ok {headers : HeaderMap} {now : Instant} {contracts : ContractVersions}
    {answer : String × List String} :
    (negotiate headers now contracts).1 = .ok answer ↔
      ¬ ((contracts.current "v3" now).checked false now).status = .sunset ∧ Offers headers ∧
        answer = ("v3", ["v3"]) := by
  rw [negotiate_eq]
  cases hread : advertisedVersions headers with
  | error e => simp [Except.bind, Offers, hread]
  | ok advertised =>
    dsimp only [Except.bind]
    split
    · rename_i hs
      refine ⟨fun h => ?_, fun h => absurd hs h.1⟩
      obtain ⟨selected, hselected, -⟩ := Except.map_ok.mp h
      exact absurd hselected (negotiateAvailable_nil advertised selected)
    · rename_i hs
      rw [offers_iff hread]
      constructor
      · intro h
        obtain ⟨selected, hselected, rfl⟩ := Except.map_ok.mp h
        obtain ⟨rfl, hoffered⟩ := negotiateVersion_ok.mp hselected
        exact ⟨hs, hoffered, rfl⟩
      · rintro ⟨-, hoffered, rfl⟩
        exact Except.map_ok.mpr ⟨"v3", negotiateVersion_ok.mpr ⟨rfl, hoffered⟩, rfl⟩

theorem admissionHeaders_gone {contract : ContractRow} :
    admissionHeaders contract = .error (.gone "api_version_sunset") ↔
      contract.status = .sunset := by
  unfold admissionHeaders
  split
  · rename_i hs
    exact ⟨fun _ => hs, fun _ => rfl⟩
  · rename_i hs
    exact ⟨fun he => (by cases he), fun h => absurd h hs⟩

theorem admissionHeaders_served {row : ContractRow} {history : List ContractEvent} {base : Int}
    (h : RowInv row history now "v3" base) (hended : ¬ Ended (.seen "v3" .sunset now :: history) "v3") :
    (∃ since, InForce history "v3" since ∧
      admissionHeaders (row.checked true now) = .ok (deprecationHeaders since)) ∨
    (∀ since, ¬ InForce history "v3" since) ∧
      admissionHeaders (row.checked true now) = .ok [] := by
  have hstays : (row.checked true now).status ≠ .sunset :=
    fun hs => hended ((h.checked_sunset true).mp hs)
  have hsettle : row.settle now = row := by
    unfold ContractRow.settle
    split
    · rename_i hends
      refine absurd ?_ hstays
      rw [ContractRow.checked, if_pos rfl, ContractRow.settle, if_pos hends]
      rfl
    · rfl
  have hs : row.status ≠ .sunset := by
    intro hs
    refine hstays ?_
    rw [ContractRow.checked, if_pos rfl, hsettle, ContractRow.recorded, if_pos hs]
    exact hs
  have hat : (row.checked true now).deprecatedAt = row.deprecatedAt := by
    rw [ContractRow.checked, if_pos rfl, hsettle, ContractRow.recorded, if_neg hs]
  rw [admissionHeaders, if_neg hstays, hat]
  cases hstatus : row.status with
  | active =>
    refine .inr ⟨fun since hforce => ?_, by rw [h.active hstatus]; rfl⟩
    have hd := (h.inForce since hforce).1
    rw [hstatus] at hd
    cases hd
  | deprecated =>
    obtain ⟨since, hsince, hforce⟩ := h.deprecated hstatus
    exact .inl ⟨since, hforce, by rw [hsince]; rfl⟩
  | sunset => exact absurd hstatus hs

theorem not_ended_of_served {row : ContractRow} {history : List ContractEvent} {base : Int}
    {at' : Instant} (h : RowInv row history now "v3" base) (hm : .served "v3" at' ∈ history)
    (hnow : now < at' + contractIdle) : ¬ Ended (.seen "v3" .sunset now :: history) "v3" := by
  rintro ⟨later, found, earlier, since, heq, -, -, hserved, hlater⟩
  have hmem : .served "v3" at' ∈ later ++ .seen "v3" .sunset found :: earlier :=
    heq ▸ List.mem_cons_of_mem _ hm
  have hfound : found ≤ now := by
    have hf : .seen "v3" .sunset found ∈ ContractEvent.seen "v3" .sunset now :: history :=
      heq ▸ List.mem_append_right _ List.mem_cons_self
    rcases List.mem_cons.mp hf with he | hf
    · exact (ContractEvent.seen.inj he).2.2.le
    · exact h.times _ hf
  rcases List.mem_append.mp hmem with hl | hl
  · exact absurd (hlater _ hl) (by simp [ContractEvent.renews])
  · rcases List.mem_cons.mp hl with he | he
    · cases he
    · exact absurd ((hserved at' he).trans hfound) (Int.not_le.mpr hnow)

theorem Inv.honoured (h : Inv "v3" 0 w) : w.Honoured := by
  have hrow : ∀ now, w.clock ≤ now →
      RowInv (w.contracts.current "v3" now) w.history now "v3" 0 := fun now hle => (h now).pass hle
  refine ⟨?_, ?_, ?_, ?_, ?_⟩
  · intro headers path rest now hle hpin hpath
    rw [← (hrow now hle).checked_sunset true, enforceApiVersion_eq hpin hpath]
    exact admissionHeaders_gone
  · intro headers path rest now hle hpin hpath hended
    rw [enforceApiVersion_eq hpin hpath]
    exact admissionHeaders_served (hrow now hle) hended
  · intro headers path rest at' now hle hpin hpath hm hnow
    have hended := not_ended_of_served (hrow now hle) hm hnow
    rw [enforceApiVersion_eq hpin hpath]
    rcases admissionHeaders_served (hrow now hle) hended with ⟨since, -, heq⟩ | ⟨-, heq⟩
    · exact ⟨_, heq⟩
    · exact ⟨_, heq⟩
  · intro headers now answer hle
    rw [negotiate_ok, (hrow now hle).checked_sunset false]
  · intro row hfind
    have hcount := (h 0).count
    rw [current_of_find hfind] at hcount
    exact hcount.trans (Int.zero_add _)

/-- A major is refused only once it was deprecated and then idle for the whole window. -/
theorem contracts_honoured {start : ContractWorld} {labels : List ContractLabel}
    (h : start.Migrated) (ha : Along ContractWorld.step Ordered start labels) :
    Always ContractWorld.step Honoured start labels := by
  have hstart : Inv "v3" 0 start := by
    have hinv := h.inv "v3"
    rw [h.find_v3] at hinv
    exact hinv
  exact always_of_invariant (fun w label hw ho => hw.step ho) (fun w hw => hw.honoured) hstart ha

end ContractWorld

-- -----------------------------------------------------------------------------
-- A major that ends
-- -----------------------------------------------------------------------------

namespace NoticedMajor

open ContractWorld

def retired : ContractRow := .initial "v1" 0

def start : ContractWorld := ⟨⟨[retired], List.nodup_singleton _⟩, 0, []⟩

def request (days : Int) : ContractLabel := .requested [] "/api/v3/silicons" (Instant.days days)

/-- Deprecated on the second day, last requested on the third, found ended on the tenth. -/
def days : List ContractLabel :=
  [request 0, .commanded true "v3" (Instant.days 1), request 2, .inspected "v1" (Instant.days 3),
    .negotiated [] (Instant.days 4), request 9]

theorem migrated : start.Migrated := by
  refine ⟨fun row hm => ?_, fun row hm => ?_, rfl⟩
  · obtain rfl := List.mem_singleton.mp hm
    exact ⟨by decide, rfl⟩
  · obtain rfl := List.mem_singleton.mp hm
    exact fun at' hl => by cases hl

theorem ordered : Along step Ordered start days := by decide

theorem days_honoured : Always step Honoured start days ∧
    (run step start days).history.head? = some (.seen "v3" .sunset (Instant.days 9)) :=
  ⟨contracts_honoured migrated ordered, by decide +kernel⟩

end NoticedMajor

end SiliconHook

import AsmScope.Proofs.Handlers
import AsmScope.Proofs.ExactNumbers
/-! # Which changes are reported

What a handler reports of an event depends on all that came before, but only through the time of the
latest change that it has reported (`after_take`). On a clock that is read without rounding the
change is then reported exactly if that time is long enough ago, and the reported changes are known
from the changes and their times (`debounced_of_exact`). Events of which a path is no text fail, and
where the clock is read with rounding a change may be dropped that comes late enough
(`not_all_runs_are_debounced`). -/

namespace AsmScope

/-- An event that reaches a handler, on the machine as it is then. -/
structure Delivery where
  /-- The machine. -/
  host : Host
  /-- The event. -/
  event : FileEvent

namespace Delivery

/-- The time in seconds. -/
def time (delivery : Delivery) : Rat := delivery.host.now.value

/-- The delivery tells of a change of this file. -/
def IsChangeOf (delivery : Delivery) (target : String) : Prop :=
  delivery.event.IsChangeOf delivery.host target

/-- The delivery tells that this file is gone. -/
def IsDeletionOf (delivery : Delivery) (target : String) : Prop :=
  delivery.event.IsDeletionOf delivery.host target

/-- What the delivery tells of this file cannot be read. -/
def IsUnreadable (delivery : Delivery) (target : String) : Prop :=
  delivery.event.IsUnreadable delivery.host target

instance (delivery : Delivery) (target : String) : Decidable (delivery.IsChangeOf target) :=
  inferInstanceAs (Decidable (delivery.event.IsChangeOf delivery.host target))

/-- This place in a list of deliveries tells of a change of the file. -/
def ChangeAt (target : String) (deliveries : List Delivery) (i : Nat) (delivery : Delivery) :
    Prop :=
  deliveries[i]? = some delivery ∧ delivery.IsChangeOf target

end Delivery

namespace Handler

/-! ### A handler at work -/

/-- What comes of a delivery: what is reported, or why the handler fails. -/
abbrev Outcome : Type := Except EventError (Option Signal)

/-- What comes of a delivery. -/
def outcome (handler : Handler) (delivery : Delivery) : Outcome :=
  (handler.react delivery.host delivery.event).map Prod.snd

/-- The handler after a delivery; one that fails leaves it as it is. -/
def next (handler : Handler) (delivery : Delivery) : Handler :=
  match handler.react delivery.host delivery.event with
  | .ok (next, _) => next
  | .error _ => handler

/-- The handler after deliveries, one after the other. -/
def after (handler : Handler) (deliveries : List Delivery) : Handler :=
  deliveries.foldl next handler

/-- The deliveries, one after the other, each with what comes of it. -/
def record : Handler → List Delivery → List (Delivery × Outcome)
  | _, [] => []
  | handler, delivery :: rest =>
    (delivery, handler.outcome delivery) :: (handler.next delivery).record rest

/-- A change is reported at this place. -/
def TriggersAt (handler : Handler) (deliveries : List Delivery) (i : Nat) (delivery : Delivery) :
    Prop :=
  (handler.record deliveries)[i]? = some (delivery, .ok (some .changed))

/-- A deletion is reported at this place. -/
def ReportsDeletionAt (handler : Handler) (deliveries : List Delivery) (i : Nat)
    (delivery : Delivery) : Prop :=
  (handler.record deliveries)[i]? = some (delivery, .ok (some .deleted))

/-- The latest change that was reported before a place is that at another one. -/
structure IsLatest (handler : Handler) (deliveries : List Delivery) (i j : Nat)
    (delivery : Delivery) : Prop where
  before : j < i
  triggers : handler.TriggersAt deliveries j delivery
  none_since : ∀ k, j < k → k < i → ∀ later, ¬handler.TriggersAt deliveries k later

variable {handler : Handler} {deliveries : List Delivery} {delivery : Delivery}

/-- At each place of the record stands the delivery, with what comes of it for the handler as those
before it have left it. -/
theorem getElem?_record (handler : Handler) (deliveries : List Delivery) (i : Nat) :
    (handler.record deliveries)[i]? = deliveries[i]?.map fun delivery =>
      (delivery, (handler.after (deliveries.take i)).outcome delivery) := by
  induction deliveries generalizing handler i with
  | nil => rfl
  | cons delivery rest ih =>
    cases i with
    | zero => rfl
    | succ i => exact ih (handler.next delivery) i

/-- What is reported of a delivery is what the handler answers to its event. -/
theorem outcome_eq_ok_iff {signal : Option Signal} :
    handler.outcome delivery = .ok signal ↔
      ∃ next, handler.react delivery.host delivery.event = .ok (next, signal) := by
  rw [outcome]
  cases hreact : handler.react delivery.host delivery.event with
  | error error => exact iff_of_false nofun nofun
  | ok answer =>
    obtain ⟨next, reported⟩ := answer
    constructor
    · rintro ⟨⟩
      exact ⟨next, rfl⟩
    · rintro ⟨other, ⟨⟩⟩
      rfl

/-- What the record has at a place, taken apart: the delivery and what comes of it there. -/
theorem mem_record_iff {i : Nat} {outcome : Outcome} :
    (handler.record deliveries)[i]? = some (delivery, outcome) ↔ deliveries[i]? = some delivery ∧
      (handler.after (deliveries.take i)).outcome delivery = outcome := by
  rw [getElem?_record, Option.map_eq_some_iff]
  constructor
  · rintro ⟨other, hother, h⟩
    obtain ⟨rfl, houtcome⟩ := Prod.mk.inj h
    exact ⟨hother, houtcome⟩
  · rintro ⟨hdelivery, h⟩
    exact ⟨delivery, hdelivery, by rw [h]⟩

/-- At one place one thing comes of a delivery. -/
theorem outcome_unique {i : Nat} {outcome other : Outcome}
    (h : (handler.record deliveries)[i]? = some (delivery, outcome))
    (h' : (handler.record deliveries)[i]? = some (delivery, other)) : outcome = other :=
  (Prod.mk.inj (Option.some.inj (h.symm.trans h'))).2

/-! ### What a handler remembers -/

/-- **What a delivery does**: a change that is reported is remembered, and nothing else is. -/
theorem next_cases (handler : Handler) (delivery : Delivery) :
    (handler.outcome delivery ≠ .ok (some .changed) ∧ handler.next delivery = handler) ∨
      (handler.outcome delivery = .ok (some .changed) ∧ delivery.IsChangeOf handler.target ∧
        handler.next delivery = { handler with lastTriggered := delivery.host.now }) := by
  unfold outcome next
  cases hreact : handler.react delivery.host delivery.event with
  | error error => exact .inl ⟨nofun, rfl⟩
  | ok answer =>
    obtain ⟨next, signal⟩ := answer
    rcases react_cases hreact with ⟨rfl, hsignal⟩ | ⟨rfl, rfl, hchange⟩
    · refine .inl ⟨fun h => hsignal ?_, rfl⟩
      cases h
      rfl
    · exact .inr ⟨rfl, hchange, rfl⟩

/-- A delivery leaves the file for which a handler listens. -/
@[simp] theorem target_next (handler : Handler) (delivery : Delivery) :
    (handler.next delivery).target = handler.target := by
  rcases next_cases handler delivery with ⟨-, h⟩ | ⟨-, -, h⟩ <;> rw [h]

/-- One more delivery acts on the handler as those before it have left it. -/
theorem after_take_succ (handler : Handler) {i : Nat} (h : deliveries[i]? = some delivery) :
    handler.after (deliveries.take (i + 1)) =
      (handler.after (deliveries.take i)).next delivery := by
  rw [List.take_add_one, h, after, List.foldl_append]
  rfl

/-- If a change is reported at a place, the handler remembers its time after it. -/
theorem after_take_succ_of_triggersAt {i : Nat} (h : handler.TriggersAt deliveries i delivery) :
    handler.after (deliveries.take (i + 1)) =
      { handler.after (deliveries.take i) with lastTriggered := delivery.host.now } := by
  obtain ⟨hdelivery, houtcome⟩ := mem_record_iff.1 h
  rw [after_take_succ handler hdelivery]
  rcases next_cases (handler.after (deliveries.take i)) delivery with ⟨hnot, -⟩ | ⟨-, -, hnext⟩
  · exact absurd houtcome hnot
  · exact hnext

/-- If none is reported there, the handler is as it was. -/
theorem after_take_succ_of_still {i : Nat}
    (still : ∀ delivery, ¬handler.TriggersAt deliveries i delivery) :
    handler.after (deliveries.take (i + 1)) = handler.after (deliveries.take i) := by
  cases hdelivery : deliveries[i]? with
  | none => rw [List.take_add_one, hdelivery, Option.toList_none, List.append_nil]
  | some delivery =>
    rw [after_take_succ handler hdelivery]
    rcases next_cases (handler.after (deliveries.take i)) delivery with ⟨-, hnext⟩ | ⟨htold, -⟩
    · exact hnext
    · exact absurd (mem_record_iff.2 ⟨hdelivery, htold⟩) (still delivery)

/-- **What a handler remembers**: the time of the latest change that it has reported, and that is
all that sets it apart from a new one. -/
theorem after_take (handler : Handler) (deliveries : List Delivery) (i : Nat) :
    (handler.after (deliveries.take i) = handler ∧
        ∀ j < i, ∀ delivery, ¬handler.TriggersAt deliveries j delivery) ∨
      ∃ j delivery, handler.IsLatest deliveries i j delivery ∧
        handler.after (deliveries.take i) =
          { handler with lastTriggered := delivery.host.now } := by
  -- one more place either has the latest report, or leaves it where it was
  induction i with
  | zero => exact .inl ⟨rfl, nofun⟩
  | succ i ih =>
    by_cases htold : ∃ delivery, handler.TriggersAt deliveries i delivery
    · obtain ⟨delivery, htriggers⟩ := htold
      have hnone : ∀ k, i < k → k < i + 1 → ∀ later, ¬handler.TriggersAt deliveries k later :=
        fun k hik hki => absurd hki (by omega)
      refine .inr ⟨i, delivery, ⟨Nat.lt_succ_self i, htriggers, hnone⟩, ?_⟩
      rw [after_take_succ_of_triggersAt htriggers]
      rcases ih with ⟨hafter, -⟩ | ⟨j, earlier, -, hafter⟩ <;> rw [hafter]
    · have hstill := fun delivery h => htold ⟨delivery, h⟩
      rw [after_take_succ_of_still hstill]
      rcases ih with ⟨hafter, hnone⟩ | ⟨j, earlier, hlatest, hafter⟩
      · refine .inl ⟨hafter, fun j hj => ?_⟩
        rcases Nat.lt_succ_iff_lt_or_eq.1 hj with hlt | rfl
        · exact hnone j hlt
        · exact hstill
      · refine .inr ⟨j, earlier, ⟨hlatest.before.trans (Nat.lt_succ_self i), hlatest.triggers, ?_⟩,
          hafter⟩
        intro k hjk hki
        rcases Nat.lt_succ_iff_lt_or_eq.1 hki with hlt | rfl
        · exact hlatest.none_since k hjk hlt
        · exact hstill

/-- What a handler remembers leaves its file and its settings as they are. -/
theorem settings_after_take (handler : Handler) (deliveries : List Delivery) (i : Nat) :
    (handler.after (deliveries.take i)).target = handler.target ∧
      (handler.after (deliveries.take i)).reportsDeletion = handler.reportsDeletion := by
  rcases after_take handler deliveries i with ⟨h, -⟩ | ⟨j, latest, -, h⟩
  · rw [h]
    exact ⟨rfl, rfl⟩
  · rw [h]
    exact ⟨rfl, rfl⟩

/-- Deliveries leave the file for which a handler listens. -/
@[simp] theorem target_after_take (handler : Handler) (deliveries : List Delivery) (i : Nat) :
    (handler.after (deliveries.take i)).target = handler.target :=
  (settings_after_take handler deliveries i).1

/-! ### What is reported of a delivery -/

/-- If the time since the last report is told without rounding, a change is reported exactly if it
is at least the least distance. -/
theorem outcome_of_apart (change : delivery.IsChangeOf handler.target)
    (exact : handler.debounce.IsExact) (apart : handler.lastTriggered.Apart delivery.host.now) :
    handler.outcome delivery = .ok
      (if handler.debounce.value ≤ delivery.time - handler.lastTriggered.value then some .changed
        else none) := by
  obtain ⟨distance, hsub, hdistance, hvalue⟩ := apart
  rw [outcome, react_of_isChangeOf change, Handler.change, elapsed?, hsub]
  dsimp only
  rw [Delivery.time, ← hvalue]
  by_cases hle : handler.debounce.value ≤ distance.value
  · rw [if_pos ((Number.le_iff exact hdistance).2 hle), if_pos hle]
    rfl
  · rw [if_neg (mt (Number.le_iff exact hdistance).1 hle), if_neg hle]
    rfl

/-- A delivery that cannot be read fails. -/
theorem outcome_of_isUnreadable (unreadable : delivery.IsUnreadable handler.target) :
    handler.outcome delivery = .error .undecodable := by
  rw [outcome, react_of_isUnreadable unreadable]
  rfl

/-- Of a delivery that is no change a deletion is reported, or nothing. -/
theorem outcome_of_still (still : ¬delivery.IsChangeOf handler.target)
    (readable : ¬delivery.IsUnreadable handler.target) :
    handler.outcome delivery = .ok
      (if delivery.event.isDirectory = false ∧
          delivery.event.path.Reaches delivery.host handler.target then handler.deletion
        else none) := by
  rw [outcome, react_of_still still readable]
  rfl

/-! ### The law of a run -/

/-- The times of a run are told without rounding, from zero as well as from each other. -/
structure ExactTimes (debounce : Number) (deliveries : List Delivery) : Prop where
  /-- The least distance is a number. -/
  debounce : debounce.IsExact
  /-- Times are counted from zero. -/
  origin : ∀ delivery ∈ deliveries, (Number.binary (.zero false)).Apart delivery.host.now
  /-- Times are counted from each other. -/
  apart : deliveries.Pairwise fun earlier later => earlier.host.now.Apart later.host.now

/-- Times are exact on a clock that ticks in a power of two of seconds, such as full seconds, if the
format can count its ticks. -/
theorem ExactTimes.of_ticks {debounce : Number} {unit : Int} (least : -1074 ≤ unit)
    (greatest : unit ≤ 971) (number : debounce.IsExact)
    (ticks : ∀ delivery ∈ deliveries, ∃ n < 2 ^ 53, delivery.host.now.IsTicks unit n) :
    ExactTimes debounce deliveries := by
  have horigin := Number.isTicks_zero unit false
  refine ⟨number, fun delivery hdelivery => ?_, ?_⟩
  · obtain ⟨n, hn, hticks⟩ := ticks delivery hdelivery
    exact Number.apart_of_ticks least greatest horigin hticks (by decide) hn
  · refine List.pairwise_of_forall_mem_list fun earlier hearlier later hlater => ?_
    obtain ⟨m, hm, hticks⟩ := ticks earlier hearlier
    obtain ⟨n, hn, hticks'⟩ := ticks later hlater
    exact Number.apart_of_ticks least greatest hticks hticks' hm hn

/-- What a handler reports when these deliveries reach it, one after the other. -/
structure Debounced (handler : Handler) (deliveries : List Delivery) : Prop where
  /-- A delivery fails exactly if it cannot be read. -/
  failures : ∀ (i : Nat) (delivery : Delivery) (error : EventError),
    (handler.record deliveries)[i]? = some (delivery, .error error) ↔
      deliveries[i]? = some delivery ∧ delivery.IsUnreadable handler.target ∧
        error = .undecodable
  /-- Only changes of the file are reported as changes. -/
  changes : ∀ i delivery, handler.TriggersAt deliveries i delivery →
    Delivery.ChangeAt handler.target deliveries i delivery
  /-- The first change is reported. -/
  first : ∀ i delivery, Delivery.ChangeAt handler.target deliveries i delivery →
    (∀ j < i, ∀ earlier, ¬Delivery.ChangeAt handler.target deliveries j earlier) →
    handler.TriggersAt deliveries i delivery
  /-- Reported changes are not too close. -/
  apart : ∀ i j earlier later, i < j → handler.TriggersAt deliveries i earlier →
    handler.TriggersAt deliveries j later → handler.debounce.value ≤ later.time - earlier.time
  /-- A change that is not reported is too close to the latest one that is. -/
  dropped : ∀ i delivery, Delivery.ChangeAt handler.target deliveries i delivery →
    ¬handler.TriggersAt deliveries i delivery →
    ∃ j latest, handler.IsLatest deliveries i j latest ∧
      delivery.time - latest.time < handler.debounce.value
  /-- Every deletion that can be read is reported, if deletions are. -/
  deletions : handler.reportsDeletion = true → ∀ (i : Nat) (delivery : Delivery),
    deliveries[i]? = some delivery → delivery.IsDeletionOf handler.target →
    (handler.ReportsDeletionAt deliveries i delivery ↔ ¬delivery.IsUnreadable handler.target)
  /-- Only what tells of the path of the file and is no change of it is reported as a deletion. -/
  only_deletions : ∀ i delivery, handler.ReportsDeletionAt deliveries i delivery →
    handler.reportsDeletion = true ∧ deliveries[i]? = some delivery ∧
      delivery.event.isDirectory = false ∧
      delivery.event.path.Reaches delivery.host handler.target ∧
      ¬delivery.IsChangeOf handler.target
  /-- Without all that is no change of the file the same comes of each change. -/
  others : (handler.record deliveries).filter (fun entry => entry.1.IsChangeOf handler.target) =
    handler.record (deliveries.filter fun delivery => delivery.IsChangeOf handler.target)

/-- What comes of the changes does not depend on anything else. -/
theorem filter_record (handler : Handler) (deliveries : List Delivery) :
    (handler.record deliveries).filter (fun entry => entry.1.IsChangeOf handler.target) =
      handler.record (deliveries.filter fun delivery => delivery.IsChangeOf handler.target) := by
  induction deliveries generalizing handler with
  | nil => rfl
  | cons delivery rest ih =>
    have hrest := ih (handler.next delivery)
    rw [target_next] at hrest
    rw [record, List.filter_cons, List.filter_cons]
    by_cases hchange : delivery.IsChangeOf handler.target
    · rw [if_pos (decide_eq_true hchange), if_pos (decide_eq_true hchange), record, hrest]
    · -- the rest finds the handler as if this delivery had not been
      rw [if_neg (by simpa using hchange), if_neg (by simpa using hchange), hrest]
      rcases next_cases handler delivery with ⟨-, hnext⟩ | ⟨-, htold, -⟩
      · rw [hnext]
      · exact absurd htold hchange

/-- What holds between earlier and later deliveries holds between places. -/
theorem rel_of_pairwise {R : Delivery → Delivery → Prop} (h : deliveries.Pairwise R) {i j : Nat}
    (hij : i < j) {earlier later : Delivery} (hearlier : deliveries[i]? = some earlier)
    (hlater : deliveries[j]? = some later) : R earlier later := by
  obtain ⟨hi, rfl⟩ := List.getElem?_eq_some_iff.1 hearlier
  obtain ⟨hj, rfl⟩ := List.getElem?_eq_some_iff.1 hlater
  exact List.pairwise_iff_getElem.1 h i j hi hj hij

/-- No delivery comes before what the first one does not come before, if none comes before an
earlier one. -/
theorem le_time (steady : deliveries.Pairwise fun earlier later => earlier.time ≤ later.time)
    {least : Rat} (start : ∀ first ∈ deliveries.head?, least ≤ first.time)
    (h : delivery ∈ deliveries) : least ≤ delivery.time := by
  cases deliveries with
  | nil => cases h
  | cons first rest =>
    have hfirst := start first rfl
    rcases List.mem_cons.1 h with rfl | hrest
    · exact hfirst
    · exact hfirst.trans (List.rel_of_pairwise_cons steady hrest)

/-- Only changes of the file are reported as changes. -/
theorem TriggersAt.changeAt {i : Nat} (h : handler.TriggersAt deliveries i delivery) :
    Delivery.ChangeAt handler.target deliveries i delivery := by
  obtain ⟨hdelivery, houtcome⟩ := mem_record_iff.1 h
  rcases next_cases (handler.after (deliveries.take i)) delivery with ⟨hnot, -⟩ | ⟨-, hchange, -⟩
  · exact absurd houtcome hnot
  · rw [target_after_take] at hchange
    exact ⟨hdelivery, hchange⟩

/-- A delivery that cannot be read fails, wherever it comes. -/
theorem getElem?_record_of_isUnreadable {i : Nat} (hdelivery : deliveries[i]? = some delivery)
    (unreadable : delivery.IsUnreadable handler.target) :
    (handler.record deliveries)[i]? = some (delivery, .error .undecodable) := by
  rw [← target_after_take handler deliveries i] at unreadable
  exact mem_record_iff.2 ⟨hdelivery, outcome_of_isUnreadable unreadable⟩

/-- What is reported of a delivery that is no change. -/
theorem outcome_of_not_changeAt {i : Nat} (hdelivery : deliveries[i]? = some delivery)
    (still : ¬delivery.IsChangeOf handler.target)
    (readable : ¬delivery.IsUnreadable handler.target) :
    (handler.record deliveries)[i]? = some (delivery, .ok
      (if delivery.event.isDirectory = false ∧
          delivery.event.path.Reaches delivery.host handler.target then handler.deletion
        else none)) := by
  obtain ⟨htarget, hdeletion⟩ := settings_after_take handler deliveries i
  rw [← htarget] at still readable
  refine mem_record_iff.2 ⟨hdelivery, ?_⟩
  rw [outcome_of_still still readable, htarget, deletion, deletion, hdeletion]

/-- If deletions are reported, then every one that can be read is, and no other. -/
theorem reportsDeletionAt_iff_of_isDeletionOf {i : Nat} (reports : handler.reportsDeletion = true)
    (hdelivery : deliveries[i]? = some delivery) (gone : delivery.IsDeletionOf handler.target) :
    handler.ReportsDeletionAt deliveries i delivery ↔
      ¬delivery.IsUnreadable handler.target := by
  constructor
  · intro hreported hunreadable
    have hfailed := getElem?_record_of_isUnreadable hdelivery hunreadable
    cases outcome_unique hreported hfailed
  · intro hreadable
    have hrecord := outcome_of_not_changeAt hdelivery gone.not_isChangeOf hreadable
    rw [if_pos ⟨gone.1, gone.2.1⟩, deletion, if_pos reports] at hrecord
    exact hrecord

/-- A change is never taken for a deletion. -/
theorem outcome_ne_deleted (change : delivery.IsChangeOf handler.target) :
    handler.outcome delivery ≠ .ok (some .deleted) := by
  intro h
  obtain ⟨next, hreact⟩ := outcome_eq_ok_iff.1 h
  rw [react_of_isChangeOf change] at hreact
  rcases change_cases hreact with ⟨-, hsignal⟩ | ⟨-, hsignal⟩ <;> cases hsignal

/-- What is reported as a deletion tells of the path of the file and is no change of it. -/
theorem ReportsDeletionAt.reports {i : Nat} (h : handler.ReportsDeletionAt deliveries i delivery) :
    handler.reportsDeletion = true ∧ deliveries[i]? = some delivery ∧
      delivery.event.isDirectory = false ∧
      delivery.event.path.Reaches delivery.host handler.target ∧
      ¬delivery.IsChangeOf handler.target := by
  obtain ⟨hdelivery, houtcome⟩ := mem_record_iff.1 h
  have hstill : ¬delivery.IsChangeOf handler.target := by
    intro hchange
    rw [← target_after_take handler deliveries i] at hchange
    exact outcome_ne_deleted hchange houtcome
  have hreadable : ¬delivery.IsUnreadable handler.target := by
    intro hunreadable
    cases outcome_unique h (getElem?_record_of_isUnreadable hdelivery hunreadable)
  have hrecord := outcome_unique h (outcome_of_not_changeAt hdelivery hstill hreadable)
  split at hrecord
  · next hpath =>
    rw [deletion] at hrecord
    split at hrecord
    · next hreports => exact ⟨hreports, hdelivery, hpath.1, hpath.2, hstill⟩
    · cases hrecord
  · cases hrecord

section Exact

variable (fresh : handler.lastTriggered = .binary (.zero false))
  (exact : ExactTimes handler.debounce deliveries)
  (steady : deliveries.Pairwise fun earlier later => earlier.time ≤ later.time)
  (start : ∀ first ∈ deliveries.head?, handler.debounce.value ≤ first.time)
include fresh exact steady start

/-- **What comes of a change**: it is reported if none was reported before, or if the latest one
that was is long enough ago. -/
theorem outcome_of_changeAt {i : Nat}
    (change : Delivery.ChangeAt handler.target deliveries i delivery) :
    (handler.TriggersAt deliveries i delivery ∧
        ∀ j < i, ∀ earlier, ¬handler.TriggersAt deliveries j earlier) ∨
      ∃ j latest, handler.IsLatest deliveries i j latest ∧
        (handler.record deliveries)[i]? = some (delivery, .ok
          (if handler.debounce.value ≤ delivery.time - latest.time then some .changed
            else none)) := by
  obtain ⟨hdelivery, hchange⟩ := change
  have hmem := List.mem_of_getElem? hdelivery
  rcases after_take handler deliveries i with ⟨hafter, hnone⟩ | ⟨j, latest, hlatest, hafter⟩
  · -- the handler is new, and its own time is zero
    refine .inl ⟨mem_record_iff.2 ⟨hdelivery, ?_⟩, hnone⟩
    have horigin := exact.origin delivery hmem
    rw [← fresh] at horigin
    rw [hafter, outcome_of_apart hchange exact.debounce horigin, fresh, Number.value_zero, sub_zero,
      if_pos (le_time steady start hmem)]
  · -- the handler differs from a new one in the time of the latest report only
    refine .inr ⟨j, latest, hlatest, mem_record_iff.2 ⟨hdelivery, ?_⟩⟩
    have hapart := rel_of_pairwise exact.apart hlatest.before hlatest.triggers.changeAt.1 hdelivery
    rw [hafter]
    exact outcome_of_apart hchange exact.debounce hapart

/-- No change fails. -/
theorem outcome_ne_error {i : Nat} {error : EventError}
    (change : Delivery.ChangeAt handler.target deliveries i delivery) :
    (handler.record deliveries)[i]? ≠ some (delivery, .error error) := by
  intro h
  rcases outcome_of_changeAt fresh exact steady start change with
    ⟨htriggers, -⟩ | ⟨j, latest, -, hrecord⟩
  · cases outcome_unique h htriggers
  · cases outcome_unique h hrecord

/-- A delivery fails exactly if it cannot be read. -/
theorem error_iff_isUnreadable {i : Nat} {error : EventError} :
    (handler.record deliveries)[i]? = some (delivery, .error error) ↔
      deliveries[i]? = some delivery ∧ delivery.IsUnreadable handler.target ∧
        error = .undecodable := by
  constructor
  · intro h
    have hdelivery := (mem_record_iff.1 h).1
    by_cases hunreadable : delivery.IsUnreadable handler.target
    · have hfailed := outcome_unique h (getElem?_record_of_isUnreadable hdelivery hunreadable)
      exact ⟨hdelivery, hunreadable, Except.error.inj hfailed⟩
    · -- what can be read is a change, or a deletion at most
      by_cases hchange : delivery.IsChangeOf handler.target
      · exact absurd h (outcome_ne_error fresh exact steady start ⟨hdelivery, hchange⟩)
      · cases outcome_unique h (outcome_of_not_changeAt hdelivery hchange hunreadable)
  · rintro ⟨hdelivery, hunreadable, rfl⟩
    exact getElem?_record_of_isUnreadable hdelivery hunreadable

/-- The first change is reported. -/
theorem triggersAt_of_first {i : Nat}
    (change : Delivery.ChangeAt handler.target deliveries i delivery)
    (first : ∀ j < i, ∀ earlier, ¬Delivery.ChangeAt handler.target deliveries j earlier) :
    handler.TriggersAt deliveries i delivery := by
  rcases outcome_of_changeAt fresh exact steady start change with
    ⟨htriggers, -⟩ | ⟨j, latest, hlatest, -⟩
  · exact htriggers
  · exact absurd hlatest.triggers.changeAt (first j hlatest.before latest)

/-- Reported changes are not too close. -/
theorem le_of_triggersAt {i j : Nat} {earlier later : Delivery} (hij : i < j)
    (hearlier : handler.TriggersAt deliveries i earlier)
    (hlater : handler.TriggersAt deliveries j later) :
    handler.debounce.value ≤ later.time - earlier.time := by
  rcases outcome_of_changeAt fresh exact steady start hlater.changeAt with
    ⟨-, hnone⟩ | ⟨k, latest, hlatest, hrecord⟩
  · exact absurd hearlier (hnone i hij earlier)
  · have hle : handler.debounce.value ≤ later.time - latest.time := by
      by_contra hlt
      rw [if_neg hlt] at hrecord
      cases outcome_unique hrecord hlater
    -- the earlier one is the latest one, or before it
    have hik : i ≤ k := not_lt.1 fun hki => hlatest.none_since i hki hij earlier hearlier
    have htime : earlier.time ≤ latest.time := by
      rcases hik.lt_or_eq with hlt | rfl
      · exact rel_of_pairwise steady hlt hearlier.changeAt.1 hlatest.triggers.changeAt.1
      · have hsame := hearlier.changeAt.1.symm.trans hlatest.triggers.changeAt.1
        rw [Option.some.inj hsame]
    exact hle.trans (sub_le_sub_left htime later.time)

/-- A change that is not reported is too close to the latest one that is. -/
theorem exists_latest_of_dropped {i : Nat}
    (change : Delivery.ChangeAt handler.target deliveries i delivery)
    (dropped : ¬handler.TriggersAt deliveries i delivery) :
    ∃ j latest, handler.IsLatest deliveries i j latest ∧
      delivery.time - latest.time < handler.debounce.value := by
  rcases outcome_of_changeAt fresh exact steady start change with
    ⟨htriggers, -⟩ | ⟨j, latest, hlatest, hrecord⟩
  · exact absurd htriggers dropped
  · refine ⟨j, latest, hlatest, not_le.1 fun hle => dropped ?_⟩
    rw [if_pos hle] at hrecord
    exact hrecord

end Exact

/-- **The debounce law.** Deliveries reach a new handler, one after the other, at times that are
told without rounding, none before an earlier one and the first one at least the least distance
after zero. Then those fail that cannot be read, and no others. What is reported as a change is
known from the changes of the file and their times: the first change, and each that is not too close
to the latest reported one. Deletions are reported too, if they can be read, and neither they nor
other events have an effect on what comes of the changes. -/
theorem debounced_of_exact {host : Host} {path : String} {reportsDeletion : Bool}
    {debounce : Number} (exact : ExactTimes debounce deliveries)
    (steady : deliveries.Pairwise fun earlier later => earlier.time ≤ later.time)
    (start : ∀ first ∈ deliveries.head?, debounce.value ≤ first.time) :
    Debounced (forFile host path reportsDeletion debounce) deliveries := by
  have hfresh : (forFile host path reportsDeletion debounce).lastTriggered =
      .binary (.zero false) := rfl
  have hdebounce : (forFile host path reportsDeletion debounce).debounce = debounce := rfl
  -- of how the handler is made only its first time matters
  generalize forFile host path reportsDeletion debounce = handler at hfresh hdebounce
  subst hdebounce
  refine ⟨?_, fun i delivery => TriggersAt.changeAt, ?_, ?_, ?_, ?_, ?_, ?_⟩
  · exact fun i delivery error => error_iff_isUnreadable hfresh exact steady start
  · exact fun i delivery => triggersAt_of_first hfresh exact steady start
  · exact fun i j earlier later => le_of_triggersAt hfresh exact steady start
  · exact fun i delivery => exists_latest_of_dropped hfresh exact steady start
  · exact fun reports i delivery => reportsDeletionAt_iff_of_isDeletionOf reports
  · exact fun i delivery => ReportsDeletionAt.reports
  · exact filter_record handler deliveries

/-- An event at a time in full seconds. -/
def eventAt (seconds : Nat) (kind : EventKind) (path : EventPath) : Delivery :=
  ⟨{ now := .integer seconds }, ⟨kind, path, false⟩⟩

/-- A file is created, and too soon it is written again, under another name. It is deleted, and
another file is moved to its path. -/
def replacing : List Delivery :=
  [eventAt 5 .modified (.text "/b"), eventAt 5 .created (.text "/a"),
    eventAt 6 .modified (.bytes (Utf8.encode "b/../a")), eventAt 6 .deleted (.text "/a"),
    eventAt 7 (.moved (.text "/a")) (.text "/b")]

/-- The file is watched, and changes are reported two seconds apart. -/
theorem debounced_of_exact_sample :
    Debounced (forFile {} "/a" true (.integer 2)) replacing ∧
      ((forFile {} "/a" true (.integer 2)).record replacing).map Prod.snd =
        [.ok none, .ok (some .changed), .ok none, .ok (some .deleted), .ok (some .changed)] := by
  have hticks : ∀ n ≤ 7, ∀ kind path,
      ∃ ticks < 2 ^ 53, (eventAt n kind path).host.now.IsTicks 0 ticks :=
    fun n hn _ _ => ⟨n, hn.trans_lt (by norm_num), Number.isTicks_integer n⟩
  have hreplacing : ∀ delivery ∈ replacing,
      ∃ ticks < 2 ^ 53, delivery.host.now.IsTicks 0 ticks := by
    simp only [replacing, List.forall_mem_cons]
    exact ⟨hticks 5 (by decide) _ _, hticks 5 (by decide) _ _, hticks 6 (by decide) _ _,
      hticks 6 (by decide) _ _, hticks 7 (by decide) _ _,
      List.forall_mem_nil _⟩
  have hexact : ExactTimes (.integer 2) replacing :=
    .of_ticks (by decide) (by decide) (Number.isExact_integer 2) hreplacing
  exact ⟨debounced_of_exact hexact (by decide +kernel) (by decide +kernel), by decide +kernel⟩

/-- The file is moved to a path that is no text. -/
def movedAway : Delivery := eventAt 5 (.moved (.bytes [0x2F, 0xFF])) (.text "/a")

/-- The file is written at a time that the binary format does not have. -/
def writtenLate : Delivery := eventAt 9007199254740993 .modified (.text "/a")

/-- Not every file that is moved away is reported as deleted: the handler fails where it reads the
new path, which is no text. Nor is every first change reported that comes late enough: the time
since zero is rounded, even that of whole seconds. -/
theorem not_all_runs_are_debounced :
    (ExactTimes (.integer 2) [movedAway] ∧ (Number.integer 2).value ≤ movedAway.time ∧
      movedAway.IsDeletionOf "/a" ∧
      ¬(forFile {} "/a" true (.integer 2)).ReportsDeletionAt [movedAway] 0 movedAway ∧
      ((forFile {} "/a" true (.integer 2)).record [movedAway]).map Prod.snd =
        [.error .undecodable]) ∧
    ((Number.integer 9007199254740993).value ≤ writtenLate.time ∧
      Delivery.ChangeAt "/a" [writtenLate] 0 writtenLate ∧
      ¬(forFile {} "/a" true (.integer 9007199254740993)).TriggersAt [writtenLate] 0
          writtenLate ∧
      ((forFile {} "/a" true (.integer 9007199254740993)).record [writtenLate]).map Prod.snd =
        [.ok none]) := by
  -- whole seconds are exact, so the first run fails for its bytes only
  have hticks : ∀ delivery ∈ [movedAway],
      ∃ ticks < 2 ^ 53, delivery.host.now.IsTicks 0 ticks := by
    simp only [List.forall_mem_singleton]
    exact ⟨5, by decide, Number.isTicks_integer 5⟩
  have hmoved : (forFile {} "/a" true (.integer 2)).outcome movedAway = .error .undecodable := by
    decide +kernel
  have hwritten : (forFile {} "/a" true (.integer 9007199254740993)).outcome writtenLate =
      .ok none := by
    decide +kernel
  refine ⟨⟨.of_ticks (by decide) (by decide) (Number.isExact_integer 2) hticks,
    by decide +kernel, ?_, ?_, congrArg (fun outcome => [outcome]) hmoved⟩,
    ⟨le_rfl, ⟨rfl, rfl, "/a", rfl, by decide +kernel⟩, ?_,
      congrArg (fun outcome => [outcome]) hwritten⟩⟩
  · have hnone : (EventPath.bytes [0x2F, 0xFF]).text? = none := by decide +kernel
    exact ⟨rfl, ⟨"/a", rfl, by decide +kernel⟩, fun hreaches => hreaches.text?_ne_none hnone⟩
  · intro h
    cases hmoved.symm.trans (mem_record_iff.1 h).2
  · intro h
    cases hwritten.symm.trans (mem_record_iff.1 h).2

end Handler

end AsmScope

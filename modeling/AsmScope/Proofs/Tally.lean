import AsmScope.Proofs.Slots
import Mathlib.Data.List.Induction
/-! # The compilations of one database

Of the compilations of one database only the one that was begun last counts: it alone can be in the
slot, and beginning it cancels the one before, unless that has ended. `Tally` states this for every
sequence of beginnings, endings, cancellations and disposals, where an ending may come late or
twice. -/

namespace AsmScope

/-- A list with one more element at its end, split at an element. -/
theorem concat_eq_append_cons_iff {β : Type} {items earlier later : List β} {item last : β} :
    items ++ [last] = earlier ++ item :: later ↔
      (items = earlier ∧ last = item ∧ later = []) ∨
        ∃ between, later = between ++ [last] ∧ items = earlier ++ item :: between := by
  constructor
  · intro heq
    rcases List.eq_nil_or_concat later with rfl | ⟨between, other, rfl⟩
    · obtain ⟨hitems, hlast⟩ := List.append_inj' heq rfl
      exact .inl ⟨hitems, List.singleton_inj.1 hlast, rfl⟩
    · rw [List.concat_eq_append, ← List.cons_append, ← List.append_assoc] at heq
      obtain ⟨hitems, hlast⟩ := List.append_inj' heq rfl
      obtain rfl := List.singleton_inj.1 hlast
      exact .inr ⟨between, List.concat_eq_append, hitems⟩
  · rintro (⟨rfl, rfl, rfl⟩ | ⟨between, rfl, rfl⟩)
    · rfl
    · simp

namespace Engine

variable {α : Type}

/-- What is done about the compilations of one database. -/
inductive FlightStep
  /-- A compilation begins. -/
  | begun
  /-- The compilation with this number, in order of beginning, ends. -/
  | ended (number : Nat)
  /-- The compilation in progress is cancelled. -/
  | cancelled
  /-- The database is disposed of. -/
  | disposed
  deriving DecidableEq, Repr

/-- An engine, and the tokens of the compilations that were begun, in order. -/
structure Flown (α : Type) where
  /-- The engine. -/
  engine : Engine α
  /-- The tokens. -/
  sources : List TokenId

/-- Takes a step. A compilation that was not begun cannot be ended. -/
def FlightStep.take (id : DatabaseId) (state : Flown α) : FlightStep → Flown α
  | .begun =>
    ⟨(state.engine.beginCompilation id).2,
      state.sources ++ [(state.engine.beginCompilation id).1]⟩
  | .ended number =>
    match state.sources[number]? with
    | some token => { state with engine := state.engine.endCompilation id token }
    | none => state
  | .cancelled => { state with engine := (state.engine.cancelCompilation id).2 }
  | .disposed => { state with engine := state.engine.disposeDatabase id }

/-- The engine after some steps, and the compilations that were begun. -/
def fly (id : DatabaseId) (engine : Engine α) (steps : List FlightStep) : Flown α :=
  steps.foldl (FlightStep.take id) ⟨engine, []⟩

/-- The compilation with this number has ended, after it was begun. -/
def EndedIn (number : Nat) (steps : List FlightStep) : Prop :=
  ∃ earlier later, steps = earlier ++ .ended number :: later ∧ number < earlier.count .begun

/-- One more step is taken where those before it have led. -/
theorem fly_append (id : DatabaseId) (engine : Engine α) (steps : List FlightStep)
    (step : FlightStep) : fly id engine (steps ++ [step]) = step.take id (fly id engine steps) := by
  simp [fly, List.foldl_append]

/-- A compilation has ended after one more step if it had before, or if this ends it after it was
begun. -/
theorem endedIn_append {number : Nat} {steps : List FlightStep} {step : FlightStep} :
    EndedIn number (steps ++ [step]) ↔
      EndedIn number steps ∨ step = .ended number ∧ number < steps.count .begun := by
  constructor
  · rintro ⟨earlier, later, heq, hbegun⟩
    rcases concat_eq_append_cons_iff.1 heq with ⟨rfl, hstep, -⟩ | ⟨between, -, hbetween⟩
    · exact .inr ⟨hstep, hbegun⟩
    · exact .inl ⟨earlier, between, hbetween, hbegun⟩
  · rintro (⟨earlier, later, rfl, hbegun⟩ | ⟨rfl, hbegun⟩)
    · exact ⟨earlier, later ++ [step], by simp, hbegun⟩
    · exact ⟨steps, [], rfl, hbegun⟩

/-- A compilation that has ended stays so. -/
theorem EndedIn.append {number : Nat} {steps : List FlightStep} (h : EndedIn number steps)
    (more : List FlightStep) : EndedIn number (steps ++ more) := by
  obtain ⟨earlier, later, rfl, hbegun⟩ := h
  exact ⟨earlier, later ++ more, by simp, hbegun⟩

/-- A compilation that has ended was begun. -/
theorem EndedIn.lt_count {number : Nat} {steps : List FlightStep} (h : EndedIn number steps) :
    number < steps.count .begun := by
  obtain ⟨earlier, later, rfl, hbegun⟩ := h
  rw [List.count_append]
  omega

/-- What is known of the compilations of one database after some steps. -/
structure Tally (id : DatabaseId) (steps : List FlightStep) (state : Flown α) : Prop where
  there : (state.engine.database? id).isSome
  slots : state.engine.SlotsMade
  length : state.sources.length = steps.count .begun
  made : ∀ token ∈ state.sources, token < state.engine.tokens.length
  nodup : state.sources.Nodup
  ended : EndedIn (state.sources.length - 1) steps → state.engine.slot id = none
  latest : ¬EndedIn (state.sources.length - 1) steps →
    state.engine.slot id = state.sources.getLast?
  superseded : ∀ number token, state.sources[number]? = some token →
    number + 1 < state.sources.length → ¬EndedIn number steps → state.engine.isCancelled token

namespace Tally

variable {id : DatabaseId} {steps : List FlightStep} {state : Flown α}

/-- What is in the slot is the last compilation. -/
theorem getLast?_of_slot (tally : Tally id steps state) {token : TokenId}
    (h : state.engine.slot id = some token) : state.sources.getLast? = some token := by
  by_cases hended : EndedIn (state.sources.length - 1) steps
  · rw [tally.ended hended] at h
    cases h
  · rw [← tally.latest hended, h]

/-- A compilation that has ended is not in the slot. -/
theorem slot_ne_of_ended (tally : Tally id steps state) {number : Nat} {token : TokenId}
    (source : state.sources[number]? = some token) (ended : EndedIn number steps) :
    state.engine.slot id ≠ some token := by
  intro hslot
  have hlast := tally.getLast?_of_slot hslot
  rw [List.getLast?_eq_getElem?] at hlast
  -- the tokens differ from each other, so the compilation is the last one
  have hnumber : number = state.sources.length - 1 :=
    (List.getElem?_inj (List.getElem?_eq_some_iff.1 source).1 tally.nodup).1
      (source.trans hlast.symm)
  rw [tally.ended (hnumber ▸ ended)] at hslot
  cases hslot

/-- A compilation that has not ended is in the slot or cancelled. -/
theorem slot_or_cancelled (tally : Tally id steps state) {number : Nat} {token : TokenId}
    (source : state.sources[number]? = some token) (going : ¬EndedIn number steps) :
    state.engine.slot id = some token ∨ state.engine.isCancelled token := by
  -- if a later one was begun, that one has cancelled it; otherwise it is the last
  have hbound := (List.getElem?_eq_some_iff.1 source).1
  by_cases hlast : number + 1 < state.sources.length
  · exact .inr (tally.superseded number token source hlast going)
  · obtain rfl : number = state.sources.length - 1 := by omega
    rw [tally.latest going, List.getLast?_eq_getElem?]
    exact .inl source

/-- A step that begins and ends nothing keeps the tally, if it cancels at most what is in the
slot. -/
theorem of_still {later : Engine α} {step : FlightStep} (tally : Tally id steps state)
    (begins : step ≠ .begun) (ends : ∀ number, step ≠ .ended number)
    (databases : (later.database? id).isSome) (slots : ∀ id, later.slot id = state.engine.slot id)
    (tokens : later.tokens.length = state.engine.tokens.length)
    (cancelled : ∀ token, state.engine.isCancelled token → later.isCancelled token) :
    Tally id (steps ++ [step]) { state with engine := later } := by
  -- a step that is no end leaves open the same runs
  have hended : ∀ number, EndedIn number (steps ++ [step]) ↔ EndedIn number steps := by
    intro number
    rw [endedIn_append]
    simp [ends number]
  refine ⟨databases, ?_, ?_, ?_, tally.nodup, ?_, ?_, ?_⟩
  · intro other token hslot
    rw [tokens]
    exact tally.slots other token ((slots other).symm.trans hslot)
  · rw [tally.length, List.count_append, List.count_singleton]
    simp [begins]
  · intro token htoken
    rw [tokens]
    exact tally.made token htoken
  · intro h
    rw [slots]
    exact tally.ended ((hended _).1 h)
  · intro h
    rw [slots]
    exact tally.latest fun hsteps => h ((hended _).2 hsteps)
  · intro number token source hlast h
    exact cancelled token (tally.superseded number token source hlast
      fun hsteps => h ((hended _).2 hsteps))

/-- The tally is kept when a compilation begins. -/
theorem begun (tally : Tally id steps state) :
    Tally id (steps ++ [.begun]) (FlightStep.begun.take id state) := by
  have hcount : (steps ++ [FlightStep.begun]).count .begun = steps.count .begun + 1 := by simp
  have hended : ∀ number, EndedIn number (steps ++ [.begun]) ↔ EndedIn number steps := by
    intro number
    rw [endedIn_append]
    simp
  simp only [FlightStep.take, fst_beginCompilation]
  refine ⟨?_, ?_, ?_, ?_, ?_, ?_, ?_, ?_⟩
  · have hthere := tally.there
    rw [isSome_database?_iff] at hthere ⊢
    rwa [databases_beginCompilation, List.length_modify]
  · intro other token hslot
    rw [length_beginCompilation]
    rw [slot_beginCompilation tally.there] at hslot
    split at hslot
    · cases hslot
      exact Nat.lt_succ_self _
    · exact Nat.lt_succ_of_lt (tally.slots other token hslot)
  · rw [List.length_append, List.length_singleton, tally.length, hcount]
  · intro token hmem
    rw [length_beginCompilation]
    rcases List.mem_append.1 hmem with hold | hnew
    · exact Nat.lt_succ_of_lt (tally.made token hold)
    · rw [List.mem_singleton.1 hnew]
      exact Nat.lt_succ_self _
  · -- the new token is the next one, and the others were made before
    refine List.nodup_append.2 ⟨tally.nodup, by simp, ?_⟩
    rintro token hold _ hnew rfl
    rw [List.mem_singleton.1 hnew] at hold
    exact Nat.lt_irrefl _ (tally.made _ hold)
  · -- the new compilation cannot have ended
    intro h
    have hbound := ((hended _).1 h).lt_count
    rw [List.length_append, List.length_singleton, tally.length] at hbound
    omega
  · intro _
    rw [slot_beginCompilation tally.there, if_pos rfl, List.getLast?_concat]
  · -- all others that have not ended were in the slot or cancelled before
    intro number token source hlast h
    rw [List.length_append, List.length_singleton] at hlast
    rw [List.getElem?_append_left (by omega)] at source
    have hbefore := tally.slot_or_cancelled source fun hsteps => h ((hended _).2 hsteps)
    exact (isCancelled_beginCompilation tally.slots id token).2 hbefore.symm

/-- The tally is kept when a compilation ends that was begun. -/
theorem endedOnce (tally : Tally id steps state) {number : Nat} {token : TokenId}
    (source : state.sources[number]? = some token) :
    Tally id (steps ++ [.ended number])
      { state with engine := state.engine.endCompilation id token } := by
  have hbound := (List.getElem?_eq_some_iff.1 source).1
  have hended : ∀ other, EndedIn other (steps ++ [.ended number]) ↔
      EndedIn other steps ∨ number = other := by
    intro other
    rw [endedIn_append, FlightStep.ended.injEq, ← tally.length]
    constructor
    · rintro (h | ⟨rfl, -⟩)
      · exact .inl h
      · exact .inr rfl
    · rintro (h | rfl)
      · exact .inl h
      · exact .inr ⟨rfl, hbound⟩
  have hslot : (state.engine.endCompilation id token).slot id =
      if state.engine.slot id = some token then none else state.engine.slot id := by
    rw [slot_endCompilation]
    simp
  refine ⟨?_, ?_, ?_, ?_, tally.nodup, ?_, ?_, ?_⟩
  · have hthere := tally.there
    rw [isSome_database?_iff] at hthere ⊢
    simpa [endCompilation, modifyDatabase] using hthere
  · intro other found h
    rw [length_endCompilation]
    rw [slot_endCompilation] at h
    split at h
    · cases h
    · exact tally.slots other found h
  · rw [tally.length, List.count_append]
    simp
  · intro other hother
    rw [length_endCompilation]
    exact tally.made other hother
  · intro h
    rw [hslot]
    rcases (hended _).1 h with hearlier | hnumber
    · -- the last compilation has ended before
      rw [tally.ended hearlier]
      simp
    · -- the last compilation ends
      split
      · rfl
      · next hother =>
        by_contra hsome
        obtain ⟨found, hfound⟩ := Option.ne_none_iff_exists'.1 hsome
        have hlast := tally.getLast?_of_slot hfound
        rw [List.getLast?_eq_getElem?, ← hnumber, source] at hlast
        exact hother (hfound.trans hlast.symm)
  · intro h
    have hearlier : ¬EndedIn (state.sources.length - 1) steps :=
      fun hsteps => h ((hended _).2 (.inl hsteps))
    have hnumber : number ≠ state.sources.length - 1 := fun heq => h ((hended _).2 (.inr heq))
    rw [hslot, if_neg, tally.latest hearlier]
    -- another compilation than the last one ends
    intro hfound
    have hlast := tally.getLast?_of_slot hfound
    rw [List.getLast?_eq_getElem?] at hlast
    exact hnumber ((List.getElem?_inj hbound tally.nodup).1 (source.trans hlast.symm))
  · intro other found hfound hlast h
    rw [isCancelled_endCompilation]
    exact tally.superseded other found hfound hlast fun hsteps => h ((hended _).2 (.inl hsteps))

/-- **A step keeps the tally.** -/
theorem take (tally : Tally id steps state) (step : FlightStep) :
    Tally id (steps ++ [step]) (step.take id state) := by
  cases step with
  | begun => exact tally.begun
  | ended number =>
    simp only [FlightStep.take]
    cases hsource : state.sources[number]? with
    | some token => exact tally.endedOnce hsource
    | none =>
      -- there is no such compilation
      have hnone : ∀ other, EndedIn other (steps ++ [.ended number]) ↔ EndedIn other steps := by
        intro other
        rw [endedIn_append, ← tally.length]
        constructor
        · rintro (h | ⟨heq, hbound⟩)
          · exact h
          · cases heq
            rw [List.getElem?_eq_none_iff] at hsource
            omega
        · exact .inl
      refine ⟨tally.there, tally.slots, ?_, tally.made, tally.nodup, ?_, ?_, ?_⟩
      · rw [tally.length, List.count_append]
        simp
      · exact fun h => tally.ended ((hnone _).1 h)
      · exact fun h => tally.latest fun hsteps => h ((hnone _).2 hsteps)
      · exact fun other token source hlast h =>
          tally.superseded other token source hlast fun hsteps => h ((hnone _).2 hsteps)
  | cancelled =>
    refine tally.of_still nofun nofun ?_ (fun other => slot_cancelCompilation _ id other)
      (length_cancelCompilation _ id) fun token h =>
        (isCancelled_cancelCompilation tally.slots id token).2 (.inl h)
    rw [database?_cancelCompilation]
    exact tally.there
  | disposed =>
    refine tally.of_still nofun nofun ?_ (fun other => slot_disposeDatabase _ id other)
      (length_disposeDatabase _ id) fun token h =>
        (isCancelled_disposeDatabase tally.slots id token).2 (.inl h)
    have hthere := tally.there
    rw [← database?_cancelCompilation _ id, isSome_database?_iff] at hthere
    rw [isSome_database?_iff]
    simpa [disposeDatabase, modifyDatabase] using hthere

/-- A step cancels nothing but what is in the slot. -/
theorem slot_of_cancelled (tally : Tally id steps state) {step : FlightStep} {token : TokenId}
    (going : state.engine.isCancelled token = false)
    (cancelled : (step.take id state).engine.isCancelled token) :
    state.engine.slot id = some token := by
  have hgoing : ¬state.engine.isCancelled token = true := by simp [going]
  cases step with
  | begun =>
    exact ((isCancelled_beginCompilation tally.slots id token).1 cancelled).resolve_left hgoing
  | ended number =>
    simp only [FlightStep.take] at cancelled
    split at cancelled
    · rw [isCancelled_endCompilation] at cancelled
      exact absurd cancelled hgoing
    · exact absurd cancelled hgoing
  | cancelled =>
    exact ((isCancelled_cancelCompilation tally.slots id token).1 cancelled).resolve_left hgoing
  | disposed =>
    exact ((isCancelled_disposeDatabase tally.slots id token).1 cancelled).resolve_left hgoing

/-- What is cancelled stays so. -/
theorem isCancelled_take (tally : Tally id steps state) (step : FlightStep) {token : TokenId}
    (h : state.engine.isCancelled token) : (step.take id state).engine.isCancelled token := by
  cases step with
  | begun => exact (isCancelled_beginCompilation tally.slots id token).2 (.inl h)
  | ended number =>
    simp only [FlightStep.take]
    split
    · rw [isCancelled_endCompilation]
      exact h
    · exact h
  | cancelled => exact (isCancelled_cancelCompilation tally.slots id token).2 (.inl h)
  | disposed => exact (isCancelled_disposeDatabase tally.slots id token).2 (.inl h)

/-- A compilation that was begun keeps its token. -/
theorem sources_take (state : Flown α) (step : FlightStep) {number : Nat} {token : TokenId}
    (source : state.sources[number]? = some token) :
    (step.take id state).sources[number]? = some token := by
  cases step with
  | begun =>
    rw [FlightStep.take, List.getElem?_append_left (List.getElem?_eq_some_iff.1 source).1]
    exact source
  | ended other =>
    simp only [FlightStep.take]
    split <;> exact source
  | cancelled | disposed => exact source

end Tally

/-! ### Sequences -/

section Sequences

variable {engine : Engine α} {id : DatabaseId}
variable (there : (engine.database? id).isSome) (made : engine.SlotsMade)
  (idle : engine.slot id = none)
include there made idle

/-- The tally is right after any steps. -/
theorem tally_fly (steps : List FlightStep) : Tally id steps (fly id engine steps) := by
  induction steps using List.reverseRecOn with
  | nil =>
    refine ⟨there, made, rfl, by simp [fly], by simp [fly], fun _ => idle, fun _ => idle, ?_⟩
    intro number token source
    cases source
  | append_singleton steps step ih =>
    rw [fly_append]
    exact ih.take step

/-- What is cancelled stays so. -/
theorem isCancelled_fly_append {steps : List FlightStep} {token : TokenId}
    (h : (fly id engine steps).engine.isCancelled token) (more : List FlightStep) :
    (fly id engine (steps ++ more)).engine.isCancelled token := by
  induction more using List.reverseRecOn with
  | nil => rwa [List.append_nil]
  | append_singleton more step ih =>
    rw [← List.append_assoc, fly_append]
    exact (tally_fly there made idle _).isCancelled_take step ih

omit there made idle in
/-- A compilation that was begun keeps its token, whatever comes later. -/
theorem sources_fly_append {steps : List FlightStep} {number : Nat} {token : TokenId}
    (source : (fly id engine steps).sources[number]? = some token) (more : List FlightStep) :
    (fly id engine (steps ++ more)).sources[number]? = some token := by
  induction more using List.reverseRecOn with
  | nil => rwa [List.append_nil]
  | append_singleton more step ih =>
    rw [← List.append_assoc, fly_append]
    exact Tally.sources_take _ step ih

/-- A compilation that has not ended when the next one begins is cancelled. -/
theorem isCancelled_of_superseded {earlier : List FlightStep} {number : Nat} {token : TokenId}
    (source : (fly id engine earlier).sources[number]? = some token)
    (going : ¬EndedIn number earlier) (later : List FlightStep) :
    (fly id engine (earlier ++ .begun :: later)).engine.isCancelled token := by
  have htally := tally_fly there made idle earlier
  have hbegun : (fly id engine (earlier ++ [.begun])).engine.isCancelled token := by
    rw [fly_append]
    exact (isCancelled_beginCompilation htally.slots id token).2
      (htally.slot_or_cancelled source going).symm
  have hlater := isCancelled_fly_append there made idle hbegun later
  rwa [List.append_assoc, List.singleton_append] at hlater

/-- A compilation that has ended without being cancelled is never cancelled. -/
theorem isCancelled_of_ended {earlier : List FlightStep} {number : Nat} {token : TokenId}
    (source : (fly id engine earlier).sources[number]? = some token)
    (ended : EndedIn number earlier)
    (going : (fly id engine earlier).engine.isCancelled token = false) (later : List FlightStep) :
    (fly id engine (earlier ++ later)).engine.isCancelled token = false := by
  induction later using List.reverseRecOn with
  | nil => rwa [List.append_nil]
  | append_singleton later step ih =>
    have htally := tally_fly there made idle (earlier ++ later)
    rw [← List.append_assoc, fly_append, Bool.eq_false_iff]
    intro hcancelled
    -- only what is in the slot is cancelled, and a compilation that has ended is not
    exact htally.slot_ne_of_ended (sources_fly_append source later) (ended.append later)
      (htally.slot_of_cancelled ih hcancelled)

end Sequences

end Engine

end AsmScope

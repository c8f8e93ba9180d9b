import AsmScope.Proofs.Scenes
import AsmScope.Proofs.Tally
/-! # Single flight

In a session every run ends its own compilation. So at every moment all runs in progress but the
last one of each database are cancelled, at most this last one is in the slot, and without a run in
progress the slot is empty (`OneEach`). Together with what holds for the compilations of one
database in any order (`Tally`) this is the rule of single flight. -/

namespace AsmScope

namespace Engine

variable {α : Type}

/-- The run of a database that was begun last, of those in progress. -/
def Scene.latest (scene : Scene α) (id : DatabaseId) : Option Flight :=
  scene.flights.find? fun flight => flight.database = id

/-- Of the runs in progress for a database at most the last one is in the slot, and all others are
cancelled. -/
structure OneEach (scene : Scene α) : Prop where
  made : ∀ flight ∈ scene.flights, flight.token < scene.engine.tokens.length
  nodup : scene.flights.Nodup
  slot : ∀ id token, scene.engine.slot id = some token → scene.latest id = some ⟨id, token⟩
  guarded : ∀ flight ∈ scene.flights,
    scene.engine.slot flight.database = some flight.token ∨ scene.engine.isCancelled flight.token

/-- The run that was begun last is one of those in progress. -/
theorem Scene.mem_of_latest {scene : Scene α} {id : DatabaseId} {flight : Flight}
    (h : scene.latest id = some flight) : flight ∈ scene.flights :=
  List.mem_of_find?_eq_some h

/-- Erasing another item leaves the first one that is found. -/
theorem find?_erase_of_ne {β : Type} [DecidableEq β] {p : β → Bool} {items : List β}
    {item other : β} (h : items.find? p = some item) (ne : item ≠ other) :
    (items.erase other).find? p = some item := by
  induction items with
  | nil => cases h
  | cons first items ih =>
    by_cases hfirst : first = other
    · subst hfirst
      rw [List.erase_cons_head]
      rw [List.find?_cons] at h
      split at h
      · cases h
        exact absurd rfl ne
      · exact h
    · rw [List.erase_cons_tail (by simpa using hfirst), List.find?_cons]
      rw [List.find?_cons] at h
      split at h
      · exact h
      · exact ih h

namespace OneEach

variable {before after : Engine α} {flights : List Flight} {scene : Scene α}

/-- What is in a slot was made. -/
theorem slotsMade (h : OneEach scene) : scene.engine.SlotsMade :=
  fun id token hslot => h.made _ (Scene.mem_of_latest (h.slot id token hslot))

/-- What leaves the slots as they are, and cancels more tokens at most, keeps the rule. -/
theorem of_slots (h : OneEach ⟨before, flights⟩) (slots : ∀ id, after.slot id = before.slot id)
    (tokens : before.tokens.length ≤ after.tokens.length)
    (cancelled : ∀ token, before.isCancelled token → after.isCancelled token) :
    OneEach ⟨after, flights⟩ := by
  refine ⟨?_, h.nodup, ?_, ?_⟩
  · intro flight hflight
    exact Nat.lt_of_lt_of_le (h.made flight hflight) tokens
  · intro id token hslot
    rw [slots] at hslot
    exact h.slot id token hslot
  · intro flight hflight
    rcases h.guarded flight hflight with hslot | hcancelled
    · exact .inl ((slots _).trans hslot)
    · exact .inr (cancelled _ hcancelled)

/-- A calm change keeps one run for each database at most in its slot. -/
theorem calm (calm : Calm before after) (h : OneEach ⟨before, flights⟩) :
    OneEach ⟨after, flights⟩ := by
  cases calm with
  | elsewhere same =>
    refine h.of_slots (slot_congr same.active) (Nat.le_of_eq (by rw [same.tokens])) ?_
    intro token hcancelled
    rwa [isCancelled, same.tokens]
  | opened database idle =>
    exact h.of_slots (slot_addDatabase before idle) (Nat.le_refl _) fun _ hcancelled => hcancelled
  | cancelled token =>
    exact h.of_slots (slot_cancelToken before token) (Nat.le_of_eq (length_cancelToken _ _).symm)
      fun _ hcancelled => isCancelled_of_cancelToken token hcancelled

/-- The beginning of a compilation keeps one run in the slot of each database, as it cancels the one
that was there. -/
theorem begun {id : DatabaseId} (there : (before.database? id).isSome)
    (h : OneEach ⟨before, flights⟩) :
    OneEach ⟨(before.beginCompilation id).2,
      ⟨id, (before.beginCompilation id).1⟩ :: flights⟩ := by
  rw [fst_beginCompilation]
  refine ⟨?_, ?_, ?_, ?_⟩
  · intro flight hflight
    rw [length_beginCompilation]
    rcases List.mem_cons.1 hflight with rfl | hold
    · exact Nat.lt_succ_self _
    · exact Nat.lt_succ_of_lt (h.made flight hold)
  · refine List.nodup_cons.2 ⟨fun hold => ?_, h.nodup⟩
    exact Nat.lt_irrefl _ (h.made _ hold)
  · intro other token hslot
    rw [slot_beginCompilation there] at hslot
    by_cases hid : id = other
    · subst hid
      rw [if_pos rfl] at hslot
      cases hslot
      simp [Scene.latest]
    · rw [if_neg hid] at hslot
      have hlatest := h.slot other token hslot
      simp only [Scene.latest] at hlatest ⊢
      rw [List.find?_cons_of_neg (by simpa using hid)]
      exact hlatest
  · intro flight hflight
    rw [slot_beginCompilation there]
    rcases List.mem_cons.1 hflight with rfl | hold
    · exact .inl (if_pos rfl)
    · -- the one that was in the slot is cancelled
      by_cases hid : id = flight.database
      · refine .inr ((isCancelled_beginCompilation h.slotsMade id _).2 ?_)
        rw [hid]
        exact (h.guarded flight hold).symm
      · rw [if_neg hid]
        rcases h.guarded flight hold with hslot | hcancelled
        · exact .inl hslot
        · exact .inr ((isCancelled_beginCompilation h.slotsMade id _).2 (.inl hcancelled))

/-- The end of a compilation keeps one run for each database at most in its slot. -/
theorem ended {flight : Flight} (h : OneEach ⟨before, flights⟩) :
    OneEach ⟨before.endCompilation flight.database flight.token, flights.erase flight⟩ := by
  refine ⟨?_, h.nodup.erase flight, ?_, ?_⟩
  · intro other hother
    rw [length_endCompilation]
    exact h.made other (List.mem_of_mem_erase hother)
  · intro id token hslot
    rw [slot_endCompilation] at hslot
    split at hslot
    · cases hslot
    · next hne =>
      -- what is still in the slot is another run
      refine find?_erase_of_ne (h.slot id token hslot) ?_
      rintro rfl
      exact hne ⟨rfl, hslot⟩
  · intro other hother
    obtain ⟨hne, hmem⟩ := h.nodup.mem_erase_iff.1 hother
    rw [slot_endCompilation, isCancelled_endCompilation]
    rcases h.guarded other hmem with hslot | hcancelled
    · refine .inl ?_
      rw [if_neg]
      · exact hslot
      · -- another run of the database would be another token in its slot
        rintro ⟨hdatabase, hflight⟩
        rw [hdatabase, hslot, Option.some.injEq] at hflight
        exact hne (by cases other; cases flight; simp_all)
    · exact .inr hcancelled

/-- **Whatever happens, all runs in progress but the last one of each database are cancelled.** -/
theorem move {next : Scene α} (move : Move scene next) (h : OneEach scene) : OneEach next := by
  cases move with
  | @deed before after flights deed =>
    have hcalm : ∀ before after : Engine α, Calm before after →
        Maintains (fun engine => OneEach ⟨engine, flights⟩) before after := fun _ _ => calm
    exact respects_deed hcalm before after deed h
  | elsewhere same =>
    have htokens := congrArg List.length same.cancelled
    rw [List.length_map, List.length_map] at htokens
    refine h.of_slots (slot_congr (by rw [same.databases])) (Nat.le_of_eq htokens.symm) ?_
    intro token hcancelled
    rwa [isCancelled_congr same.cancelled]
  | begun there => exact h.begun there
  | ended ending => exact h.ended

/-- At every moment of a session there is one run for each database at most in its slot. -/
theorem moves {next : Scene α} (moves : Moves scene next) (h : OneEach scene) : OneEach next :=
  moves.invariant (fun _ _ move h => h.move move) h

/-- Without a run in progress the slots are empty. -/
theorem of_idle (idle : ∀ id, before.slot id = none) : OneEach ⟨before, []⟩ := by
  refine ⟨nofun, List.nodup_nil, ?_, nofun⟩
  intro id token hslot
  rw [idle] at hslot
  cases hslot

/-- A fresh engine has no databases. -/
theorem of_fresh {watching : Bool} (h : Fresh watching before) : OneEach ⟨before, []⟩ := by
  have hidle : ∀ id, before.slot id = none := by
    intro id
    rw [Engine.slot, database?, h.databases]
    rfl
  exact .of_idle hidle

/-- All runs in progress but the last one of their database are cancelled. -/
theorem isCancelled_of_ne_latest (h : OneEach scene) {flight : Flight}
    (going : flight ∈ scene.flights) (other : scene.latest flight.database ≠ some flight) :
    scene.engine.isCancelled flight.token := by
  refine (h.guarded flight going).resolve_left fun hslot => ?_
  exact other (h.slot _ _ hslot)

/-- Where no run is in progress the slot is empty. -/
theorem slot_of_latest (h : OneEach scene) {id : DatabaseId} (none : scene.latest id = none) :
    scene.engine.slot id = Option.none := by
  cases hslot : scene.engine.slot id with
  | none => rfl
  | some token =>
    rw [h.slot id token hslot] at none
    cases none

end OneEach

end Engine

namespace Scenario

open Engine

/-- **Single flight.** For any sequence of beginnings, endings, cancellations and disposals of one
database: the slot is empty or holds the compilation that was begun last, and it is empty exactly
if none was begun or the last one has ended; a compilation that has not ended when a later one
begins is cancelled; one that has ended without being cancelled never is; and a cancellation says
whether the slot was empty, and cancels what is in it and nothing else.

For sessions, with all runs that scripts start while others are in progress: the slot of a database
holds at most the last of its runs in progress, all others are cancelled, and without a run in
progress it is empty. So it is empty after every request, and at every moment of a run the run is in
the slot or cancelled. -/
theorem single_flight :
    (∀ (stage : Stage) (id : DatabaseId), (stage.database? id).isSome → stage.SlotsMade →
      stage.slot id = none → ∀ steps : List FlightStep,
        let flown := fly id stage steps
        flown.sources.Nodup ∧
        (flown.engine.slot id = none ∨ flown.engine.slot id = flown.sources.getLast?) ∧
        (flown.engine.slot id = none ↔
          flown.sources = [] ∨ EndedIn (flown.sources.length - 1) steps) ∧
        (∀ earlier later number token, steps = earlier ++ .begun :: later →
          (fly id stage earlier).sources[number]? = some token → ¬EndedIn number earlier →
            flown.engine.isCancelled token = true) ∧
        (∀ earlier later number token, steps = earlier ++ later →
          (fly id stage earlier).sources[number]? = some token → EndedIn number earlier →
            (fly id stage earlier).engine.isCancelled token = false →
              flown.engine.isCancelled token = false) ∧
        (flown.engine.cancelCompilation id).1 = (flown.engine.slot id).isSome ∧
        ∀ token, (flown.engine.cancelCompilation id).2.isCancelled token = true ↔
          flown.engine.isCancelled token = true ∨ flown.engine.slot id = some token) ∧
    (∀ stage : Stage, (∀ id, stage.slot id = none) → Scripted EngineStep.Regular stage →
      CoversSessions stage ∧
      (∀ scene, Moves ⟨stage, []⟩ scene →
        (∀ id token, scene.engine.slot id = some token →
          scene.latest id = some ⟨id, token⟩) ∧
        (∀ flight ∈ scene.flights, scene.latest flight.database ≠ some flight →
          scene.engine.isCancelled flight.token = true) ∧
        ∀ id, scene.latest id = none → scene.engine.slot id = none) ∧
      ∀ steps : List EngineStep, (∀ step ∈ steps, step.Regular) →
        (∀ id, (afterSteps steps stage).slot id = none) ∧
        ∀ depth id source override task begun,
          (afterSteps steps stage).Begins (interference depth) id source override task begun →
            ∀ n, (task.timeline begun n).2.slot id = some task.token ∨
              (task.timeline begun n).2.isCancelled task.token = true) := by
  refine ⟨?_, ?_⟩
  · intro stage id there made idle steps flown
    -- the first law, for the four operations alone: the tally of their history
    have htally : Tally id steps flown := tally_fly there made idle steps
    refine ⟨htally.nodup, ?_, ?_, ?_, ?_, found_cancelCompilation _ _,
      isCancelled_cancelCompilation htally.slots id⟩
    · by_cases hended : EndedIn (flown.sources.length - 1) steps
      · exact .inl (htally.ended hended)
      · exact .inr (htally.latest hended)
    · constructor
      · intro hslot
        by_contra hnot
        obtain ⟨hbegun, hgoing⟩ := not_or.1 hnot
        rw [htally.latest hgoing, List.getLast?_eq_none_iff] at hslot
        exact hbegun hslot
      · rintro (hnone | hended)
        · by_cases hended : EndedIn (flown.sources.length - 1) steps
          · exact htally.ended hended
          · rw [htally.latest hended, hnone]
            rfl
        · exact htally.ended hended
    · rintro earlier later number token rfl source going
      exact isCancelled_of_superseded there made idle source going later
    · rintro earlier later number token rfl source ended going
      exact isCancelled_of_ended there made idle source ended going later
  · intro stage idle scripted
    -- the second law, for whole sessions: at most one flight at a slot
    have hscene : ∀ scene, Moves ⟨stage, []⟩ scene → OneEach scene :=
      fun scene moves => (OneEach.of_idle idle).moves moves
    refine ⟨coversSessions scripted, fun scene moves => ?_, fun steps regular => ⟨fun id => ?_, ?_⟩⟩
    · have hone := hscene scene moves
      exact ⟨hone.slot, fun flight going other => hone.isCancelled_of_ne_latest going other,
        fun id none => hone.slot_of_latest none⟩
    · exact (hscene _ (moves_afterSteps scripted regular []).2).slot_of_latest rfl
    · intro depth id source override task begun begins n
      -- a moment inside a run is reached by moves that begin at the run
      obtain ⟨hscripted, hmoves⟩ := moves_afterSteps scripted regular []
      have hmoment := hmoves.trans (moves_timeline hscripted begins n []).2
      exact (hscene _ hmoment).guarded _ List.mem_cons_self

/-- The sample with a script that runs the source again as soon as its compiler has started. -/
def nestedStage : Stage :=
  { sampleStage with
    front := { scripts := [⟨"g++", .spawned, [.run 0 "a" none]⟩], numbered := [0] } }

/-- A second compilation cancels the first one, and the slot is empty after nested runs. -/
theorem single_flight_sample :
    (fly 0 nestedStage [.begun, .begun]).engine.isCancelled 0 = true ∧
      ∀ id, (afterSteps [.run 0 "a" none] nestedStage).slot id = none := by
  obtain ⟨hone, hsession⟩ := single_flight
  have hidle : ∀ id, nestedStage.slot id = none := by
    intro id
    cases id <;> rfl
  have hmade : nestedStage.SlotsMade := by
    intro id token hslot
    rw [hidle] at hslot
    cases hslot
  have hgoing : ¬EndedIn 0 [.begun] := by
    rintro ⟨earlier, later, heq, -⟩
    have hmem : FlightStep.ended 0 ∈ [FlightStep.begun] := by
      rw [heq]
      exact List.mem_append_right _ List.mem_cons_self
    simp at hmem
  obtain ⟨-, -, -, hsuperseded, -⟩ := hone nestedStage 0 rfl hmade rfl [.begun, .begun]
  have hscripted : Scripted EngineStep.Regular nestedStage := by
    intro script hscript
    rw [List.mem_singleton.1 hscript]
    decide
  obtain ⟨-, -, hsteps⟩ := hsession nestedStage hidle hscripted
  exact ⟨hsuperseded [.begun] [] 0 0 rfl rfl hgoing, (hsteps [.run 0 "a" none] (by decide)).1⟩

end Scenario

end AsmScope

import AsmScope.Proofs.Slots
import Mathlib.Logic.Relation
/-! # Scenes of a session

A scene is an engine with the runs that are in progress. `Move` says what can happen next in a
session, one thing at a time: a deed of a request, whoever makes it, a run that begins, any of the
runs in progress that ends, or something that leaves databases, registry and observers alone and
cancels nothing, such as what programs do.

Every regular request leads from one scene to another by such moves, with all scripts that are
played at the moments of its runs (`moves_perform`), and so does a whole session
(`moves_afterSteps`); a run that has begun is in progress at all of its moments
(`moves_timeline`). So what holds after all moves holds at every moment of every session,
however its runs are nested. -/

namespace AsmScope

namespace Engine

variable {α : Type}

/-- A run in progress: its database and its token. -/
structure Flight where
  /-- The database. -/
  database : DatabaseId
  /-- The token. -/
  token : TokenId
  deriving DecidableEq, Repr

/-- An engine and the runs in progress, the one that was begun last first. -/
structure Scene (α : Type) where
  /-- The engine. -/
  engine : Engine α
  /-- The runs in progress. -/
  flights : List Flight

/-- The same databases, registry and observers, and the same tokens, of which the same are
cancelled. -/
structure SameBooks (before after : Engine α) : Prop where
  rooted : Path.isAbsolute before.host.directory → Path.isAbsolute after.host.directory
  databases : after.databases = before.databases
  registered : after.registered = before.registered
  observers : after.observers = before.observers
  watching : after.watching = before.watching
  cancelled : after.tokens.map (fun token => token.cancelled) =
    before.tokens.map fun token => token.cancelled

/-- What happens in a session, one thing at a time. -/
inductive Move : Scene α → Scene α → Prop
  /-- Something is done in a request. -/
  | deed {before after : Engine α} {flights : List Flight}
      (deed : Deed (fun _ => True) before after) : Move ⟨before, flights⟩ ⟨after, flights⟩
  /-- Something happens to programs, files, the clock, settings, output or the front. -/
  | elsewhere {before after : Engine α} {flights : List Flight} (same : SameBooks before after) :
      Move ⟨before, flights⟩ ⟨after, flights⟩
  /-- A run begins. -/
  | begun {engine : Engine α} {flights : List Flight} {id : DatabaseId}
      (there : (engine.database? id).isSome) :
      Move ⟨engine, flights⟩
        ⟨(engine.beginCompilation id).2, ⟨id, (engine.beginCompilation id).1⟩ :: flights⟩
  /-- A run ends. -/
  | ended {engine : Engine α} {flights : List Flight} {flight : Flight}
      (ending : flight ∈ flights) :
      Move ⟨engine, flights⟩
        ⟨engine.endCompilation flight.database flight.token, flights.erase flight⟩

/-- What happens in a session. -/
def Moves : Scene α → Scene α → Prop := Relation.ReflTransGen Move

/-- What every move keeps holds in all of a session. -/
theorem Moves.invariant {P : Scene α → Prop}
    (keeps : ∀ scene next : Scene α, Move scene next → P scene → P next) {scene next : Scene α}
    (moves : Moves scene next) (h : P scene) : P next := by
  induction moves with
  | refl => exact h
  | tail _ move ih => exact keeps _ _ move ih

/-! ### What leaves the books alone -/

/-- What is done aside leaves the books. -/
theorem Aside.sameBooks {before after : Engine α} (same : Aside before after) :
    SameBooks before after :=
  ⟨fun rooted => same.directory ▸ rooted, same.databases, same.registered, same.observers,
    same.watching, by rw [same.tokens]⟩

/-- What happens outside leaves the books. -/
theorem Outside.sameBooks {before after : Engine α} (same : Outside before after) :
    SameBooks before after :=
  ⟨same.rooted, same.databases, same.registered, same.observers, same.watching,
    by rw [same.tokens]⟩

/-- The start of a process leaves the books. -/
theorem Starts.sameBooks {before after : Engine α} (start : Starts before after) :
    SameBooks before after := by
  obtain ⟨process, rfl⟩ := start
  exact ⟨id, rfl, rfl, rfl, rfl, rfl⟩

/-- A change of a token that neither cancels it nor undoes that leaves which ones are cancelled. -/
theorem map_cancelled_modify (tokens : List (CancellationToken RunProcesses)) (id : TokenId)
    (f : CancellationToken RunProcesses → CancellationToken RunProcesses)
    (hf : ∀ token, (f token).cancelled = token.cancelled) :
    (tokens.modify id f).map (fun token => token.cancelled) =
      tokens.map fun token => token.cancelled := by
  apply List.ext_getElem?
  intro i
  simp only [List.getElem?_map, List.getElem?_modify]
  by_cases hi : id = i <;> cases tokens[i]? <;> simp [hi, hf]

/-- What a run does to its processes leaves the books. -/
theorem Act.sameBooks {first : Nat} {before after : Engine α} (act : Act first before after) :
    SameBooks before after := by
  cases act with
  | registered token run =>
    -- a cancelled token kills the run at once; a token that is not cancelled takes a note of it
    unfold registerRun
    cases hfound : before.tokens[token]? with
    | none => exact ⟨id, rfl, rfl, rfl, rfl, rfl⟩
    | some old =>
      refine ⟨fun rooted => ?_, rfl, rfl, rfl, rfl, ?_⟩
      · dsimp only
        split <;> exact rooted
      · apply List.ext_getElem?
        intro i
        simp only [List.getElem?_map, List.getElem?_set]
        by_cases hi : token = i
        · subst hi
          obtain ⟨hbound, hold⟩ := List.getElem?_eq_some_iff.1 hfound
          simp [hbound, hold]
        · simp [hi]
  | unregistered token run =>
    exact ⟨id, rfl, rfl, rfl, rfl, map_cancelled_modify _ _ _ fun _ => rfl⟩
  | finished | answered | killed | received => exact ⟨id, rfl, rfl, rfl, rfl, rfl⟩

/-! ### Moves of an engine -/

/-- From one engine to another by moves, whatever runs are in progress; they stay so. -/
def Goes (before after : Engine α) : Prop :=
  ∀ flights, Moves ⟨before, flights⟩ ⟨after, flights⟩

instance : IsPreorder (Engine α) Goes where
  refl _ _ := .refl
  trans _ _ _ hab hbc flights := (hab flights).trans (hbc flights)

/-- A deed is a move. -/
theorem goes_of_deed {before after : Engine α} (deed : Deed (fun _ => True) before after) :
    Goes before after :=
  fun _ => .single (.deed deed)

/-- What leaves the books is a move. -/
theorem goes_of_sameBooks {before after : Engine α} (same : SameBooks before after) :
    Goes before after :=
  fun _ => .single (.elsewhere same)

/-- A run that begins and ends leaves those that were in progress. -/
theorem goes_of_run {engine later : Engine α} {id : DatabaseId}
    (there : (engine.database? id).isSome) (between : Goes (engine.beginCompilation id).2 later) :
    Goes engine (later.endCompilation id (engine.beginCompilation id).1) := by
  intro flights
  have hbegun : Moves ⟨engine, flights⟩ ⟨(engine.beginCompilation id).2,
      ⟨id, (engine.beginCompilation id).1⟩ :: flights⟩ := .single (.begun there)
  have hended : Move ⟨later, ⟨id, (engine.beginCompilation id).1⟩ :: flights⟩
      ⟨later.endCompilation id (engine.beginCompilation id).1,
        (⟨id, (engine.beginCompilation id).1⟩ :: flights : List Flight).erase
          ⟨id, (engine.beginCompilation id).1⟩⟩ := .ended List.mem_cons_self
  rw [List.erase_cons_head] at hended
  exact (hbegun.trans (between _)).tail hended

end Engine

namespace Scenario

open Engine

/-! ### Moves of a session -/

/-- What a regular session does, whatever runs are in progress. -/
abbrev GoesRegularly : Stage → Stage → Prop := Under EngineStep.Regular Goes

/-- What leaves the books and the scripts is a move of a regular session. -/
theorem goesRegularly_of_sameBooks {before after : Stage} (front : after.front = before.front)
    (same : SameBooks before after) : GoesRegularly before after :=
  under_of_front front (goes_of_sameBooks same)

/-- What scripts do at a moment lets no process go. -/
theorem grows_interference (depth : Nat) (executable : String) (moment : Moment) (stage : Stage) :
    Grows stage (interference depth executable moment stage) :=
  (respects_interference_from (Task.allows_grows 0) depth executable moment stage
    (Nat.zero_le _)).2

/-- Up to every moment a run goes by moves, if what scripts do at its moments does. -/
theorem goesRegularly_timeline {task : Task Ledger} {depth : Nat}
    (fire : task.fire = interference depth)
    (fires : ∀ executable moment stage,
      GoesRegularly stage (interference depth executable moment stage)) (begun : Stage) (n : Nat) :
    GoesRegularly begun (task.timeline begun n).2 := by
  refine Task.respects_timeline ?_ ?_ ?_ (fire ▸ fires) (fire ▸ grows_interference depth) begun n
  · exact fun _ _ same => goesRegularly_of_sameBooks same.front same.sameBooks
  · exact fun _ _ act => goesRegularly_of_sameBooks act.front_eq act.sameBooks
  · exact fun _ _ start => goesRegularly_of_sameBooks start.front_eq start.sameBooks

/-- A whole run goes by moves, if what scripts do at its moments does. -/
theorem goesRegularly_run {depth : Nat}
    (fires : ∀ executable moment stage,
      GoesRegularly stage (interference depth executable moment stage))
    (id : DatabaseId) (source : String) (override : Option (List String)) :
    Respects GoesRegularly (run (interference depth) id source override) := by
  refine Task.respects_run_bracketed (S := fun _ => GoesRegularly) ?_ ?_ ?_ id source override
  · exact fun _ _ _ same => goesRegularly_of_sameBooks same.front same.sameBooks
  · -- a run begins, goes through its moments, and ends, whatever they bring
    intro id stage later there between scripted
    have hbegun : Scripted EngineStep.Regular (stage.beginCompilation id).2 := by
      rwa [Scripted, front_beginCompilation]
    obtain ⟨hlater, hgoes⟩ := between hbegun
    exact ⟨hlater, goes_of_run there hgoes⟩
  · intro task hfire begun
    obtain ⟨n, hn⟩ := Task.exists_timeline_finished task begun
    have hlast := goesRegularly_timeline hfire fires begun n
    rwa [hn] at hlast

/-- What regular requests do, under scripts of regular steps. -/
theorem goesRegularly_of_regular (depth : Nat)
    (fires : ∀ executable moment stage,
      GoesRegularly stage (interference depth executable moment stage))
    (step : EngineStep) (regular : step.Regular) :
    Respects GoesRegularly (perform (interference depth) step) := by
  refine respects_regular ?_ ?_ ?_ (goesRegularly_run fires) regular
  · exact fun _ _ deed => under_of_front deed.front_eq (goes_of_deed deed)
  · exact fun _ _ same => goesRegularly_of_sameBooks same.front same.sameBooks
  · intro stage ids scripted
    exact ⟨scripted, goes_of_sameBooks ⟨id, rfl, rfl, rfl, rfl, rfl⟩⟩

/-- What scripts do, with the runs in it, goes by moves. -/
theorem goesRegularly_interference (depth : Nat) (executable : String) (moment : Moment)
    (stage : Stage) : GoesRegularly stage (interference depth executable moment stage) :=
  under_interference (fun _ _ _ => goes_of_sameBooks ⟨id, rfl, rfl, rfl, rfl, rfl⟩)
    goesRegularly_of_regular depth executable moment stage

/-- **A request is a chain of moves**, with everything that scripts do during its runs. -/
theorem moves_perform {stage : Stage} (scripted : Scripted EngineStep.Regular stage) (depth : Nat)
    {step : EngineStep} (regular : step.Regular) (flights : List Flight) :
    Scripted EngineStep.Regular (stage.after (perform (interference depth) step)) ∧
      Moves ⟨stage, flights⟩ ⟨stage.after (perform (interference depth) step), flights⟩ := by
  obtain ⟨hscripted, hgoes⟩ := goesRegularly_of_regular depth (goesRegularly_interference depth)
    step regular stage scripted
  exact ⟨hscripted, hgoes flights⟩

/-- **A run is in progress at all of its moments**, which a chain of moves leads to. -/
theorem moves_timeline {stage : Stage} (scripted : Scripted EngineStep.Regular stage) {depth : Nat}
    {id : DatabaseId} {source : String} {override : Option (List String)} {task : Task Ledger}
    {begun : Stage} (begins : stage.Begins (interference depth) id source override task begun)
    (n : Nat) (flights : List Flight) :
    Scripted EngineStep.Regular (task.timeline begun n).2 ∧
      Moves ⟨stage, flights⟩ ⟨(task.timeline begun n).2, ⟨id, task.token⟩ :: flights⟩ := by
  have hcommand := begins.command
  obtain ⟨database, hdatabase, -⟩ := Option.bind_eq_some_iff.1 hcommand
  have hbegun : Move ⟨stage, flights⟩ ⟨begun, ⟨id, task.token⟩ :: flights⟩ := by
    have hmove : Move ⟨stage, flights⟩
        ⟨(stage.beginCompilation id).2, ⟨id, (stage.beginCompilation id).1⟩ :: flights⟩ :=
      .begun (Option.isSome_iff_exists.2 ⟨database, hdatabase⟩)
    rwa [begins.start] at hmove
  have hfront : begun.front = stage.front := by
    rw [← front_beginCompilation stage id, begins.start]
  obtain ⟨hscripted, hgoes⟩ := goesRegularly_timeline begins.fire (goesRegularly_interference depth)
    begun n (by rwa [Scripted, hfront])
  exact ⟨hscripted, .head hbegun (hgoes _)⟩

/-- **A session is a chain of moves.** -/
theorem moves_afterSteps {stage : Stage} (scripted : Scripted EngineStep.Regular stage)
    {steps : List EngineStep} (regular : ∀ step ∈ steps, step.Regular) (flights : List Flight) :
    Scripted EngineStep.Regular (afterSteps steps stage) ∧
      Moves ⟨stage, flights⟩ ⟨afterSteps steps stage, flights⟩ := by
  induction steps generalizing stage with
  | nil => exact ⟨scripted, .refl⟩
  | cons step steps ih =>
    obtain ⟨hscripted, hmoves⟩ := moves_perform scripted stage.front.scripts.length
      (regular step List.mem_cons_self) flights
    -- reporting the step changes the front and empties the sink
    have hreported : Move
        ⟨stage.after (perform (interference stage.front.scripts.length) step), flights⟩
        ⟨(takeStep step stage).2, flights⟩ := .elsewhere ⟨id, rfl, rfl, rfl, rfl, rfl⟩
    have htaken : Scripted EngineStep.Regular (takeStep step stage).2 := hscripted
    obtain ⟨hlast, hrest⟩ := ih htaken
      fun other hother => regular other (List.mem_cons_of_mem _ hother)
    exact ⟨hlast, (hmoves.tail hreported).trans hrest⟩

/-- The scenes that moves lead to from a stage are all there are in its sessions: with a scene they
contain what every regular request makes of it, and all moments of the runs that begin there. -/
structure CoversSessions (start : Stage) : Prop where
  /-- Sessions without interruption. -/
  steps : ∀ steps : List EngineStep, (∀ step ∈ steps, step.Regular) →
    Scripted EngineStep.Regular (afterSteps steps start) ∧
      Moves ⟨start, []⟩ ⟨afterSteps steps start, []⟩
  /-- What is done while runs are in progress. -/
  request : ∀ scene, Moves ⟨start, []⟩ scene → Scripted EngineStep.Regular scene.engine →
    ∀ depth (step : EngineStep), step.Regular →
      Scripted EngineStep.Regular (scene.engine.after (perform (interference depth) step)) ∧
        Moves scene ⟨scene.engine.after (perform (interference depth) step), scene.flights⟩
  /-- The moments of runs. -/
  moment : ∀ scene, Moves ⟨start, []⟩ scene → Scripted EngineStep.Regular scene.engine →
    ∀ depth id source override task begun,
      scene.engine.Begins (interference depth) id source override task begun →
        ∀ n, Scripted EngineStep.Regular (task.timeline begun n).2 ∧
          Moves scene ⟨(task.timeline begun n).2, ⟨id, task.token⟩ :: scene.flights⟩

/-- A stage whose scripts are regular leads to all scenes of its sessions. -/
theorem coversSessions {start : Stage} (scripted : Scripted EngineStep.Regular start) :
    CoversSessions start where
  steps _ regular := moves_afterSteps scripted regular []
  request scene _ hscene depth _ regular := moves_perform hscene depth regular scene.flights
  moment scene _ hscene _ _ _ _ _ _ begins n := moves_timeline hscene begins n scene.flights

end Scenario

end AsmScope

import AsmScope.Engine.Run
import AsmScope.Proofs.Actions
/-! # Engines in step

What a request answers does not depend on who stands before the engine, on where its lines go, or on
whether files are watched. `Engine.plainly` is an engine without all that. Two engines are in step
if one is the plain form of the other (`InStep`), and two actions go together if they answer the
same on engines in step and leave engines in step (`Together`).

Going together is compositional: there is a rule for each way in which actions are put together, and
the changes that requests are made of leave engines in step. -/

namespace AsmScope

/-- The database when nobody watches its file. -/
def Database.unwatched (database : Database) : Database := { database with watched := false }

namespace Engine

variable {α β γ : Type}

/-- The engine with nothing before it, nothing watched, and with another journal and sink. -/
def plainly (engine : Engine α) (journal : List LogLine) (sink : Sink) : Engine Unit where
  host := { engine.host with journal }
  workspace := engine.workspace
  settings := engine.settings
  sink := sink
  locator := engine.locator
  environment := engine.environment
  rewrites := engine.rewrites
  watching := false
  databases := engine.databases.map Database.unwatched
  registered := engine.registered
  tokens := engine.tokens
  front := ()

/-- The plain form of an engine is on the same host, with another journal. -/
@[simp] theorem plainly_host (engine : Engine α) (journal : List LogLine) (sink : Sink) :
    (engine.plainly journal sink).host = { engine.host with journal } := rfl

/-- The plain form of an engine has the same tokens. -/
@[simp] theorem plainly_tokens (engine : Engine α) (journal : List LogLine) (sink : Sink) :
    (engine.plainly journal sink).tokens = engine.tokens := rfl

/-- The plain form of an engine has the same processes. -/
@[simp] theorem plainly_process? (engine : Engine α) (journal : List LogLine) (sink : Sink)
    (id : ProcessId) :
    (engine.plainly journal sink).host.process? id = engine.host.process? id := rfl

/-- The one engine is the plain form of the other, which has this front. -/
structure InStep (front : α) (plain : Engine Unit) (rich : Engine α) : Prop where
  front : rich.front = front
  plainly : ∃ journal sink, plain = rich.plainly journal sink

/-- Both actions answer the same and leave engines in step. -/
structure Tied (front : α) (plain : Engine Unit) (rich : Engine α) (first : Action Unit β)
    (second : Action α β) : Prop where
  result : plain.result first = rich.result second
  after : InStep front (plain.after first) (rich.after second)

/-- Both actions answer the same on engines in step, and leave engines in step. -/
def Together (front : α) (first : Action Unit β) (second : Action α β) : Prop :=
  ∀ plain rich, InStep front plain rich → Tied front plain rich first second

/-- The rest of the program leaves an engine with this front alone. -/
def Quiet (fire : Interference α) (front : α) : Prop :=
  ∀ executable moment engine, engine.front = front → fire executable moment engine = engine

/-! ### Rules -/

variable {front : α} {plain : Engine Unit} {rich : Engine α}

namespace Tied

variable {first : Action Unit β} {second : Action α β}

/-- Giving the same value on both sides keeps them in step. -/
theorem pure_of (inStep : InStep front plain rich) (value : β) :
    Tied front plain rich (pure value) (pure value) :=
  ⟨rfl, inStep⟩

/-- The same failure on both sides keeps them in step. -/
theorem throw_of (inStep : InStep front plain rich) (failure : Failure) :
    Tied front plain rich (throw failure : Action Unit β) (throw failure) :=
  ⟨rfl, inStep⟩

/-- What comes after actions that answer the same must go together only for what they answer. -/
theorem bind {next : β → Action Unit γ} {next' : β → Action α γ}
    (tied : Tied front plain rich first second)
    (rest : ∀ value, rich.result second = .ok value →
      Tied front (plain.after first) (rich.after second) (next value) (next' value)) :
    Tied front plain rich (first >>= next) (second >>= next') := by
  cases hresult : rich.result second with
  | ok value =>
    have hrest := rest value hresult
    refine ⟨?_, ?_⟩
    · rw [result_bind, result_bind, tied.result, hresult]
      exact hrest.result
    · rw [after_bind, after_bind, tied.result, hresult]
      exact hrest.after
  | error failure =>
    refine ⟨?_, ?_⟩
    · rw [result_bind, result_bind, tied.result, hresult]
    · rw [after_bind, after_bind, tied.result, hresult]
      exact tied.after

/-- Actions that look at their engines are tied if they are with these engines before them. -/
theorem get_bind {next : Engine Unit → Action Unit γ} {next' : Engine α → Action α γ}
    (rest : Tied front plain rich (next plain) (next' rich)) :
    Tied front plain rich (get >>= next) (get >>= next') :=
  ⟨rest.result, rest.after⟩

/-- After both engines are exchanged the rest starts from the new ones. -/
theorem set_bind {next : PUnit → Action Unit γ} {next' : PUnit → Action α γ}
    {plain' : Engine Unit} {rich' : Engine α}
    (rest : Tied front plain' rich' (next ⟨⟩) (next' ⟨⟩)) :
    Tied front plain rich (set plain' >>= next) (set rich' >>= next') :=
  ⟨rest.result, rest.after⟩

/-- After both are changed the rest starts from the changed ones. -/
theorem modify_bind {next : PUnit → Action Unit γ} {next' : PUnit → Action α γ}
    {f : Engine Unit → Engine Unit} {g : Engine α → Engine α}
    (rest : Tied front (f plain) (g rich) (next ⟨⟩) (next' ⟨⟩)) :
    Tied front plain rich (modify f >>= next) (modify g >>= next') :=
  ⟨rest.result, rest.after⟩

/-- What only the one engine does first leaves it in step. -/
theorem bind_right {before : Action α γ} {next : γ → Action α β} {value : γ}
    (result : rich.result before = .ok value)
    (rest : Tied front plain (rich.after before) first (next value)) :
    Tied front plain rich first (before >>= next) := by
  refine ⟨?_, ?_⟩
  · rw [result_bind, result]
    exact rest.result
  · rw [after_bind, result]
    exact rest.after

/-- Branches on one condition are tied if those are that are taken. -/
theorem ite {condition : Prop} [Decidable condition] {first' : Action Unit β}
    {second' : Action α β} (yes : condition → Tied front plain rich first second)
    (no : ¬condition → Tied front plain rich first' second') :
    Tied front plain rich (if condition then first else first')
      (if condition then second else second') := by
  split
  · next h => exact yes h
  · next h => exact no h

end Tied

namespace Together

variable {first : Action Unit β} {second : Action α β}

/-- Actions that always keep engines in step do so with these. -/
theorem on (together : Together front first second) (inStep : InStep front plain rich) :
    Tied front plain rich first second :=
  together plain rich inStep

/-- Giving the same value keeps engines in step. -/
theorem pure_of (front : α) (value : β) : Together front (pure value) (pure value) :=
  fun _ _ inStep => .pure_of inStep value

/-- The same failure keeps engines in step. -/
theorem throw_of (front : α) (failure : Failure) :
    Together front (throw failure : Action Unit β) (throw failure) :=
  fun _ _ inStep => .throw_of inStep failure

/-- Changes that keep engines in step do so as actions. -/
theorem modify_of {f : Engine Unit → Engine Unit} {g : Engine α → Engine α}
    (change : ∀ {plain rich}, InStep front plain rich → InStep front (f plain) (g rich)) :
    Together front (modify f : Action Unit PUnit) (modify g) :=
  fun _ _ inStep => ⟨rfl, change inStep⟩

/-- Two actions in a row keep engines in step if each of them does. -/
theorem bind {next : β → Action Unit γ} {next' : β → Action α γ}
    (earlier : Together front first second)
    (later : ∀ value, Together front (next value) (next' value)) :
    Together front (first >>= next) (second >>= next') :=
  fun _ _ inStep =>
    (earlier.on inStep).bind fun value _ => (later value).on (earlier.on inStep).after

/-- What is read from engines in step is known from the one that is not plain. -/
theorem get_bind {next : Engine Unit → Action Unit γ} {next' : Engine α → Action α γ}
    (rest : ∀ (engine : Engine α) journal sink, InStep front (engine.plainly journal sink) engine →
      Tied front (engine.plainly journal sink) engine (next (engine.plainly journal sink))
        (next' engine)) :
    Together front (get >>= next) (get >>= next') := by
  rintro plain rich ⟨hfront, journal, sink, rfl⟩
  exact .get_bind (rest rich journal sink ⟨hfront, journal, sink, rfl⟩)

/-- Branches on one condition keep engines in step if both of them do. -/
theorem ite {condition : Prop} [Decidable condition] {first' : Action Unit β}
    {second' : Action α β} (yes : Together front first second)
    (no : Together front first' second') :
    Together front (if condition then first else first')
      (if condition then second else second') :=
  fun _ _ inStep => .ite (fun _ => yes.on inStep) fun _ => no.on inStep

/-- An action that comes first under a condition only. -/
theorem when_bind {condition : Prop} [Decidable condition] {before : Action Unit Unit}
    {before' : Action α Unit} {next : Unit → Action Unit β} {next' : Unit → Action α β}
    (earlier : Together front before before') (rest : Together front (next ()) (next' ())) :
    Together front (if condition then before >>= next else next ())
      (if condition then before' >>= next' else next' ()) :=
  ite (bind earlier fun _ => rest) rest

/-- Observing actions keeps engines in step if the actions do. -/
theorem observe (together : Together front first second) :
    Together front (Engine.observe first) (Engine.observe second) :=
  fun _ _ inStep =>
    ⟨congrArg Except.ok (together.on inStep).result, (together.on inStep).after⟩

/-- What is done at the end keeps engines in step, after actions that do. -/
theorem ensuring {cleanup : StateM (Engine Unit) Unit} {cleanup' : StateM (Engine α) Unit}
    (together : Together front first second)
    (last : ∀ {plain rich}, InStep front plain rich →
      InStep front (cleanup.run plain).2 (cleanup'.run rich).2) :
    Together front (Engine.ensuring first cleanup) (Engine.ensuring second cleanup') :=
  fun _ _ inStep => ⟨(together.on inStep).result, last (together.on inStep).after⟩

end Together

/-! ### Changes of engines in step -/

/-- A change that does not look at whether a database is watched may come before or after that is
forgotten. -/
theorem map_modify_unwatched {f : Database → Database}
    (blind : ∀ database : Database, f database.unwatched = (f database).unwatched)
    (databases : List Database) (id : DatabaseId) :
    (databases.map Database.unwatched).modify id f =
      (databases.modify id f).map Database.unwatched := by
  induction databases generalizing id with
  | nil => simp
  | cons database databases ih =>
    cases id with
    | zero => simp [blind]
    | succ id => simp [ih]

/-- A change of nothing else is forgotten with it. -/
theorem map_unwatched_modify {f : Database → Database}
    (hidden : ∀ database : Database, (f database).unwatched = database.unwatched)
    (databases : List Database) (id : DatabaseId) :
    (databases.modify id f).map Database.unwatched = databases.map Database.unwatched := by
  induction databases generalizing id with
  | nil => simp
  | cons database databases ih =>
    cases id with
    | zero => simp [hidden]
    | succ id => simp [ih]

/-- Killing the processes of runs does not look at the journal. -/
theorem foldl_killRun_withJournal (runs : List RunProcesses) (host : Host)
    (journal : List LogLine) :
    runs.foldl killRun { host with journal } = { runs.foldl killRun host with journal } := by
  induction runs generalizing host with
  | nil => rfl
  | cons run runs ih => exact ih (killRun host run)

namespace InStep

/-- A line of output keeps engines in step, as the sinks may differ. -/
theorem appendLine (inStep : InStep front plain rich) (line : String) :
    InStep front (plain.appendLine line) (rich.appendLine line) := by
  obtain ⟨hfront, journal, sink, rfl⟩ := inStep
  -- a line goes to the sink or to the journal, and these need not be the same
  unfold Engine.appendLine
  cases sink <;> cases rich.sink <;> exact ⟨hfront, _, _, rfl⟩

/-- Asking for the output to be shown keeps engines in step. -/
theorem showOutput (inStep : InStep front plain rich) :
    InStep front plain.showOutput rich.showOutput := by
  obtain ⟨hfront, journal, sink, rfl⟩ := inStep
  exact ⟨hfront, _, _, rfl⟩

/-- A log line keeps engines in step, as the journals may differ. -/
theorem log (inStep : InStep front plain rich) (level : LogLevel) (topic message : String) :
    InStep front (plain.log level topic message) (rich.log level topic message) := by
  obtain ⟨hfront, journal, sink, rfl⟩ := inStep
  exact ⟨hfront, _, _, rfl⟩

/-- A change of the host that has nothing to do with the journal. -/
theorem changeHost (inStep : InStep front plain rich) (f : Host → Host)
    (blind : ∀ host journal, f { host with journal } = { f host with journal }) :
    InStep front { plain with host := f plain.host } { rich with host := f rich.host } := by
  obtain ⟨hfront, journal, sink, rfl⟩ := inStep
  refine ⟨hfront, journal, sink, ?_⟩
  change { rich.plainly journal sink with host := f { rich.host with journal } } = _
  rw [blind]
  rfl

/-- A change of a database that does not look at whether it is watched keeps engines in step. -/
theorem modifyDatabase (inStep : InStep front plain rich) {f : Database → Database}
    (blind : ∀ database : Database, f database.unwatched = (f database).unwatched)
    (id : DatabaseId) :
    InStep front (plain.modifyDatabase id f) (rich.modifyDatabase id f) := by
  obtain ⟨hfront, journal, sink, rfl⟩ := inStep
  refine ⟨hfront, journal, sink, ?_⟩
  simp only [Engine.modifyDatabase, Engine.plainly, map_modify_unwatched blind]

/-- Cancelling a token on both sides keeps engines in step. -/
theorem cancelToken (inStep : InStep front plain rich) (token : TokenId) :
    InStep front (plain.cancelToken token) (rich.cancelToken token) := by
  obtain ⟨hfront, journal, sink, rfl⟩ := inStep
  simp only [Engine.cancelToken, plainly_tokens]
  cases rich.tokens[token]? with
  | none => exact ⟨hfront, _, _, rfl⟩
  | some found =>
    -- the runs are ended in the same way, which the journal does not tell
    refine ⟨hfront, journal, sink, ?_⟩
    simp only [Engine.plainly, foldl_killRun_withJournal]

/-- Registering the processes of a run on both sides keeps engines in step. -/
theorem registerRun (inStep : InStep front plain rich) (token : TokenId) (run : RunProcesses) :
    InStep front (plain.registerRun token run) (rich.registerRun token run) := by
  obtain ⟨hfront, journal, sink, rfl⟩ := inStep
  simp only [Engine.registerRun, plainly_tokens]
  cases rich.tokens[token]? with
  | none => exact ⟨hfront, _, _, rfl⟩
  | some found =>
    dsimp only
    cases (found.register run).2 <;> exact ⟨hfront, journal, sink, rfl⟩

/-- Taking a registration back on both sides keeps engines in step. -/
theorem unregisterRun (inStep : InStep front plain rich) (token : TokenId) (run : RunProcesses) :
    InStep front (plain.unregisterRun token run) (rich.unregisterRun token run) := by
  obtain ⟨hfront, journal, sink, rfl⟩ := inStep
  exact ⟨hfront, _, _, rfl⟩

/-- Engines in step have the same databases, but for whether they are watched. -/
theorem database?_eq (inStep : InStep front plain rich) (id : DatabaseId) :
    plain.database? id = (rich.database? id).map Database.unwatched := by
  obtain ⟨hfront, journal, sink, rfl⟩ := inStep
  exact List.getElem?_map

/-- Engines in step have the same command for a source. -/
theorem lookup_eq (inStep : InStep front plain rich) (id : DatabaseId) (source : String) :
    plain.lookup id source = rich.lookup id source := by
  rw [lookup, lookup, inStep.database?_eq, Option.bind_map]
  obtain ⟨hfront, journal, sink, rfl⟩ := inStep
  rfl

/-- Beginning a compilation on both sides gives the same token and keeps them in step. -/
theorem beginCompilation (inStep : InStep front plain rich) (id : DatabaseId) :
    (plain.beginCompilation id).1 = (rich.beginCompilation id).1 ∧
      InStep front (plain.beginCompilation id).2 (rich.beginCompilation id).2 := by
  have hprevious : ((plain.database? id).bind fun database => database.active) =
      (rich.database? id).bind fun database => database.active := by
    rw [inStep.database?_eq, Option.bind_map]
    rfl
  have htokens : plain.tokens = rich.tokens := by
    obtain ⟨-, journal, sink, rfl⟩ := inStep
    rfl
  -- the new token has the same number in both, and supersedes the same one
  have hadded : InStep front { plain with tokens := plain.tokens ++ [CancellationToken.fresh] }
      { rich with tokens := rich.tokens ++ [CancellationToken.fresh] } := by
    obtain ⟨hfront, journal, sink, rfl⟩ := inStep
    exact ⟨hfront, journal, sink, rfl⟩
  have hbegun := hadded.modifyDatabase
    (f := fun database => { database with active := some rich.tokens.length }) (fun _ => rfl) id
  simp only [Engine.beginCompilation, hprevious, htokens] at hbegun ⊢
  split
  · exact ⟨rfl, hbegun.cancelToken _⟩
  · exact ⟨rfl, hbegun⟩

/-- Ending a compilation on both sides keeps engines in step. -/
theorem endCompilation (inStep : InStep front plain rich) (id : DatabaseId) (token : TokenId) :
    InStep front (plain.endCompilation id token) (rich.endCompilation id token) := by
  have hended := inStep.modifyDatabase
    (f := fun database =>
      if database.active = some token then { database with active := none } else database)
    (fun database => by
      by_cases h : database.active = some token <;> simp [Database.unwatched, h]) id
  obtain ⟨hfront, journal, sink, hplain⟩ := hended
  refine ⟨hfront, journal, sink, ?_⟩
  simp only [Engine.endCompilation, hplain]
  rfl

/-- Reporting how a run ended keeps engines in step. -/
theorem reportOutcome (inStep : InStep front plain rich) (source : String)
    (outcome : Except Failure (String × Binary64)) :
    InStep front (Engine.reportOutcome source outcome plain)
      (Engine.reportOutcome source outcome rich) := by
  unfold Engine.reportOutcome
  cases outcome with
  | ok timing => exact inStep.appendLine _
  | error failure =>
    dsimp only
    split
    · exact inStep.log _ _ _
    · split
      · exact ((inStep.log _ _ _).appendLine _).showOutput
      · exact inStep

end InStep

end Engine

end AsmScope

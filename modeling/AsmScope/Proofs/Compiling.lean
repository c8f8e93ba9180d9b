import AsmScope.Proofs.Launches
/-! # Compile requests

A compile request asks for the database of its source, which is opened if there is none, and runs
the command that it has. Opening a database changes nothing that the question depends on (`Alike`)
and never looks at what stands before the engine (`Blind`), so whoever asks again, or from behind
another front, gets the same database (`databaseFor_of_registersFor`, `Offers.withFront`). What a
compile request launches is what the run of the offered command launches (`launching_compile`). -/

namespace AsmScope.Engine

variable {α : Type}

/-! ### What opening a database leaves alone -/

/-- The same machine but for its log, with the same settings. -/
structure Alike (before after : Engine α) : Prop where
  host : after.host = { before.host with journal := after.host.journal }
  workspace : after.workspace = before.workspace
  settings : after.settings = before.settings
  rewrites : after.rewrites = before.rewrites
  front : after.front = before.front

instance : IsPreorder (Engine α) Alike where
  refl _ := ⟨rfl, rfl, rfl, rfl, rfl⟩
  trans _ _ _ hab hbc :=
    ⟨hbc.host.trans (by rw [hab.host]), hbc.workspace.trans hab.workspace,
      hbc.settings.trans hab.settings, hbc.rewrites.trans hab.rewrites, hbc.front.trans hab.front⟩

namespace Alike

/-- A log line leaves the machine as it is, but for its log. -/
theorem log (engine : Engine α) (level : LogLevel) (topic message : String) :
    Alike engine (engine.log level topic message) :=
  ⟨rfl, rfl, rfl, rfl, rfl⟩

/-- A line of output does so too. -/
theorem appendLine (engine : Engine α) (line : String) : Alike engine (engine.appendLine line) := by
  unfold Engine.appendLine
  cases engine.sink <;> exact ⟨rfl, rfl, rfl, rfl, rfl⟩

/-- Loading an index only reads and logs. -/
theorem loadIndex (location : String) :
    Respects Alike (Engine.loadIndex location : Action α CommandIndex) := by
  intro engine
  simp only [Engine.loadIndex, after_get_bind, after_set_bind, CommandIndex.load]
  split <;> exact ⟨rfl, rfl, rfl, rfl, rfl⟩

/-- Watching a file does not touch the machine. -/
theorem watchDatabase (id : DatabaseId) (location : String) :
    Respects Alike (Engine.watchDatabase id location : Action α Unit) := by
  intro engine
  simp only [Engine.watchDatabase, after_get_bind]
  split <;> exact ⟨rfl, rfl, rfl, rfl, rfl⟩

/-- Opening a database reads its file and logs that, and that is all that the machine sees of it. -/
theorem openOrGet (location : String) :
    Respects Alike (Engine.openOrGet location : Action α DatabaseId) := by
  intro before
  simp only [Engine.openOrGet, after_get_bind]
  split
  · exact Std.Refl.refl before
  · refine Respects.bind (.modify_of fun engine => appendLine engine _) (fun _ => ?_) before
    refine .bind (loadIndex _) fun commands engine => ?_
    simp only [after_get_bind, after_set_bind]
    -- the database is added, watched if databases are, and registered
    have hadded : Alike engine (engine.addDatabase
        { location := before.host.absolute location, commands, attached := true }) :=
      ⟨rfl, rfl, rfl, rfl, rfl⟩
    have hregister : ∀ (location : String) (id : DatabaseId), Respects Alike (do
        modify fun engine : Engine α =>
          { engine with registered := engine.registered.put location id }
        return id : Action α DatabaseId) := fun _ _ =>
      .bind (.modify_of fun _ => ⟨rfl, rfl, rfl, rfl, rfl⟩) fun _ => .pure_of _
    refine IsTrans.trans _ _ _ hadded ?_
    split
    · exact Respects.bind (watchDatabase _ _) (fun _ => hregister _ _) _
    · exact hregister _ _ _

/-- Finding the database of a source leaves the machine as it is, but for its log. -/
theorem databaseFor (source : String) :
    Respects Alike (Engine.databaseFor source : Action α DatabaseId) := by
  intro engine
  simp only [Engine.databaseFor, after_get_bind]
  refine Respects.bind (.of_after_eq fun e => ?_) openOrGet engine
  cases engine.indexLocation source <;> rfl

variable {before after : Engine α}

/-- A path means the same on both machines. -/
theorem absolute_eq (same : Alike before after) (path : String) :
    after.host.absolute path = before.host.absolute path := by
  rw [Host.absolute, same.host, Host.absolute]

/-- Where the file of a source is does not depend on the log. -/
theorem indexLocation_eq (same : Alike before after) (source : String) :
    after.indexLocation source = before.indexLocation source := by
  simp only [indexLocation, buildDirectory, same.settings, same.workspace]
  rw [same.host]
  rfl

end Alike

/-! ### What opening a database does not look at -/

/-- The engine behind another front. -/
def withFront (engine : Engine α) (front : α) : Engine α := { engine with front }

/-- Behind another front this is the front. -/
@[simp] theorem front_withFront (engine : Engine α) (front : α) :
    (engine.withFront front).front = front := rfl

/-- A second exchange of the front makes the first one forgotten. -/
@[simp] theorem withFront_withFront (engine : Engine α) (front other : α) :
    (engine.withFront front).withFront other = engine.withFront other := rfl

/-- An action does the same behind every front, and leaves it alone. -/
def Blind {β : Type} (action : Action α β) : Prop :=
  ∀ (engine : Engine α) (front : α),
    (engine.withFront front).result action = engine.result action ∧
      (engine.withFront front).after action = (engine.after action).withFront front

namespace Blind

variable {β γ : Type}

/-- Giving a value does not look at the front. -/
theorem pure_of (value : β) : Blind (pure value : Action α β) := fun _ _ => ⟨rfl, rfl⟩

/-- A change that commutes with an exchange of the front does not look at it. -/
theorem modify_of {f : Engine α → Engine α}
    (commutes : ∀ engine front, f (engine.withFront front) = (f engine).withFront front) :
    Blind (modify f : Action α PUnit) :=
  fun engine front => ⟨rfl, commutes engine front⟩

/-- Two actions in a row do not look at the front if neither of them does. -/
theorem bind {action : Action α β} {next : β → Action α γ} (first : Blind action)
    (second : ∀ value, Blind (next value)) : Blind (action >>= next) := by
  intro engine front
  obtain ⟨hresult, hafter⟩ := first engine front
  rw [result_bind, result_bind, after_bind, after_bind, hresult, hafter]
  cases engine.result action with
  | ok value => exact second value (engine.after action) front
  | error failure => exact ⟨rfl, rfl⟩

/-- What is read from the engine must not be its front. -/
theorem get_bind {next : Engine α → Action α β}
    (h : ∀ (engine : Engine α) (front : α),
      (engine.withFront front).result (next (engine.withFront front)) =
          engine.result (next engine) ∧
        (engine.withFront front).after (next (engine.withFront front)) =
          (engine.after (next engine)).withFront front) :
    Blind (get >>= next) := by
  intro engine front
  simp only [result_get_bind, after_get_bind]
  exact h engine front

/-- Loading an index does not look at the front. -/
theorem loadIndex (location : String) :
    Blind (Engine.loadIndex location : Action α CommandIndex) := by
  refine get_bind fun engine front => ?_
  simp only [result_set_bind, after_set_bind, CommandIndex.load, withFront]
  split <;> exact ⟨rfl, rfl⟩

/-- Watching a file does not look at it. -/
theorem watchDatabase (id : DatabaseId) (location : String) :
    Blind (Engine.watchDatabase id location : Action α Unit) := by
  refine get_bind fun engine front => ?_
  simp only [withFront]
  split <;> exact ⟨rfl, rfl⟩

/-- The last part of opening a database. -/
theorem register (watching : Bool) (id : DatabaseId) (location : String) :
    Blind (do
      if watching then Engine.watchDatabase id location
      modify fun engine : Engine α =>
        { engine with registered := engine.registered.put location id }
      return id : Action α DatabaseId) := by
  have hregister : Blind (do
      modify fun engine : Engine α =>
        { engine with registered := engine.registered.put location id }
      return id : Action α DatabaseId) :=
    bind (modify_of fun _ _ => rfl) fun _ => pure_of id
  cases watching
  · exact hregister
  · exact bind (watchDatabase id location) fun _ => hregister

/-- Opening a database does not look at it. -/
theorem openOrGet (location : String) :
    Blind (Engine.openOrGet location : Action α DatabaseId) := by
  refine get_bind fun engine front => ?_
  simp only [withFront]
  split
  · exact ⟨rfl, rfl⟩
  · refine bind (modify_of fun engine front => ?_) (fun _ => ?_) engine front
    · cases hsink : engine.sink <;> simp [appendLine, withFront, hsink, Sink.append]
    · refine bind (loadIndex _) fun commands => get_bind fun engine front => ?_
      simp only [result_set_bind, after_set_bind]
      -- the number of the new database and whether it is watched do not depend on the front
      exact register engine.watching engine.databases.length _
        (engine.addDatabase { location := _, commands, attached := true }) front

/-- Finding the database of a source does not look at it. -/
theorem databaseFor (source : String) :
    Blind (Engine.databaseFor source : Action α DatabaseId) := by
  refine get_bind fun engine front => ?_
  refine bind (fun e f => ?_) openOrGet engine front
  cases engine.indexLocation source <;> exact ⟨rfl, rfl⟩

end Blind

/-! ### The database of a source -/

section Databases

variable {engine : Engine α} {source : String} {id : DatabaseId}

/-- The file in which a source is looked up is the one of this registered database. -/
def RegistersFor (engine : Engine α) (source : String) (id : DatabaseId) : Prop :=
  ∃ location, engine.indexLocation source = .ok location ∧ engine.registered? location = some id

/-- Who asks for a registered database gets it and changes nothing. -/
theorem databaseFor_of_registersFor (h : engine.RegistersFor source id) :
    engine.result (databaseFor source) = .ok id ∧ engine.after (databaseFor source) = engine := by
  obtain ⟨location, hlocation, hregistered⟩ := h
  rw [registered?] at hregistered
  constructor
  · rw [databaseFor, result_get_bind, hlocation]
    change engine.result (openOrGet location) = _
    simp only [openOrGet, result_get_bind, hregistered, result_pure]
  · rw [databaseFor, after_get_bind, hlocation]
    change engine.after (openOrGet location) = _
    simp only [openOrGet, after_get_bind, hregistered, after_pure]

/-- **Who has asked once** is given the same database again. -/
theorem registersFor_of_databaseFor (ok : engine.result (databaseFor source) = .ok id) :
    (engine.after (databaseFor source)).RegistersFor source id := by
  have halike := Alike.databaseFor source engine
  rw [databaseFor, result_get_bind] at ok
  cases hlocation : engine.indexLocation source with
  -- with no index along the way there is no answer, against `ok`
  | error failure =>
    rw [hlocation] at ok
    cases ok
  | ok location =>
    rw [hlocation] at ok
    have hafter : engine.after (databaseFor source) = engine.after (openOrGet location) := by
      rw [databaseFor, after_get_bind, hlocation]
      rfl
    rw [hafter] at halike ⊢
    refine ⟨location, (halike.indexLocation_eq source).trans hlocation, ?_⟩
    -- the host still says the same about paths, so the location is found again
    rw [registered?, halike.absolute_eq]
    have hopening := opening_openOrGet engine location
    change engine.result (openOrGet location) = _ at ok
    rw [ok] at hopening
    generalize engine.after (openOrGet location) = later at hopening ⊢
    cases hopening with
    | found here => exact here
    -- the database was entered under the location just now
    | entered same new loaded =>
      rw [enter, same.databases]
      exact Table.get?_put_self _ _ _

/-- Opening a database launches nothing. -/
theorem launched_databaseFor (engine : Engine α) (source : String) :
    (engine.after (databaseFor source)).launched = engine.launched := by
  have hcalm : ∀ before after : Engine α, Calm before after →
      Maintains (fun later => later.launched = engine.launched) before after :=
    fun _ _ calm h => calm.change.launched_eq.trans h
  have hdeeds : ∀ before after : Engine α, Deed (fun _ => True) before after →
      Maintains (fun later => later.launched = engine.launched) before after :=
    respects_deed hcalm
  exact respects_databaseFor hdeeds source engine rfl

end Databases

/-! ### Compile requests -/

section Requests

variable {engine : Engine α} {source : String} {id : DatabaseId} {command : CompileCommand}
  {fire : Interference α} {override : Option (List String)}

/-- The database of a source is there or can be opened, can run commands, and has this one. -/
def Offers (engine : Engine α) (source : String) (command : CompileCommand) : Prop :=
  ∃ id, engine.result (databaseFor source) = .ok id ∧
    ((engine.after (databaseFor source)).database? id).any (fun database => database.attached) ∧
    (engine.after (databaseFor source)).lookup id source = some command

/-- A registered database that can run commands offers the command that it has for a source. -/
theorem offers_of_registersFor (registers : engine.RegistersFor source id)
    (attached : (engine.database? id).any fun database => database.attached)
    (found : engine.lookup id source = some command) : engine.Offers source command := by
  obtain ⟨hresult, hafter⟩ := databaseFor_of_registersFor registers
  exact ⟨id, hresult, by rwa [hafter], by rwa [hafter]⟩

/-- What is offered does not depend on what stands before the engine. -/
theorem Offers.withFront (offers : engine.Offers source command) (front : α) :
    (engine.withFront front).Offers source command := by
  obtain ⟨id, hresult, hattached, hcommand⟩ := offers
  obtain ⟨hsame, hafter⟩ := Blind.databaseFor source engine front
  refine ⟨id, hsame.trans hresult, ?_, ?_⟩
  · rw [hafter]
    exact hattached
  · rw [hafter]
    exact hcommand

/-- What is offered is offered again, by the database that is now registered. -/
theorem Offers.after_databaseFor (offers : engine.Offers source command) :
    (engine.after (databaseFor source)).Offers source command := by
  obtain ⟨id, hresult, hattached, hcommand⟩ := offers
  exact offers_of_registersFor (registersFor_of_databaseFor hresult) hattached hcommand

/-- A compile request is the run of the command that is offered. -/
theorem exists_run_of_offers (fire : Interference α) (offers : engine.Offers source command) :
    ∃ id begun, begun.launched = engine.launched ∧ Alike engine begun ∧
      begun.lookup id source = some command ∧
      ∀ override, engine.result (compile fire source override) =
          begun.result (run fire id source override) ∧
        engine.after (compile fire source override) =
          begun.after (run fire id source override) := by
  obtain ⟨id, hresult, hattached, hcommand⟩ := offers
  refine ⟨id, (engine.after (databaseFor source)).log .info "engine" ("Compiling " ++ source),
    launched_databaseFor engine source, ?_, hcommand, fun override => ?_⟩
  · exact IsTrans.trans _ _ _ (Alike.databaseFor source engine) (Alike.log _ _ _ _)
  · have hattached' : (((engine.after (databaseFor source)).log .info "engine"
        ("Compiling " ++ source)).database? id).any (fun database => database.attached) :=
      hattached
    constructor
    · rw [compile, result_bind, hresult]
      simp only [result_modify_bind, compileWith, result_get_bind, if_pos hattached']
    · rw [compile, after_bind, hresult]
      simp only [after_modify_bind, compileWith, after_get_bind, if_pos hattached']

/-- What a run launches is told by what was launched before and after it. -/
theorem Launching.congr {begun later other : Engine α} {invocation : Invocation}
    {result : Except Failure String} (launching : begun.Launching invocation result later)
    (before : begun.launched = engine.launched) (after : other.launched = later.launched) :
    engine.Launching invocation result other := by
  cases launching with
  | started first => exact .started (before ▸ after ▸ first)
  | unreadable nothing => exact .unreadable (after.trans (nothing.trans before))
  | notLocated nothing => exact .notLocated (after.trans (nothing.trans before))
  | notStarted nothing => exact .notStarted (after.trans (nothing.trans before))

/-- **What a compile request launches** is the invocation of the command that is offered. -/
theorem launching_compile {invocation : Invocation}
    (fires : ∀ executable moment engine, Extends engine (fire executable moment engine))
    (offers : engine.Offers source command)
    (built : Invocation.build? command (engine.host.absolute source) override engine.rewrites =
      some invocation) :
    engine.Launching invocation (engine.result (compile fire source override))
      (engine.after (compile fire source override)) := by
  obtain ⟨id, begun, hlaunched, halike, hcommand, hruns⟩ := exists_run_of_offers fire offers
  rw [(hruns override).1, (hruns override).2]
  refine (launching_run fires hcommand ?_).congr hlaunched rfl
  rw [halike.absolute_eq, halike.rewrites, built]

/-- Requests for the same arguments are the same. -/
theorem compile_congr {other : Option (List String)} (offers : engine.Offers source command)
    (same : Invocation.effectiveArguments command override =
      Invocation.effectiveArguments command other) :
    engine.result (compile fire source override) = engine.result (compile fire source other) ∧
      engine.after (compile fire source override) = engine.after (compile fire source other) := by
  obtain ⟨id, begun, -, -, hcommand, hruns⟩ := exists_run_of_offers fire offers
  have hprograms : ∀ token, compileCommand fire token command source override =
      compileCommand fire token command source other := by
    intro token
    simp only [compileCommand, Invocation.build?, same]
  rw [(hruns override).1, (hruns other).1, (hruns override).2, (hruns other).2,
    result_run_of_start hcommand rfl, result_run_of_start hcommand rfl,
    after_run_of_start hcommand rfl, after_run_of_start hcommand rfl, hprograms]
  exact ⟨rfl, rfl⟩

end Requests

end AsmScope.Engine

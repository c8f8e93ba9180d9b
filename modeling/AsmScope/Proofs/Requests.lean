import AsmScope.Proofs.Deeds
import AsmScope.Scenario.EngineSteps
/-! # Requests as chains of changes

Apart from the runs that it starts, a request does only five kinds of things to the databases,
tokens and processes of an engine: it opens a database, begins or ends a compilation, cancels a
token, or leaves all of them alone. `Change` lists them; the deeds of a request are calm changes,
at which no compilation begins or ends. A reflexive and transitive relation that contains every
change and is respected by runs is respected by every request of a scenario (`respects_perform`),
and so by the scripts that are played during runs (`respects_interference`).

A regular step leaves the beginning and the ending of compilations to runs, and the disposal of
databases to the registry. For sessions and scripts of regular steps the deeds are enough
(`respects_regular`, `under_interference`). -/

namespace AsmScope

namespace Engine

variable {α : Type}

/-- Two engines with the same programs, processes and tokens, and with the same runs in progress. -/
structure SameRuns (before after : Engine α) : Prop where
  programs : after.host.programs = before.host.programs
  processes : after.host.processes = before.host.processes
  tokens : after.tokens = before.tokens
  active : after.databases.map (fun database => database.active) =
    before.databases.map (fun database => database.active)

/-- What a request other than a run does to an engine, one thing at a time. -/
inductive Change : Engine α → Engine α → Prop
  /-- Something that has nothing to do with runs. -/
  | elsewhere {before after : Engine α} (same : before.SameRuns after) : Change before after
  /-- A database is opened. -/
  | opened {engine : Engine α} (database : Database) (idle : database.active = none) :
      Change engine (engine.addDatabase database)
  /-- A compilation begins. -/
  | begun {engine : Engine α} (id : DatabaseId) : Change engine (engine.beginCompilation id).2
  /-- A compilation ends. -/
  | ended {engine : Engine α} (id : DatabaseId) (token : TokenId) :
      Change engine (engine.endCompilation id token)
  /-- A token is cancelled. -/
  | cancelled {engine : Engine α} (token : TokenId) : Change engine (engine.cancelToken token)

/-- A change at which no compilation begins or ends. -/
inductive Calm : Engine α → Engine α → Prop
  /-- Something that has nothing to do with runs. -/
  | elsewhere {before after : Engine α} (same : before.SameRuns after) : Calm before after
  /-- A database is opened. -/
  | opened {engine : Engine α} (database : Database) (idle : database.active = none) :
      Calm engine (engine.addDatabase database)
  /-- A token is cancelled. -/
  | cancelled {engine : Engine α} (token : TokenId) : Calm engine (engine.cancelToken token)

/-- A calm change is a change. -/
theorem Calm.change {before after : Engine α} (calm : Calm before after) : Change before after := by
  cases calm with
  | elsewhere same => exact .elsewhere same
  | opened database idle => exact .opened database idle
  | cancelled token => exact .cancelled token

/-- A change of the commands or the watching of a database leaves its run in progress. -/
theorem sameRuns_modifyDatabase (engine : Engine α) (id : DatabaseId) (f : Database → Database)
    (hf : ∀ database, (f database).active = database.active) :
    engine.SameRuns (engine.modifyDatabase id f) where
  programs := rfl
  processes := rfl
  tokens := rfl
  active := by
    apply List.ext_getElem?
    intro i
    simp only [modifyDatabase, List.getElem?_modify, List.getElem?_map]
    cases engine.databases[i]? with
    | none => simp
    | some database => by_cases hi : id = i <;> simp [hi, hf]

/-- What is done aside leaves the runs in progress. -/
theorem Aside.sameRuns {before after : Engine α} (same : Aside before after) :
    SameRuns before after :=
  ⟨same.programs, same.processes, same.tokens, by rw [same.databases]⟩

/-- What happens outside leaves the runs in progress. -/
theorem Outside.sameRuns {before after : Engine α} (same : Outside before after) :
    SameRuns before after :=
  ⟨same.programs, same.processes, same.tokens, by rw [same.databases]⟩

/-! ### Deeds as calm changes -/

section Calm

variable {R : Engine α → Engine α → Prop} [IsPreorder (Engine α) R]
variable (calm : ∀ before after : Engine α, Calm before after → R before after)
include calm

/-- What has nothing to do with runs may come first. -/
theorem respects_of_sameRuns {first second third : Engine α} (rest : R second third)
    (same : first.SameRuns second) : R first third :=
  IsTrans.trans _ _ _ (calm _ _ (.elsewhere same)) rest

/-- Cancelling the run of a database respects a relation that holds of every change. -/
theorem respects_cancelCompilation (engine : Engine α) (id : DatabaseId) :
    R engine (engine.cancelCompilation id).2 := by
  unfold cancelCompilation
  split
  · exact calm _ _ (.cancelled _)
  · exact Std.Refl.refl _

/-- Disposing of a database respects a relation that holds of every change. -/
theorem respects_disposeDatabase (engine : Engine α) (id : DatabaseId) :
    R engine (engine.disposeDatabase id) := by
  refine IsTrans.trans _ _ _ (respects_cancelCompilation calm engine id) ?_
  refine respects_of_sameRuns calm (calm _ _ (.elsewhere
    (sameRuns_modifyDatabase _ id _ fun _ => rfl))) ?_
  exact ⟨rfl, rfl, rfl, rfl⟩

/-- **Every deed is a chain of calm changes.** -/
theorem respects_deed {who : DatabaseId → Prop} (before after : Engine α)
    (deed : Deed who before after) : R before after := by
  have hregistry : ∀ (engine : Engine α) (registered : Table String DatabaseId),
      R engine { engine with registered } :=
    fun _ _ => calm _ _ (.elsewhere ⟨rfl, rfl, rfl, rfl⟩)
  cases deed with
  | aside same => exact calm _ _ (.elsewhere same.sameRuns)
  | added location commands attached => exact calm _ _ (.opened _ rfl)
  | entered location commands =>
    -- the database is opened, and then watched and registered
    refine IsTrans.trans _ _ _ (calm _ _ (.opened
      { location := before.host.absolute location, commands, attached := true,
        watched := before.watching } rfl)) (calm _ _ (.elsewhere ?_))
    exact ⟨rfl, rfl, rfl, rfl⟩
  | reloaded mine commands =>
    exact calm _ _ (.elsewhere (sameRuns_modifyDatabase _ _ _ fun _ => rfl))
  | noted => exact calm _ _ (.elsewhere ⟨rfl, rfl, rfl, rfl⟩)
  | cancelled => exact respects_cancelCompilation calm _ _
  | retired =>
    exact relates_retire hregistry (fun engine => respects_disposeDatabase calm engine _) _
  | disposed => exact respects_disposeDatabase calm _ _
  | closed => exact relates_closeAll hregistry (respects_disposeDatabase calm) _

end Calm

/-- A deed leaves what is in front of the engine as it is. -/
theorem Deed.front_eq {who : DatabaseId → Prop} {before after : Engine α}
    (deed : Deed who before after) : after.front = before.front := by
  -- only the engine's own books and processes are touched by a cancel
  have hcancel : ∀ (engine : Engine α) (id : DatabaseId),
      (engine.cancelCompilation id).2.front = engine.front := by
    intro engine id
    unfold cancelCompilation cancelToken
    split
    · split <;> rfl
    · rfl
  have hdispose : ∀ (engine : Engine α) (id : DatabaseId),
      Maintains (fun later => later.front = before.front) engine (engine.disposeDatabase id) :=
    fun engine id h => (hcancel engine id).trans h
  cases deed with
  | aside same => exact same.front
  | cancelled => exact hcancel _ _
  | retired => exact relates_retire (fun _ _ h => h) (fun engine => hdispose engine _) before rfl
  | disposed => exact hcancel _ _
  | closed => exact relates_closeAll (fun _ _ h => h) hdispose before rfl
  | _ => rfl

/-! ### What happens to the machine -/

/-- A step of the world is something that happens outside. -/
theorem outside_hostStep (engine : Engine α) (step : HostStep) :
    Outside engine { engine with host := step.apply engine.host } := by
  cases step with
  | changeDirectory path =>
    exact ⟨fun rooted => Path.isAbsolute_absolute rooted path, rfl, rfl, rfl, rfl, rfl, rfl, rfl,
      rfl⟩
  | write | delete | setClock | event => constructor <;> simp only [HostStep.apply, imp_self]

/-- A step of the machine is a change of it, or an event that the observers are shown. -/
theorem respects_hostStep {R : Engine α → Engine α → Prop} [IsPreorder (Engine α) R]
    (deeds : ∀ before after : Engine α, Deed (fun _ => True) before after → R before after)
    (outside : ∀ before after : Engine α, Outside before after → R before after)
    {onSource : Engine α → Engine α} (hsource : ∀ engine, R engine (onSource engine))
    (step : HostStep) : Respects R (step.perform onSource) := by
  cases step with
  | event happened => exact respects_deliver deeds (fun _ => trivial) hsource happened
  | write | delete | setClock | changeDirectory =>
    exact fun engine => outside _ _ (outside_hostStep engine _)

end Engine

/-! ### Scripted interference -/

/-- **What the playing of a script respects, scripted interference does**, however deep it nests: the
runs of a script are disturbed by the scripts of the next depth only. -/
theorem Script.relates_interference {α σ : Type} {R : Engine α → Engine α → Prop}
    [Std.Refl R] {take : String → Moment → α → Option (List σ × α)}
    {play : Interference α → List σ → Engine α → Engine α}
    (plays : ∀ depth, (∀ executable moment engine,
        R engine (interference take play depth executable moment engine)) →
      ∀ executable moment engine steps front,
        take executable moment engine.front = some (steps, front) →
        R engine (play (interference take play depth) steps { engine with front }))
    (depth : Nat) (executable : String) (moment : Moment) (engine : Engine α) :
    R engine (interference take play depth executable moment engine) := by
  induction depth generalizing executable moment engine with
  | zero => exact Std.Refl.refl engine
  | succ depth ih =>
    simp only [interference]
    split
    · -- no script is left for this moment
      exact Std.Refl.refl engine
    · next steps front taken => exact plays depth ih executable moment engine steps front taken

/-! ### Scenarios -/

namespace Scenario

open Engine

/-- A step that leaves compilations to runs and disposal to the registry. -/
def EngineStep.Regular : EngineStep → Prop
  | .dispose _ | .beginRun .. | .endRun .. => False
  | _ => True

instance : DecidablePred EngineStep.Regular
  | .dispose _ | .beginRun .. | .endRun .. => isFalse id
  | .host _ | .buildDirectory _ | .database _ | .compile .. | .cancel _ | .shutdown | .configure ..
  | .openDatabase _ | .registered _ | .contains _ | .locate _ | .bare .. | .token _ | .lookup ..
  | .keys _ | .run .. | .reload _ | .retire _ | .changed _ | .deleted _ | .cancelRun _ =>
    isTrue trivial

variable {R : Stage → Stage → Prop} [IsPreorder Stage R]

/-- Looking a database up by its number leaves everything as it is. -/
theorem after_numbered (stage : Stage) (db : Int) : stage.after (numbered db) = stage := by
  simp only [numbered, after_get_bind]
  split
  · split <;> rfl
  · rfl

/-- Looking a token up by its name leaves everything as it is. -/
theorem after_namedToken (stage : Stage) (name : String) :
    stage.after (namedToken name) = stage := by
  simp only [namedToken, after_get_bind]
  split <;> rfl

/-- Finding the database that a request is about changes nothing. -/
theorem respects_numbered (db : Int) : Respects R (numbered db) :=
  .of_after_eq fun stage => after_numbered stage db

section Regular

variable (deeds : ∀ before after : Stage, Deed (fun _ => True) before after → R before after)
variable (outside : ∀ before after : Stage, Outside before after → R before after)
variable (numbers : ∀ (stage : Stage) (ids : List DatabaseId),
  R stage { stage with front.numbered := ids })

include numbers in
/-- Giving a database a number respects a relation that holds of changes of the ledger. -/
theorem respects_number (id : DatabaseId) : Respects R (number id) := by
  intro stage
  simp only [number, after_get_bind]
  split
  · exact Std.Refl.refl _
  · exact numbers _ _

include deeds outside numbers

/-- **Every regular request is a chain of deeds and runs.** -/
theorem respects_regular {fire : Interference Ledger}
    (runs : ∀ id source override, Respects R (run fire id source override)) {step : EngineStep}
    (regular : step.Regular) : Respects R (perform fire step) := by
  cases step with
  | host step =>
    exact .bind (respects_hostStep deeds outside (fun stage => Std.Refl.refl stage) step) fun _ =>
      .pure_of _
  | buildDirectory source =>
    refine .of_after_eq fun stage => ?_
    simp only [perform, after_get_bind]
    cases stage.buildDirectory source <;> rfl
  | database source =>
    exact .bind (respects_databaseFor deeds source) fun id =>
      .bind (respects_number numbers id) fun _ => .pure_of _
  | compile source override =>
    exact .bind (respects_compile deeds fun id => runs id source override) fun _ => .pure_of _
  | cancel source =>
    exact .bind (respects_cancel deeds (fun _ => trivial) source) fun _ => .pure_of _
  | shutdown =>
    exact .bind (.modify_of fun stage => deeds _ _ (.closed fun _ => trivial)) fun _ => .pure_of _
  | configure key value =>
    exact .bind (fun stage => outside _ _ (outside_configure key value stage)) fun _ => .pure_of _
  | openDatabase location =>
    exact .bind (respects_openOrGet deeds location) fun id =>
      .bind (respects_number numbers id) fun _ => .pure_of _
  | registered location =>
    intro stage
    simp only [perform, after_get_bind]
    split
    · exact Respects.bind (respects_number numbers _) (fun _ => .pure_of _) stage
    · exact Std.Refl.refl _
  | contains location => exact .of_after_eq fun _ => rfl
  | locate compiler => exact .bind (respects_locateDemangler deeds compiler) fun _ => .pure_of _
  | bare location load =>
    -- whether it was loaded or not, the index goes into a new database that nobody registers
    have hadd : ∀ commands : CommandIndex, Respects R (do
        let added := (← get).addBare location commands
        set added.2
        return .number (some (← number added.1)) : Action Ledger Answer) := by
      intro commands stage
      simp only [after_get_bind, addBare, after_set_bind]
      refine IsTrans.trans _ _ _ (deeds _ _ (.added location commands false)) ?_
      exact Respects.bind (respects_number numbers _) (fun _ => .pure_of _) _
    cases load with
    | true => exact .bind (respects_loadIndex deeds location) hadd
    | false => exact .bind (.pure_of []) hadd
  | token name =>
    exact .bind (.of_after_eq fun stage => after_namedToken stage name) fun _ =>
      .of_after_eq fun _ => rfl
  | lookup db path => exact .bind (respects_numbered db) fun _ => .of_after_eq fun _ => rfl
  | keys db => exact .bind (respects_numbered db) fun _ => .pure_of _
  | run db source override =>
    exact .bind (respects_numbered db) fun _ =>
      .bind (respects_compileWith (runs _ source override)) fun _ => .pure_of _
  | reload db =>
    exact .bind (respects_numbered db) fun _ =>
      .bind (respects_reload deeds trivial) fun _ => .pure_of _
  | retire db =>
    exact .bind (respects_numbered db) fun _ =>
      .bind (.modify_of fun stage => deeds _ _ (.retired trivial)) fun _ => .pure_of _
  | changed db =>
    exact .bind (respects_numbered db) fun _ =>
      .bind (respects_databaseChanged deeds trivial _) fun _ => .pure_of _
  | deleted db =>
    exact .bind (respects_numbered db) fun _ =>
      .bind (.modify_of fun stage => respects_databaseDeleted deeds stage trivial _) fun _ =>
        .pure_of _
  | cancelRun db =>
    exact .bind (respects_numbered db) fun _ => fun stage => deeds _ _ (.cancelled trivial)
  | dispose | beginRun | endRun => exact regular.elim

end Regular

/-! ### Scripts -/

/-- All scripts that are left consist of steps of a kind. -/
def Scripted (kind : EngineStep → Prop) (stage : Stage) : Prop :=
  ∀ script ∈ stage.front.scripts, ∀ step ∈ script.steps, kind step

/-- A relation between stages whose scripts consist of steps of a kind; none is added. -/
def Under (kind : EngineStep → Prop) (R : Stage → Stage → Prop) (before after : Stage) : Prop :=
  Scripted kind before → Scripted kind after ∧ R before after

instance (kind : EngineStep → Prop) : IsPreorder Stage (Under kind R) where
  refl _ scripted := ⟨scripted, Std.Refl.refl _⟩
  trans _ _ _ hab hbc scripted :=
    have hb := hab scripted
    have hc := hbc hb.1
    ⟨hc.1, IsTrans.trans _ _ _ hb.2 hc.2⟩

section Scripts

variable {kind : EngineStep → Prop}

omit [IsPreorder Stage R] in
/-- What leaves the front alone adds no scripts. -/
theorem under_of_front {before after : Stage} (front : after.front = before.front)
    (h : R before after) : Under kind R before after := by
  intro scripted
  exact ⟨by rwa [Scripted, front], h⟩

variable (fronts : ∀ (stage : Stage) (front : Ledger), front.tokens = stage.front.tokens →
  R stage { stage with front })
include fronts

/-- The steps of a script leave what each of them leaves, and their answers. -/
theorem under_playScript {fire : Interference Ledger}
    (performs : ∀ step, kind step → Respects (Under kind R) (perform fire step))
    (steps : List EngineStep) (all : ∀ step ∈ steps, kind step) (stage : Stage) :
    Under kind R stage (playScript fire steps stage) := by
  have hsteps : ∀ (steps : List EngineStep) (stage : Stage), (∀ step ∈ steps, kind step) →
      Under kind R stage ((steps.mapM fun step => (perform fire step).run).run stage).2 := by
    intro steps
    induction steps with
    | nil => exact fun stage _ => Std.Refl.refl stage
    | cons step steps ih =>
      intro stage hall
      rw [List.mapM_cons]
      exact IsTrans.trans _ _ _ (performs step (hall step List.mem_cons_self) stage)
        (ih _ fun other hother => hall other (List.mem_cons_of_mem _ hother))
  exact IsTrans.trans _ _ _ (hsteps steps stage all) fun scripted => ⟨scripted, fronts _ _ rfl⟩

/-- **Scripted interference is a chain of steps**, however deep it nests. -/
theorem under_interference
    (performs : ∀ depth, (∀ executable moment stage,
        Under kind R stage (interference depth executable moment stage)) →
      ∀ step, kind step → Respects (Under kind R) (perform (interference depth) step))
    (depth : Nat) (executable : String) (moment : Moment) (stage : Stage) :
    Under kind R stage (interference depth executable moment stage) := by
  refine Script.relates_interference (fun depth fires _ _ stage steps front htaken => ?_) depth
    executable moment stage
  intro scripted
  obtain ⟨⟨taken, rest⟩, htake, heq⟩ := Option.map_eq_some_iff.1 htaken
  simp only [Prod.mk.injEq] at heq
  obtain ⟨rfl, rfl⟩ := heq
  obtain ⟨⟨script, hscript, rfl⟩, hrest⟩ := Script.subset_of_take? htake
  have hfront : Under kind R stage
      { stage with front := { stage.front with scripts := rest } } :=
    fun _ => ⟨fun other hother => scripted other (hrest hother), fronts _ _ rfl⟩
  have hplayed := under_playScript fronts (performs depth fires) script.steps
    (scripted script hscript) { stage with front := { stage.front with scripts := rest } }
  exact IsTrans.trans _ _ _ hfront hplayed scripted

end Scripts

/-! ### Requests of all kinds -/

/-- A relation allows whatever a request does apart from runs. -/
structure Admits (R : Stage → Stage → Prop) : Prop where
  deed : ∀ before after : Stage, Deed (fun _ => True) before after → R before after
  outside : ∀ before after : Stage, Outside before after → R before after
  /-- Everything in the ledger may change but for the names of tokens. -/
  front : ∀ (stage : Stage) (front : Ledger), front.tokens = stage.front.tokens →
    R stage { stage with front }
  disposed : ∀ (stage : Stage) (id : DatabaseId), R stage (stage.disposeDatabase id)
  /-- A compilation begins, and its token gets a name. -/
  begun : ∀ (stage : Stage) (id : DatabaseId) (name : String),
    let begun := (stage.beginCompilation id).2
    R stage { begun with
      front.tokens := begun.front.tokens.put name (stage.beginCompilation id).1 }
  /-- A compilation ends whose token has a name. -/
  ended : ∀ (stage : Stage) (id : DatabaseId) (name : String) (token : TokenId),
    stage.front.tokens.get? name = some token → R stage (stage.endCompilation id token)

namespace Admits

/-- The changes are all that a request does. -/
theorem of_changes (changes : ∀ before after : Stage, Change before after → R before after) :
    Admits R := by
  have hcalm : ∀ before after : Stage, Calm before after → R before after :=
    fun _ _ calm => changes _ _ calm.change
  refine ⟨respects_deed hcalm, fun _ _ same => changes _ _ (.elsewhere same.sameRuns),
    fun _ _ _ => changes _ _ (.elsewhere ⟨rfl, rfl, rfl, rfl⟩),
    fun stage => respects_disposeDatabase hcalm stage, fun stage id name => ?_,
    fun _ id _ token _ => changes _ _ (.ended id token)⟩
  exact IsTrans.trans _ _ _ (changes _ _ (.begun id))
    (changes _ _ (.elsewhere ⟨rfl, rfl, rfl, rfl⟩))

variable (admits : Admits R)
include admits

/-- A compilation ends only under a name that its token has. -/
theorem respects_endRun {fire : Interference Ledger} (db : Int) (name : String) :
    Respects R (perform fire (.endRun db name)) := by
  refine .bind (respects_numbered db) fun found stage => ?_
  refine Respects.after_bind_of ?_ fun token hnamed => ?_
  · rw [after_namedToken]
    exact Std.Refl.refl stage
  · rw [after_namedToken]
    have hname : stage.front.tokens.get? name = some token := by
      rw [namedToken, result_get_bind] at hnamed
      cases hget : stage.front.tokens.get? name with
      | none =>
        rw [hget] at hnamed
        cases hnamed
      | some other =>
        rw [hget] at hnamed
        cases hnamed
        rfl
    exact admits.ended stage found.1 name token hname

/-- **Every request is made of what is allowed, and of runs.** -/
theorem respects_perform {fire : Interference Ledger}
    (runs : ∀ id source override, Respects R (run fire id source override)) (step : EngineStep) :
    Respects R (perform fire step) := by
  by_cases hregular : step.Regular
  · exact respects_regular admits.deed admits.outside (fun stage _ => admits.front stage _ rfl) runs
      hregular
  · cases step with
    | dispose db =>
      exact .bind (respects_numbered db) fun _ =>
        .bind (.modify_of fun stage => admits.disposed stage _) fun _ => .pure_of _
    | beginRun db name =>
      exact .bind (respects_numbered db) fun found stage => admits.begun stage found.1 name
    | endRun db name => exact admits.respects_endRun db name
    | _ => exact absurd trivial hregular

/-- **So is what scripts do**, however deep it nests. -/
theorem respects_interference
    (runs : ∀ depth, (∀ executable moment stage,
        R stage (interference depth executable moment stage)) →
      ∀ id source override, Respects R (run (interference depth) id source override))
    (depth : Nat) (executable : String) (moment : Moment) (stage : Stage) :
    R stage (interference depth executable moment stage) := by
  have hfree : ∀ {before after : Stage}, Under (fun _ => True) R before after → R before after :=
    fun h => (h fun _ _ _ _ => trivial).2
  refine hfree (under_interference admits.front ?_ depth executable moment stage)
  intro depth fires step _ before scripted
  have hperform := admits.respects_perform
    (runs depth fun executable moment stage => hfree (fires executable moment stage)) step before
  exact ⟨fun _ _ _ _ => trivial, hperform⟩

end Admits

/-! ### Requests as chains of changes -/

section Changes

variable (changes : ∀ before after : Stage, Change before after → R before after)
include changes

/-- **Every request is a chain of changes and runs.** -/
theorem respects_perform {fire : Interference Ledger}
    (runs : ∀ id source override, Respects R (run fire id source override)) (step : EngineStep) :
    Respects R (perform fire step) :=
  (Admits.of_changes changes).respects_perform runs step

/-- **Scripted interference is a chain of changes and runs**, however deep it nests. -/
theorem respects_interference
    (runs : ∀ fire : Interference Ledger, (∀ executable moment stage,
        R stage (fire executable moment stage)) →
      ∀ id source override, Respects R (run fire id source override))
    (depth : Nat) (executable : String) (moment : Moment) (stage : Stage) :
    R stage (interference depth executable moment stage) :=
  (Admits.of_changes changes).respects_interference (fun depth => runs (interference depth)) depth
    executable moment stage

end Changes

end Scenario

end AsmScope

import AsmScope.Proofs.Wards
/-! # What the demangler receives

The input of a demangler is only ever written by the run that has started it, chunk by chunk in the
order in which the compiler writes them (`Point.Relays`): whatever others do to the process, they at
most kill it. While the chunks are passed on the token of the run has charge of the demangler. So once
the token is cancelled the demangler does not run, and a process that does not run takes no input,
whether it was killed then, had vanished by then, or was registered later. -/

namespace AsmScope

namespace Process

/-- The end of a process leaves what it has received. -/
@[simp] theorem input_finish (process : Process) : process.finish.input = process.input := by
  unfold finish
  split <;> rfl

/-- Killing a process leaves what it has received. -/
@[simp] theorem input_kill (process : Process) : process.kill.input = process.input := by
  unfold kill
  split
  · exact process.input_finish
  · split <;> rfl

/-- The end of the input of a process leaves what it has received. -/
@[simp] theorem input_endInput (process : Process) : process.endInput.input = process.input := by
  unfold endInput
  split
  · exact process.input_finish
  · rfl

/-- A killed process is one of the same program. -/
@[simp] theorem program_kill (process : Process) : process.kill.program = process.program := by
  unfold kill finish
  split
  · split <;> rfl
  · split <;> rfl

end Process

namespace Engine

variable {α : Type} {engine later : Engine α}

/-- What a process that can be written to has received on its input. -/
def received? (engine : Engine α) (id : ProcessId) : Option Bytes :=
  (engine.host.process? id).bind fun process => process.input

/-- The process has received nothing more. -/
def Unfed (id : ProcessId) (before after : Engine α) : Prop :=
  after.received? id = before.received? id

instance (id : ProcessId) : IsPreorder (Engine α) (Unfed id) where
  refl _ := rfl
  trans _ _ _ hab hbc := hbc.trans hab

/-- Where the processes are the same none has received more. -/
theorem unfed_of_processes (id : ProcessId)
    (same : later.host.processes = engine.host.processes) : Unfed id engine later := by
  rw [Unfed, received?, received?, Host.process?, same, Host.process?]

/-- A change of some process that does not write to it. -/
theorem unfed_modifyProcess (engine : Engine α) (id own : ProcessId) {f : Process → Process}
    (keeps : ∀ process, (f process).input = process.input) :
    Unfed id engine { engine with host := engine.host.modifyProcess own f } := by
  rw [Unfed, received?, received?, Host.process?_modifyProcess]
  split
  · cases engine.host.process? id with
    | none => rfl
    | some process => exact keeps process
  · rfl

/-- A process that was there receives nothing when another one is started. -/
theorem unfed_starts {id : ProcessId} (there : id < engine.started) (start : Starts engine later) :
    Unfed id engine later := by
  obtain ⟨process, rfl⟩ := start
  have hsame : (engine.host.processes ++ [process])[id]? = engine.host.processes[id]? :=
    List.getElem?_append_left there
  exact congrArg (fun found : Option Process => found.bind fun process => process.input) hsame

/-- A process that is added has received what it has when it is added. -/
theorem received?_addProcess (engine : Engine α) (process : Process) :
    (engine.addProcess process).received? engine.started = process.input := by
  have hfound : (engine.addProcess process).host.process? engine.started = some process :=
    List.getElem?_concat_length
  rw [received?, hfound]
  rfl

/-- The registration of a run at most kills its processes. -/
theorem process?_registerRun (engine : Engine α) (token : TokenId) (run : RunProcesses)
    (id : ProcessId) :
    (engine.registerRun token run).host.process? id = engine.host.process? id ∨
      (engine.registerRun token run).host.process? id =
        (engine.host.process? id).map Process.kill := by
  unfold registerRun
  split
  · exact .inl rfl
  · dsimp only
    split
    · obtain ⟨hother, hmine⟩ := engine.host.process?_killRun run id
      by_cases hmentions : run.Mentions id
      · exact .inr (hmine hmentions)
      · exact .inl (hother hmentions)
    · exact .inl rfl

/-- A process that is killed, or is as it was, has received nothing more. -/
theorem unfed_of_killed {id : ProcessId}
    (killed : later.host.process? id = engine.host.process? id ∨
      later.host.process? id = (engine.host.process? id).map Process.kill) :
    Unfed id engine later := by
  rw [Unfed, received?, received?]
  rcases killed with hkept | hkilled
  · rw [hkept]
  · rw [hkilled]
    cases engine.host.process? id with
    | none => rfl
    | some process => exact process.input_kill

/-- What spares the processes up to a number feeds none of them. -/
theorem Spares.unfed {base : Nat} (spares : Spares base engine later) {id : ProcessId}
    (there : id < base) : Unfed id engine later :=
  unfed_of_killed ((spares.processes id there).imp_right fun h => h.1)

end Engine

/-! ### Deliveries -/

open Engine

/-- In such a step a chunk is delivered to the process. -/
def Delivers (id : ProcessId) (index : Nat) (chunk : Bytes) (rest : List Bytes)
    (point next : Point) : Prop :=
  ∃ pair : Pair, pair.demangler = id ∧ point = .translating pair (.deliver index chunk rest) ∧
    next = .translating pair (.read (index + 1) rest)

namespace Task

variable {α : Type} {task : Task α} {point next : Point} {engine later : Engine α}
  {id : ProcessId}

/-- What a run does itself feeds a process only where it delivers a chunk to it. -/
theorem Does.unfed (does : task.Does point engine later)
    (other : ∀ pair index chunk rest, point = .translating pair (.deliver index chunk rest) →
      pair.demangler ≠ id) : Unfed id engine later := by
  cases does with
  | ended => exact unfed_modifyProcess engine id _ Process.input_finish
  | closed => exact unfed_modifyProcess engine id _ Process.input_endInput
  | demanglerKilled | compilerKilled => exact unfed_modifyProcess engine id _ Process.input_kill
  | registered => exact unfed_of_killed (engine.process?_registerRun _ _ id)
  | unregistered => exact unfed_of_processes id rfl
  | received =>
    -- the process that receives is another one
    rw [Unfed, received?, received?, Host.process?_modifyProcess, if_neg (other _ _ _ _ rfl)]

/-- **A step writes to no process that was there, but for the delivery of a chunk.** -/
theorem Step.unfed (step : task.Step point engine next later) (own : point.OwnedFrom 0 engine)
    (there : id < engine.started)
    (fires : ∀ executable moment other,
      From (id + 1) (Spares (id + 1)) other (task.fire executable moment other))
    (quiet : ∀ index chunk rest, ¬Delivers id index chunk rest point next) :
    Unfed id engine later := by
  -- at a delivery the step goes on without one; elsewhere nothing writes to the process at all
  by_cases hdeliver : ∃ pair index chunk rest,
      point = .translating pair (.deliver index chunk rest) ∧ pair.demangler = id
  · obtain ⟨pair, index, chunk, rest, rfl, rfl⟩ := hdeliver
    cases step with
    | translating step =>
      cases step with
      | taken => exact absurd ⟨pair, rfl, rfl, rfl⟩ (quiet _ _ _)
      | notTaken | cancelled => rfl
  · have hunfed : From (id + 1) (Unfed id) engine later := by
      refine respects_does (fun before after same hthere => ?_) (fun executable moment other hthere => ?_)
        (fun _ started hstarts hthere => ?_) (fun after does hthere => ?_) step
      · have hprocesses := same.processes
        exact ⟨Nat.le_of_eq (by rw [started, started, hprocesses]), unfed_of_processes id hprocesses⟩
      · obtain ⟨hgrows, hspares⟩ := fires executable moment other hthere
        exact ⟨hgrows, hspares.unfed (Nat.lt_succ_self id)⟩
      · exact ⟨by rw [hstarts.started_eq]; exact Nat.le_succ _, unfed_starts hthere hstarts⟩
      · refine ⟨Nat.le_of_eq (does.act own).started_eq.symm, does.unfed ?_⟩
        exact fun pair index chunk rest hpoint hid =>
          hdeliver ⟨pair, index, chunk, rest, hpoint, hid⟩
    exact (hunfed there).2

/-- A chunk is delivered to a process that runs. -/
theorem Step.received?_of_delivers {index : Nat} {chunk : Bytes} {rest : List Bytes}
    (step : task.Step point engine next later) (delivers : Delivers id index chunk rest point next) :
    engine.host.isRunning id ∧
      later.received? id = (engine.received? id).map fun input => input ++ chunk := by
  obtain ⟨pair, rfl, rfl, rfl⟩ := delivers
  cases step with
  | translating step =>
    cases step with
    | taken found running =>
      refine ⟨by rw [Host.isRunning, found]; exact running, ?_⟩
      rw [received?, received?, Host.process?_modifyProcess, if_pos rfl, found]
      rfl

end Task

/-! ### What is passed on -/

/-- One more chunk is taken where one less is left. -/
theorem take_succ_of_drop {chunk : Bytes} {rest chunks : List Bytes} {index : Nat}
    (h : chunk :: rest = chunks.drop index) :
    rest = chunks.drop (index + 1) ∧
      (chunks.take (index + 1)).flatten = (chunks.take index).flatten ++ chunk := by
  refine ⟨?_, ?_⟩
  · rw [← List.drop_drop, ← h, List.drop_one, List.tail_cons]
  · rw [List.take_add, ← h, List.flatten_append, List.take_one, List.head?_cons]
    simp

/-- What the demangler has received at a passage: the chunks before the one that is passed on. -/
def Passage.Relays (chunks : List Bytes) (input : Bytes) : Passage → Prop
  | read index rest => rest = chunks.drop index ∧ input = (chunks.take index).flatten
  | received index chunk rest | write index chunk rest | deliver index chunk rest =>
    chunk :: rest = chunks.drop index ∧ input = (chunks.take index).flatten
  | _ => ∃ count, input = (chunks.take count).flatten

/-- At every passage the demangler has received the first so many chunks. -/
theorem Passage.Relays.exists_take {chunks : List Bytes} {input : Bytes} {passage : Passage}
    (h : passage.Relays chunks input) : ∃ count, input = (chunks.take count).flatten := by
  cases passage with
  | read index | received index | write index | deliver index => exact ⟨index, h.2⟩
  | _ => exact h

/-- How far a run has passed on the chunks of its compiler: its demangler has received the first ones,
and while they are passed on the token has charge of it. -/
def Point.Relays {α : Type} (token : TokenId) (pair : Pair) (chunks : List Bytes)
    (engine : Engine α) : Point → Prop
  | translating other passage => other = pair ∧ engine.Wards token pair.demangler ∧
    ∃ input, engine.received? pair.demangler = some input ∧ passage.Relays chunks input
  | unregister _ _ | stopDemangler _ _ | stopCompiler _ _ | finished _ =>
    ∃ count, engine.received? pair.demangler = some (chunks.take count).flatten
  | _ => False

/-- At every point of a run the demangler has received the first so many chunks. -/
theorem Point.Relays.exists_take {α : Type} {token : TokenId} {pair : Pair} {chunks : List Bytes}
    {engine : Engine α} {point : Point} (h : point.Relays token pair chunks engine) :
    ∃ count, engine.received? pair.demangler = some (chunks.take count).flatten := by
  cases point with
  | translating other passage =>
    obtain ⟨-, -, input, hinput, hrelays⟩ := h
    obtain ⟨count, rfl⟩ := hrelays.exists_take
    exact ⟨count, hinput⟩
  | unregister | stopDemangler | stopCompiler | finished => exact h
  | _ => exact h.elim

namespace Task

variable {α : Type} {task : Task α} {point next : Point} {engine later : Engine α} {pair : Pair}
  {chunks : List Bytes}

/-- **Every step relays**: it delivers the next chunk, or leaves the input of the demangler alone. -/
theorem Step.relays (step : task.Step point engine next later) (own : point.OwnedFrom 0 engine)
    (there : pair.demangler < engine.started)
    (fires : ∀ executable moment other, From (pair.demangler + 1) (Spares (pair.demangler + 1)) other
      (task.fire executable moment other))
    (wards : (∀ other outcome, point ≠ .unregister other outcome) →
      engine.Wards task.token pair.demangler → later.Wards task.token pair.demangler)
    (h : point.Relays task.token pair chunks engine) : next.Relays task.token pair chunks later := by
  by_cases hdelivers : ∃ index chunk rest, Delivers pair.demangler index chunk rest point next
  · -- the first of the chunks that are left is now the last one that was received
    obtain ⟨index, chunk, rest, hdelivers⟩ := hdelivers
    obtain ⟨-, hreceived⟩ := step.received?_of_delivers hdelivers
    obtain ⟨other, -, rfl, rfl⟩ := hdelivers
    obtain ⟨rfl, hwards, input, hinput, hdrop, rfl⟩ := h
    obtain ⟨hrest, htake⟩ := take_succ_of_drop hdrop
    rw [hinput, Option.map_some] at hreceived
    exact ⟨rfl, wards nofun hwards, _, hreceived, hrest, htake.symm⟩
  · have hquiet : ∀ index chunk rest, ¬Delivers pair.demangler index chunk rest point next :=
      fun index chunk rest h => hdelivers ⟨index, chunk, rest, h⟩
    have hsame : later.received? pair.demangler = engine.received? pair.demangler :=
      step.unfed own there fires hquiet
    -- the input is the same; where the chunks are given up, it is only known to be some of them
    have hcount := h.exists_take
    rw [← hsame] at hcount
    cases step with
    | translating step =>
      obtain ⟨rfl, hwards, input, hinput, hrelays⟩ := h
      have hward := wards nofun hwards
      have htaken := hrelays.exists_take
      rw [← hsame] at hinput
      cases step with
      | readChunk => exact ⟨rfl, hward, input, hinput, hrelays.1, hrelays.2⟩
      | received | write => exact ⟨rfl, hward, input, hinput, hrelays⟩
      | taken => exact absurd ⟨_, rfl, rfl, rfl⟩ (hquiet _ _ _)
      | readEnd | receivedEnd | notTaken | ended | awaitCompiler | compilerDone | closing | closed
      | notClosed | awaitDemangler => exact ⟨rfl, hward, input, hinput, htaken⟩
      | refused | endedCancelled | compilerFailed | demanglerFailed | demanglerDone | cancelled =>
        exact hcount
    | unregister | stopDemangler | stopCompiler | finished => exact hcount
    | _ => exact h.elim

/-- The demangler has received nothing when both programs have been started. -/
theorem Step.received?_of_register (step : task.Step point engine (.register pair) later)
    (fires : ∀ first executable moment other,
      From first (Spares first) other (task.fire executable moment other)) :
    later.received? pair.demangler = some [] := by
  cases step with
  | demanglerStarted text started =>
    obtain ⟨program, -, -, rfl, hstarted⟩ := exists_of_start started
    rw [hstarted]
    -- when it has been started others act, who may kill it but do not write to it
    have hspawned : ∀ process, Unfed engine.started (engine.addProcess process)
        ((engine.addProcess process).after (interfere task.fire engine.started .spawned)) := by
      intro process
      have hgrows := (starts_addProcess engine process).started_eq
      have hspares := respects_interfere (fires (engine.started + 1)) engine.started .spawned
        (engine.addProcess process) (Nat.le_of_eq hgrows.symm)
      exact hspares.2.unfed (Nat.lt_succ_self _)
    exact (hspawned _).trans (engine.received?_addProcess _)
  | translating step => cases step

/-- **With the registration the token takes charge of the demangler**, which is to receive the chunks
of the compiler from the first one on. -/
theorem Step.relays_of_register (step : task.Step (.register pair) engine next later)
    (made : task.token < engine.tokens.length) (there : pair.demangler < engine.started)
    (nothing : engine.received? pair.demangler = some []) {compiler : Process}
    (found : engine.host.process? pair.compiler = some compiler) :
    next.Relays task.token pair compiler.program.chunks later := by
  cases step with
  | register registered =>
    subst registered
    have hunfed : Unfed pair.demangler engine (engine.registerRun task.token pair.toRunProcesses) :=
      unfed_of_killed (engine.process?_registerRun _ _ _)
    refine ⟨rfl, wards_registerRun made (.inr rfl) there, [], hunfed.trans nothing, ?_, rfl⟩
    -- a compiler that is killed now has the same program
    rcases engine.process?_registerRun task.token pair.toRunProcesses pair.compiler with hsame | hkilled
    · rw [hsame, found]
      rfl
    · rw [hkilled, found, Option.map_some, Option.map_some, Process.program_kill]
      rfl

end Task

/-! ### Runs -/

namespace Scenario

variable {depth : Nat} {stage begun : Stage} {id : DatabaseId} {source : String}
  {override : Option (List String)} {task : Task Ledger}

/-- The token of a run has no name. -/
theorem nameless_timeline (sound : Sound stage)
    (begins : stage.Begins (interference depth) id source override task begun) (n : Nat) :
    Nameless task.token (task.timeline begun n).2 := by
  have htoken : task.token = stage.tokens.length := by
    rw [← fst_beginCompilation stage id, begins.start]
  have hbegun : Nameless task.token begun := by
    refine ⟨?_, fun name hname => ?_⟩
    · have hmade : begun.tokens.length = stage.tokens.length + 1 := by
        rw [← length_beginCompilation stage id, begins.start]
      rw [htoken, hmade]
      exact Nat.lt_succ_self _
    · have hfront : begun.front = stage.front := by
        rw [← front_beginCompilation stage id, begins.start]
      rw [hfront] at hname
      -- whatever has a name was made before the run
      have hold := sound.named name task.token hname
      rw [htoken] at hold
      exact Nat.lt_irrefl _ hold
  exact (heeds_timeline (heeds_interference depth) begins.fire begun n).nameless hbegun

/-- At every moment of a run its processes are among those that were started. -/
theorem owned_timeline (begun : Stage) (fire : task.fire = interference depth) (n : Nat) :
    (task.timeline begun n).1.OwnedFrom 0 (task.timeline begun n).2 := by
  obtain ⟨-, hown⟩ := Task.timeline_owned (fire ▸ grows_interference depth) begun n
  exact fun id hid => ⟨Nat.zero_le id, (hown id hid).2⟩

section Relayed

variable (begins : stage.Begins (interference depth) id source override task begun) {n : Nat}
  {pair : Pair} (registering : (task.timeline begun n).1 = .register pair)
include begins registering

/-- Both processes are there when they are registered, and from then on. -/
theorem started_of_register {m : Nat} (hle : n ≤ m) :
    pair.compiler < (task.timeline begun m).2.started ∧
      pair.demangler < (task.timeline begun m).2.started := by
  have hown := owned_timeline begun begins.fire n
  rw [registering] at hown
  obtain ⟨⟨-, hcompiler⟩, ⟨-, hdemangler⟩⟩ := Point.ownedFrom_pair.1 hown
  have hgrows := (Task.timeline_respects_of_le (Task.allows_grows 0)
    (respects_fire (Task.allows_grows 0) begins.fire) (Nat.zero_le begun.started) hle
    (Nat.zero_le _)).1
  exact ⟨Nat.lt_of_lt_of_le hcompiler hgrows, Nat.lt_of_lt_of_le hdemangler hgrows⟩

/-- When the processes are registered the demangler has received nothing. -/
theorem received?_of_register : (task.timeline begun n).2.received? pair.demangler = some [] := by
  cases n with
  | zero => cases registering
  | succ n =>
    have hstep := Task.timeline_step task begun n
    rw [registering] at hstep
    exact hstep.received?_of_register fun first => respects_fire (Spares.allows first) begins.fire

variable (sound : Sound stage)
include sound

/-- **From the registration on the run relays the chunks of its compiler.** -/
theorem relays_timeline {compiler : Process}
    (found : (task.timeline begun n).2.host.process? pair.compiler = some compiler) {m : Nat}
    (hlt : n < m) : (task.timeline begun m).1.Relays task.token pair compiler.program.chunks
      (task.timeline begun m).2 := by
  -- by induction on the steps since the registration, which itself makes the token take charge
  induction hlt with
  | refl =>
    have hstep := Task.timeline_step task begun n
    rw [registering] at hstep
    exact hstep.relays_of_register (nameless_timeline sound begins n).made
      (started_of_register begins registering (Nat.le_refl n)).2
      (received?_of_register begins registering) found
  | @step m hlt ih =>
    have hstep := Task.timeline_step task begun m
    have hown := owned_timeline begun begins.fire m
    have hthere := (started_of_register begins registering (Nat.le_of_lt hlt)).2
    refine hstep.relays hown hthere (respects_fire (Spares.allows _) begins.fire) ?_ ih
    intro keeps hwards
    exact (heeds_step begins.fire hstep hown keeps).wards _ _ trivial
      (nameless_timeline sound begins m) hwards

/-- **Once the token is cancelled the demangler receives nothing more.** -/
theorem received?_of_cancelled {m : Nat} (hle : n ≤ m)
    (cancelled : (task.timeline begun m).2.isCancelled task.token) {last : Nat} (hlast : m ≤ last) :
    (task.timeline begun last).2.received? pair.demangler =
      (task.timeline begun m).2.received? pair.demangler := by
  induction hlast with
  | refl => rfl
  | @step last hlast ih =>
    have hstep := Task.timeline_step task begun last
    have hown := owned_timeline begun begins.fire last
    have hthere := started_of_register begins registering (Nat.le_trans hle hlast)
    rw [← ih]
    refine hstep.unfed hown hthere.2 (respects_fire (Spares.allows _) begins.fire) ?_
    intro index chunk rest hdelivers
    obtain ⟨hrunning, -⟩ := hstep.received?_of_delivers hdelivers
    obtain ⟨other, -, hpoint, -⟩ := hdelivers
    -- a delivery is later than the registration, so the token has charge of the demangler
    have hlt : n < last := by
      refine Nat.lt_of_le_of_ne (Nat.le_trans hle hlast) ?_
      rintro rfl
      rw [registering] at hpoint
      cases hpoint
    obtain ⟨compiler, hcompiler⟩ : ∃ compiler,
        (task.timeline begun n).2.host.process? pair.compiler = some compiler :=
      ⟨_, List.getElem?_eq_getElem (started_of_register begins registering (Nat.le_refl n)).1⟩
    have hrelays := relays_timeline begins registering sound hcompiler hlt
    rw [hpoint] at hrelays
    obtain ⟨-, hwards, -⟩ := hrelays
    -- the demangler has been stopped since then, but a delivery is to a process that runs
    have hstill : (task.timeline begun last).2.isCancelled task.token :=
      Task.timeline_cancelled (respects_fire (Spares.allows 0) begins.fire) hlast cancelled
    rw [hwards.stopped hstill] at hrunning
    cases hrunning

end Relayed

/-- **What a demangler receives.** In every run of a session, whatever its programs write and whatever
scripts do at its moments, the demangler has received, at every moment since both programs have been
started, the concatenation of the first chunks of the compiler; and from a moment on at which the token
of the run is cancelled it receives nothing more. It is found so after the run.

The runs of sessions begin on sound stages: a session starts with one, and every request, every script
step and every moment of a run leaves one. -/
theorem relay_of_run :
    (∀ host workspace sink watching scripts (stage : Stage),
      (create host workspace sink watching { scripts }).1 = .ok stage → Sound stage) ∧
    ∀ stage : Stage, Sound stage →
      (∀ depth step, Sound (stage.after (perform (interference depth) step))) ∧
      (∀ steps, Sound (afterSteps steps stage)) ∧
      ∀ depth id source override task begun,
        stage.Begins (interference depth) id source override task begun →
          (∀ n, Sound (task.timeline begun n).2) ∧
          ∀ n pair, (task.timeline begun n).1 = .register pair →
            ∃ compiler, (task.timeline begun n).2.host.process? pair.compiler = some compiler ∧
              (∀ m, n ≤ m → ∃ count, (task.timeline begun m).2.received? pair.demangler =
                some (compiler.program.chunks.take count).flatten) ∧
              (∀ m, n ≤ m → (task.timeline begun m).2.isCancelled task.token → ∀ last, m ≤ last →
                (task.timeline begun last).2.received? pair.demangler =
                  (task.timeline begun m).2.received? pair.demangler) ∧
              ∃ last, ∀ m, last ≤ m →
                (stage.after (run (interference depth) id source override)).received?
                  pair.demangler = (task.timeline begun m).2.received? pair.demangler := by
  refine ⟨fun _ _ _ _ _ stage created => .of_create created, fun stage sound => ⟨sound.perform,
    sound.afterSteps, fun depth id source override task begun begins => ⟨fun n => ?_, ?_⟩⟩⟩
  · have hbegun := sound.begun id
    rw [begins.start] at hbegun
    exact hbegun.timeline begins.fire n
  · intro n pair registering
    have hthere := started_of_register begins registering (Nat.le_refl n)
    refine ⟨_, List.getElem?_eq_getElem hthere.1, fun m hle => ?_, fun m hle cancelled last hlast =>
      received?_of_cancelled begins registering sound hle cancelled hlast, ?_⟩
    · rcases Nat.eq_or_lt_of_le hle with rfl | hlt
      · exact ⟨0, received?_of_register begins registering⟩
      · exact (relays_timeline begins registering sound (List.getElem?_eq_getElem hthere.1)
          hlt).exists_take
    · -- when the run has come to its last point, only its outcome is reported
      obtain ⟨last, hlast⟩ := Task.exists_timeline_finished task begun
      refine ⟨last, fun m hle => ?_⟩
      rw [Task.timeline_eq_of_le hlast hle, begins.after_run]
      have hreported := Task.aside_reportOutcome (begun.after task.compile) source
        (begun.result (timed task.compile))
      exact unfed_of_processes _ hreported.processes

/-- The sample with a script that cancels the run as its second chunk is about to be written. -/
def cutStage : Stage :=
  { sampleStage with
    front := { scripts := [⟨"c++filt", .beforeWrite 1, [.cancelRun 0]⟩], numbered := [0] } }

/-- The run of the one source there. -/
def cutTask : Task Ledger := ⟨interference 1, 0, ⟨"/", "a", ["g++"]⟩, "a", none⟩

/-- The two processes of this run. -/
def cutPair : Pair := ⟨⟨0, 1⟩, "g++", "c++filt"⟩

/-- The run of the sample begins with what its database has for the source. -/
theorem begins_cutTask : cutStage.Begins (interference 1) 0 "a" none cutTask
    (cutStage.beginCompilation 0).2 where
  command := by decide +kernel
  start := rfl
  fire := rfl
  source := rfl
  override := rfl
  readable := by decide +kernel

/-- The sample is a stage that a session can reach. -/
theorem sound_cutStage : Sound cutStage := by
  refine ⟨.fresh rfl (by simp [cutStage, sampleStage]), ?_⟩
  intro name token hname
  cases hname

/-- The run registers its processes, delivers the first chunk, and is cancelled inside of the second
write. -/
theorem moments_cutTask :
    (cutTask.timeline (cutStage.beginCompilation 0).2 3).1 = .register cutPair ∧
      (cutTask.timeline (cutStage.beginCompilation 0).2 11).1 =
        .translating cutPair (.deliver 1 [98] []) ∧
      (cutTask.timeline (cutStage.beginCompilation 0).2 11).2.isCancelled cutTask.token ∧
      (cutTask.timeline (cutStage.beginCompilation 0).2 11).2.received? 1 = some [97] :=
  ⟨rfl, rfl, by decide +kernel, by decide +kernel⟩

/-- The run of the sample never delivers the second chunk. -/
theorem relay_of_run_sample :
    Sound cutStage ∧
      cutStage.Begins (interference 1) 0 "a" none cutTask (cutStage.beginCompilation 0).2 ∧
      ∀ last, 11 ≤ last →
        (cutTask.timeline (cutStage.beginCompilation 0).2 last).2.received? 1 = some [97] := by
  obtain ⟨hregister, -, hcancelled, hreceived⟩ := moments_cutTask
  obtain ⟨-, hruns⟩ := relay_of_run
  obtain ⟨-, -, hrun⟩ := hruns cutStage sound_cutStage
  obtain ⟨-, hrelays⟩ := hrun 1 0 "a" none cutTask _ begins_cutTask
  obtain ⟨compiler, -, -, hcut, -⟩ := hrelays 3 cutPair hregister
  refine ⟨sound_cutStage, begins_cutTask, fun last hlast => ?_⟩
  exact (hcut 11 (by decide) hcancelled last hlast).trans hreceived

end Scenario

end AsmScope

import AsmScope.Proofs.Histories
/-! # Callbacks that act on their token

A callback may itself register, withdraw, cancel and dispose, and run further callbacks that way.
What happens while an operation is performed is told event by event (`recount`); the callbacks that
run are those whose labels are noted (`fired_perform`). Once the token is cancelled, every operation
keeps it so, and what happens is prompt, however deep callbacks are nested (`prompt_recount`). The
depth is no limit if no callback is registered twice, as each level of nesting takes another one
(`le_busyIn_of_tooDeep`). -/

namespace AsmScope.Scenario

/-- The operation is one on the token with this name, which is not made anew. -/
def TokenStep.Concerns (source : String) : TokenStep → Prop
  | .create _ => False
  | .cancel name | .dispose name | .check name | .register name _ _ => name = source
  | .unregister _ => True

instance (source : String) (step : TokenStep) : Decidable (step.Concerns source) :=
  match step with
  | .create _ => isFalse id
  | .cancel name | .dispose name | .check name | .register name _ _ =>
    inferInstanceAs (Decidable (name = source))
  | .unregister _ => isTrue trivial

/-- The operation may run callbacks, and fails as they do. -/
def TokenStep.runsCallbacks : TokenStep → Bool
  | .cancel _ | .register .. => true
  | _ => false

namespace TokenBoard

variable (callbacks : Table String (List TokenStep))

/-- What a callback does. -/
def script (label : String) : List TokenStep := (callbacks.get? label).getD []

/-- Runs a callback, which may run others up to a depth. -/
def runCallback (depth : Nat) (label : String) (board : TokenBoard) : TokenResult :=
  performEach (perform callbacks depth) (script callbacks label)
    { board with fired := board.fired ++ [label] }

/-- With one more level of nesting a step runs its callbacks with the levels below. -/
theorem perform_succ (depth : Nat) (step : TokenStep) (board : TokenBoard) :
    perform callbacks (depth + 1) step board =
      performWith (runCallback callbacks depth) step board := rfl

/-- Registering a callback that is to be run at once goes as its run goes. -/
theorem performWith_register {run : String → TokenBoard → TokenResult} {board : TokenBoard}
    {source callback : String} {id : Nat} {token : CancellationToken String}
    (named : board.named? source = some (id, token)) (now : (token.register callback).2 = true)
    (handle : String) :
    ∃ handles, performWith run (.register source callback handle) board =
      ((run callback (board.setToken id (token.register callback).1)).1,
        { (run callback (board.setToken id (token.register callback).1)).2 with handles }) := by
  simp only [performWith, named, now, ↓reduceIte]
  generalize run callback (board.setToken id (token.register callback).1) = result
  obtain ⟨outcome, next⟩ := result
  cases outcome with
  | error error => exact ⟨next.handles, rfl⟩
  | ok => exact ⟨next.handles.put handle none, rfl⟩

/-! ### What happens -/

/-- What happens while one thing after another is performed, until one fails. -/
def recountEach {β : Type} (f : β → TokenBoard → TokenResult)
    (recount : β → TokenBoard → List TokenEvent) : List β → TokenBoard → List TokenEvent
  | [], _ => []
  | x :: rest, board =>
    recount x board ++
      match f x board with
      | (.ok (), board) => recountEach f recount rest board
      | (.error _, _) => []

/-- What happens while an operation is performed; `recountCallback` tells what happens while a
callback runs. -/
def recountWith (run : String → TokenBoard → TokenResult)
    (recountCallback : String → TokenBoard → List TokenEvent) (step : TokenStep)
    (board : TokenBoard) : List TokenEvent :=
  match step with
  | .create _ | .check _ => []
  | .cancel source =>
    match board.named? source with
    | none => []
    | some (id, token) =>
      .cancelled ::
        recountEach run recountCallback token.cancel.2 (board.setToken id token.cancel.1)
  | .dispose source =>
    match board.named? source with
    | none => []
    | some _ => [.disposed]
  | .register source callback _ =>
    match board.named? source with
    | none => []
    | some (id, token) =>
      .registered callback ::
        if (token.register callback).2 then
          recountCallback callback (board.setToken id (token.register callback).1)
        else []
  | .unregister handle =>
    match board.handles.get? handle with
    | some (some registration) => [.withdrawn registration.callback]
    | _ => []

/-- What happens while an operation is performed, with callbacks nested up to a depth. -/
def recount : Nat → TokenStep → TokenBoard → List TokenEvent
  | 0, _, _ => []
  | depth + 1, step, board =>
    recountWith (runCallback callbacks depth)
      (fun label board =>
        .ran label :: recountEach (perform callbacks depth) (recount depth) (script callbacks label)
          { board with fired := board.fired ++ [label] })
      step board

/-- What happens while a callback runs. -/
def recountCallback (depth : Nat) (label : String) (board : TokenBoard) : List TokenEvent :=
  .ran label :: recountEach (perform callbacks depth) (recount callbacks depth)
    (script callbacks label) { board with fired := board.fired ++ [label] }

/-- Telling what happens in a step runs its callbacks with one level less. -/
theorem recount_succ (depth : Nat) (step : TokenStep) (board : TokenBoard) :
    recount callbacks (depth + 1) step board =
      recountWith (runCallback callbacks depth) (recountCallback callbacks depth) step board := rfl

/-- The tokens after operations, some of which may have failed. -/
def after (depth : Nat) (steps : List TokenStep) (board : TokenBoard) : TokenBoard :=
  steps.foldl (fun board step => (perform callbacks depth step board).2) board

/-- What happens while operations are performed one after the other. -/
def recountAll (depth : Nat) : List TokenStep → TokenBoard → List TokenEvent
  | [], _ => []
  | step :: rest, board =>
    recount callbacks depth step board ++
      recountAll depth rest (perform callbacks depth step board).2

/-- How the operations go. -/
def outcomes (depth : Nat) : List TokenStep → TokenBoard → List (TokenStep × Except TokenError Unit)
  | [], _ => []
  | step :: rest, board =>
    (step, (perform callbacks depth step board).1) ::
      outcomes depth rest (perform callbacks depth step board).2

/-- A token that was just made under a name, and nothing else. -/
def created (source : String) : TokenBoard :=
  (performWith (fun _ board => (.ok (), board)) (.create source) {}).2

/-! ### One thing after another -/

section Each

variable {β : Type} {f : β → TokenBoard → TokenResult} {g : β → TokenBoard → List TokenEvent}

/-- What each keeps, they keep together; what happens is prompt if it is in each. -/
theorem prompt_recountEach {I : TokenBoard → Prop} {items : List β}
    (each : ∀ x ∈ items, ∀ board, I board → Prompt (g x board) ∧ I (f x board).2)
    {board : TokenBoard} (start : I board) :
    Prompt (recountEach f g items board) ∧ I (performEach f items board).2 := by
  induction items generalizing board with
  | nil => exact ⟨.nil, start⟩
  | cons x rest ih =>
    obtain ⟨hx, hrest⟩ := List.forall_mem_cons.1 each
    obtain ⟨hprompt, hkept⟩ := hx board start
    rw [recountEach, performEach]
    generalize f x board = result at hkept
    obtain ⟨outcome, board⟩ := result
    cases outcome with
    | error error =>
      rw [List.append_nil]
      exact ⟨hprompt, hkept⟩
    | ok =>
      obtain ⟨hlater, hend⟩ := ih hrest hkept
      exact ⟨hprompt.append hlater, hend⟩

/-- If they fail, one of them does, and all that happens in it happens. -/
theorem exists_of_performEach_error {I : TokenBoard → Prop} {items : List β}
    (each : ∀ x ∈ items, ∀ board, I board → I (f x board).2) {board : TokenBoard} (start : I board)
    {error : TokenError} (failed : (performEach f items board).1 = .error error) :
    ∃ x ∈ items, ∃ there, I there ∧ (f x there).1 = .error error ∧
      (g x there).Sublist (recountEach f g items board) := by
  -- induction on the steps that are left: the first one fails, or the board after it keeps `I`
  induction items generalizing board with
  | nil => cases failed
  | cons x rest ih =>
    obtain ⟨hx, hrest⟩ := List.forall_mem_cons.1 each
    have hkept := hx board start
    cases hresult : f x board with
    | mk outcome next =>
      rw [performEach, hresult] at failed
      rw [hresult] at hkept
      rw [recountEach, hresult]
      cases outcome with
      | error other =>
        refine ⟨x, List.mem_cons_self, board, start, ?_, List.sublist_append_left _ _⟩
        rw [hresult]
        exact failed
      | ok =>
        obtain ⟨y, hy, there, hthere, hfailed, hsublist⟩ := ih hrest hkept failed
        exact ⟨y, List.mem_cons_of_mem _ hy, there, hthere, hfailed,
          hsublist.trans (List.sublist_append_right _ _)⟩

/-- If every item fires what is told of it, then all of them in a row fire what is told of them in a
row. -/
theorem fired_performEach {items : List β}
    (each : ∀ x ∈ items, ∀ board, (f x board).2.fired = board.fired ++ ranIn (g x board))
    (board : TokenBoard) :
    (performEach f items board).2.fired = board.fired ++ ranIn (recountEach f g items board) := by
  induction items generalizing board with
  | nil => exact (List.append_nil _).symm
  | cons x rest ih =>
    obtain ⟨hx, hrest⟩ := List.forall_mem_cons.1 each
    have hfired := hx board
    rw [recountEach, performEach]
    generalize f x board = result at hfired
    obtain ⟨outcome, next⟩ := result
    cases outcome with
    | error => simpa using hfired
    | ok =>
      dsimp only at hfired ⊢
      rw [ih hrest, hfired, ranIn_append, List.append_assoc]

end Each

/-! ### The labels that are noted -/

/-- The callbacks that ran are those whose labels were noted. -/
theorem fired_perform (depth : Nat) (step : TokenStep) (board : TokenBoard) :
    (perform callbacks depth step board).2.fired =
      board.fired ++ ranIn (recount callbacks depth step board) := by
  -- induction on the depth: a callback runs its own steps one level below
  induction depth generalizing step board with
  | zero => exact (List.append_nil _).symm
  | succ depth ih =>
    have hrun (label : String) (board : TokenBoard) :
        (runCallback callbacks depth label board).2.fired =
          board.fired ++ ranIn (recountCallback callbacks depth label board) := by
      rw [runCallback, fired_performEach fun step _ board => ih step board, List.append_assoc]
      rfl
    rw [perform_succ, recount_succ]
    cases step with
    | create source => exact (List.append_nil _).symm
    | check source =>
      cases hnamed : board.named? source <;> simp [performWith, recountWith, hnamed, ranIn]
    | dispose source =>
      cases hnamed : board.named? source <;>
        simp [performWith, recountWith, hnamed, ranIn, TokenEvent.ran?, setToken]
    | unregister handle =>
      cases hhandle : board.handles.get? handle with
      | none => simp [performWith, recountWith, hhandle, ranIn]
      | some registration =>
        cases registration <;> simp [performWith, recountWith, hhandle, ranIn, TokenEvent.ran?]
    -- only a cancel, and a registration at a cancelled token, run callbacks
    | cancel source =>
      cases hnamed : board.named? source with
      | none => simp [performWith, recountWith, hnamed, ranIn]
      | some found =>
        obtain ⟨id, token⟩ := found
        simp only [performWith, recountWith, hnamed]
        exact fired_performEach (fun label _ board => hrun label board) _
    | register source callback handle =>
      cases hnamed : board.named? source with
      | none => simp [performWith, recountWith, hnamed, ranIn]
      | some found =>
        obtain ⟨id, token⟩ := found
        by_cases hnow : (token.register callback).2 = true
        · obtain ⟨handles, hperform⟩ := performWith_register hnamed hnow handle
          rw [hperform]
          simp only [recountWith, hnamed, hnow, ↓reduceIte]
          exact hrun callback _
        · simp only [performWith, recountWith, hnamed, if_neg hnow]
          exact (List.append_nil _).symm

/-! ### A token that is cancelled -/

section Named

variable {board : TokenBoard} {source : String} {id : Nat} {token : CancellationToken String}

/-- A name means a token if the name has its number and the token stands there. -/
theorem named?_eq_some_iff :
    board.named? source = some (id, token) ↔
      board.sources.get? source = some id ∧ board.tokens[id]? = some token := by
  simp [named?, Option.bind_eq_some_iff]

/-- Putting another token at the number of a name makes the name mean that one. -/
theorem named?_setToken (h : board.named? source = some (id, token))
    (other : CancellationToken String) :
    (board.setToken id other).named? source = some (id, other) := by
  obtain ⟨hsource, htoken⟩ := named?_eq_some_iff.1 h
  obtain ⟨hid, -⟩ := List.getElem?_eq_some_iff.1 htoken
  exact named?_eq_some_iff.2 ⟨hsource, List.getElem?_set_self hid⟩

/-- A name still means the token with its number when tokens are changed, in its changed form if the
change is to this one. -/
theorem named?_modify (h : board.named? source = some (id, token)) (other : Nat)
    (f : CancellationToken String → CancellationToken String) :
    ({ board with tokens := board.tokens.modify other f }).named? source =
      some (id, if other = id then f token else token) := by
  obtain ⟨hsource, htoken⟩ := named?_eq_some_iff.1 h
  refine named?_eq_some_iff.2 ⟨hsource, ?_⟩
  rw [List.getElem?_modify, htoken]
  rfl

end Named

/-- The token with this name is cancelled. -/
def IsCancelled (source : String) (board : TokenBoard) : Prop :=
  ∃ id token, board.named? source = some (id, token) ∧ token.cancelled = true

variable {callbacks} {source : String}

/-- What the callbacks do concerns this token. -/
def Confined (callbacks : Table String (List TokenStep)) (source : String) : Prop :=
  ∀ entry ∈ callbacks, ∀ step ∈ entry.2, step.Concerns source

/-- A step of a callback stands in the script of its label. -/
theorem exists_of_mem_script {label : String} {step : TokenStep}
    (h : step ∈ script callbacks label) : ∃ steps, (label, steps) ∈ callbacks ∧ step ∈ steps := by
  rw [script] at h
  cases hget : callbacks.get? label with
  | none =>
    rw [hget] at h
    cases h
  | some steps =>
    rw [hget] at h
    exact ⟨steps, Table.mem_of_get? hget, h⟩

/-- If scripts keep to one source, so does every step of a callback. -/
theorem concerns_of_mem_script (own : Confined callbacks source) {label : String}
    {step : TokenStep} (h : step ∈ script callbacks label) : step.Concerns source := by
  obtain ⟨steps, hentry, hstep⟩ := exists_of_mem_script h
  exact own _ hentry step hstep

/-- A callback that is registered on a cancelled token runs on a cancelled token. -/
theorem IsCancelled.register_eq {board : TokenBoard} (h : IsCancelled source board)
    (run : String → TokenBoard → TokenResult) (tell : String → TokenBoard → List TokenEvent)
    (callback handle : String) :
    ∃ there handles, IsCancelled source there ∧
      performWith run (.register source callback handle) board =
        ((run callback there).1, { (run callback there).2 with handles }) ∧
      recountWith run tell (.register source callback handle) board =
        .registered callback :: tell callback there := by
  obtain ⟨id, token, hnamed, hcancelled⟩ := h
  have htoken : token.register callback = (token, true) := if_pos hcancelled
  obtain ⟨handles, hperform⟩ := performWith_register hnamed (congrArg Prod.snd htoken) handle
  rw [htoken] at hperform
  refine ⟨board.setToken id token, handles, ?_, hperform, ?_⟩
  · exact ⟨id, token, named?_setToken hnamed _, hcancelled⟩
  · simp only [recountWith, hnamed, htoken, ↓reduceIte]

/-- A callback is as prompt as its operations are. -/
theorem prompt_runCallback (own : Confined callbacks source) {depth : Nat}
    (each : ∀ step : TokenStep, step.Concerns source → ∀ board, IsCancelled source board →
      Prompt (recount callbacks depth step board) ∧
        IsCancelled source (perform callbacks depth step board).2)
    (label : String) {board : TokenBoard} (h : IsCancelled source board) :
    Prompt (recountEach (perform callbacks depth) (recount callbacks depth)
      (script callbacks label) { board with fired := board.fired ++ [label] }) ∧
        IsCancelled source (runCallback callbacks depth label board).2 :=
  prompt_recountEach (fun step hstep => each step (concerns_of_mem_script own hstep)) h

/-- **Once the token is cancelled, it stays so, and all that happens is prompt.** -/
theorem prompt_recount (own : Confined callbacks source) (depth : Nat) (step : TokenStep)
    (concerns : step.Concerns source) (board : TokenBoard) (h : IsCancelled source board) :
    Prompt (recount callbacks depth step board) ∧
      IsCancelled source (perform callbacks depth step board).2 := by
  -- What a callback does is performed one level below, so the induction is on the depth.
  induction depth generalizing step board with
  | zero => exact ⟨.nil, h⟩
  | succ depth ih =>
    have ⟨id, token, hnamed, hcancelled⟩ := h
    rw [perform_succ, recount_succ]
    cases step with
    | create name => exact concerns.elim
    | check name =>
      obtain rfl : name = source := concerns
      simp only [performWith, recountWith, hnamed]
      exact ⟨.nil, id, token, hnamed, hcancelled⟩
    | dispose name =>
      obtain rfl : name = source := concerns
      simp only [performWith, recountWith, hnamed]
      exact ⟨.disposed .nil, id, _, named?_setToken hnamed _, hcancelled⟩
    | unregister handle =>
      cases hhandle : board.handles.get? handle with
      | none =>
        simp only [performWith, recountWith, hhandle]
        exact ⟨.nil, id, token, hnamed, hcancelled⟩
      | some registration? =>
        cases registration? with
        | none =>
          simp only [performWith, recountWith, hhandle]
          exact ⟨.nil, id, token, hnamed, hcancelled⟩
        | some registration =>
          simp only [performWith, recountWith, hhandle]
          exact ⟨.withdrawn .nil, id, _, named?_modify hnamed _ _, by split <;> exact hcancelled⟩
    | cancel name =>
      obtain rfl : name = source := concerns
      have htoken : token.cancel = (token, []) := if_pos hcancelled
      simp only [performWith, recountWith, hnamed, htoken]
      exact ⟨.cancelled .nil, id, _, named?_setToken hnamed _, hcancelled⟩
    | register name callback handle =>
      obtain rfl : name = source := concerns
      obtain ⟨there, handles, hthere, hperform, hrecount⟩ := h.register_eq
        (runCallback callbacks depth) (recountCallback callbacks depth) callback handle
      obtain ⟨hprompt, hkept⟩ := prompt_runCallback own ih callback hthere
      rw [hperform, hrecount]
      exact ⟨.registered hprompt, hkept⟩

/-! ### Nesting -/

/-- How many of the callbacks that are registered have something to do. -/
def busyIn (callbacks : Table String (List TokenStep)) (history : List TokenEvent) : Nat :=
  (registeredIn history).countP (· ∈ callbacks.keys)

/-- What is busy in two histories in a row is what is busy in the one and in the other. -/
theorem busyIn_append (front back : List TokenEvent) :
    busyIn callbacks (front ++ back) = busyIn callbacks front + busyIn callbacks back := by
  rw [busyIn, registeredIn_append, List.countP_append]
  rfl

/-- Registering a callback that has a script makes one more busy. -/
theorem busyIn_registered {callback : String} (h : callback ∈ callbacks.keys)
    (later : List TokenEvent) :
    busyIn callbacks (.registered callback :: later) = busyIn callbacks later + 1 :=
  List.countP_cons_of_pos (decide_eq_true h)

/-- A part of a history has no more that is busy than the whole. -/
theorem busyIn_le_of_sublist {history more : List TokenEvent} (h : history.Sublist more) :
    busyIn callbacks history ≤ busyIn callbacks more :=
  (h.filterMap _).countP_le

/-- A callback with a step has a script. -/
theorem mem_keys_of_mem_script {label : String} {step : TokenStep}
    (h : step ∈ script callbacks label) : label ∈ callbacks.keys := by
  obtain ⟨steps, hentry, -⟩ := exists_of_mem_script h
  exact List.mem_map_of_mem hentry

/-- Where a callback fails for the nesting, one of its operations does. -/
theorem le_busyIn_of_runCallback (own : Confined callbacks source) {depth : Nat}
    (each : ∀ step : TokenStep, step.Concerns source → ∀ board, IsCancelled source board →
      (perform callbacks depth step board).1 = .error .nestedTooDeep →
      depth ≤ busyIn callbacks (recount callbacks depth step board))
    {label : String} {board : TokenBoard} (h : IsCancelled source board)
    (failed : (runCallback callbacks depth label board).1 = .error .nestedTooDeep) :
    label ∈ callbacks.keys ∧
      depth ≤ busyIn callbacks (recountCallback callbacks depth label board) := by
  have hkept : ∀ step ∈ script callbacks label, ∀ board, IsCancelled source board →
      IsCancelled source (perform callbacks depth step board).2 := fun step hstep board h =>
    (prompt_recount own depth step (concerns_of_mem_script own hstep) board h).2
  have hstart : IsCancelled source { board with fired := board.fired ++ [label] } := h
  obtain ⟨step, hstep, there, hthere, hfailed, hsublist⟩ :=
    exists_of_performEach_error (g := recount callbacks depth) hkept hstart failed
  refine ⟨mem_keys_of_mem_script hstep, ?_⟩
  exact (each step (concerns_of_mem_script own hstep) there hthere hfailed).trans
    (busyIn_le_of_sublist (hsublist.cons _))

/-- **Each level of nesting takes a callback of its own**, which is registered where it runs. -/
theorem le_busyIn_of_tooDeep (own : Confined callbacks source) (depth : Nat) (step : TokenStep)
    (concerns : step.Concerns source) (board : TokenBoard) (h : IsCancelled source board)
    (failed : (perform callbacks depth step board).1 = .error .nestedTooDeep) :
    depth ≤ busyIn callbacks (recount callbacks depth step board) := by
  induction depth generalizing step board with
  | zero => exact Nat.zero_le _
  | succ depth ih =>
    have ⟨id, token, hnamed, hcancelled⟩ := h
    rw [perform_succ] at failed
    rw [recount_succ]
    cases step with
    | create name => exact concerns.elim
    | check name =>
      obtain rfl : name = source := concerns
      simp [performWith, hnamed, hcancelled] at failed
    | dispose name =>
      obtain rfl : name = source := concerns
      simp [performWith, hnamed] at failed
    | unregister handle =>
      cases hhandle : board.handles.get? handle with
      | none => simp [performWith, hhandle] at failed
      | some registration? => cases registration? <;> simp [performWith, hhandle] at failed
    | cancel name =>
      obtain rfl : name = source := concerns
      have htoken : token.cancel = (token, []) := if_pos hcancelled
      simp [performWith, hnamed, htoken, performEach] at failed
    | register name callback handle =>
      obtain rfl : name = source := concerns
      -- Nothing else goes a level down, and what is registered here counts as one more.
      obtain ⟨there, handles, hthere, hperform, hrecount⟩ := h.register_eq
        (runCallback callbacks depth) (recountCallback callbacks depth) callback handle
      rw [hperform] at failed
      obtain ⟨hkey, hle⟩ := le_busyIn_of_runCallback own ih hthere failed
      rw [hrecount, busyIn_registered hkey]
      exact Nat.succ_le_succ hle

/-- If none is registered twice, no more are busy than there are scripts. -/
theorem busyIn_le_length {history : List TokenEvent} (distinct : (registeredIn history).Nodup) :
    busyIn callbacks history ≤ callbacks.length := by
  rw [busyIn, List.countP_eq_length_filter]
  have hkeys : (registeredIn history).filter (· ∈ callbacks.keys) ⊆ callbacks.keys :=
    fun label hlabel => by simpa using (List.mem_filter.1 hlabel).2
  have hlength := (List.subperm_of_subset (distinct.filter _) hkeys).length_le
  rwa [Table.keys, List.length_map] at hlength

end TokenBoard

end AsmScope.Scenario

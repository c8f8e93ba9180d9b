import AsmScope.Proofs.Callbacks
/-! # Sessions of one token

A session performs one operation after another on a token that was just made. Before the first
cancellation the token holds what waits (`Waits`); the first cancellation hands it out
(`Waits.cancel`), and from then on the token is cancelled. So every operation keeps the shape of
what has happened (`Stands.step`), and with it what the shape says about the callbacks
(`callbacks_of_session`). -/

namespace AsmScope.Scenario.TokenBoard

variable {callbacks : Table String (List TokenStep)} {source : String}

/-! ### Before the first cancellation -/

/-- The token is not cancelled, and holds the callbacks that wait. -/
structure Waits (source : String) (history : List TokenEvent) (board : TokenBoard) : Prop where
  still : Still history
  named : board.sources.get? source = some 0
  tokens : board.tokens = [⟨false, waitingAfter history⟩]
  handles : ∀ handle registration, board.handles.get? handle = some (some registration) →
    registration.token = 0

/-- A token that was just made waits with no callback. -/
theorem waits_created (source : String) : Waits source [] (created source) :=
  ⟨still_nil, by simp [created, performWith, Table.put, Table.get?], rfl, nofun⟩

namespace Waits

variable {history : List TokenEvent} {board : TokenBoard}

/-- Before the first cancellation its name means it, with the callbacks that wait. -/
theorem named?_eq (h : Waits source history board) :
    board.named? source = some (0, ⟨false, waitingAfter history⟩) :=
  named?_eq_some_iff.2 ⟨h.named, by rw [h.tokens]; rfl⟩

/-- Whatever is no cancellation only changes what waits. -/
theorem step (h : Waits source history board) (depth : Nat) {step : TokenStep}
    (concerns : step.Concerns source) (other : step ≠ .cancel source) :
    Waits source (history ++ recount callbacks depth step board)
      (perform callbacks depth step board).2 := by
  cases depth with
  | zero => simpa [recount, perform] using h
  | succ depth =>
    have hnamed := h.named?_eq
    have htokens := h.tokens
    rw [perform_succ, recount_succ]
    cases step with
    | create name => exact concerns.elim
    | cancel name => exact absurd (congrArg _ concerns) other
    -- a check finds the token uncancelled and changes nothing
    | check name =>
      obtain rfl : name = source := concerns
      simp only [performWith, recountWith, hnamed, List.append_nil]
      exact h
    | dispose name =>
      obtain rfl : name = source := concerns
      simp only [performWith, recountWith, hnamed]
      refine ⟨h.still.concat rfl, h.named, ?_, h.handles⟩
      rw [waitingAfter_concat, setToken, htokens]
      rfl
    | unregister handle =>
      cases hhandle : board.handles.get? handle with
      | none =>
        simp only [performWith, recountWith, hhandle, List.append_nil]
        exact h
      | some registration? =>
        cases registration? with
        | none =>
          simp only [performWith, recountWith, hhandle, List.append_nil]
          exact h
        | some registration =>
          simp only [performWith, recountWith, hhandle]
          refine ⟨h.still.concat rfl, h.named, ?_, h.handles⟩
          rw [waitingAfter_concat, htokens, h.handles handle registration hhandle]
          rfl
    -- the new callback is the last of those that wait
    | register name callback handle =>
      obtain rfl : name = source := concerns
      have htoken : CancellationToken.register ⟨false, waitingAfter history⟩ callback =
          (⟨false, waitingAfter history ++ [callback]⟩, false) := rfl
      simp only [performWith, recountWith, hnamed, htoken, Bool.false_eq_true, ↓reduceIte]
      refine ⟨h.still.concat rfl, h.named, ?_, ?_⟩
      · rw [waitingAfter_concat, setToken, htokens]
        rfl
      -- every handle still names a registration at this token
      · intro key registration hkey
        rw [Table.get?_put] at hkey
        split at hkey
        · obtain rfl := Option.some.inj (Option.some.inj hkey)
          rfl
        · exact h.handles key registration hkey

end Waits

/-! ### The first cancellation -/

/-- Callbacks that are run on a cancelled token run one after the other, if none fails. -/
theorem runs_recountEach (own : Confined callbacks source)
    (depth : Nat) {labels : List String} {board : TokenBoard} (h : IsCancelled source board)
    (done : (performEach (runCallback callbacks depth) labels board).1 = .ok ()) :
    Runs labels (recountEach (runCallback callbacks depth) (recountCallback callbacks depth)
      labels board) ∧
      IsCancelled source (performEach (runCallback callbacks depth) labels board).2 := by
  induction labels generalizing board with
  | nil => exact ⟨.nil, h⟩
  | cons label labels ih =>
    obtain ⟨hprompt, hkept⟩ := prompt_runCallback own (prompt_recount own depth) label h
    rw [performEach] at done ⊢
    rw [recountEach]
    generalize runCallback callbacks depth label board = result at done hkept
    obtain ⟨outcome, next⟩ := result
    cases outcome with
    | error error => cases done
    | ok =>
      obtain ⟨hruns, hend⟩ := ih hkept done
      exact ⟨.cons hprompt hruns, hend⟩

namespace Waits

variable {history : List TokenEvent} {board : TokenBoard}

variable (callbacks) in
/-- The first cancellation marks the token, and then runs what waits. -/
theorem cancel_eq (h : Waits source history board) (depth : Nat) :
    ∃ there, IsCancelled source there ∧
      perform callbacks (depth + 1) (.cancel source) board =
        performEach (runCallback callbacks depth) (waitingAfter history) there ∧
      recount callbacks (depth + 1) (.cancel source) board =
        .cancelled :: recountEach (runCallback callbacks depth) (recountCallback callbacks depth)
          (waitingAfter history) there := by
  have hnamed := h.named?_eq
  have htoken : CancellationToken.cancel ⟨false, waitingAfter history⟩ =
      (⟨true, []⟩, waitingAfter history) := rfl
  refine ⟨board.setToken 0 ⟨true, []⟩, ⟨0, _, named?_setToken hnamed _, rfl⟩, ?_, ?_⟩
  · simp only [perform_succ, performWith, hnamed, htoken]
  · simp only [recount_succ, recountWith, hnamed, htoken]

/-- The nesting suffices if no callback is registered twice. -/
theorem cancel_ne_tooDeep (h : Waits source history board) (own : Confined callbacks source)
    {depth : Nat} (deep : callbacks.length ≤ depth)
    (distinct :
      (registeredIn (history ++ recount callbacks (depth + 1) (.cancel source) board)).Nodup) :
    (perform callbacks (depth + 1) (.cancel source) board).1 ≠ .error .nestedTooDeep := by
  obtain ⟨there, hthere, hperform, hrecount⟩ := h.cancel_eq callbacks depth
  intro failed
  rw [hperform] at failed
  rw [hrecount] at distinct
  obtain ⟨label, hlabel, place, hplace, hfailed, hsublist⟩ :=
    exists_of_performEach_error (g := recountCallback callbacks depth) (I := IsCancelled source)
      (fun label _ board h => (prompt_runCallback own (prompt_recount own depth) label h).2)
      hthere failed
  obtain ⟨hkey, hnested⟩ :=
    le_busyIn_of_runCallback own (le_busyIn_of_tooDeep own depth) hplace hfailed
  -- The callback that fails was registered earlier, so it is none of those below it.
  have hearlier : 0 < busyIn callbacks history :=
    List.countP_pos_iff.2 ⟨label, (waitingAfter_sublist history).subset hlabel, by simpa using hkey⟩
  have hbound : busyIn callbacks _ ≤ callbacks.length := busyIn_le_length distinct
  have hlater : busyIn callbacks _ ≤ busyIn callbacks _ :=
    busyIn_le_of_sublist (hsublist.cons .cancelled)
  rw [busyIn_append] at hbound
  omega

/-- **The first cancellation runs what waits**, one callback after the other. -/
theorem cancel (h : Waits source history board) (own : Confined callbacks source) {depth : Nat}
    (deep : callbacks.length < depth)
    (calm : (perform callbacks depth (.cancel source) board).1 = .ok () ∨
      (perform callbacks depth (.cancel source) board).1 = .error .nestedTooDeep)
    (distinct : (registeredIn (history ++ recount callbacks depth (.cancel source) board)).Nodup) :
    ∃ handed, recount callbacks depth (.cancel source) board = .cancelled :: handed ∧
      Runs (waitingAfter history) handed ∧
      IsCancelled source (perform callbacks depth (.cancel source) board).2 := by
  obtain ⟨depth, rfl⟩ := Nat.exists_eq_add_one_of_ne_zero (Nat.ne_zero_of_lt deep)
  have hdone := calm.resolve_right (h.cancel_ne_tooDeep own (Nat.le_of_lt_succ deep) distinct)
  obtain ⟨there, hthere, hperform, hrecount⟩ := h.cancel_eq callbacks depth
  rw [hperform] at hdone ⊢
  exact ⟨_, hrecount, runs_recountEach own depth hthere hdone⟩

end Waits

/-! ### Whole sessions -/

/-- What has happened to the token has the shape of a history, and the token shows it. -/
inductive Stands (source : String) (history : List TokenEvent) (board : TokenBoard) : Prop
  /-- The token waits for its first cancellation. -/
  | waits (waits : Waits source history board)
  /-- The token is cancelled. -/
  | ended (shape : Shape history) (happened : .cancelled ∈ history)
      (cancelled : IsCancelled source board)

/-- No callback fails, unless the nesting ends it: what runs callbacks succeeds. -/
def Calm (outcomes : List (TokenStep × Except TokenError Unit)) : Prop :=
  ∀ entry ∈ outcomes, entry.1.runsCallbacks = true →
    entry.2 = .ok () ∨ entry.2 = .error .nestedTooDeep

namespace Stands

variable {history : List TokenEvent} {board : TokenBoard}

/-- What has happened has the shape of a history. -/
theorem shape (h : Stands source history board) : Shape history := by
  cases h with
  | waits waits => exact .still waits.still
  | ended shape => exact shape

/-- The token is cancelled exactly if that has happened. -/
theorem isCancelled_iff (h : Stands source history board) :
    IsCancelled source board ↔ .cancelled ∈ history := by
  cases h with
  | ended shape happened cancelled => exact iff_of_true cancelled happened
  | waits waits =>
    refine iff_of_false ?_ waits.still.1
    rintro ⟨id, token, hnamed, hcancelled⟩
    rw [waits.named?_eq] at hnamed
    cases hnamed
    cases hcancelled

/-- **Every operation keeps the shape.** -/
theorem step (h : Stands source history board)
    (own : Confined callbacks source) {depth : Nat}
    (deep : callbacks.length < depth) {step : TokenStep} (concerns : step.Concerns source)
    (calm : step.runsCallbacks = true → (perform callbacks depth step board).1 = .ok () ∨
      (perform callbacks depth step board).1 = .error .nestedTooDeep)
    (distinct : (registeredIn (history ++ recount callbacks depth step board)).Nodup) :
    Stands source (history ++ recount callbacks depth step board)
      (perform callbacks depth step board).2 := by
  cases h with
  | ended shape happened cancelled =>
    obtain ⟨hprompt, hkept⟩ := prompt_recount own depth step concerns board cancelled
    exact .ended (shape.append_prompt happened hprompt) (List.mem_append_left _ happened) hkept
  | waits waits =>
    -- Before the first cancellation only it runs anything.
    by_cases hcancel : step = .cancel source
    · subst hcancel
      obtain ⟨handed, hrecount, hruns, hcancelled⟩ := waits.cancel own deep (calm rfl) distinct
      rw [hrecount]
      have hshape := Shape.cancelled waits.still hruns .nil
      rw [List.append_nil] at hshape
      exact .ended hshape (by simp) hcancelled
    · exact .waits (waits.step depth concerns hcancel)

/-- **Every session keeps the shape.** -/
theorem after (h : Stands source history board)
    (own : Confined callbacks source) {depth : Nat}
    (deep : callbacks.length < depth) {steps : List TokenStep}
    (alone : ∀ step ∈ steps, step.Concerns source)
    (calm : Calm (outcomes callbacks depth steps board))
    (distinct : (registeredIn (history ++ recountAll callbacks depth steps board)).Nodup) :
    Stands source (history ++ recountAll callbacks depth steps board)
      (after callbacks depth steps board) := by
  induction steps generalizing history board with
  | nil => simpa [recountAll, after] using h
  | cons step steps ih =>
    obtain ⟨hconcerns, halone⟩ := List.forall_mem_cons.1 alone
    obtain ⟨hcalm, hrest⟩ := List.forall_mem_cons.1 calm
    rw [recountAll, ← List.append_assoc] at distinct ⊢
    have hdistinct := distinct
    rw [registeredIn_append] at hdistinct
    exact ih (h.step own deep hconcerns hcalm hdistinct.of_append_left) halone hrest distinct

end Stands

section Append

variable (depth : Nat) (front back : List TokenStep) (board : TokenBoard)

/-- What happens in steps in a row is what happens in the first ones, and then in the rest. -/
theorem recountAll_append : recountAll callbacks depth (front ++ back) board =
    recountAll callbacks depth front board ++
      recountAll callbacks depth back (after callbacks depth front board) := by
  induction front generalizing board with
  | nil => rfl
  | cons step front ih =>
    rw [List.cons_append, recountAll, recountAll, ih, List.append_assoc]
    rfl

/-- The outcomes of steps in a row are those of the first ones, and then those of the rest. -/
theorem outcomes_append : outcomes callbacks depth (front ++ back) board =
    outcomes callbacks depth front board ++
      outcomes callbacks depth back (after callbacks depth front board) := by
  induction front generalizing board with
  | nil => rfl
  | cons step front ih => exact congrArg _ (ih _)

end Append

/-- The labels that a session notes are those of the callbacks that ran. -/
theorem fired_after (depth : Nat) (steps : List TokenStep) (board : TokenBoard) :
    (after callbacks depth steps board).fired =
      board.fired ++ ranIn (recountAll callbacks depth steps board) := by
  induction steps generalizing board with
  | nil => exact (List.append_nil _).symm
  | cons step steps ih =>
    rw [recountAll, ranIn_append, ← List.append_assoc, ← fired_perform]
    exact ih _

/-- Once the token is cancelled, a whole session is prompt. -/
theorem prompt_recountAll (own : Confined callbacks source) (depth : Nat) {steps : List TokenStep}
    (alone : ∀ step ∈ steps, step.Concerns source) {board : TokenBoard}
    (h : IsCancelled source board) : Prompt (recountAll callbacks depth steps board) := by
  induction steps generalizing board with
  | nil => exact .nil
  | cons step steps ih =>
    obtain ⟨hconcerns, halone⟩ := List.forall_mem_cons.1 alone
    obtain ⟨hprompt, hkept⟩ := prompt_recount own depth step hconcerns board h
    exact hprompt.append (ih halone hkept)

/-- The first cancellation of a session runs, in order of registration, what was registered before
it and runs at all. -/
theorem filter_ran_of_first (own : Confined callbacks source) {depth : Nat}
    (deep : callbacks.length < depth) {history : List TokenEvent} {board : TokenBoard}
    (h : Waits source history board) {steps : List TokenStep}
    (alone : ∀ step ∈ steps, step.Concerns source)
    (calm : Calm (outcomes callbacks depth (.cancel source :: steps) board))
    {whole : List TokenEvent}
    (happens : history ++ recountAll callbacks depth (.cancel source :: steps) board = whole)
    (distinct : (registeredIn whole).Nodup) :
    (ranIn (recount callbacks depth (.cancel source) board)).filter (· ∈ registeredIn history) =
      (registeredIn history).filter (.ran · ∈ whole) := by
  subst happens
  have hcalm := (List.forall_mem_cons.1 calm).1 rfl
  have hdistinct := distinct
  rw [recountAll, ← List.append_assoc, registeredIn_append] at hdistinct
  obtain ⟨handed, hrecount, hruns, hcancelled⟩ :=
    h.cancel own deep hcalm hdistinct.of_append_left
  have hprompt := prompt_recountAll own depth alone hcancelled
  rw [recountAll, hrecount, List.cons_append] at distinct ⊢
  exact filter_ran_of_cancelled h.still hruns hprompt distinct

/-- Checking the token fails exactly if it was cancelled. -/
theorem check_eq (depth : Nat) {board : TokenBoard} {history : List TokenEvent}
    (h : Stands source history board) :
    perform callbacks (depth + 1) (.check source) board =
      (if .cancelled ∈ history then .error .cancelled else .ok (), board) := by
  rw [perform_succ]
  cases h with
  | waits waits => simp [performWith, waits.named?_eq, waits.still.1]
  | ended shape happened cancelled =>
    obtain ⟨id, token, hnamed, hcancelled⟩ := cancelled
    simp [performWith, hnamed, hcancelled, happened]

/-- **Every callback runs exactly when it should.** Operations on one token, with callbacks that do
not fail and that perform such operations themselves, run no callback twice. A callback that is
registered after the first cancellation runs at once; one that is registered before runs exactly if
it is neither withdrawn nor disposed of until then. The first cancellation runs those that came
before it in order of registration, from it on the token is cancelled, and checking it fails from
then on. The depth of nesting is no limit as long as it exceeds the number of callbacks that do
something. -/
theorem callbacks_of_session (own : Confined callbacks source) {depth : Nat}
    (deep : callbacks.length < depth) {steps : List TokenStep}
    (alone : ∀ step ∈ steps, step.Concerns source)
    (calm : Calm (outcomes callbacks depth steps (created source))) {history : List TokenEvent}
    (happens : recountAll callbacks depth steps (created source) = history)
    (distinct : (registeredIn history).Nodup) :
    (after callbacks depth steps (created source)).fired = ranIn history ∧
    (ranIn history).Nodup ∧
    (∀ front callback back, history = front ++ .registered callback :: back →
      (.ran callback ∈ history ↔ .cancelled ∈ front ∨ LastsToCancel callback back) ∧
      (.cancelled ∈ front → ∃ later, back = .ran callback :: later)) ∧
    (∀ front back earlier there, steps = front ++ .cancel source :: back →
      recountAll callbacks depth front (created source) = earlier →
      after callbacks depth front (created source) = there → .cancelled ∉ earlier →
      (ranIn (recount callbacks depth (.cancel source) there)).filter (· ∈ registeredIn earlier) =
        (registeredIn earlier).filter (.ran · ∈ history)) ∧
    (∀ front back earlier there, steps = front ++ back →
      recountAll callbacks depth front (created source) = earlier →
      after callbacks depth front (created source) = there →
      (IsCancelled source there ↔ .cancelled ∈ earlier) ∧
      (perform callbacks depth (.check source) there).1 =
        if .cancelled ∈ earlier then .error .cancelled else .ok ()) ∧
    ∀ depth step board, step.Concerns source → IsCancelled source board →
      IsCancelled source (perform callbacks depth step board).2 := by
  subst happens
  -- The shape is there after every part of the session, so each promise is read where it is made.
  have hbefore {front back : List TokenStep} (hsteps : steps = front ++ back) :
      Stands source (recountAll callbacks depth front (created source))
        (after callbacks depth front (created source)) := by
    subst hsteps
    rw [outcomes_append] at calm
    rw [recountAll_append, registeredIn_append] at distinct
    exact (Stands.waits (waits_created source)).after own deep
      (fun step hstep => alone step (List.mem_append_left _ hstep))
      (fun entry hentry => calm entry (List.mem_append_left _ hentry)) distinct.of_append_left
  have hshape := (hbefore (List.append_nil steps).symm).shape
  refine ⟨fired_after depth steps _, hshape.nodup_ran distinct, ?_, ?_, ?_, ?_⟩
  · intro front callback back hregistered
    have hlate := hshape.immediate_ran hregistered
    refine ⟨?_, hlate⟩
    by_cases hfront : .cancelled ∈ front
    · obtain ⟨later, rfl⟩ := hlate hfront
      exact iff_of_true (by simp [hregistered]) (.inl hfront)
    · rw [or_iff_right hfront]
      exact hshape.ran_iff_of_early distinct hregistered hfront
  · rintro front back _ _ rfl rfl rfl hfirst
    cases hbefore rfl with
    | ended _ happened => exact absurd happened hfirst
    | waits waits =>
      rw [outcomes_append] at calm
      rw [recountAll_append] at distinct ⊢
      exact filter_ran_of_first own deep waits
        (fun step hstep => alone step (List.mem_append_right _ (List.mem_cons_of_mem _ hstep)))
        (fun entry hentry => calm entry (List.mem_append_right _ hentry)) rfl distinct
  · rintro front back _ _ hsteps rfl rfl
    refine ⟨(hbefore hsteps).isCancelled_iff, ?_⟩
    obtain ⟨depth, rfl⟩ := Nat.exists_eq_add_one_of_ne_zero (Nat.ne_zero_of_lt deep)
    rw [check_eq depth (hbefore hsteps)]
  · exact fun depth step board hconcerns h => (prompt_recount own depth step hconcerns board h).2

/-- Two callbacks that cancel, register, withdraw and dispose while they run. -/
def nestedCallbacks : Table String (List TokenStep) :=
  [("a", [.register "t" "b" "hb", .cancel "t", .unregister "ha"]),
    ("b", [.register "t" "c" "hc", .dispose "t"])]

/-- Callbacks before and after the first cancellation, one of which is withdrawn twice. -/
def nestedSteps : List TokenStep :=
  [.register "t" "a" "ha", .register "t" "d" "hd", .register "t" "e" "he", .unregister "hd",
    .unregister "hd", .cancel "t", .register "t" "f" "hf", .cancel "t", .check "t"]

/-- Callbacks that cancel, register, withdraw and dispose while they run do so each at most once. -/
theorem callbacks_of_session_sample :
    (Confined nestedCallbacks "t" ∧ nestedCallbacks.length < 3 ∧
      (∀ step ∈ nestedSteps, step.Concerns "t") ∧
      Calm (outcomes nestedCallbacks 3 nestedSteps (created "t")) ∧
      (registeredIn (recountAll nestedCallbacks 3 nestedSteps (created "t"))).Nodup) ∧
    (after nestedCallbacks 3 nestedSteps (created "t")).fired = ["a", "b", "c", "e", "f"] ∧
    (ranIn (recount nestedCallbacks 3 (.cancel "t")
      (after nestedCallbacks 3 (nestedSteps.take 5) (created "t")))).filter
        (· ∈ ["a", "d", "e"]) = ["a", "e"] := by
  have hown : Confined nestedCallbacks "t" := by
    unfold Confined
    decide +kernel
  have hcalm : Calm (outcomes nestedCallbacks 3 nestedSteps (created "t")) := by
    unfold Calm
    decide +kernel
  have halone : ∀ step ∈ nestedSteps, step.Concerns "t" := by decide +kernel
  have hdistinct :
      (registeredIn (recountAll nestedCallbacks 3 nestedSteps (created "t"))).Nodup := by
    decide +kernel
  obtain ⟨hfired, -, -, hfirst, -⟩ :=
    callbacks_of_session hown (by decide) halone hcalm rfl hdistinct
  refine ⟨⟨hown, by decide, halone, hcalm, hdistinct⟩, hfired.trans (by decide +kernel), ?_⟩
  exact (hfirst (nestedSteps.take 5) (nestedSteps.drop 6) _ _ rfl rfl rfl
    (by decide +kernel)).trans (by decide +kernel)

end AsmScope.Scenario.TokenBoard

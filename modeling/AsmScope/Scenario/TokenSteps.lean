import AsmScope.Cancellation
import AsmScope.Table
/-! # Scenarios of cancellation tokens

Operations on named tokens, with callbacks that perform operations themselves. A callback is known
by its label; running it notes the label and then performs its steps, and a step that fails ends the
callback and everything that was waiting for it. Callbacks may call each other without end, so the
depth of nesting is bounded. -/

namespace AsmScope.Scenario

/-- An operation on named tokens. -/
inductive TokenStep
  /-- Makes a fresh token under a name. -/
  | create (source : String)
  | cancel (source : String)
  | dispose (source : String)
  /-- Fails if the token was cancelled. -/
  | check (source : String)
  /-- Registers a callback, and keeps what takes the registration back. -/
  | register (source callback handle : String)
  | unregister (handle : String)
  deriving DecidableEq, Repr

/-- Why an operation fails. -/
inductive TokenError
  | cancelled
  | unknown (name : String)
  | nestedTooDeep
  deriving DecidableEq, Repr

/-- A registration that can be taken back: the token and the label of the callback. -/
structure Registration where
  /-- The number of the token. -/
  token : Nat
  /-- The label of the callback. -/
  callback : String
  deriving DecidableEq, Repr

/-- All tokens, their names, and what was kept of their registrations. -/
structure TokenBoard where
  /-- Every token that was ever made. -/
  tokens : List (CancellationToken String) := []
  /-- The number of the token that has a name now. -/
  sources : Table String Nat := []
  /-- Registrations under their handles; none where the callback was run at once. -/
  handles : Table String (Option Registration) := []
  /-- The labels of the callbacks that were run, oldest first. -/
  fired : List String := []
  deriving Repr

/-- The outcome of operations, and the tokens after them. -/
abbrev TokenResult : Type := Except TokenError Unit × TokenBoard

namespace TokenBoard

/-- Performs one thing after another until one fails. -/
def performEach {β : Type} (f : β → TokenBoard → TokenResult) : List β → TokenBoard → TokenResult
  | [], board => (.ok (), board)
  | x :: rest, board =>
    match f x board with
    | (.ok (), board) => performEach f rest board
    | (.error error, board) => (.error error, board)

/-- The token with a name. -/
def named? (board : TokenBoard) (source : String) : Option (Nat × CancellationToken String) := do
  let id ← board.sources.get? source
  let token ← board.tokens[id]?
  return (id, token)

/-- Puts a token back. -/
def setToken (board : TokenBoard) (id : Nat) (token : CancellationToken String) : TokenBoard :=
  { board with tokens := board.tokens.set id token }

/-- Performs an operation; `runCallback` runs a callback. -/
def performWith (runCallback : String → TokenBoard → TokenResult) (step : TokenStep)
    (board : TokenBoard) : TokenResult :=
  match step with
  | .create source =>
    (.ok (),
      { board with
        tokens := board.tokens ++ [CancellationToken.fresh]
        sources := board.sources.put source board.tokens.length })
  | .cancel source =>
    match board.named? source with
    | none => (.error (.unknown source), board)
    | some (id, token) =>
      let (token, callbacks) := token.cancel
      performEach runCallback callbacks (board.setToken id token)
  | .dispose source =>
    match board.named? source with
    | none => (.error (.unknown source), board)
    | some (id, token) => (.ok (), board.setToken id token.dispose)
  | .check source =>
    match board.named? source with
    | none => (.error (.unknown source), board)
    | some (_, token) => (if token.cancelled then .error .cancelled else .ok (), board)
  | .register source callback handle =>
    match board.named? source with
    | none => (.error (.unknown source), board)
    | some (id, token) =>
      let (token, now) := token.register callback
      let board := board.setToken id token
      if now then
        match runCallback callback board with
        | (.ok (), board) => (.ok (), { board with handles := board.handles.put handle none })
        | (.error error, board) => (.error error, board)
      else
        (.ok (), { board with handles := board.handles.put handle (some ⟨id, callback⟩) })
  | .unregister handle =>
    match board.handles.get? handle with
    | none => (.error (.unknown handle), board)
    | some none => (.ok (), board)
    | some (some registration) =>
      (.ok (),
        { board with
          tokens := board.tokens.modify registration.token fun token =>
            token.unregister registration.callback })

/-- Performs an operation, with callbacks nested up to a depth. -/
def perform (callbacks : Table String (List TokenStep)) :
    Nat → TokenStep → TokenBoard → TokenResult
  | 0, _, board => (.error .nestedTooDeep, board)
  | depth + 1, step, board =>
    performWith
      (fun label board =>
        performEach (perform callbacks depth) ((callbacks.get? label).getD [])
          { board with fired := board.fired ++ [label] })
      step board

/-- How deep callbacks may nest. -/
def maxDepth : Nat := 1000

/-- The names of the tokens that are cancelled, in alphabetical order. -/
def cancelledNames (board : TokenBoard) : List String :=
  ((board.sources.filter fun entry => (board.tokens[entry.2]?).any fun t => t.cancelled).map
    Prod.fst).mergeSort fun a b => !(b < a)

end TokenBoard

/-- What an operation did. -/
structure TokenReport where
  /-- Whether it failed. -/
  outcome : Except TokenError Unit
  /-- The callbacks that were run, in order. -/
  fired : List String
  /-- The names of the tokens that are cancelled now. -/
  cancelled : List String

/-- Performs operations one after the other and reports each. -/
def takeTokenSteps (callbacks : Table String (List TokenStep)) :
    List TokenStep → TokenBoard → List TokenReport
  | [], _ => []
  | step :: rest, board =>
    let (outcome, board) := TokenBoard.perform callbacks TokenBoard.maxDepth step board
    ⟨outcome, board.fired, board.cancelledNames⟩ ::
      takeTokenSteps callbacks rest { board with fired := [] }

end AsmScope.Scenario

import AsmScope.Json.Basic
import AsmScope.Output
/-! # Scenarios of output sinks

Operations on one sink. Besides the two kinds that the program uses there is the sink that accepts
no line at all; only a line buffer can be emptied. -/

namespace AsmScope.Scenario

/-- An operation on a sink. -/
inductive SinkStep
  | append (line : String)
  | requestShow
  | drain
  | takeShowRequest
  deriving DecidableEq, Repr

/-- What an operation answers. -/
inductive SinkAnswer
  | done
  | lines (lines : List String)
  | flag (value : Bool)
  deriving DecidableEq, Repr

/-- Why an operation fails. -/
inductive SinkError
  /-- The sink accepts no lines. -/
  | notAccepted
  /-- The sink keeps nothing that could be taken. -/
  | nothingKept
  deriving DecidableEq, Repr

/-- Why a line buffer cannot be made. -/
inductive CapacityError
  | notInteger
  | negative
  /-- The capacity is more than a machine word holds. -/
  | tooLarge
  deriving DecidableEq, Repr

/-- A line buffer whose capacity is given as a value; null means that all lines are kept. -/
def bufferOf : Json → Except CapacityError LineBuffer
  | .null => .ok { capacity := none }
  | .bool value => .ok { capacity := some value.toNat }
  | .int value =>
    if Int.pow 2 63 ≤ value ∨ value < -Int.pow 2 63 then .error .tooLarge
    else if value < 0 then .error .negative
    else .ok { capacity := some value.toNat }
  | _ => .error .notInteger

/-- Performs an operation; no sink stands for the one that accepts no lines. -/
def SinkStep.perform : SinkStep → Option Sink → Host →
    Except SinkError SinkAnswer × Option Sink × Host
  | .append line, some sink, host =>
    let (sink, host) := sink.append line host
    (.ok .done, some sink, host)
  | .append _, none, host => (.error .notAccepted, none, host)
  | .requestShow, sink, host => (.ok .done, sink.map Sink.requestShow, host)
  | .drain, some (.buffer buffer), host =>
    let (lines, buffer) := buffer.drain
    (.ok (.lines lines), some (.buffer buffer), host)
  | .takeShowRequest, some (.buffer buffer), host =>
    let (requested, buffer) := buffer.takeShowRequest
    (.ok (.flag requested), some (.buffer buffer), host)
  | .drain, sink, host | .takeShowRequest, sink, host => (.error .nothingKept, sink, host)

/-- Performs operations one after the other: their answers, and the sink and host after them. -/
def takeSinkSteps : List SinkStep → Option Sink → Host →
    List (Except SinkError SinkAnswer) × Option Sink × Host
  | [], sink, host => ([], sink, host)
  | step :: rest, sink, host =>
    let (answer, sink, host) := step.perform sink host
    let (answers, sink, host) := takeSinkSteps rest sink host
    (answer :: answers, sink, host)

end AsmScope.Scenario

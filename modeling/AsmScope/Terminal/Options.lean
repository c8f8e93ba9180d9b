import AsmScope.Host.Basic
import AsmScope.Text.Basic
/-! # Options of the command line

How the arguments of the program are read. Options may stand anywhere, long ones may be cut short as
long as one option is meant, and short ones may be written together. Two dashes end the options. The
first operand is the source file; whatever has no place is collected and refused at the end, while
a wrong use of an option is refused at once. -/

namespace AsmScope.Options

/-- The options. -/
inductive Switch
  | help
  | workspace
  | command
  | print
  | logFile
  | verbose
  deriving DecidableEq, Repr

/-- The long options in the order in which they are listed. -/
def longNames : List (String × Switch) :=
  [("--help", .help), ("--workspace", .workspace), ("--command", .command), ("--print", .print),
    ("--log-file", .logFile), ("--verbose", .verbose)]

/-- The short option with this letter. -/
def ofLetter? : Char → Option Switch
  | 'h' => some .help
  | 'v' => some .verbose
  | _ => none

namespace Switch

/-- Whether an option has a value. -/
def takesValue : Switch → Bool
  | .workspace | .command | .logFile => true
  | .help | .print | .verbose => false

/-- All names of an option. -/
def names : Switch → String
  | .help => "-h/--help"
  | .workspace => "--workspace"
  | .command => "--command"
  | .print => "--print"
  | .logFile => "--log-file"
  | .verbose => "-v/--verbose"

end Switch

/-- Why arguments are refused. -/
inductive UsageError
  /-- An option lacks its value. -/
  | missingValue (switch : Switch)
  /-- An option without a value was given one. -/
  | ignoredValue (switch : Switch) (value : String)
  /-- An option is cut so short that several could be meant. -/
  | ambiguous (argument : String) (candidates : List String)
  /-- Arguments have no place. -/
  | unrecognized (arguments : List String)
  deriving DecidableEq, Repr

/-- The text of a refusal. -/
def UsageError.message : UsageError → String
  | .missingValue switch => "argument " ++ switch.names ++ ": expected one argument"
  | .ignoredValue switch value =>
    "argument " ++ switch.names ++ ": ignored explicit argument " ++ Text.quoted value
  | .ambiguous argument candidates =>
    "ambiguous option: " ++ argument ++ " could match " ++ ", ".intercalate candidates
  | .unrecognized arguments => "unrecognized arguments: " ++ " ".intercalate arguments

/-- An argument by its form. -/
inductive Token
  /-- A file or a value. -/
  | operand (text : String)
  /-- The two dashes that end the options. -/
  | terminator
  /-- A long option, with the value after its equals sign. -/
  | long (switch : Switch) (value : Option String)
  /-- A short option, with the characters after its letter. -/
  | short (switch : Switch) (rest : Option (List Char))
  /-- Something that looks like an option and is none. -/
  | unknown (text : String)
  deriving DecidableEq, Repr

/-- Characters without one line feed at their end. -/
def dropLineFeed (cs : List Char) : List Char :=
  if cs.getLast? = some '\n' then cs.dropLast else cs

/-- Whether a text is a negative number in decimal notation; a line feed may follow it. -/
def isNegativeNumber : List Char → Bool
  | '-' :: rest =>
    let digits := dropLineFeed rest
    match digits.dropWhile Text.isDecimalDigit with
    | [] => !digits.isEmpty
    | '.' :: decimals => !decimals.isEmpty && decimals.all Text.isDecimalDigit
    | _ => false
  | _ => false

/-- The text before the first equals sign, and the text after it if there is one. -/
def cutAtEquals (cs : List Char) : List Char × Option (List Char) :=
  let name := cs.takeWhile (· ≠ '=')
  (name, if name.length < cs.length then some (cs.drop (name.length + 1)) else none)

/-- The form of an argument that is neither a long option nor the two dashes but begins with a dash:
a short option, a negative number, a text with a blank, or nothing known. -/
def classifyDashed (argument : String) : Token :=
  match argument.toList with
  | '-' :: letter :: rest =>
    match ofLetter? letter with
    | some switch =>
      match rest with
      | [] => .short switch none
      | '=' :: value => .short switch (some value)
      | rest => .short switch (some rest)
    | none =>
      if isNegativeNumber argument.toList || argument.toList.contains ' ' then .operand argument
      else .unknown argument
  | _ => .operand argument

/-- The form of an argument before the two dashes. -/
def classify (argument : String) : Except UsageError Token :=
  match argument.toList with
  | '-' :: '-' :: _ =>
    let (name, value) := cutAtEquals argument.toList
    let value := value.map String.ofList
    match longNames.find? fun entry => entry.1.toList = name with
    | some (_, switch) => .ok (.long switch value)
    | none =>
      match longNames.filter fun entry => name.isPrefixOf entry.1.toList with
      | [(_, switch)] => .ok (.long switch value)
      | [] =>
        .ok (if argument.toList.contains ' ' then .operand argument else .unknown argument)
      | candidates => .error (.ambiguous argument (candidates.map Prod.fst))
  | _ => .ok (classifyDashed argument)

/-- The forms of all arguments; after the two dashes everything is an operand. -/
def classifyAll : List String → Except UsageError (List Token)
  | [] => .ok []
  | argument :: rest =>
    if argument = "--" then .ok (.terminator :: rest.map .operand)
    else do
      let token ← classify argument
      return token :: (← classifyAll rest)

/-- What stands after the equals sign of an option or in the argument after it. -/
inductive Value
  | text (argument : String)
  /-- Nothing: the two dashes after an equals sign are taken away. -/
  | nothing
  deriving DecidableEq, Repr

namespace Value

/-- A value after an equals sign. -/
def ofExplicit (argument : String) : Value :=
  if argument = "--" then .nothing else .text argument

/-- The text of a value, if it is not empty. -/
def content? : Value → Option String
  | .text argument => if argument.isEmpty then none else some argument
  | .nothing => none

end Value

/-- What the arguments ask for. -/
structure Request where
  /-- The source file. -/
  file : Option String := none
  /-- The workspace folder. -/
  workspace : Option Value := none
  /-- The command in the place of the build's own. -/
  command : Option Value := none
  /-- Whether the assembly is to be printed. -/
  print : Bool := false
  /-- Where the log goes. -/
  logFile : Option Value := none
  /-- Whether the log is to be detailed. -/
  verbose : Bool := false
  deriving DecidableEq, Repr

/-- What was read of the arguments so far. -/
structure Reading where
  /-- What they ask for. -/
  request : Request := {}
  /-- Whether the place of the source file is taken. -/
  fileTaken : Bool := false
  /-- Whether help was asked for. -/
  helpWanted : Bool := false
  /-- The arguments that have no place. -/
  extra : List String := []
  deriving Repr

namespace Reading

/-- Sets an option aside that has no value. -/
def mark (reading : Reading) : Switch → Reading
  | .help => { reading with helpWanted := true }
  | .print => { reading with request.print := true }
  | .verbose => { reading with request.verbose := true }
  | _ => reading

/-- Takes the value of an option; the last one counts. -/
def assign (reading : Reading) (value : Value) : Switch → Reading
  | .workspace => { reading with request.workspace := some value }
  | .command => { reading with request.command := some value }
  | .logFile => { reading with request.logFile := some value }
  | _ => reading

/-- Takes the source file. -/
def takeFile (reading : Reading) (file : Option String) : Reading :=
  { reading with request.file := file, fileTaken := true }

/-- Sets an argument aside that has no place. -/
def reject (reading : Reading) (argument : String) : Reading :=
  { reading with extra := reading.extra ++ [argument] }

end Reading

/-- The short options written together with this one. -/
def spread : Switch → List Char → Except UsageError (List Switch)
  | switch, [] => .error (.ignoredValue switch "")
  | switch, letter :: rest =>
    match ofLetter? letter with
    | none => .error (.ignoredValue switch (String.ofList (letter :: rest)))
    | some next =>
      if rest.isEmpty then .ok [switch, next]
      else (spread next rest).map fun switches => switch :: switches

/-- Reads arguments from left to right, up to an error or the wish for help. -/
def read : Reading → List Token → Except UsageError Reading
  | reading, [] => .ok reading
  | reading, .unknown text :: rest => read (reading.reject text) rest
  | reading, [.terminator] =>
    .ok (if reading.fileTaken then reading.reject "--" else reading.takeFile none)
  | reading, .terminator :: token :: rest =>
    if reading.fileTaken then read (reading.reject "--") (token :: rest)
    else
      match token with
      | .operand text => read (reading.takeFile (some text)) rest
      | token => read (reading.takeFile none) (token :: rest)
  | reading, .operand text :: rest =>
    if reading.fileTaken then read (reading.reject text) rest
    else
      match rest with
      | .terminator :: rest => read (reading.takeFile (some text)) rest
      | rest => read (reading.takeFile (some text)) rest
  | reading, .short switch none :: rest =>
    if (reading.mark switch).helpWanted then .ok (reading.mark switch)
    else read (reading.mark switch) rest
  | reading, .short switch (some letters) :: rest => do
    let switches ← spread switch letters
    let reading := switches.foldl Reading.mark reading
    if reading.helpWanted then return reading else read reading rest
  | reading, .long switch (some value) :: rest =>
    if switch.takesValue then read (reading.assign (.ofExplicit value) switch) rest
    else .error (.ignoredValue switch value)
  | reading, [.long switch none] =>
    if switch.takesValue then .error (.missingValue switch) else .ok (reading.mark switch)
  | reading, .long switch none :: token :: rest =>
    if switch.takesValue then
      match token with
      | .operand value => read (reading.assign (.text value) switch) rest
      | _ => .error (.missingValue switch)
    else if (reading.mark switch).helpWanted then .ok (reading.mark switch)
    else read (reading.mark switch) (token :: rest)

/-- What arguments ask for: nothing but help, or a request. -/
def parse (arguments : List String) : Except UsageError (Option Request) := do
  let reading ← read {} (← classifyAll arguments)
  if reading.helpWanted then return none
  else if reading.extra.isEmpty then return some reading.request
  else throw (.unrecognized reading.extra)

end AsmScope.Options

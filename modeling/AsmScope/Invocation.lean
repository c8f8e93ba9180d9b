import AsmScope.CompileCommand
/-! # Invocations

The command that a run starts: the compiler of the entry or of the override, its arguments, the
absolute source path and the flags that ask for assembly on the standard output. Arguments are
rewritten by a table just before, the compiler itself never. -/

namespace AsmScope

/-- Arguments that are replaced before a run. -/
abbrev Rewrites : Type := Table String String

/-- A command ready to be started. -/
structure Invocation where
  /-- What is started. -/
  executable : String
  /-- Its arguments. -/
  arguments : List String
  deriving DecidableEq, Repr

namespace Invocation

/-- The flags that ask for assembly with debug information on the standard output. -/
def assemblyFlags : List String := ["-g", "-S", "-o", "-"]

/-- One argument after rewriting; a replacement is not looked up again. -/
def rewrite (rewrites : Rewrites) (argument : String) : String :=
  (rewrites.get? argument).getD argument

/-- The arguments of a run: those of the override if it has any, else those of the entry. -/
def effectiveArguments (command : CompileCommand) (override : Option (List String)) : List String :=
  match override with
  | some (first :: rest) => first :: rest
  | _ => command.arguments

/-- The invocation for a source, given by its absolute path; none if there are no arguments. -/
def build? (command : CompileCommand) (source : String) (override : Option (List String))
    (rewrites : Rewrites) : Option Invocation :=
  match effectiveArguments command override with
  | [] => none
  | compiler :: arguments =>
    some ⟨compiler, (arguments ++ source :: assemblyFlags).map (rewrite rewrites)⟩

/-- The whole argument vector. -/
def vector (invocation : Invocation) : List String := invocation.executable :: invocation.arguments

end Invocation

end AsmScope

import AsmScope.Host.Basic
/-! # Variables in a configured path

A reference is a dollar sign with a name in braces, on one line; the nearest closing brace ends it.
A template is cut into references and single literal characters, from the left, and every reference
with a known name is replaced by its value. Values are not looked at again. -/

namespace AsmScope.Variables

/-- A part of a template. -/
inductive Piece
  /-- A character that stands for itself. -/
  | literal (c : Char)
  /-- A reference to a name. -/
  | reference (name : List Char)
  deriving DecidableEq, Repr

/-- The name of the reference with which a text begins. -/
def reference? : List Char → Option (List Char)
  | '$' :: '\x7b' :: rest =>
    let name := rest.takeWhile fun c => c ≠ '\x7d' && c ≠ '\n'
    if (rest.drop name.length).head? = some '\x7d' then some name else none
  | _ => none

/-- The parts of a template after its first `skip` characters. -/
def piecesFrom : Nat → List Char → List Piece
  | _, [] => []
  | skip + 1, _ :: rest => piecesFrom skip rest
  | 0, c :: rest =>
    match reference? (c :: rest) with
    | some name => .reference name :: piecesFrom (name.length + 2) rest
    | none => .literal c :: piecesFrom 0 rest

/-- The parts of a template. -/
def pieces (template : String) : List Piece := piecesFrom 0 template.toList

/-- A part as it stands in the template. -/
def Piece.source : Piece → List Char
  | .literal c => [c]
  | .reference name => '$' :: '\x7b' :: name ++ ['\x7d']

/-- A part with its variable replaced. -/
def Piece.expand (values : Table String String) : Piece → List Char
  | .literal c => [c]
  | .reference name =>
    match values.get? (String.ofList name) with
    | some value => value.toList
    | none => Piece.source (.reference name)

/-- A template with its variables replaced. -/
def expand (values : Table String String) (template : String) : String :=
  String.ofList ((pieces template).flatMap (Piece.expand values))

/-- The variables of a source file in a workspace, both given by their absolute paths. -/
def bindings (workspace source : String) : Table String String :=
  [("workspaceFolder", workspace),
    ("workspaceFolderBasename", Path.nameOf workspace),
    ("file", source),
    ("fileWorkspaceFolder", if Path.common workspace source = workspace then workspace else ""),
    ("relativeFile", Path.relative workspace source),
    ("pathSeparator", "/")]

/-- The path that a template stands for, in normal form. -/
def resolvePath (host : Host) (template source workspace : String) : String :=
  Path.normalize
    (expand (bindings (host.absolute workspace) (host.absolute source)) template)

end AsmScope.Variables

import AsmScope.Host.Basic
import AsmScope.Json.Basic
/-! # The demangler of a compiler

Toolchains ship their demangler next to the compiler, often under the same target prefix. The search
looks into the compiler's own directory, then guesses a name from the compiler's, and falls back to
the bare demangler name. A locator remembers its answers, so later changes of the disk do not move a
compiler to another demangler. The name is a setting; one that is not a text is an answer only where
nothing has to be looked for. -/

namespace AsmScope.Demangler

/-- The parts of a compiler's name that a demangler's name may stand in for, by priority. -/
def compilerFragments : List String := ["clang++", "clang", "g++", "gcc", "c++", "cc"]

/-- The directory that is searched for a compiler: its own, or for a bare name that of the
executable on the search path. -/
def searchDirectory? (host : Host) (compiler : String) : Option String :=
  let directory := Path.directoryOf compiler
  if directory.isEmpty then
    ((host.which? compiler).map Path.directoryOf).filter fun found => !found.isEmpty
  else some directory

/-- Whether a text ends with another one. -/
def endsWith (text suffix : String) : Bool := suffix.toList.isSuffixOf text.toList

/-- The name that comes first in the order of code points. -/
def least? : List String → Option String
  | [] => none
  | name :: rest => some (rest.foldl (fun best next => if next < best then next else best) name)

/-- The entry of a directory that is the demangler: the one with exactly the wanted name, else the
first one that ends with it. -/
def searchDirectory (host : Host) (directory suffix : String) : Option String :=
  match host.tree.list host.directory directory with
  | .error _ => none
  | .ok entries =>
    let found :=
      if suffix ∈ entries then some suffix else least? (entries.filter fun e => endsWith e suffix)
    found.map fun entry => host.absolute (Path.join directory entry)

/-- The first fragment that occurs in a name. -/
def fragmentIn? (name : String) : Option String :=
  compilerFragments.find? fun fragment => Text.occursIn fragment.toList name.toList

/-- The path in which the demangler's name stands in for the compiler's, if that path is there. -/
def guess? (host : Host) (demangler compiler : String) : Option String :=
  let (stem, extension) := Path.splitExtension (Path.nameOf compiler)
  (fragmentIn? stem).bind fun fragment =>
    let name := Text.replaceFirst fragment.toList demangler.toList stem.toList
    let path := Path.join (Path.directoryOf compiler) (String.ofList name ++ extension)
    if host.pathExists path then some path else none

/-- The demangler for a compiler, on the host as it is. -/
def find (host : Host) (demangler compiler : String) : String :=
  let suffix := demangler ++ (Path.splitExtension (Path.nameOf compiler)).2
  let nearby := (searchDirectory? host compiler).bind fun d => searchDirectory host d suffix
  (nearby <|> guess? host demangler compiler).getD demangler

/-- Finds demanglers, and remembers what it found. The name is taken from the settings, where it may
be something other than a text. -/
structure Locator where
  /-- The name of the demangler, as configured. -/
  name : Json := .text "c++filt"
  /-- What was found for each compiler. -/
  found : Table String Json := []
  deriving Repr

/-- The demangler name is needed as a text, and is none. -/
inductive LocateError
  | nameNotText
  deriving DecidableEq, Repr

/-- Whether a search for this compiler needs the text of the demangler's name before it falls back
to the name itself. -/
def needsText (host : Host) (compiler : String) : Bool :=
  (searchDirectory? host compiler).isSome ||
    (fragmentIn? (Path.splitExtension (Path.nameOf compiler)).1).isSome

namespace Locator

/-- The demangler for a compiler on the host as it is. -/
def search (locator : Locator) (host : Host) (compiler : String) : Except LocateError Json :=
  match locator.name with
  | .text name => .ok (.text (find host name compiler))
  | name => if needsText host compiler then .error .nameNotText else .ok name

/-- Keeps an answer; a null is no answer to keep. -/
def remember (locator : Locator) (compiler : String) : Json → Locator
  | .null => locator
  | answer => { locator with found := locator.found.put compiler answer }

/-- The demangler for a compiler: what was found the first time, or what is found now. -/
def locate (locator : Locator) (host : Host) (compiler : String) :
    Except LocateError Json × Locator :=
  match locator.found.get? compiler with
  | some answer => (.ok answer, locator)
  | none =>
    match locator.search host compiler with
    | .ok answer => (.ok answer, locator.remember compiler answer)
    | .error error => (.error error, locator)

end Locator

end AsmScope.Demangler

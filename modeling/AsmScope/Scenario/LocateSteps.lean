import AsmScope.Engine.Registry
/-! # Steps of the world

What happens outside the program between its requests: files are written and deleted, the clock and
the working directory change, and the events of watched directories are delivered. Writing and
deleting deliver no events by themselves. The simplest part of the program on which this has an
effect is the search for demanglers: one locator is asked for those of compilers while files, the
search path and the working directory change. -/

namespace AsmScope

/-- Something that happens outside the program. -/
inductive HostStep
  | write (path : String) (file : File)
  | delete (path : String)
  | setClock (now : Number)
  | changeDirectory (path : String)
  | event (happened : FileEvent)
  deriving Repr

namespace HostStep

/-- The location of a path that is named in normal form. -/
def locationOf (path : String) : Location := FileTree.locationOf (Path.normalize path)

/-- What a step does to the host; an event does nothing by itself. -/
def apply (host : Host) : HostStep → Host
  | .write path file => { host with tree := host.tree.place (locationOf path) file }
  | .delete path => { host with tree := host.tree.remove (locationOf path) }
  | .setClock now => { host with now }
  | .changeDirectory path => { host with directory := host.absolute path }
  | .event _ => host

/-- What a step does to an engine; `onSource` is what the front does about its source file. -/
def perform {α : Type} (onSource : Engine α → Engine α) : HostStep → Action α Unit
  | .event happened => Engine.deliver onSource happened
  | step => modify fun engine => { engine with host := step.apply engine.host }

end HostStep

namespace Scenario

/-- A step with a locator. -/
inductive LocateStep
  | host (step : HostStep)
  | locate (compiler : String)
  deriving Repr

/-- Performs steps one after the other: for each, the demangler if one was asked for. -/
def takeLocateSteps : List LocateStep → Demangler.Locator → Host →
    List (Except Demangler.LocateError (Option Json))
  | [], _, _ => []
  | .host step :: rest, locator, host => .ok none :: takeLocateSteps rest locator (step.apply host)
  | .locate compiler :: rest, locator, host =>
    let (result, locator) := locator.locate host compiler
    result.map some :: takeLocateSteps rest locator host

end Scenario

end AsmScope

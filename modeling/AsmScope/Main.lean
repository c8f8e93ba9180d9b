import AsmScope.Terminal.Program
/-! # The executable

Takes a picture of the machine as far as a request looks at it, runs the program on it, and prints
what the program leaves behind. The picture holds files and directories; starting programs is up to
the host, and this one offers none. -/

namespace AsmScope

/-- The host with what stands at a path, if something does. -/
def lookAt (host : Host) (path : String) : IO Host := do
  let location := FileTree.locationOf (host.absolute path)
  try
    let content ← IO.FS.readBinFile path
    return { host with tree := host.tree.place location { content := content.toList } }
  catch _ => return host

/-- The machine as far as a request looks at it. -/
def currentHost (arguments : List String) : IO Host := do
  let directory := (← IO.currentDir).toString
  let home := (← IO.getEnv "HOME").getD "/"
  let path := (← IO.getEnv "PATH").getD "/bin:/usr/bin"
  let parents (p : String) : List Location :=
    FileTree.ancestors (FileTree.locationOf p) ++ [FileTree.locationOf p]
  let host : Host :=
    { directory
      home
      environment := [("HOME", home), ("PATH", path)]
      tree := FileTree.addDirectories {} (parents directory ++ parents home) }
  let request := match Options.parse arguments with
    | .ok (some request) => request
    | _ => {}
  let workspace := (request.workspace.bind Options.Value.content?).getD directory
  let settings := (Settings.defaultFolder host).toOption.map Settings.filePath
  let paths := request.file.toList ++ Path.join workspace Engine.indexName :: settings.toList
  paths.foldlM lookAt host

end AsmScope

/-- Runs the program on the arguments of the process. -/
def main (arguments : List String) : IO UInt32 := do
  let host ← AsmScope.currentHost arguments
  match AsmScope.Terminal.run host arguments .closed with
  | .ok exit =>
    IO.print exit.output
    IO.eprint exit.errors
    return UInt32.ofNat (exit.status.getD 0)
  | .error failure =>
    IO.eprintln failure.message
    return 1

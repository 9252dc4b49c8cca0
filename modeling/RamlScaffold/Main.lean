import RamlScaffold.Code.Check
import RamlScaffold.Command.Run

/-!
The program. The files that a command can ask for are read first, the command runs on them as a
value, and what it leaves behind is written back.
-/

namespace RamlScaffold.Program

/-- The location of a path, by its names alone, and all the directories on the way there. -/
def trace (fs : FileSystem) (path : String) : Location × List Location :=
  (Text.splitOn '/' path).foldl step (fs.origin path, [])
where
  step : Location × List Location → String → Location × List Location
    | (l, passed), name =>
      if name == "" || name == "." then (l, passed)
      else if name == ".." then (l.dropLast, l :: passed)
      else (l ++ [name], l :: passed)

/-- The error code of the operating system for reading a directory as a file. -/
def directoryCode : UInt32 := 21

def namesOf (path : String) : Location := (Text.splitOn '/' path).filter (· != "")

/-- Puts an entry where a path really leads, and a link where its names lead if not there. -/
def place (fs : FileSystem) (l real : Location) (put : FileSystem → Location → FileSystem) :
    FileSystem :=
  if real == l then put fs l
  else (put (fs.putDirectories real.dropLast) real).putLink l ("/" ++ Text.joinWith "/" real)

/-- Where a path really leads, or else where its names do. -/
def realLocation (path : String) (l : Location) : IO Location := do
  try
    return namesOf (← IO.FS.realPath path).toString
  catch _ => return l

def fetch (fs : FileSystem) (path : String) : IO FileSystem := do
  let (l, passed) := trace fs path
  let reached := passed.foldl FileSystem.putDirectory fs
  let real ← realLocation path l
  try
    let bytes ← IO.FS.readBinFile path
    let content := match String.fromUTF8? bytes with
      | some text => Content.text text
      | none => .binary
    return place reached l real fun fs l => fs.putFile l content
  catch
    | .inappropriateType _ code _ =>
      return if code == directoryCode then place reached l real FileSystem.putDirectory else fs
    | _ => return fs

/-- Adds the files that directives can find, and those that they ask for in turn. -/
partial def fetchIncluded (directory : String) (fs : FileSystem) (seen : List String) :
    List String → IO FileSystem
  | [] => return fs
  | name :: rest => do
    if seen.contains name then fetchIncluded directory fs seen rest
    else
      let mut fs := fs
      let mut asked := []
      for path in Include.candidates directory name do
        fs ← fetch fs path
        if let .ok text := fs.read path then
          asked := asked ++ Include.directivesOfText (Text.expandTabs Include.tabWidth text)
      fetchIncluded directory fs (name :: seen) (asked ++ rest)

def fetchSpec (fs : FileSystem) (path : String) : IO FileSystem := do
  let directory := Spec.projectDirectory path
  let fs ← fetch (← fetch fs path) (Path.join directory Settings.fileName)
  match fs.read path with
  | .ok text => fetchIncluded directory fs [] (Include.directivesOfText text)
  | .error _ => return fs

def fetchFor (fs : FileSystem) : Command → IO FileSystem
  | .generate c => do
    (c.settingsFile.toList ++ [c.output]).foldlM fetch (← c.specs.foldlM fetchSpec fs)
  | .inspect spec => fetchSpec fs spec
  | .check c => do c.settingsFile.toList.foldlM fetch (← c.specs.foldlM fetchSpec fs)

/-- Writes back the files that a command made or changed. -/
def store (before after : FileSystem) : IO Unit := do
  for (l, content) in after.files do
    if let .text text := content then
      if before.content? l != some content then
        IO.FS.createDirAll ("/" ++ Text.joinWith "/" l.dropLast)
        IO.FS.writeFile ("/" ++ Text.joinWith "/" l) text

def execute (command : Command) : IO UInt32 := do
  let current := namesOf (← IO.currentDir).toString
  let fs ← fetchFor (.empty current) command
  let effect := command.run ⟨Code.check, fun spec settings => Client.generate settings spec⟩ fs
  store fs effect.fileSystem
  effect.printed.forM (IO.println ·)
  effect.reported.forM (IO.eprintln ·)
  match effect.failure with
  | none => return 0
  | some message =>
    IO.eprintln ("Error: " ++ message)
    return 1

end RamlScaffold.Program

open RamlScaffold in
def main (arguments : List String) : IO UInt32 := do
  match Command.ofArguments arguments with
  | .ok command => Program.execute command
  | .error .help =>
    IO.println Command.usage
    return 0
  | .error fault =>
    IO.eprintln fault.message
    return 2

import RamlScaffold.Storage.Path

/-!
A file system as a value: finitely many files, directories and symbolic links by their location,
and the current directory. Paths are walked name by name, so a step upwards needs the directory
before it, and a name after a file is an error. A link is walked as the path that it holds, from the
directory that it is in, and the walk gives up after forty links.
-/

namespace RamlScaffold

/-- The names from the root to a file or directory: its canonical path. -/
abbrev Location := List String

inductive Content where
  | text (s : String)
  /-- Bytes that are no text. -/
  | binary
deriving DecidableEq, Repr

inductive PathFault where
  | notFound
  | notDirectory
  | isDirectory
  | exists
  | nameTooLong
  | tooManyLinks
  | notText
  /-- The character zero stands in the path. -/
  | embeddedZero
deriving DecidableEq, Repr

def PathFault.message : PathFault → String
  | .notFound => "No such file or directory (os error 2)"
  | .notDirectory => "Not a directory (os error 20)"
  | .isDirectory => "Is a directory (os error 21)"
  | .exists => "File exists (os error 17)"
  | .nameTooLong => "File name too long (os error 36)"
  | .tooManyLinks => "Too many levels of symbolic links (os error 40)"
  | .notText => "stream did not contain valid UTF-8"
  | .embeddedZero => "file name contained an unexpected NUL byte"

structure FileSystem where
  files : List (Location × Content)
  directories : List Location
  links : List (Location × String)
  current : Location
deriving Repr

namespace FileSystem

def empty (current : Location) : FileSystem :=
  ⟨[], enclosing current, [], current⟩
where
  /-- The location and all that enclose it. -/
  enclosing (l : Location) : List Location := (List.range (l.length + 1)).map l.take

def isDirectory (fs : FileSystem) (l : Location) : Bool := l.isEmpty || fs.directories.contains l

def content? (fs : FileSystem) (l : Location) : Option Content :=
  (fs.files.find? (·.1 == l)).map (·.2)

def link? (fs : FileSystem) (l : Location) : Option String :=
  (fs.links.find? (·.1 == l)).map (·.2)

def occupied (fs : FileSystem) (l : Location) : Bool :=
  fs.isDirectory l || (fs.content? l).isSome || (fs.link? l).isSome

def maxName : Nat := 255

def pathLimit : Nat := 4096

/-- Why a path cannot lead anywhere, whatever the files are. -/
def pathFault? (path : String) : Option PathFault :=
  if path.toList.contains '\x00' then some .embeddedZero
  else if path.utf8ByteSize ≥ pathLimit then some .nameTooLong
  else if path == "" then some .notFound
  else none

abbrev Walk := Location → List String → Except PathFault Location

def originIn (directory : Location) (path : String) : Location :=
  if Path.isAbsolute path then [] else directory

/-- Walks names from a location, with `follow` for what a link holds and the names after it. Empty
names and points stay where they are, two points go up. Where nothing has the last name, `absent`
decides. -/
def walkWith (fs : FileSystem) (absent : Location → Except PathFault Location)
    (follow : Walk) : Walk
  | l, [] => .ok l
  | l, name :: rest =>
    if !fs.isDirectory l then .error .notDirectory
    else if name == "" || name == "." then walkWith fs absent follow l rest
    else if name == ".." then walkWith fs absent follow l.dropLast rest
    else if name.utf8ByteSize > maxName then .error .nameTooLong
    else
      match fs.link? (l ++ [name]) with
      | some path => follow (originIn l path) (Text.splitOn '/' path ++ rest)
      | none =>
        if fs.occupied (l ++ [name]) then walkWith fs absent follow (l ++ [name]) rest
        else if rest.isEmpty then absent (l ++ [name])
        else .error .notFound

/-- Walks names from a location through a limited number of links. -/
def walk (fs : FileSystem) (absent : Location → Except PathFault Location) : Nat → Walk
  | 0 => fs.walkWith absent fun _ _ => .error .tooManyLinks
  | links + 1 => fs.walkWith absent (walk fs absent links)

def maxLinks : Nat := 40

/-- The existing location that names lead to. -/
def walkExisting (fs : FileSystem) : Walk := fs.walk (fun _ => .error .notFound) maxLinks

def origin (fs : FileSystem) (path : String) : Location := originIn fs.current path

def locate (fs : FileSystem) (path : String) : Except PathFault Location :=
  match pathFault? path with
  | some fault => .error fault
  | none => fs.walkExisting (fs.origin path) (Text.splitOn '/' path)

def reaches (fs : FileSystem) (path : String) : Bool :=
  match fs.locate path with
  | .ok _ => true
  | .error _ => false

def hasDirectory (fs : FileSystem) (path : String) : Bool :=
  match fs.locate path with
  | .ok l => fs.isDirectory l
  | .error _ => false

def hasFile (fs : FileSystem) (path : String) : Bool :=
  match fs.locate path with
  | .ok l => !fs.isDirectory l
  | .error _ => false

def read (fs : FileSystem) (path : String) : Except PathFault String :=
  match fs.locate path with
  | .error fault => .error fault
  | .ok l =>
    if fs.isDirectory l then .error .isDirectory
    else
      match fs.content? l with
      | some (.text s) => .ok s
      | some .binary => .error .notText
      | none => .error .notFound

def putFile (fs : FileSystem) (l : Location) (content : Content) : FileSystem :=
  { fs with files := fs.files.filter (·.1 != l) ++ [(l, content)] }

/-- Puts a link at a location that is free. -/
def putLink (fs : FileSystem) (l : Location) (path : String) : FileSystem :=
  if fs.occupied l then fs else { fs with links := fs.links ++ [(l, path)] }

def putDirectory (fs : FileSystem) (l : Location) : FileSystem :=
  if fs.isDirectory l then fs else { fs with directories := fs.directories ++ [l] }

def putDirectories (fs : FileSystem) (l : Location) : FileSystem :=
  (List.range (l.length + 1)).foldl (fun fs n => fs.putDirectory (l.take n)) fs

/-- Where a new entry with the given path would go: the enclosing location and the name. -/
def locateNew (fs : FileSystem) (path : String) : Except PathFault (Location × String) :=
  match pathFault? path with
  | some fault => .error fault
  | none =>
    let names := (Text.splitOn '/' path).reverse.dropWhile (· == "") |>.reverse
    match names.getLast? with
    | none => .error .exists
    | some name =>
      match fs.walkExisting (fs.origin path) names.dropLast with
      | .error fault => .error fault
      | .ok l => if fs.isDirectory l then .ok (l, name) else .error .notDirectory

def makeDirectory (fs : FileSystem) (path : String) : Except PathFault FileSystem :=
  match fs.locateNew path with
  | .error fault => .error fault
  | .ok (l, name) =>
    if name == "." || name == ".." then .error .exists
    else if name.utf8ByteSize > maxName then .error .nameTooLong
    else if fs.occupied (l ++ [name]) then .error .exists
    else .ok (fs.putDirectory (l ++ [name]))

/-- Makes a directory and those that enclose it, `fuel` levels at most. -/
def makeDirectories : Nat → FileSystem → String → Except PathFault FileSystem
  | 0, _, _ => .error .notFound
  | fuel + 1, fs, path =>
    if path == "" then .ok fs
    else
      match fs.makeDirectory path with
      | .ok fs => .ok fs
      | .error .notFound =>
        match Path.parent? path with
        | none => .error .notFound
        | some parent =>
          match makeDirectories fuel fs parent with
          | .error fault => .error fault
          | .ok fs =>
            match fs.makeDirectory path with
            | .ok fs => .ok fs
            | .error fault => if fs.hasDirectory path then .ok fs else .error fault
      | .error fault => if fs.hasDirectory path then .ok fs else .error fault

/-- The location of the file that is written at a path, new or old. -/
def locateFile (fs : FileSystem) (path : String) : Except PathFault Location :=
  match pathFault? path with
  | some fault => .error fault
  | none => fs.walk .ok maxLinks (fs.origin path) (Text.splitOn '/' path)

def write (fs : FileSystem) (path text : String) : Except PathFault FileSystem :=
  match fs.locateFile path with
  | .error fault => .error fault
  | .ok l => if fs.isDirectory l then .error .isDirectory else .ok (fs.putFile l (.text text))

end FileSystem

end RamlScaffold

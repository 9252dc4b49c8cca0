import RamlScaffold.Text.Basic
import RamlScaffold.Text.Case

/-!
Paths as texts: joining, and the parts that a path is made of. Nothing here looks at files. Names
are separated by slashes; repeated slashes and single points inside a path do not count as names.
-/

namespace RamlScaffold.Path

inductive Component where
  | root
  /-- The current directory, which only counts at the start of a path. -/
  | here
  | up
  | name (text : String)
deriving DecidableEq, Repr

def isAbsolute (path : String) : Bool := path.toList.head? == some '/'

/-- `part` seen from `base`: an absolute part replaces the base, and an empty part leaves a slash
behind it. -/
def join (base part : String) : String :=
  if isAbsolute part then part
  else if base == "" || base.toList.getLast? == some '/' then base ++ part
  else base ++ "/" ++ part

def components (path : String) : List Component :=
  let pieces := Text.splitOn '/' path
  let body := pieces.filter fun p => p != "" && p != "."
  let first : List Component :=
    if isAbsolute path then [.root]
    else if pieces.head? == some "." then [.here]
    else []
  first ++ body.map fun p => if p == ".." then .up else .name p

/-- The text without its last component, whatever slashes and points follow it. -/
def dropLastName (path : List Char) : List Char :=
  let pieces := (Text.cutAt '/' path).reverse
  let idle (p : List Char) : Bool := p.isEmpty || p == ['.']
  let kept := ((pieces.dropWhile idle).drop 1).dropWhile idle
  kept.reverse.intersperse ['/'] |>.flatten

/-- The path of the enclosing directory; none for the root and for the empty path. -/
def parent? (path : String) : Option String :=
  let cs := path.toList
  match components path with
  | [] => none
  | [.root] => none
  | [.here] => some ""
  | .root :: _ =>
    let shorter := dropLastName (cs.dropWhile (· == '/'))
    some (.ofList ('/' :: shorter))
  | [.here, _] => some "."
  | _ => some (.ofList (dropLastName cs))

/-- The last name of a path; none when the path ends in a step upwards or has no names. -/
def fileName? (path : String) : Option String :=
  match (components path).getLast? with
  | some (.name text) => some text
  | _ => none

/-- A file name cut at its last point; a point at the very start does not count. -/
def splitName (name : String) : String × Option String :=
  let cs := name.toList
  let tail := (cs.reverse.takeWhile (· != '.')).reverse
  let front := (cs.take (cs.length - tail.length)).dropLast
  if tail.length == cs.length || front.isEmpty then (name, none)
  else (.ofList front, some (.ofList tail))

def stem? (path : String) : Option String := (fileName? path).map fun n => (splitName n).1

def extension? (path : String) : Option String := (fileName? path).bind fun n => (splitName n).2

end RamlScaffold.Path

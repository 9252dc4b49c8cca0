import RamlScaffold.Code.Identifier
import RamlScaffold.Naming.Words

/-!
The spellings of a group's name. They are derived once, and every artifact that refers to the
group uses these.
-/

namespace RamlScaffold

structure GroupName where
  /-- The name as it stands in the URI. -/
  raw : String
  /-- The name of the module, package, table and blueprint. -/
  snake : String
  /-- The stem of class names. -/
  pascal : String
  /-- The accessor on the aggregate client. -/
  camel : String
deriving DecidableEq, Repr

namespace GroupName

/-- Members of the aggregate client that an accessor must not shadow. -/
def aggregateMembers : List String := ["close", "_base", "__init__", "__enter__", "__exit__"]

def derive (raw : String) : GroupName :=
  let snake := Code.identifier (Naming.snake raw) "resource"
  { raw, snake
    pascal := Code.nonKeyword (Naming.pascal snake)
    camel := Code.avoid aggregateMembers (Code.nonKeyword (Naming.camel snake)) }

end GroupName

end RamlScaffold

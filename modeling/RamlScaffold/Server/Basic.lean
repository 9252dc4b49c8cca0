import RamlScaffold.Artifact.Settings
import RamlScaffold.Artifact.Source
import RamlScaffold.Route.Group

/-!
What the artifacts of a server are made from.
-/

namespace RamlScaffold.Server

structure Context where
  settings : ServerSettings
  spec : Specification
  groups : List Group

namespace Context

/-- The context of a description: its groups are those below the version. -/
def ofSpecification (settings : ServerSettings) (spec : Specification) : Context :=
  ⟨settings, spec, Group.ofSpecification spec settings.apiVersion⟩

def appTitle (c : Context) : String := c.settings.appTitle

/-- Whether an operation asks for a token. -/
def guards (c : Context) (op : Operation) : Bool := op.secured && c.settings.includeAuth

end Context

/-- Whether no field is called `id`, so that the model gets a key of its own. -/
def needsKey (g : Group) : Bool := !g.fields.any (·.primaryKey)

end RamlScaffold.Server

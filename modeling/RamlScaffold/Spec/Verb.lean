import RamlScaffold.Text.Case

/-!
The request verbs that a resource can declare.
-/

namespace RamlScaffold

inductive Verb where
  | get
  | post
  | put
  | delete
  | patch
  | head
  | options
deriving DecidableEq, Repr

namespace Verb

def all : List Verb := [.get, .post, .put, .delete, .patch, .head, .options]

def upper : Verb → String
  | .get => "GET"
  | .post => "POST"
  | .put => "PUT"
  | .delete => "DELETE"
  | .patch => "PATCH"
  | .head => "HEAD"
  | .options => "OPTIONS"

def lower : Verb → String
  | .get => "get"
  | .post => "post"
  | .put => "put"
  | .delete => "delete"
  | .patch => "patch"
  | .head => "head"
  | .options => "options"

/-- The verb that a key names, whatever the case of its letters. -/
def parse? (key : String) : Option Verb :=
  all.find? fun verb => Text.sameIgnoringCase verb.upper key

end Verb

end RamlScaffold

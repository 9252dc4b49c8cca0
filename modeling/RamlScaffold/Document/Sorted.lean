import RamlScaffold.Document.Value

/-!
Mappings in byte order of their keys. For texts in UTF-8 that is the order of code points.
-/

namespace RamlScaffold

def textBefore : List Char → List Char → Bool
  | [], [] => false
  | [], _ :: _ => true
  | _ :: _, [] => false
  | a :: as, b :: bs => a.toNat < b.toNat || (a == b && textBefore as bs)

namespace Fields

variable {α : Type}

/-- Sets a key in a mapping that is in order; a key that is present is overwritten. -/
def putSorted (key : String) (value : α) : Fields α → Fields α
  | [] => [(key, value)]
  | (k, v) :: rest =>
    if k == key then (key, value) :: rest
    else if textBefore key.toList k.toList then (key, value) :: (k, v) :: rest
    else (k, v) :: putSorted key value rest

/-- Sets a key in a mapping that is in order, unless it is present. -/
def putIfAbsent (key : String) (value : α) (fields : Fields α) : Fields α :=
  if (get? key fields).isSome then fields else putSorted key value fields

/-- The entries in order of their keys; of equal keys the last one counts. -/
def sorted (entries : List (String × α)) : Fields α :=
  entries.foldl (fun fields e => putSorted e.1 e.2 fields) []

end Fields

end RamlScaffold

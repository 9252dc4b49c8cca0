/-!
Names that have not been handed out before. The first request for a name gets the name itself;
later ones get it with the smallest number that makes it new. The numbers have no end here; what
becomes of a counter of 32 bits is a matter of the requests that are served with it.
-/

namespace RamlScaffold.Naming

def numbered (base : String) (i : Nat) : String := base ++ "_" ++ toString i

/-- The first of `base_i`, `base_(i+1)`, … that is not in `seen`, after at most `fuel` that are. -/
def firstNumbered (seen : List String) (base : String) : Nat → Nat → String
  | 0, i => numbered base i
  | fuel + 1, i =>
    if seen.contains (numbered base i) then firstNumbered seen base fuel (i + 1)
    else numbered base i

/-- A name that is not in `seen`: the base, or the base with the smallest number that is new. Of
the first `n + 1` numbers at least one is new when `n` names are taken. -/
def fresh (seen : List String) (base : String) : String :=
  if seen.contains base then firstNumbered seen base seen.length 1 else base

/-- Names for the bases in turn, each new to `seen` and to those before it. -/
def freshAll (seen : List String) : List String → List String
  | [] => []
  | base :: rest => fresh seen base :: freshAll (fresh seen base :: seen) rest

end RamlScaffold.Naming

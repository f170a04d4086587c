/-!
# Values from outside

What a request, an environment variable or a stored document hands over before
anything is known about its shape (`Value`).
-/

namespace RepoOrbit

/-- A value of any shape. The entries of a map keep their order. -/
inductive Value where
  | null
  | bool (b : Bool)
  | int (n : Int)
  | number (x : Float)
  | text (s : String)
  | list (items : List Value)
  | map (entries : List (String × Value))
  deriving Inhabited

end RepoOrbit

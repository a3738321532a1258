import VbaWorkbench.Binary64.Basic

namespace VbaWorkbench.Toml

/-- What may stand behind a key. -/
inductive Value where
  | text (t : Text)
  | integer (n : Int)
  | number (x : Binary64)
  | boolean (b : Bool)
  | list (items : List Value)
  | table (entries : List (Text × Value))
deriving Repr

end VbaWorkbench.Toml

/-!
# TOML values

The values of a TOML document. A date or a time is kept as its normal text.
-/
namespace CounterCoordinator

inductive Toml where
  | string (text : String)
  | integer (n : Int)
  | float (x : Float)
  | boolean (b : Bool)
  | moment (text : String)
  | array (items : List Toml)
  | table (entries : List (String × Toml))
deriving Inhabited

end CounterCoordinator

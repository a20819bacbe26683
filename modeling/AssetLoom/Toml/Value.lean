/-!
# TOML values
-/

namespace AssetLoom.Toml

/-- A value of a TOML document. Floats and dates are kept as they are written. -/
inductive Value
  | string (text : String)
  | integer (n : Int)
  | float (written : String)
  | boolean (b : Bool)
  | datetime (written : String)
  | array (items : List Value)
  /-- The entries of a table, in order. -/
  | table (entries : List (String × Value))
  deriving Repr, Inhabited

/-- The name of the type of a value. -/
def Value.typeName : Value → String
  | .string _ => "string"
  | .integer _ => "integer"
  | .float _ => "float"
  | .boolean _ => "boolean"
  | .datetime _ => "datetime"
  | .array _ => "array"
  | .table _ => "table"

end AssetLoom.Toml

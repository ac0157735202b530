/-!
# Values of the exchange format

A value is a constant, a number, a text, a list of values or a list of named values. A number is
kept as it was written, and the names of an object may repeat.
-/

namespace Vendoring

/-- A value of the exchange format. -/
inductive Json where
  | null
  | boolean (value : Bool)
  | number (text : List Char)
  | string (text : List Char)
  | array (items : List Json)
  | object (fields : List (List Char × Json))
deriving Inhabited

end Vendoring

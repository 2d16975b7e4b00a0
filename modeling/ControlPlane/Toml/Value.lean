/-
The values of a TOML document.
-/
namespace ControlPlane.Toml

/-- A value. Keys of a table do not repeat. -/
inductive Value where
  | string (text : String)
  | integer (n : Int)
  | boolean (b : Bool)
  /-- A number with a fraction or an exponent, as it was written. -/
  | float (text : String)
  /-- A date, a time of day or both, as it was written. -/
  | instant (text : String)
  | array (items : List Value)
  | table (entries : List (String × Value))

namespace Value

/-- The least integer of a document, of 64 bits. -/
def minInteger : Int := -9223372036854775808

/-- The greatest integer of a document. -/
def maxInteger : Int := 9223372036854775807

end Value

end ControlPlane.Toml

/-!
# JSON values

Integers are exact.  Any other number keeps the literal it is written with, since no use of it
needs more than that it is not an integer.  An object keeps its fields as they are written; of
fields with one name the last counts.
-/

namespace BuildCommands

/-- A JSON value. -/
inductive Json where
  | null
  | bool (value : Bool)
  | integer (value : Int)
  /-- A number with a fraction or an exponent, or one that is infinite or none. -/
  | real (literal : String)
  | text (value : String)
  | array (items : List Json)
  | object (fields : List (String × Json))
  deriving Repr, Inhabited

namespace Json

/-- The value of the last field with the given name. -/
def field? (fields : List (String × Json)) (name : String) : Option Json :=
  (fields.reverse.find? (·.1 = name)).map (·.2)

/-- The text, if the value is one. -/
def text? : Json → Option String
  | .text value => some value
  | _ => none

end Json

end BuildCommands

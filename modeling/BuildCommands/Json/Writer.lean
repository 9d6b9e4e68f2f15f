import BuildCommands.Json.Value
import BuildCommands.Text.Quoted

/-!
# Writing JSON

`render` lays a value out over several lines, two spaces for each level.  In a text the quote, the
backslash and the control characters below U+0020 are escaped, and all else stands for itself.
-/

namespace BuildCommands.Json

/-- One character of a text. -/
def escapeChar (c : Char) : List Char :=
  if c = '"' then ['\\', '"']
  else if c = '\\' then ['\\', '\\']
  else if c = '\n' then ['\\', 'n']
  else if c = '\r' then ['\\', 'r']
  else if c = '\t' then ['\\', 't']
  else if c = '\x08' then ['\\', 'b']
  else if c = '\x0c' then ['\\', 'f']
  else if c.toNat < 0x20 then '\\' :: 'u' :: Text.hexadecimal 4 c.toNat
  else [c]

/-- A text in quotes. -/
def renderText (s : String) : List Char := '"' :: s.toList.flatMap escapeChar ++ ['"']

/-- A new line at the given level. -/
def newLine (level : Nat) : List Char := '\n' :: List.replicate (2 * level) ' '

mutual

/-- The value as it stands at a level. -/
def renderAt (level : Nat) : Json → List Char
  | .null => "null".toList
  | .bool value => (if value then "true" else "false").toList
  | .integer value => (toString value).toList
  | .real literal => literal.toList
  | .text value => renderText value
  | .array [] => ['[', ']']
  | .array (item :: items) =>
    '[' :: newLine (level + 1) ++ renderAt (level + 1) item ++
      renderItems (level + 1) items ++ newLine level ++ [']']
  | .object [] => ['\x7b', '\x7d']
  | .object ((name, value) :: fields) =>
    '\x7b' :: newLine (level + 1) ++ renderText name ++ [':', ' '] ++ renderAt (level + 1) value ++
      renderFields (level + 1) fields ++ newLine level ++ ['\x7d']

/-- The items behind an array's first. -/
def renderItems (level : Nat) : List Json → List Char
  | [] => []
  | item :: items => ',' :: newLine level ++ renderAt level item ++ renderItems level items

/-- The fields behind an object's first. -/
def renderFields (level : Nat) : List (String × Json) → List Char
  | [] => []
  | (name, value) :: fields =>
    ',' :: newLine level ++ renderText name ++ [':', ' '] ++ renderAt level value ++
      renderFields level fields

end

/-- The value as a document without a line end. -/
def render (value : Json) : String := String.ofList (renderAt 0 value)

end BuildCommands.Json

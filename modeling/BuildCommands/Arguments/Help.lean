/-!
# Help texts

A manual says how a program is called and what its arguments mean.  It is laid out for a terminal of
some columns, two of which stay free.  The usage is one line or is broken between its parts; the
meanings stand in a column of their own, broken between words, and a word that is longer than this
column is cut.

Words are what stands between spaces: no manual here has a word with a hyphen in its middle.
-/

namespace BuildCommands.Arguments

/-! ## Manuals -/

/-- What a manual says on an option, or on an operand, which has its name for the only spelling. -/
structure Topic where
  spellings : List String
  /-- The name of the option's value, if it takes one. -/
  value? : Option String
  meaning : String

/-- What a program tells about itself and its arguments. -/
structure Manual where
  program : String
  purpose : String
  operands : List Topic
  options : List Topic
  /-- The lines behind the topics. -/
  closing : List String
  /-- The purpose and the closing stay in their lines. -/
  keepsLines : Bool

/-- A spelling with the name of the value. -/
def Topic.withValue (topic : Topic) (spelling : String) : String :=
  topic.value?.elim spelling fun value => spelling ++ " " ++ value

/-- The spellings, as they stand before the meaning. -/
def Topic.heading (topic : Topic) : List Char :=
  (", ".intercalate (topic.spellings.map topic.withValue)).toList

/-! ## Usage -/

def spaces (n : Nat) : List Char := List.replicate n ' '

/-- Words in a row. -/
def inRow (words : List (List Char)) : List Char := [' '].intercalate words

/-- Lays words out in rows of the width.  `row` is the row that is begun, which ends before the
column `next`; all others start at the indentation. -/
def rowsFrom (width indent next : Nat) (row : List (List Char)) :
    List (List Char) → List (List (List Char))
  | [] => if row.isEmpty then [] else [row]
  | word :: words =>
    if !row.isEmpty && width < next + word.length then
      row :: rowsFrom width indent (indent + word.length + 1) [word] words
    else rowsFrom width indent (next + word.length + 1) (row ++ [word]) words

/-- The words in rows that are all indented. -/
def indentedRows (width indent : Nat) (words : List (List Char)) : List (List Char) :=
  (rowsFrom width indent indent [] words).map fun row => spaces indent ++ inRow row

def usageMark : List Char := "usage: ".toList

/-- How the program is called, in lines of the width.  It stands on a line of its own if it takes
more than three quarters of it. -/
def Manual.usageLines (manual : Manual) (width : Nat) : List (List Char) :=
  let program := manual.program.toList
  let options := manual.options.map fun topic =>
    ("[" ++ topic.withValue (topic.spellings.headD "") ++ "]").toList
  let operands := manual.operands.map Topic.heading
  let whole := usageMark ++ inRow (program :: options ++ operands)
  if whole.length ≤ width then [whole]
  else if 4 * (usageMark ++ program).length ≤ 3 * width then
    let indent := (usageMark ++ program).length + 1
    match rowsFrom width indent usageMark.length [] (program :: options) with
    | [] => []
    | first :: rows =>
      (usageMark ++ inRow first) :: rows.map (fun row => spaces indent ++ inRow row) ++
        indentedRows width indent operands
  else
    let indent := usageMark.length
    let rows := indentedRows width indent (options ++ operands)
    (usageMark ++ program) ::
      if rows.length ≤ 1 then rows
      else indentedRows width indent options ++ indentedRows width indent operands

/-! ## Filling -/

/-- The words of a text and the spaces between them. -/
def pieces (text : List Char) : List (List Char) :=
  text.splitBy fun a b => (a == ' ') == (b == ' ')

/-- The pieces that fit into the room, and the rest. -/
def fitting (room : Nat) : List (List Char) → List (List Char) × List (List Char)
  | [] => ([], [])
  | piece :: rest =>
    if piece.length ≤ room then
      let (line, rest) := fitting (room - piece.length) rest
      (piece :: line, rest)
    else ([], piece :: rest)

def isGap (piece : List Char) : Bool := piece.all (· == ' ')

/-- The pieces of a line that is filled, and the rest.  Of a piece that no line has room for, as
much is taken as fits, which may be nothing. -/
def fillLine (width : Nat) (found : List (List Char)) : List (List Char) × List (List Char) :=
  match fitting width found with
  | (line, []) => (line, [])
  | (line, piece :: rest) =>
    if width < piece.length then
      let room := width - line.flatten.length
      (line ++ [piece.take room], piece.drop room :: rest)
    else (line, piece :: rest)

/-- The line without a gap at its end. -/
def dropGap (line : List (List Char)) : List (List Char) :=
  if line.getLast?.any isGap then line.dropLast else line

/-- Fills lines of the width with the pieces.  No line starts with a gap.  Each step takes up a
character or a piece, so there are no more steps than these. -/
def fill (width : Nat) : Nat → List (List Char) → List (List Char)
  | 0, _ => []
  | steps + 1, found =>
    match (if found.head?.any isGap then found.tail else found) with
    | [] => []
    | found =>
      match fillLine width found with
      | (line, rest) => (dropGap line).flatten :: fill width steps rest

/-- The text in lines of the width, which is eleven at least. -/
def filled (width : Nat) (text : String) : List (List Char) :=
  fill (max width 11) (2 * text.length) (pieces text.toList)

/-! ## Help -/

/-- A topic with its meaning from the position on, on the line of the spellings if there is room. -/
def Topic.lines (topic : Topic) (width position : Nat) : List (List Char) :=
  let head := spaces 2 ++ topic.heading
  let meaning := filled (width - position) topic.meaning
  if head.length + 2 ≤ position then
    (head ++ spaces (position - head.length) ++ meaning.headD []) ::
      meaning.tail.map (spaces position ++ ·)
  else head :: meaning.map (spaces position ++ ·)

/-- The position of the meanings: behind the longest spellings, unless they leave no room. -/
def Manual.position (manual : Manual) (width : Nat) : Nat :=
  let longest := ((manual.operands ++ manual.options).map (·.heading.length)).foldl max 0
  min (longest + 4) (min 24 (max (width - 20) 4))

/-- Topics below a title. -/
def sectionLines (title : String) (width position : Nat) (topics : List Topic) : List (List Char) :=
  if topics.isEmpty then []
  else title.toList :: topics.flatMap (·.lines width position)

/-- The parts of the help text: how the program is called, what it is for, the topics, and what is
said in the end. -/
def Manual.parts (manual : Manual) (width : Nat) : List (List (List Char)) :=
  let position := manual.position width
  [manual.usageLines width,
    if manual.keepsLines then [manual.purpose.toList] else filled width manual.purpose,
    sectionLines "positional arguments:" width position manual.operands,
    sectionLines "options:" width position manual.options,
    manual.closing.map String.toList]

def unlines (lines : List (List Char)) : String :=
  String.ofList (lines.flatMap (· ++ ['\n']))

/-- How the program is called, for a terminal of so many columns. -/
def Manual.usage (manual : Manual) (columns : Nat) : String :=
  unlines (manual.usageLines (columns - 2))

/-- The help text, for a terminal of so many columns. -/
def Manual.help (manual : Manual) (columns : Nat) : String :=
  unlines ([[]].intercalate ((manual.parts (columns - 2)).filter (!·.isEmpty)))

end BuildCommands.Arguments

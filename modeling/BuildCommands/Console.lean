import BuildCommands.Console.Log

/-!
# Console messages

Text for a terminal is a list of spans: characters, or a paint that changes how the characters
behind it look.  Whether paints are written, and by which codes, is settled when the text is
rendered, so a message is the same with and without colours but for the escape codes.

    content.render (some palette)    the characters and the escape codes
    content.render none              the characters alone
-/

namespace BuildCommands

/-! ## Painted text -/

/-- A way to paint the characters that follow. -/
inductive Paint where
  | red
  | green
  | yellow
  | blue
  | magenta
  | cyan
  | white
  | reset
  | bright
  | dim
  deriving DecidableEq, Repr

/-- The numbers of the paints in their escape codes, which are those of a library for colours. -/
structure Palette where
  number : Paint → Nat

/-- The escape code of the paint. -/
def Palette.code (palette : Palette) (paint : Paint) : String :=
  "\x1b[" ++ toString (palette.number paint) ++ "m"

/-- The numbers that terminals understand. -/
def Palette.ansi : Palette where
  number
    | .reset => 0
    | .bright => 1
    | .dim => 2
    | .red => 31
    | .green => 32
    | .yellow => 33
    | .blue => 34
    | .magenta => 35
    | .cyan => 36
    | .white => 37

/-- Characters, or a change of paint. -/
inductive Span where
  | text (s : String)
  | paint (p : Paint)
  deriving DecidableEq, Repr

abbrev Painted := List Span

/-- What a span writes, with the codes of a palette or without codes. -/
def Span.render (palette? : Option Palette) : Span → String
  | .text s => s
  | .paint p => palette?.elim "" (·.code p)

/-- What the text writes, with the codes of a palette or without codes. -/
def Painted.render (palette? : Option Palette) (spans : Painted) : String :=
  String.join (spans.map (Span.render palette?))

/-- The text in a colour and, if one is given, a style.  Without a colour it is plain, whatever
the style. -/
def painted (color style : Option Paint) (text : String) : Painted :=
  match color with
  | none => [.text text]
  | some color =>
    (style.map Span.paint).toList ++ [.paint color, .text text, .paint .reset]

/-! ## Messages -/

inductive Channel where
  | output
  | error
  deriving DecidableEq, Repr

/-- Something that a run writes: text, or a note for the log. -/
inductive Message where
  | text (channel : Channel) (content : Painted)
  | note (entry : LogEntry)
  deriving DecidableEq, Repr

namespace Message

def line (channel : Channel) (content : Painted) : Message := .text channel (content ++ [.text "\n"])

/-- Good news, with its label on request. -/
def success (labelled : Bool) (text : String) : Message :=
  .line .output (painted (some .green) none (if labelled then "Success: " ++ text else text))

/-- Bad news, with its label unless declined. -/
def failure (labelled : Bool) (text : String) : Message :=
  .line .error (painted (some .red) none (if labelled then "Error: " ++ text else text))

/-- A warning, with its label unless declined. -/
def warning (labelled : Bool) (text : String) : Message :=
  .line .error (painted (some .yellow) none (if labelled then "Warning: " ++ text else text))

def info (text : String) : Message := .line .output (painted (some .cyan) none text)

/-- What the message writes to the channel.  Notes go to the error channel, those of low level only
when they are asked for. -/
def written (palette? : Option Palette) (verbose : Bool) (channel : Channel) : Message → String
  | .text target content => if target = channel then content.render palette? else ""
  | .note entry =>
    if channel = .error ∧ (verbose = true ∨ entry.level.isShown = true) then entry.line ++ "\n"
    else ""

end Message

/-- What the messages write to the channel. -/
def transcript (palette? : Option Palette) (verbose : Bool) (channel : Channel)
    (messages : List Message) : String :=
  String.join (messages.map (Message.written palette? verbose channel))

/-! ## Counts -/

/-- A summary line: the label in a column of twenty characters, then the count. -/
def countLine (label : String) (count : Int) (color : Option Paint) : Painted :=
  let head := label ++ ":"
  .text ("  " ++ head ++ String.ofList (List.replicate (20 - head.length) ' ') ++ " ") ::
    painted color (some .bright) (toString count)

end BuildCommands

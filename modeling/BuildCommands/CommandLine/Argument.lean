import BuildCommands.Text.LineBreak

/-!
# Arguments

White space separates the tokens of an argument text, but not between double quotes.  A backslash
is a plain character unless it stands in a run before a quote: an odd run makes the quote a literal
character, an even run leaves it a delimiter.  A line break counts as one space.

`tokenize` cuts the text and keeps each token as it is written, quotes and backslashes included.
`value` is what the tool receives for a token.

    (tokenize text).map value   is the argument list of the tool
-/

namespace BuildCommands.Argument

/-! ## Scanning -/

/-- Space and tab separate tokens. -/
def isSeparator (c : Char) : Bool := c == ' ' || c == '\t'

/-- What the characters so far decide about the next one. -/
structure ScanState where
  /-- An odd run of backslashes ends here. -/
  escaping : Bool
  /-- A quoted run is open. -/
  inQuotes : Bool
  deriving DecidableEq, Repr

/-- Before the first character. -/
def ScanState.start : ScanState := ⟨false, false⟩

/-- The state behind one more character. -/
def ScanState.next (s : ScanState) (c : Char) : ScanState :=
  if c = '\\' then ⟨!s.escaping, s.inQuotes⟩
  else if c = '"' then ⟨false, if s.escaping then s.inQuotes else !s.inQuotes⟩
  else ⟨false, s.inQuotes⟩

/-- Whether the next character separates tokens. -/
def ScanState.separates (s : ScanState) (c : Char) : Bool := !s.inQuotes && isSeparator c

/-- The state behind a text. -/
def ScanState.after (cs : List Char) : ScanState := cs.foldl ScanState.next ScanState.start

/-- A token kept in reverse, unless it has no characters. -/
def closeToken (token : List Char) : List (List Char) :=
  if token.isEmpty then [] else [token.reverse]

/-- The tokens of a text, the first of which has begun with `token`, kept in reverse. -/
def tokensFrom (state : ScanState) (token : List Char) : List Char → List (List Char)
  | [] => closeToken token
  | c :: rest =>
    if state.separates c then closeToken token ++ tokensFrom (state.next c) [] rest
    else tokensFrom (state.next c) (c :: token) rest

/-! ## Tokens -/

/-- The text in which each line break has become a space. -/
def unbroken (text : String) : List Char := Text.replaceLineBreaks ' ' text.toList

/-- The tokens of an argument text. -/
def tokenize (text : String) : List String :=
  (tokensFrom .start [] (unbroken text)).map String.ofList

/-- The last token, if a quote in it is never closed. -/
def unterminated? (text : String) : Option String :=
  if (ScanState.after (unbroken text)).inQuotes then (tokenize text).getLast? else none

/-! ## Values -/

/-- The value of a token's characters behind a run of backslashes of the given length. -/
def valueFrom (run : Nat) : List Char → List Char
  | [] => List.replicate run '\\'
  | c :: rest =>
    if c = '\\' then valueFrom (run + 1) rest
    else if c = '"' then
      List.replicate (run / 2) '\\' ++ (if run % 2 = 1 then ['"'] else []) ++ valueFrom 0 rest
    else List.replicate run '\\' ++ c :: valueFrom 0 rest

/-- What the tool receives for a token: quotes go, a run of backslashes before a quote is halved,
and the quote stays where the run was odd. -/
def value (token : String) : String := String.ofList (valueFrom 0 token.toList)

/-! ## Lemmas -/

@[simp] theorem tokenize_empty : tokenize "" = [] := by simp [tokenize, unbroken, tokensFrom, closeToken]

/-- A token without quotes is its own value, behind any run of backslashes. -/
theorem valueFrom_of_not_mem {cs : List Char} (h : '"' ∉ cs) (run : Nat) :
    valueFrom run cs = List.replicate run '\\' ++ cs := by
  induction cs generalizing run with
  | nil => simp [valueFrom]
  | cons c rest ih =>
    simp only [List.mem_cons, not_or] at h
    by_cases hc : c = '\\'
    · subst hc
      simp [valueFrom, ih h.2, List.replicate_succ']
    · simp [valueFrom, hc, Ne.symm h.1, ih h.2]

/-- A token without quotes is its own value. -/
theorem value_of_not_mem {token : String} (h : '"' ∉ token.toList) : value token = token := by
  simp [value, valueFrom_of_not_mem h]

end BuildCommands.Argument

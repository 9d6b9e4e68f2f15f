import BuildCommands.Package.Library
import BuildCommands.Text.Blank
import BuildCommands.Text.LowerCase

/-!
# Package versions

A version is read as PEP 440 has it: an epoch, a release of any length, and markers for a
pre-release, a post-release and a development release, then a local label.  Spellings differ in
white space around the version, a leading `v`, letter case, separators and the names of markers.

Versions are ordered part by part.  Zeros at the end of a release do not count; a development
release comes before pre-releases, these before the release, and post-releases and local labels
behind it.

`VersionLibrary.pep440` is the library that reads every version but one with a number of more than
4300 digits.
-/

namespace BuildCommands.Package

/-! ## Versions -/

/-- A marker: its label in its usual spelling, and its number. -/
structure Marker where
  label : String
  number : Nat
  deriving DecidableEq, Repr

inductive Segment where
  | word (text : String)
  | number (value : Nat)
  deriving DecidableEq, Repr

structure Version where
  epoch : Nat
  release : List Nat
  pre : Option Marker
  post : Option Marker
  dev : Option Marker
  label : Option (List Segment)
  deriving DecidableEq, Repr

/-! ## Reading -/

/-- The ASCII letter that a character stands for when letter case does not matter: four letters
outside ASCII have one. -/
def baseLetter (c : Char) : Char :=
  let n := c.toNat
  if n = 0x130 ∨ n = 0x131 then 'i'
  else if n = 0x17f then 's'
  else if n = 0x212a then 'k'
  else c.toLower

/-- The characters that may stand between the parts of a version. -/
def isVersionSeparator (c : Char) : Bool := c == '-' || c == '_' || c == '.'

def numberOf (digits : List Char) : Nat :=
  digits.foldl (fun n c => 10 * n + (c.toNat - 0x30)) 0

def takeDigits (cs : List Char) : List Char × List Char :=
  (cs.takeWhile Char.isDigit, cs.dropWhile Char.isDigit)

def dropSeparator : List Char → List Char
  | c :: rest => if isVersionSeparator c then rest else c :: rest
  | [] => []

/-- Splits off the first label that the text starts with, in any letter case. -/
def takeLabel? (labels : List String) (cs : List Char) : Option (List Char × List Char) :=
  (labels.find? fun label => label.toList.isPrefixOf (cs.map baseLetter)).map fun label =>
    (cs.take label.length, cs.drop label.length)

def usualLabel (label : String) : String :=
  match label with
  | "alpha" => "a"
  | "beta" => "b"
  | "c" | "pre" | "preview" => "rc"
  | "rev" | "r" => "post"
  | other => other

/-- Splits off a marker: a separator, one of the labels, a separator and a number, of which only
the label is needed.  Without a number it is zero. -/
def takeMarker? (labels : List String) (cs : List Char) : Option (Marker × List Char) :=
  (takeLabel? labels (dropSeparator cs)).map fun (label, rest) =>
    let (digits, rest) := takeDigits (dropSeparator rest)
    (⟨usualLabel (Text.lower (String.ofList label)), numberOf digits⟩, rest)

/-- Splits off a post-release: a dash and a number, or a marker. -/
def takePost? (cs : List Char) : Option (Marker × List Char) :=
  match cs with
  | '-' :: c :: rest =>
    if c.isDigit then
      let (digits, rest) := takeDigits (c :: rest)
      some (⟨"post", numberOf digits⟩, rest)
    else takeMarker? ["post", "rev", "r"] cs
  | _ => takeMarker? ["post", "rev", "r"] cs

/-- What a reader found, if anything, and the rest. -/
def optionally {α : Type} (found : Option (α × List Char)) (cs : List Char) :
    Option α × List Char :=
  match found with
  | some (value, rest) => (some value, rest)
  | none => (none, cs)

/-- Splits off the numbers of a release behind its first; a point without a number behind it is
not part of the release. -/
def takeRelease : Nat → List Char → List Nat × List Char
  | fuel + 1, '.' :: rest =>
    match takeDigits rest with
    | ([], _) => ([], '.' :: rest)
    | (digits, rest) =>
      let (numbers, rest) := takeRelease fuel rest
      (numberOf digits :: numbers, rest)
  | _, cs => ([], cs)

def takeEpoch (cs : List Char) : Nat × List Char :=
  match takeDigits cs with
  | (d :: digits, '!' :: rest) => (numberOf (d :: digits), rest)
  | _ => (0, cs)

/-- The characters of a local label's parts. -/
def isLabelChar (c : Char) : Bool :=
  let b := baseLetter c
  b.isDigit || (0x61 ≤ b.toNat && b.toNat ≤ 0x7a)

/-- The part of a local label that has these characters. -/
def segmentOf (cs : List Char) : Segment :=
  if cs.all Char.isDigit then .number (numberOf cs) else .word (Text.lower (String.ofList cs))

/-- Splits off the parts of a local label; a separator without a part behind it is not part of the
label. -/
def takeSegments : Nat → List Char → Option (List Segment × List Char)
  | 0, _ => none
  | fuel + 1, cs =>
    match cs.takeWhile isLabelChar, cs.dropWhile isLabelChar with
    | [], _ => none
    | part, separator :: rest =>
      if isVersionSeparator separator then
        match takeSegments fuel rest with
        | some (parts, rest) => some (segmentOf part :: parts, rest)
        | none => some ([segmentOf part], separator :: rest)
      else some ([segmentOf part], separator :: rest)
    | part, [] => some ([segmentOf part], [])

/-- Splits off a local label: a plus sign and its parts. -/
def takeLocal? : List Char → Option (List Segment × List Char)
  | '+' :: rest => takeSegments (rest.length + 1) rest
  | _ => none

/-- Drops the letter that may stand before a version. -/
def dropLetter : List Char → List Char
  | 'v' :: rest => rest
  | 'V' :: rest => rest
  | cs => cs

/-- The version that a text spells. -/
def Version.ofChars? (cs : List Char) : Option Version :=
  let (epoch, cs) := takeEpoch (dropLetter (Text.dropBlank cs))
  match takeDigits cs with
  | ([], _) => none
  | (digits, cs) =>
    let (numbers, cs) := takeRelease cs.length cs
    let (pre, cs) := optionally
      (takeMarker? ["alpha", "a", "beta", "b", "preview", "pre", "c", "rc"] cs) cs
    let (post, cs) := optionally (takePost? cs) cs
    let (dev, cs) := optionally (takeMarker? ["dev"] cs) cs
    let (label, cs) := optionally (takeLocal? cs) cs
    if cs.all Text.isBlank then some ⟨epoch, numberOf digits :: numbers, pre, post, dev, label⟩
    else none

/-- The version that a text spells. -/
def Version.parse? (text : String) : Option Version := Version.ofChars? text.toList

/-! ## Order -/

/-- The release without the zeros at its end. -/
def Version.significantRelease (v : Version) : List Nat :=
  (v.release.reverse.dropWhile (· == 0)).reverse

/-- The rank of a marker, or of its absence, among others: below them all, a marker, or above. -/
structure Rank where
  side : Nat
  label : String
  number : Nat
  deriving DecidableEq, Repr

def Rank.lowest : Rank := ⟨0, "", 0⟩

def Rank.highest : Rank := ⟨2, "", 0⟩

def Rank.ofMarker (m : Marker) : Rank := ⟨1, m.label, m.number⟩

instance : Ord Rank where
  compare := compareLex (compareOn Rank.side) (compareLex (compareOn Rank.label)
    (compareOn Rank.number))

/-- The rank of the pre-release.  A release counts above its pre-releases, and a development
release of it below them. -/
def Version.preRank (v : Version) : Rank :=
  match v.pre with
  | some m => .ofMarker m
  | none => if v.post.isNone && v.dev.isSome then .lowest else .highest

/-- The rank of the post-release; without one the version counts below. -/
def Version.postRank (v : Version) : Rank := v.post.elim .lowest .ofMarker

/-- The rank of the development release; without one the version counts above. -/
def Version.devRank (v : Version) : Rank := v.dev.elim .highest .ofMarker

/-- The rank of a part of a local label: words by their letters, numbers above all words. -/
def Segment.rank : Segment → Rank
  | .word text => ⟨0, text, 0⟩
  | .number value => ⟨1, "", value⟩

/-- The ranks of the local label; without one the version counts below. -/
def Version.labelRank (v : Version) : Option (List Rank) := v.label.map (·.map Segment.rank)

instance : Ord Version where
  compare := compareLex (compareOn Version.epoch) (compareLex (compareOn Version.significantRelease)
    (compareLex (compareOn Version.preRank) (compareLex (compareOn Version.postRank)
      (compareLex (compareOn Version.devRank) (compareOn Version.labelRank)))))

/-- Whether a version is at least as new as another. -/
def Version.meets (installed minimum : Version) : Bool := (compare installed minimum).isGE

/-! ## The library -/

/-- The longest runs of characters that have the property. -/
def runs (p : Char → Bool) (cs : List Char) : List (List Char) :=
  (cs.splitOnP (!p ·)).filter (!·.isEmpty)

/-- The digits of the numbers in the text of a version, in their order.  Of the parts of a local
label only some are numbers. -/
def numeralsIn (cs : List Char) : List (List Char) :=
  runs Char.isDigit (cs.takeWhile (· != '+')) ++
    (runs isLabelChar (cs.dropWhile (· != '+'))).filter (·.all Char.isDigit)

/-- Why a text is not read as a version: it is none, or one of its numbers is too long. -/
def versionFault? (text : String) : Option VersionFault :=
  if (Version.parse? text).isNone then some .invalid
  else
    ((numeralsIn text.toList).find? (Text.maxDigits < ·.length)).map (.overlong ·.length)

/-- The library that knows versions by this reader and this order. -/
def VersionLibrary.pep440 : VersionLibrary where
  fault? := versionFault?
  atLeast installed minimum :=
    match Version.parse? installed, Version.parse? minimum with
    | some version, some least => version.meets least
    | _, _ => false

end BuildCommands.Package

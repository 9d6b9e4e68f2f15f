import BuildCommands.Path.Component
import BuildCommands.Text.LowerCase

/-!
# Windows paths

Slash and backslash both separate components.  In front of them a path may name a drive: a letter
and a colon, or two separators with a server and a share, or a device.
-/

namespace BuildCommands.Path.Windows

/-! ## Drives -/

/-- Both slashes separate components. -/
def isSeparator (c : Char) : Bool := c == '\\' || c == '/'

/-- The path with backslashes only. -/
def backslashed (path : List Char) : List Char := path.map fun c => if c = '/' then '\\' else c

/-- A device path to a server starts with this, in any letter case. -/
def deviceLead : List Char := ['\\', '\\', '?', '\\', 'u', 'n', 'c', '\\']

/-- How long the part is that stands before the server's name, or before a device's. -/
def serverOffset (path : List Char) : Nat :=
  if (path.take 8).map Char.toLower = deviceLead then 8 else 2

/-- The length of the run without separators, and of the separator behind it, if there is one. -/
def separatorBehind? (path : List Char) : Option Nat :=
  let run := path.takeWhile (! isSeparator ·)
  if run.length < path.length then some run.length else none

/-- The length of a path's drive. -/
def driveLength (path : List Char) : Nat :=
  match path with
  | a :: b :: _ =>
    if isSeparator a && isSeparator b then
      let start := serverOffset (backslashed path)
      match separatorBehind? (path.drop start) with
      | none => path.length
      | some server =>
        match separatorBehind? (path.drop (start + server + 1)) with
        | none => path.length
        | some share => start + server + 1 + share
    else if b = ':' then 2
    else 0
  | _ => 0

/-- The drive of a path, and the rest. -/
def splitDrive (path : List Char) : List Char × List Char :=
  (path.take (driveLength path), path.drop (driveLength path))

/-! ## Normal form -/

/-- Whether a path does not depend on a directory: it starts with a letter, a colon and a
separator, or with two backslashes. -/
def isAbsolute : List Char → Bool
  | '\\' :: '\\' :: _ => true
  | a :: ':' :: c :: _ => a.isAlpha && isSeparator c
  | _ => false

/-- The path with backslashes, without empty components, `.` and every `..` that has something to
take back.  A path with nothing left is the directory itself. -/
def normalize (path : List Char) : List Char :=
  let (drive, rest) := splitDrive (backslashed path)
  let front := if rest.head? == some '\\' then drive ++ ['\\'] else drive
  let components := reduce (front.getLast? == some '\\') (splitAt (· == '\\') rest)
  if front.isEmpty && components.isEmpty then here else front ++ joinWith '\\' components

/-- Whether the text starts with a separator. -/
def isRooted (rest : List Char) : Bool := rest.head?.any isSeparator

/-- A drive with the path behind it; a share needs a separator in between. -/
def attach (drive rest : List Char) : List Char :=
  if !rest.isEmpty && !isRooted rest && !drive.isEmpty && drive.getLast? != some ':' then
    drive ++ '\\' :: rest
  else drive ++ rest

/-- The second path as seen from the first.  A rooted path keeps the first one's drive, and a path
on another drive keeps nothing of the first. -/
def join (directory path : List Char) : List Char :=
  let (drive, rest) := splitDrive directory
  let (pathDrive, pathRest) := splitDrive path
  if isRooted pathRest then
    attach (if pathDrive.isEmpty then drive else pathDrive) pathRest
  else if !pathDrive.isEmpty && Text.lowerCase pathDrive != Text.lowerCase drive then
    attach pathDrive pathRest
  else
    let resultDrive := if pathDrive.isEmpty then drive else pathDrive
    let gap := if !rest.isEmpty && !(rest.getLast?.any isSeparator) then ['\\'] else []
    attach resultDrive (rest ++ gap ++ pathRest)

/-- The directory that holds the file a path names: what stands before the last separator, without
the separators that end it unless it has nothing else. -/
def directory (path : List Char) : List Char :=
  let (drive, rest) := splitDrive path
  let front := (rest.reverse.dropWhile (! isSeparator ·))
  let head := front.dropWhile isSeparator
  drive ++ (if head.isEmpty then front.reverse else head.reverse)

end BuildCommands.Path.Windows

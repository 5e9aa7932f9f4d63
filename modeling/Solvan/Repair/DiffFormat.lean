import Solvan.Repair.PatchDiff

/-! The unified diff format, with the headers that git puts before a file, and
what a diff says. -/
namespace Solvan.Repair
open Solvan.Base

/-- Text within a line. -/
abbrev LineText := {text : Text // unbroken text = true}

inductive Mark where
  | context | added | removed
deriving DecidableEq, Repr

/-- A line of a hunk, and whether it ends its file without a newline. -/
structure PatchLine where
  mark : Mark
  text : LineText
  unterminated : Bool

/-- A hunk. A count of one may be left out. -/
structure Hunk where
  oldStart : Nat
  newStart : Nat
  oldBrief : Bool
  newBrief : Bool
  heading : LineText
  lines : List PatchLine

inductive FileFate where
  | modified | created | deleted
deriving DecidableEq, Repr

/-- How the extended header lines of git begin. -/
def extendedStarts : List Text :=
  ["diff --git ", "index ", "new file mode ", "deleted file mode ", "old mode ", "new mode ",
    "similarity index ", "dissimilarity index ", "rename from ", "rename to ", "copy from ",
    "copy to "].map String.toList

/-- The change of a file. Its path is relative, and white space after it is not part of it. -/
structure FileChange where
  extended : List LineText
  path : LineText
  fate : FileFate
  hunks : List Hunk
  headers : ∀ line ∈ extended, extendedStarts.any (fun start => start.isPrefixOf line.val) = true
  relative : path.val.head? ≠ some '/'
  named : ∀ c ∈ path.val.getLast?, isSpace c = false
  nonempty : path.val ≠ []

/-- A unified diff. -/
abbrev UnifiedDiff := List FileChange

def Mark.old : Mark → Bool
  | .context | .removed => true
  | .added => false

def Mark.new : Mark → Bool
  | .context | .added => true
  | .removed => false

def Mark.char : Mark → Char
  | .context => ' '
  | .added => '+'
  | .removed => '-'

def Mark.kind : Mark → LineKind
  | .context => .context
  | .added => .add
  | .removed => .remove

def noNewline : Text := "\\ No newline at end of file".toList

def PatchLine.raw (line : PatchLine) : Text := line.mark.char :: line.text.val

def PatchLine.rawLines (line : PatchLine) : List Text :=
  line.raw :: if line.unterminated then [noNewline] else []

def rangeText (start count : Nat) (brief : Bool) : Text :=
  Nat.toDigits 10 start ++ if brief && count == 1 then [] else ',' :: Nat.toDigits 10 count

def Hunk.oldCount (hunk : Hunk) : Nat := hunk.lines.countP (fun line => line.mark.old)

def Hunk.newCount (hunk : Hunk) : Nat := hunk.lines.countP (fun line => line.mark.new)

def Hunk.header (hunk : Hunk) : Text :=
  "@@ -".toList ++ (rangeText hunk.oldStart hunk.oldCount hunk.oldBrief ++
    (" +".toList ++ (rangeText hunk.newStart hunk.newCount hunk.newBrief ++
      (" @@".toList ++ hunk.heading.val))))

def Hunk.rawLines (hunk : Hunk) : List Text :=
  hunk.header :: hunk.lines.flatMap PatchLine.rawLines

def devNull : Text := "/dev/null".toList

def FileChange.oldName (file : FileChange) : Text :=
  if file.fate = .created then devNull else "a/".toList ++ file.path.val

def FileChange.newName (file : FileChange) : Text :=
  if file.fate = .deleted then devNull else "b/".toList ++ file.path.val

def FileChange.rawLines (file : FileChange) : List Text :=
  file.extended.map Subtype.val ++
    ("--- ".toList ++ file.oldName) :: ("+++ ".toList ++ file.newName) ::
      file.hunks.flatMap Hunk.rawLines

def UnifiedDiff.rawLines (diff : UnifiedDiff) : List Text := diff.flatMap FileChange.rawLines

def UnifiedDiff.text (diff : UnifiedDiff) : Text := unlines diff.rawLines

/-- The lines of a hunk with their numbers in the old and the new file. -/
def numbered : Nat → Nat → List PatchLine → List DiffLine
  | _, _, [] => []
  | old, new, line :: lines =>
    ⟨line.mark.kind, if line.mark.old then some old else none, if line.mark.new then some new else none,
      line.text.val⟩ ::
      numbered (old + if line.mark.old then 1 else 0) (new + if line.mark.new then 1 else 0) lines

def Hunk.numbered (hunk : Hunk) : List DiffLine :=
  Repair.numbered hunk.oldStart hunk.newStart hunk.lines

def FileChange.patchLines (file : FileChange) : List PatchLine := file.hunks.flatMap Hunk.lines

def FileChange.count (file : FileChange) (mark : Mark) : Nat :=
  file.patchLines.countP (fun line => line.mark == mark)

/-- A parsed file says what the change of a file says. -/
structure SaysFile (change : FileChange) (file : DiffFile) : Prop where
  path : file.path = change.path.val
  lines : file.lines.filter (fun line => line.kind != .meta_) = change.hunks.flatMap Hunk.numbered
  added : file.added = change.count .added
  removed : file.removed = change.count .removed

/-- The whole change is shown: its files in order, with their lines and counts. -/
structure ShowsWhole (diff : UnifiedDiff) (parsed : ParsedDiff) : Prop where
  files : List.Forall₂ SaysFile diff parsed.files
  added : parsed.added = (diff.map (FileChange.count · .added)).sum
  removed : parsed.removed = (diff.map (FileChange.count · .removed)).sum

/-- A line whose text the reader cannot lose: as a removal it is no old-file header, as
an addition no new-file header, and it is not clipped. -/
structure PatchLine.Plain (line : PatchLine) : Prop where
  removed : line.mark = .removed → ¬"-- ".toList <+: line.text.val
  added : line.mark = .added → ¬"++ ".toList <+: line.text.val
  short : line.text.val.length ≤ maxLineLength ∨
    (line.text.val.length = maxLineLength + 1 ∧ line.text.val.getLast? = some '…')

/-- Header lines that the parser knows. -/
def FileChange.KnownHeaders (file : FileChange) : Prop :=
  ∀ line ∈ file.extended, headerStarts.any (fun start => start.isPrefixOf line.val) = true

/-- A diff in which no line passes for another. The headers before the first file may be any. -/
structure UnifiedDiff.Plain (diff : UnifiedDiff) : Prop where
  lines : ∀ file ∈ diff, ∀ line ∈ file.patchLines, line.Plain
  kept : ∀ file ∈ diff, file.fate ≠ .deleted
  headers : ∀ file ∈ diff.tail, file.KnownHeaders

end Solvan.Repair

import Mathlib.Logic.Function.Basic
import Solvan.Repair.DiffFormat

/-! Unified diffs by the rules that patch programs share: the lines of a hunk are counted by
its header, a line ends with a newline unless the diff says otherwise, and what a hunk
replaces must stand where the hunk says. -/
namespace Solvan.Repair
open Solvan.Base

/-- A hunk as it is read. Its lines carry what ends them. -/
structure PatchHunk where
  oldStart : Nat
  oldCount : Nat
  lines : List (Mark × Text)
deriving DecidableEq

structure FilePatch where
  oldName : Text
  newName : Text
  hunks : List PatchHunk
deriving DecidableEq

/-- The old side of marked lines. -/
def oldSide (lines : List (Mark × Text)) : List Text :=
  lines.filterMap (fun line => if line.1.old then some line.2 else none)

def newSide (lines : List (Mark × Text)) : List Text :=
  lines.filterMap (fun line => if line.1.new then some line.2 else none)

def takeNumber (text : Text) : Option (Nat × Text) :=
  match text.takeWhile Char.isDigit with
  | [] => none
  | digits => some (Nat.ofDigitChars 10 digits 0, text.dropWhile Char.isDigit)

/-- A start and a count, which is one where it is left out. -/
def takeRange (text : Text) : Option ((Nat × Nat) × Text) := do
  let (start, text) ← takeNumber text
  match text with
  | ',' :: text => do
    let (count, text) ← takeNumber text
    return ((start, count), text)
  | text => return ((start, 1), text)

/-- The old range, and the count of the new one. -/
def hunkRanges (line : Text) : Option ((Nat × Nat) × Nat) := do
  let text ← literal "@@ -".toList line
  let (old, text) ← takeRange text
  let text ← literal " +".toList text
  let (new, text) ← takeRange text
  let _ ← literal " @@".toList text
  return (old, new.2)

def Mark.ofChar : Char → Option Mark
  | ' ' => some .context
  | '+' => some .added
  | '-' => some .removed
  | _ => none

/-- A line, and what ends it in a file: a line after it may say that nothing does. -/
def lineEnds : List Text → List (Text × Text)
  | [] => []
  | [line] => [(line, ['\n'])]
  | line :: next :: rest =>
    if next.head? = some '\\' then (line, []) :: lineEnds rest else (line, ['\n']) :: lineEnds (next :: rest)

def chomp (line : Text) : Text := if line.getLast? = some '\n' then line.dropLast else line

/-- What is read from some line on: the rest of a hunk, the rest of a file's hunks, the other
files. -/
structure PatchReading where
  lines : List (Mark × Text)
  hunks : List PatchHunk
  files : List FilePatch

/-- A line outside of hunks, after the name of an old file or not. -/
inductive HeaderLine where
  | old (name : Text)
  | file (oldName newName : Text)
  | hunk (start count newCount : Nat)
  | other

def headerLine (oldName : Option Text) (line : Text) : HeaderLine :=
  match literal "--- ".toList line with
  | some name => .old name
  | none =>
    match oldName, literal "+++ ".toList line with
    | some oldName, some newName => .file oldName newName
    | _, _ =>
      match hunkRanges line with
      | some (range, newCount) => .hunk range.1 range.2 newCount
      | none => .other

def markedLine : Text → Option (Mark × Text)
  | [] => none
  | c :: text => (Mark.ofChar c).map (fun mark => (mark, text))

/-- Reads from where so many old and new lines of a hunk are missing. Outside of hunks the
headers of files and hunks are read, and other lines are not part of the diff. -/
def readPatch : Option Text → Nat → Nat → List (Text × Text) → Option PatchReading
  | _, old, new, [] => if old = 0 ∧ new = 0 then some ⟨[], [], []⟩ else none
  | oldName, old, new, (line, ending) :: lines =>
    if old = 0 ∧ new = 0 then
      match headerLine oldName line with
      | .old name => readPatch (some name) 0 0 lines
      | .file oldName newName =>
        (readPatch none 0 0 lines).map (fun read => ⟨[], [], ⟨oldName, newName, read.hunks⟩ :: read.files⟩)
      | .hunk start count newCount =>
        (readPatch none count newCount lines).map (fun read =>
          ⟨[], ⟨start, count, read.lines⟩ :: read.hunks, read.files⟩)
      | .other => readPatch none 0 0 lines
    else
      match markedLine line with
      | none => none
      | some (mark, text) =>
        if mark.old.toNat ≤ old ∧ mark.new.toNat ≤ new then
          (readPatch none (old - mark.old.toNat) (new - mark.new.toNat) lines).map (fun read =>
            { read with lines := (mark, text ++ ending) :: read.lines })
        else none

/-- The text of a diff as changes of files. Hunks before any file make it none. -/
def readFiles (text : Text) : Option (List FilePatch) :=
  (readPatch none 0 0 (lineEnds ((newlinePieces [] text).map chomp))).bind (fun read =>
    if read.hunks.isEmpty then some read.files else none)

/-- Hunks in order on lines, of which so many came before. -/
def applyHunks : Nat → List Text → List PatchHunk → Option (List Text)
  | _, lines, [] => some lines
  | before, lines, hunk :: hunks =>
    let start := if hunk.oldCount = 0 then hunk.oldStart else hunk.oldStart - 1
    let gap := start - before
    let old := oldSide hunk.lines
    if before ≤ start ∧ gap ≤ lines.length ∧ old <+: lines.drop gap then
      (applyHunks (start + old.length) (lines.drop (gap + old.length)) hunks).map (fun rest =>
        lines.take gap ++ (newSide hunk.lines ++ rest))
    else none

/-- The files of a tree. -/
abbrev Contents := Text → Option Text

/-- A name ends before a tab, and the first directory of it is not part of the path. -/
def namedPath (name : Text) : Text := ((name.takeWhile (· != '\t')).dropWhile (· != '/')).drop 1

/-- A file that is not there is read as empty. A file is deleted where the new name says so and
nothing of it is left. -/
def FilePatch.apply (tree : Contents) (file : FilePatch) : Option Contents :=
  let path := namedPath (if file.newName = devNull then file.oldName else file.newName)
  (applyHunks 0 (newlinePieces [] ((tree path).getD [])) file.hunks).bind (fun lines =>
    if file.newName = devNull then
      if lines.isEmpty then some (Function.update tree path none) else none
    else some (Function.update tree path (some lines.flatten)))

def applyUnifiedDiff (text : Text) (tree : Contents) : Option Contents :=
  (readFiles text).bind (fun files => files.foldlM FilePatch.apply tree)

end Solvan.Repair

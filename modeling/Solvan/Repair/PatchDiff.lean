import Solvan.Base.Lines

/-! A stored unified diff as the bounded structure that a reviewer reads. A text
is the list of its characters. -/
namespace Solvan.Repair
open Solvan.Base

abbrev Text := List Char

/-- `MAX_FILES` -/
def maxFiles : Nat := 20

/-- `MAX_LINES` -/
def maxLines : Nat := 600

/-- `MAX_LINE_LENGTH` -/
def maxLineLength : Nat := 500

inductive LineKind where
  | add | remove | context | meta_
deriving DecidableEq, Repr

structure DiffLine where
  kind : LineKind
  oldLine : Option Nat
  newLine : Option Nat
  text : Text
deriving DecidableEq

structure DiffFile where
  path : Text
  added : Nat
  removed : Nat
  lines : List DiffLine
deriving DecidableEq

structure ParsedDiff where
  files : List DiffFile
  added : Nat
  removed : Nat
  truncated : Bool
  note : String
deriving DecidableEq

/-- `_clip` -/
def clip (text : Text) : Text :=
  if text.length ≤ maxLineLength then text else text.take maxLineLength ++ ['…']

/-- The zeros of the decimal digits of Unicode, each with its nine digits after it. -/
def decimalZeros : List Nat :=
  [0x30, 0x660, 0x6f0, 0x7c0, 0x966, 0x9e6, 0xa66, 0xae6, 0xb66, 0xbe6, 0xc66, 0xce6, 0xd66, 0xde6, 0xe50,
    0xed0, 0xf20, 0x1040, 0x1090, 0x17e0, 0x1810, 0x1946, 0x19d0, 0x1a80, 0x1a90, 0x1b50, 0x1bb0, 0x1c40,
    0x1c50, 0xa620, 0xa8d0, 0xa900, 0xa9d0, 0xa9f0, 0xaa50, 0xabf0, 0xff10, 0x104a0, 0x10d30, 0x11066,
    0x110f0, 0x11136, 0x111d0, 0x112f0, 0x11450, 0x114d0, 0x11650, 0x116c0, 0x11730, 0x118e0, 0x11950,
    0x11c50, 0x11d50, 0x11da0, 0x11f50, 0x16a60, 0x16ac0, 0x16b50, 0x1d7ce, 0x1d7d8, 0x1d7e2, 0x1d7ec,
    0x1d7f6, 0x1e140, 0x1e2f0, 0x1e4f0, 0x1e950, 0x1fbf0]

def decimal (c : Char) : Option Nat :=
  (decimalZeros.find? (fun zero => decide (zero ≤ c.toNat) && decide (c.toNat < zero + 10))).map
    (fun zero => c.toNat - zero)

/-- `int(…)` of decimal digits, which refuses more than 4300 of them. -/
def parseInt (digits : Text) : Option Nat :=
  if digits.length ≤ 4300 then
    some (digits.foldl (fun value c => 10 * value + (decimal c).getD 0) 0)
  else none

/-- `\d+` -/
def digits (text : Text) : Option (Text × Text) :=
  let found := text.takeWhile (fun c => (decimal c).isSome)
  if found.isEmpty then none else some (found, text.dropWhile (fun c => (decimal c).isSome))

def literal (start text : Text) : Option Text :=
  if start.isPrefixOf text then some (text.drop start.length) else none

theorem literal_append (start rest : Text) : literal start (start ++ rest) = some rest := by
  unfold literal
  rw [if_pos (by simp), List.drop_left]

/-- `(?:,(\d+))?` -/
def optionalCount (text : Text) : Option Text :=
  match text with
  | ',' :: text => (digits text).map Prod.snd
  | text => some text

/-- `(\d+)(?:,(\d+))?`: the digits before the comma, and what comes after all. -/
def range (text : Text) : Option (Text × Text) := do
  let (start, text) ← digits text
  let text ← optionalCount text
  return (start, text)

/-- What `_HUNK` matches: the digits of the old and the new start. -/
def hunkStarts (raw : Text) : Option (Text × Text) := do
  let text ← literal "@@ -".toList raw
  let (old, text) ← range text
  let text ← literal " +".toList text
  let (new, text) ← range text
  let _ ← literal " @@".toList text
  return (old, new)

/-- A line as the parser takes it. -/
inductive RawLine where
  | file (path : Text)
  | header
  | hunk (old new : Text)
  | add (text : Text)
  | remove (text : Text)
  | note
  | context (text : Text)
deriving DecidableEq

/-- The path of a `+++` header. -/
def headerPath (text : Text) : Text :=
  let path := strip text
  let path := if "b/".toList.isPrefixOf path then path.drop 2 else path
  if path.isEmpty then "unnamed".toList else path

/-- The lines that name a file and say nothing to the reader. -/
def headerStarts : List Text :=
  ["--- ", "diff --git", "index ", "new file", "deleted file"].map String.toList

def rawLine (raw : Text) : RawLine :=
  if "+++ ".toList.isPrefixOf raw then .file (headerPath (raw.drop 4))
  else if headerStarts.any (fun start => start.isPrefixOf raw) then .header
  else
    match hunkStarts raw with
    | some (old, new) => .hunk old new
    | none =>
      match raw with
      | '+' :: text => .add text
      | '-' :: text => .remove text
      | '\\' :: _ => .note
      | ' ' :: text => .context text
      | text => .context text

/-- The state of the loop. The current file is the first of the files. -/
structure ParseState where
  files : List DiffFile
  oldLine : Nat
  newLine : Nat
  emitted : Nat

def DiffFile.push (file : DiffFile) (line : DiffLine) : DiffFile :=
  { file with
    added := file.added + (if line.kind = .add then 1 else 0)
    removed := file.removed + (if line.kind = .remove then 1 else 0)
    lines := file.lines ++ [line] }

/-- A line in the current file. -/
def ParseState.emit (s : ParseState) (current : DiffFile) (files : List DiffFile) (line : DiffLine) :
    ParseState where
  files := current.push line :: files
  oldLine := s.oldLine + (if line.oldLine.isSome then 1 else 0)
  newLine := s.newLine + (if line.newLine.isSome then 1 else 0)
  emitted := s.emitted + 1

/-- What a line makes of the loop. -/
inductive Parsed where
  | failed
  | stopped
  | next (s : ParseState)

def ParseState.line (s : ParseState) (raw : Text) : Parsed :=
  match rawLine raw, s.files with
  | .file path, files =>
    if maxFiles ≤ files.length then .stopped
    else .next { s with files := ⟨path, 0, 0, []⟩ :: files }
  | .header, _ => .next s
  | .hunk old new, files =>
    match parseInt old, parseInt new with
    | some old, some new =>
      match files with
      | [] => .next { s with oldLine := old, newLine := new }
      | current :: files =>
        .next (({ s with oldLine := old, newLine := new } : ParseState).emit current files
          ⟨.meta_, none, none, clip raw⟩)
    | _, _ => .failed
  | _, [] => .next s
  | .add text, current :: files => .next (s.emit current files ⟨.add, none, some s.newLine, clip text⟩)
  | .remove text, current :: files =>
    .next (s.emit current files ⟨.remove, some s.oldLine, none, clip text⟩)
  | .note, _ => .next s
  | .context text, current :: files =>
    .next (s.emit current files ⟨.context, some s.oldLine, some s.newLine, clip text⟩)

/-- The loop, and whether it stopped short. -/
def parseLoop : ParseState → List Text → Option (ParseState × Bool)
  | s, [] => some (s, false)
  | s, raw :: rest =>
    if maxLines ≤ s.emitted then some (s, true)
    else
      match s.line raw with
      | .failed => none
      | .stopped => some (s, true)
      | .next s => parseLoop s rest

/-- `parse_unified_diff`, where no number is beyond what `int` reads. -/
def parseUnifiedDiff (diff : Text) : Option ParsedDiff :=
  (parseLoop ⟨[], 0, 0, 0⟩ (splitlines diff)).map (fun (s, truncated) =>
    if s.files.isEmpty then
      ⟨[], 0, 0, false, "No reviewable change could be parsed from the artifact."⟩
    else
      { files := s.files.reverse
        added := (s.files.map DiffFile.added).sum
        removed := (s.files.map DiffFile.removed).sum
        truncated
        note := if truncated then
          "Truncated at the review ceiling; approve only after reading the full artifact." else "" })

end Solvan.Repair

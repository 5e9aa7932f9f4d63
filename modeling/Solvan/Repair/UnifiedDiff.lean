import Solvan.Repair.DiffFormat
import Solvan.Repair.Transform

/-! The diff of two candidate trees, from what `difflib` finds. -/
namespace Solvan.Repair
open Solvan.Base

/-- Lines that `difflib.unified_diff` shows together, from where they stand in the two lists. -/
structure Group where
  oldStart : Nat
  newStart : Nat
  lines : List (Mark × Text)

def Group.old (group : Group) : List Text :=
  group.lines.filterMap (fun line => if line.1.old then some line.2 else none)

def Group.new (group : Group) : List Text :=
  group.lines.filterMap (fun line => if line.1.new then some line.2 else none)

/-- Groups between which the two lists are the same. -/
def Aligned : Nat → Nat → List Text → List Text → List Group → Prop
  | _, _, old, new, [] => old = new
  | i, j, old, new, group :: groups =>
    group.lines ≠ [] ∧ ∃ gap old' new', old = gap ++ (group.old ++ old') ∧ new = gap ++ (group.new ++ new') ∧
      group.oldStart = i + gap.length ∧ group.newStart = j + gap.length ∧
      Aligned (group.oldStart + group.old.length) (group.newStart + group.new.length) old' new' groups

/-- `SequenceMatcher.get_grouped_opcodes`, with the lines of each group. -/
structure Differ where
  groups : List Text → List Text → List Group
  aligned : ∀ old new, Aligned 0 0 old new (groups old new)

/-- `_format_range_unified` -/
def formatRangeUnified (start length : Nat) : Text :=
  if length = 1 then Nat.toDigits 10 (start + 1)
  else if length = 0 then Nat.toDigits 10 start ++ ',' :: Nat.toDigits 10 length
  else Nat.toDigits 10 (start + 1) ++ ',' :: Nat.toDigits 10 length

def Group.chunks (group : Group) : List Text :=
  ("@@ -".toList ++ (formatRangeUnified group.oldStart group.old.length ++
    (" +".toList ++ (formatRangeUnified group.newStart group.new.length ++ " @@\n".toList)))) ::
    group.lines.map (fun line => line.1.char :: line.2)

/-- `difflib.unified_diff` without dates -/
def unifiedDiff (differ : Differ) (old new : List Text) (fromfile tofile : Text) : List Text :=
  match differ.groups old new with
  | [] => []
  | groups => ("--- ".toList ++ (fromfile ++ ['\n'])) :: ("+++ ".toList ++ (tofile ++ ['\n'])) ::
      groups.flatMap Group.chunks

variable {lib : Library}

def CandidateTree.content (tree : CandidateTree lib) (path : String) : Option String :=
  (Keyed.get CandidateFile.path tree.files path).map CandidateFile.content

/-- The lines that the differ is given: none where there is no file. -/
def linesOf (content : Option String) : List Text :=
  (content.map (fun content => splitlinesKeepends content.toList)).getD []

/-- `sorted(set(base_files) | set(candidate_files))` -/
def bothPaths (base candidate : CandidateTree lib) : List String :=
  sortedPaths ((base.files.map CandidateFile.path ++ candidate.files.map CandidateFile.path).dedup)

/-- The chunks of a path. -/
def diffChunks (differ : Differ) (base candidate : CandidateTree lib) (path : String) : List Text :=
  let before := base.content path
  let after := candidate.content path
  if before = after then []
  else
    ("diff --git a/".toList ++ (path.toList ++ (" b/".toList ++ (path.toList ++ ['\n'])))) ::
      unifiedDiff differ (linesOf before) (linesOf after) ("a/".toList ++ path.toList)
        ("b/".toList ++ path.toList)

/-- `derive_unified_diff` -/
def deriveUnifiedDiff (differ : Differ) (base candidate : CandidateTree lib) : Except String Text :=
  let value := ((bothPaths base candidate).flatMap (diffChunks differ base candidate)).flatten
  if value.isEmpty then .error "candidate tree does not differ from its frozen base" else .ok value

end Solvan.Repair

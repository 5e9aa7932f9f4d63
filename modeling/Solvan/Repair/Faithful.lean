import Mathlib.Data.List.Dedup
import Mathlib.Data.List.Sort
import Solvan.Repair.PatchRules
import Solvan.Repair.UnifiedDiff

/-! When the derived diff is what makes the candidate of its base. -/
namespace Solvan.Repair
open Solvan.Base

variable {lib : Library} {differ : Differ} {base candidate : CandidateTree lib}

/-- The lines of both sides are terminated as far as the group goes. -/
structure Group.Clean (group : Group) (old new : List Text) : Prop where
  old : ∀ line ∈ old.take (group.oldStart + group.old.length), line.getLast? = some '\n'
  new : ∀ line ∈ new.take (group.newStart + group.new.length), line.getLast? = some '\n'

/-- A changed path that a diff can say: it is not deleted, nor created empty, its name stands in
a header line, and what is shown of it and before that is made of terminated lines. -/
structure PlainChange (differ : Differ) (base candidate : CandidateTree lib) (path : String) : Prop where
  kept : candidate.content path ≠ none
  filled : base.content path = none → candidate.content path ≠ some ""
  named : ∀ c ∈ path.toList, c ≠ '\n' ∧ c ≠ '\t'
  clean : ∀ group ∈ differ.groups (linesOf (base.content path)) (linesOf (candidate.content path)),
    group.Clean (linesOf (base.content path)) (linesOf (candidate.content path))

def PlainlyChanged (differ : Differ) (base candidate : CandidateTree lib) : Prop :=
  ∀ path, base.content path ≠ candidate.content path → PlainChange differ base candidate path

/-- The files of a tree as a patch program finds them. -/
def CandidateTree.contents (tree : CandidateTree lib) : Contents :=
  fun path => (tree.content (String.ofList path)).map String.toList

def Group.hunk (group : Group) : PatchHunk where
  oldStart := if group.old.length = 0 then group.oldStart else group.oldStart + 1
  oldCount := group.old.length
  lines := group.lines

/-- A terminated chunk as it is read. -/
def chunkRecord (chunk : Text) : Text × Text := (chunk.dropLast, ['\n'])

section Hunks

variable {i j : Nat} {old new : List Text} {groups : List Group}

theorem Group.hunk_start (group : Group) :
    (if group.hunk.oldCount = 0 then group.hunk.oldStart else group.hunk.oldStart - 1) = group.oldStart := by
  unfold Group.hunk
  by_cases hnone : group.old.length = 0 <;> simp [hnone]

/-- The lines shown so far on both sides, from where the rest starts. -/
structure CleanFrom (i j : Nat) (old new : List Text) (group : Group) : Prop where
  old : ∀ line ∈ old.take (group.oldStart + group.old.length - i), Terminated line
  new : ∀ line ∈ new.take (group.newStart + group.new.length - j), Terminated line

theorem take_later {α : Type} {first rest : List α} {i end_ : Nat} {a : α}
    (ha : a ∈ rest.take (end_ - (i + first.length))) : a ∈ (first ++ rest).take (end_ - i) := by
  by_cases hend : end_ - (i + first.length) = 0
  · rw [hend] at ha
    cases ha
  · have hsplit : end_ - i = first.length + (end_ - (i + first.length)) := by omega
    rw [hsplit, List.take_length_add_append]
    exact List.mem_append_right _ ha

/-- Hunks that show terminated lines make the new text of the old one. -/
theorem applyHunks_groups (haligned : Aligned i j old new groups)
    (hclean : ∀ group ∈ groups, CleanFrom i j old new group) :
    (applyHunks i (newlinePieces [] old.flatten) (groups.map Group.hunk)).map List.flatten =
      some new.flatten := by
  induction groups generalizing i j old new with
  | nil =>
    obtain rfl : old = new := haligned
    simp [applyHunks, newlinePieces_flatten]
  | cons group groups ih =>
    obtain ⟨-, gap, old', new', rfl, rfl, hold, hnew, hrest⟩ := haligned
    have hfirst := hclean group List.mem_cons_self
    have hgap : ∀ line ∈ gap ++ group.old, Terminated line := by
      intro line hline
      refine hfirst.old line ?_
      have hlength : group.oldStart + group.old.length - i = (gap ++ group.old).length := by
        rw [hold, List.length_append]
        omega
      rw [hlength, ← List.append_assoc, List.take_left]
      exact hline
    have hlater : ∀ other ∈ groups, CleanFrom (group.oldStart + group.old.length)
        (group.newStart + group.new.length) old' new' other := by
      intro other hother
      have hsame := hclean other (List.mem_cons_of_mem _ hother)
      have hi : group.oldStart + group.old.length = i + (gap ++ group.old).length := by
        rw [hold, List.length_append]
        omega
      have hj : group.newStart + group.new.length = j + (gap ++ group.new).length := by
        rw [hnew, List.length_append]
        omega
      refine ⟨fun line hline => hsame.old line ?_, fun line hline => hsame.new line ?_⟩
      · rw [hi] at hline
        rw [← List.append_assoc]
        exact take_later hline
      · rw [hj] at hline
        rw [← List.append_assoc]
        exact take_later hline
    have hpieces : newlinePieces [] (gap ++ (group.old ++ old')).flatten =
        gap ++ (group.old ++ newlinePieces [] old'.flatten) := by
      rw [← List.append_assoc, List.flatten_append, newlinePieces_append hgap, List.append_assoc]
    have hshort : group.oldStart - i = gap.length := by omega
    have hdrop : (gap ++ (group.old ++ newlinePieces [] old'.flatten)).drop (gap.length + group.old.length) =
        newlinePieces [] old'.flatten := by
      rw [← List.append_assoc, ← List.length_append, List.drop_left]
    have hih := ih hrest hlater
    rw [List.map_cons, applyHunks, group.hunk_start, hpieces, hshort]
    have hside : oldSide group.hunk.lines = group.old := rfl
    rw [hside, if_pos ⟨by omega, by simp, by simp⟩, hdrop, List.take_left]
    cases hdone : applyHunks (group.oldStart + group.old.length) (newlinePieces [] old'.flatten)
        (groups.map Group.hunk) with
    | none =>
      rw [hdone] at hih
      cases hih
    | some done =>
      rw [hdone] at hih
      have hdone' : done.flatten = new'.flatten := Option.some.inj hih
      have hnewSide : newSide group.hunk.lines = group.new := rfl
      simp [hdone', hnewSide]

/-- What a group shows of a side stands before its end. -/
theorem aligned_shown (haligned : Aligned i j old new groups) {group : Group} (hgroup : group ∈ groups) :
    (∀ line ∈ group.old, line ∈ old.take (group.oldStart + group.old.length - i)) ∧
      ∀ line ∈ group.new, line ∈ new.take (group.newStart + group.new.length - j) := by
  induction groups generalizing i j old new with
  | nil => cases hgroup
  | cons first groups ih =>
    obtain ⟨-, gap, old', new', rfl, rfl, hold, hnew, hrest⟩ := haligned
    have hi : first.oldStart + first.old.length = i + (gap ++ first.old).length := by
      rw [hold, List.length_append]
      omega
    have hj : first.newStart + first.new.length = j + (gap ++ first.new).length := by
      rw [hnew, List.length_append]
      omega
    rw [← List.append_assoc, ← List.append_assoc]
    obtain rfl | hlater := List.mem_cons.mp hgroup
    · rw [hi, hj, Nat.add_sub_cancel_left, Nat.add_sub_cancel_left, List.take_left, List.take_left]
      exact ⟨fun line hline => List.mem_append_right _ hline, fun line hline => List.mem_append_right _ hline⟩
    · obtain ⟨hshownOld, hshownNew⟩ := ih hrest hlater
      rw [hi] at hshownOld
      rw [hj] at hshownNew
      exact ⟨fun line hline => take_later (hshownOld line hline),
        fun line hline => take_later (hshownNew line hline)⟩

end Hunks

section Reading

variable {rest : List (Text × Text)} {read : PatchReading}

theorem takeNumber_toDigits {n : Nat} {rest : Text} (hrest : ∀ c ∈ rest.head?, c.isDigit = false) :
    takeNumber (Nat.toDigits 10 n ++ rest) = some (n, rest) := by
  have hall : ∀ c ∈ Nat.toDigits 10 n, c.isDigit = true := fun c hc =>
    Nat.isDigit_of_mem_toDigits (by decide) (by decide) hc
  have hstop : rest.takeWhile Char.isDigit = [] ∧ rest.dropWhile Char.isDigit = rest := by
    cases rest with
    | nil => exact ⟨rfl, rfl⟩
    | cons c rest => simp [hrest c rfl]
  unfold takeNumber
  rw [List.takeWhile_append_of_pos hall, List.dropWhile_append_of_pos hall, hstop.1, hstop.2,
    List.append_nil]
  cases hdigits : Nat.toDigits 10 n with
  | nil => exact absurd hdigits Nat.toDigits_ne_nil
  | cons d digits =>
    rw [← Nat.ofDigitChars_ten_toDigits (n := n), hdigits]

theorem takeRange_format {start length : Nat} {rest : Text}
    (hrest : ∀ c ∈ rest.head?, c.isDigit = false ∧ c ≠ ',') :
    takeRange (formatRangeUnified start length ++ rest) =
      some ((if length = 0 then start else start + 1, length), rest) := by
  have hdigit : ∀ c ∈ rest.head?, c.isDigit = false := fun c hc => (hrest c hc).1
  have hcomma : ∀ tail : Text, ∀ c ∈ (',' :: tail).head?, c.isDigit = false := by
    intro tail c hc
    obtain rfl := Option.some.inj hc
    rfl
  unfold takeRange formatRangeUnified
  split
  · rename_i hone
    rw [takeNumber_toDigits hdigit]
    simp only [Option.bind_eq_bind, Option.bind_some]
    split
    · rename_i tail
      exact absurd rfl (hrest ',' rfl).2
    · simp [hone]
  · have hcounted : ∀ first : Nat, takeRange (Nat.toDigits 10 first ++ (',' :: Nat.toDigits 10 length ++ rest)) =
        some ((first, length), rest) := by
      intro first
      unfold takeRange
      rw [List.cons_append, takeNumber_toDigits (hcomma _)]
      simp only [Option.bind_eq_bind, Option.bind_some]
      rw [takeNumber_toDigits hdigit]
      rfl
    unfold takeRange at hcounted
    split
    · rw [List.append_assoc, hcounted]
    · rw [List.append_assoc, hcounted]

/-- The header of a group, without its newline. -/
def Group.header (group : Group) : Text :=
  "@@ -".toList ++ (formatRangeUnified group.oldStart group.old.length ++
    (" +".toList ++ (formatRangeUnified group.newStart group.new.length ++ " @@".toList)))

theorem hunkRanges_header (group : Group) :
    hunkRanges group.header =
      some ((group.hunk.oldStart, group.hunk.oldCount), group.new.length) := by
  unfold hunkRanges Group.header
  rw [literal_append]
  simp only [Option.bind_eq_bind, Option.bind_some]
  rw [takeRange_format (by rintro c hc; obtain rfl := Option.some.inj hc; decide)]
  simp only [Option.bind_some, literal_append]
  rw [takeRange_format (by rintro c hc; obtain rfl := Option.some.inj hc; decide)]
  rfl

theorem Group.chunks_eq (group : Group) : group.chunks =
    (group.header ++ ['\n']) :: group.lines.map (fun line => line.1.char :: line.2) := by
  unfold Group.chunks Group.header
  simp

/-- Outside of hunks no line of a hunk is left over. -/
theorem readPatch_lines {oldName : Option Text} (h : readPatch oldName 0 0 rest = some read) :
    read.lines = [] := by
  induction rest generalizing oldName with
  | nil =>
    obtain rfl := Option.some.inj h
    rfl
  | cons line rest ih =>
    rw [readPatch, if_pos ⟨rfl, rfl⟩] at h
    split at h
    · exact ih h
    · obtain ⟨later, -, rfl⟩ := Option.map_eq_some_iff.mp h
      rfl
    · obtain ⟨later, -, rfl⟩ := Option.map_eq_some_iff.mp h
      rfl
    · exact ih h

theorem markedLine_char (mark : Mark) (text : Text) :
    markedLine (mark.char :: text) = some (mark, text) := by
  cases mark <;> rfl

theorem readPatch_marked {lines : List (Mark × Text)} (hlines : ∀ line ∈ lines, Terminated line.2) :
    readPatch none (oldSide lines).length (newSide lines).length
        (lines.map (fun line => chunkRecord (line.1.char :: line.2)) ++ rest) =
      (readPatch none 0 0 rest).map (fun read => { read with lines := lines ++ read.lines }) := by
  induction lines with
  | nil => simp [oldSide, newSide]
  | cons line lines ih =>
    obtain ⟨mark, text⟩ := line
    obtain ⟨body, -, hbody⟩ := hlines _ List.mem_cons_self
    obtain rfl : text = body ++ ['\n'] := hbody
    have hrest := ih (fun line hline => hlines line (List.mem_cons_of_mem _ hline))
    have hrecord : chunkRecord (mark.char :: (body ++ ['\n'])) = (mark.char :: body, ['\n']) := by
      unfold chunkRecord
      rw [← List.cons_append, List.dropLast_concat]
    have hold : (oldSide ((mark, body ++ ['\n']) :: lines)).length = (oldSide lines).length + mark.old.toNat := by
      cases mark <;> rfl
    have hnew : (newSide ((mark, body ++ ['\n']) :: lines)).length = (newSide lines).length + mark.new.toNat := by
      cases mark <;> rfl
    have hsome : ¬((oldSide lines).length + mark.old.toNat = 0 ∧ (newSide lines).length + mark.new.toNat = 0) := by
      cases mark <;> simp [Mark.old, Mark.new]
    rw [List.map_cons, List.cons_append, hrecord, readPatch, hold, hnew, if_neg hsome]
    simp only [markedLine_char]
    rw [if_pos ⟨Nat.le_add_left _ _, Nat.le_add_left _ _⟩, Nat.add_sub_cancel, Nat.add_sub_cancel, hrest,
      Option.map_map]
    rfl

theorem readPatch_group {group : Group} (hlines : ∀ line ∈ group.lines, Terminated line.2) :
    readPatch none 0 0 (group.chunks.map chunkRecord ++ rest) =
      (readPatch none 0 0 rest).map (fun read => ⟨[], group.hunk :: read.hunks, read.files⟩) := by
  have hheader : chunkRecord (group.header ++ ['\n']) = (group.header, ['\n']) := by
    unfold chunkRecord
    rw [List.dropLast_concat]
  have hline : headerLine none group.header =
      .hunk group.hunk.oldStart group.hunk.oldCount group.new.length := by
    have hold : literal "--- ".toList group.header = none := rfl
    unfold headerLine
    rw [hold, hunkRanges_header]
  have hmarked := @readPatch_marked rest _ hlines
  rw [group.chunks_eq, List.map_cons, List.map_map, List.cons_append, hheader, readPatch, if_pos ⟨rfl, rfl⟩]
  simp only [hline]
  have hcount : group.hunk.oldCount = (oldSide group.lines).length := rfl
  have hnew : group.new.length = (newSide group.lines).length := rfl
  rw [hcount, hnew]
  unfold Function.comp
  rw [hmarked]
  cases hread : readPatch none 0 0 rest with
  | none => rfl
  | some read =>
    rw [Option.map_some, Option.map_some, readPatch_lines hread, List.append_nil]
    rfl

theorem readPatch_groups {groups : List Group}
    (hlines : ∀ group ∈ groups, ∀ line ∈ group.lines, Terminated line.2) :
    readPatch none 0 0 ((groups.flatMap Group.chunks).map chunkRecord ++ rest) =
      (readPatch none 0 0 rest).map (fun read => ⟨[], groups.map Group.hunk ++ read.hunks, read.files⟩) := by
  induction groups with
  | nil =>
    cases hread : readPatch none 0 0 rest with
    | none => simp [hread]
    | some read =>
      have hnone := readPatch_lines hread
      obtain ⟨lines, hunks, files⟩ := read
      obtain rfl : lines = [] := hnone
      simp [hread]
  | cons group groups ih =>
    rw [List.flatMap_cons, List.map_append, List.append_assoc,
      readPatch_group (hlines group List.mem_cons_self),
      ih (fun other hother => hlines other (List.mem_cons_of_mem _ hother)), Option.map_map]
    rfl

end Reading

/-- The change of a path that a diff says. -/
def changedFile (differ : Differ) (base candidate : CandidateTree lib) (path : String) : Option FilePatch :=
  if base.content path = candidate.content path then none
  else some ⟨"a/".toList ++ path.toList, "b/".toList ++ path.toList,
    (differ.groups (linesOf (base.content path)) (linesOf (candidate.content path))).map Group.hunk⟩

section Chunks

variable {path : String}

theorem linesOf_flatten (content : Option String) :
    (linesOf content).flatten = (content.map String.toList).getD [] := by
  cases content with
  | none => rfl
  | some content => exact splitlinesKeepends_flatten content.toList

theorem terminated_linesOf {content : Option String} {line : Text} (hline : line ∈ linesOf content)
    (hlast : line.getLast? = some '\n') : Terminated line := by
  cases content with
  | none => cases hline
  | some content => exact terminated_of_getLast hline hlast

/-- What a clean group shows is terminated. -/
theorem PlainChange.cleanFrom (h : PlainChange differ base candidate path) {group : Group}
    (hgroup : group ∈ differ.groups (linesOf (base.content path)) (linesOf (candidate.content path))) :
    CleanFrom 0 0 (linesOf (base.content path)) (linesOf (candidate.content path)) group := by
  obtain ⟨hold, hnew⟩ := h.clean group hgroup
  exact ⟨fun line hline => terminated_linesOf (List.mem_of_mem_take hline) (hold line hline),
    fun line hline => terminated_linesOf (List.mem_of_mem_take hline) (hnew line hline)⟩

theorem PlainChange.terminated (h : PlainChange differ base candidate path) {group : Group}
    (hgroup : group ∈ differ.groups (linesOf (base.content path)) (linesOf (candidate.content path))) :
    ∀ line ∈ group.lines, Terminated line.2 := by
  rintro ⟨mark, text⟩ hline
  have hclean := h.cleanFrom hgroup
  obtain ⟨hold, hnew⟩ := aligned_shown (differ.aligned _ _) hgroup
  by_cases hmark : mark.old = true
  · exact hclean.old text (hold text (List.mem_filterMap.mpr ⟨(mark, text), hline, if_pos hmark⟩))
  · have hadded : mark.new = true := by cases mark <;> simp_all [Mark.old, Mark.new]
    exact hclean.new text (hnew text (List.mem_filterMap.mpr ⟨(mark, text), hline, if_pos hadded⟩))

/-- A plain change shows something. -/
theorem PlainChange.groups_ne_nil (h : PlainChange differ base candidate path)
    (hchanged : base.content path ≠ candidate.content path) :
    differ.groups (linesOf (base.content path)) (linesOf (candidate.content path)) ≠ [] := by
  intro hnone
  have haligned := differ.aligned (linesOf (base.content path)) (linesOf (candidate.content path))
  rw [hnone] at haligned
  have hsame : (linesOf (base.content path)).flatten = (linesOf (candidate.content path)).flatten :=
    congrArg List.flatten haligned
  rw [linesOf_flatten, linesOf_flatten] at hsame
  cases hafter : candidate.content path with
  | none => exact h.kept hafter
  | some after =>
    rw [hafter] at hsame hchanged
    cases hbefore : base.content path with
    | none =>
      rw [hbefore] at hsame
      have hempty : after = "" := String.toList_eq_nil_iff.mp hsame.symm
      exact h.filled hbefore (hafter.trans (congrArg some hempty))
    | some before =>
      rw [hbefore] at hsame hchanged
      exact hchanged (congrArg some (String.toList_inj.mp hsame))

/-- The chunks of a plainly changed path. -/
theorem PlainChange.chunks (h : PlainChange differ base candidate path)
    (hchanged : base.content path ≠ candidate.content path) :
    diffChunks differ base candidate path =
      ("diff --git a/".toList ++ (path.toList ++ (" b/".toList ++ path.toList)) ++ ['\n']) ::
      ("--- ".toList ++ ("a/".toList ++ path.toList) ++ ['\n']) ::
      ("+++ ".toList ++ ("b/".toList ++ path.toList) ++ ['\n']) ::
      (differ.groups (linesOf (base.content path)) (linesOf (candidate.content path))).flatMap Group.chunks := by
  unfold diffChunks unifiedDiff
  rw [if_neg hchanged]
  split
  · rename_i hnone
    exact absurd hnone (h.groups_ne_nil hchanged)
  · simp

/-- A chunk that is read as one line, which is not about the line before it. -/
structure Chunk (chunk : Text) : Prop where
  terminated : Terminated chunk
  start : chunk.head? ≠ some '\\'

theorem chunk_of_body {c : Char} {body : Text} (hbody : '\n' ∉ c :: body) (hstart : c ≠ '\\') :
    Chunk (c :: (body ++ ['\n'])) :=
  ⟨⟨c :: body, hbody, rfl⟩, by simpa using hstart⟩

theorem newline_formatRange (start length : Nat) : '\n' ∉ formatRangeUnified start length := by
  have hdigits : ∀ n, '\n' ∉ Nat.toDigits 10 n := fun n hmem =>
    absurd (Nat.isDigit_of_mem_toDigits (by decide) (by decide) hmem) (by decide)
  unfold formatRangeUnified
  split
  · exact hdigits _
  · split <;> simp [hdigits]

theorem chunk_group {group : Group} (hlines : ∀ line ∈ group.lines, Terminated line.2) :
    ∀ chunk ∈ group.chunks, Chunk chunk := by
  intro chunk hchunk
  rw [group.chunks_eq] at hchunk
  obtain rfl | hline := List.mem_cons.mp hchunk
  · refine ⟨⟨group.header, ?_, rfl⟩, nofun⟩
    simp [Group.header, newline_formatRange]
  · obtain ⟨⟨mark, text⟩, hmem, rfl⟩ := List.mem_map.mp hline
    obtain ⟨body, hbody, hcut⟩ := hlines _ hmem
    obtain rfl : text = body ++ ['\n'] := hcut
    have hmark : mark.char ≠ '\\' := by cases mark <;> decide
    refine chunk_of_body ?_ hmark
    cases mark <;> simpa [Mark.char] using hbody

theorem PlainChange.chunk (h : PlainChange differ base candidate path)
    (hchanged : base.content path ≠ candidate.content path) :
    ∀ chunk ∈ diffChunks differ base candidate path, Chunk chunk := by
  have hpath : '\n' ∉ path.toList := fun hmem => (h.named _ hmem).1 rfl
  intro chunk hchunk
  rw [h.chunks hchanged] at hchunk
  simp only [List.mem_cons, List.mem_flatMap] at hchunk
  obtain rfl | rfl | rfl | ⟨group, hgroup, hmem⟩ := hchunk
  · exact ⟨⟨_, by simpa using hpath, rfl⟩, nofun⟩
  · exact ⟨⟨_, by simpa using hpath, rfl⟩, nofun⟩
  · exact ⟨⟨_, by simpa using hpath, rfl⟩, nofun⟩
  · exact chunk_group (h.terminated hgroup) chunk hmem

theorem chunk_all (hplain : PlainlyChanged differ base candidate) (path : String) :
    ∀ chunk ∈ diffChunks differ base candidate path, Chunk chunk := by
  by_cases hchanged : base.content path = candidate.content path
  · intro chunk hchunk
    unfold diffChunks at hchunk
    rw [if_pos hchanged] at hchunk
    cases hchunk
  · exact (hplain path hchanged).chunk hchanged

/-- Chunks are read as they were written. -/
theorem lineEnds_chunks {chunks : List Text} (hchunks : ∀ chunk ∈ chunks, Chunk chunk) :
    lineEnds ((newlinePieces [] chunks.flatten).map chomp) = chunks.map chunkRecord := by
  have hpieces : newlinePieces [] chunks.flatten = chunks := by
    have happend : newlinePieces [] (chunks.flatten ++ []) = chunks ++ newlinePieces [] [] :=
      newlinePieces_append (fun chunk hchunk => (hchunks chunk hchunk).terminated)
    simpa [newlinePieces] using happend
  rw [hpieces]
  clear hpieces
  have hchomp : ∀ chunk, Chunk chunk → chomp chunk = chunk.dropLast ∧ (chomp chunk).head? ≠ some '\\' := by
    rintro chunk ⟨⟨body, hbody, rfl⟩, hstart⟩
    have hlast : chomp (body ++ ['\n']) = body := by
      unfold chomp
      rw [if_pos (by simp), List.dropLast_concat]
    rw [hlast, List.dropLast_concat]
    refine ⟨rfl, ?_⟩
    cases body with
    | nil =>
      intro hnone
      cases hnone
    | cons c body => exact hstart
  induction chunks with
  | nil => rfl
  | cons chunk chunks ih =>
    have hrest := ih (fun other hother => hchunks other (List.mem_cons_of_mem _ hother))
    have hfirst := (hchomp chunk (hchunks chunk List.mem_cons_self)).1
    cases chunks with
    | nil =>
      rw [List.map_cons, List.map_nil, lineEnds, hfirst]
      rfl
    | cons next chunks =>
      have hnext := (hchomp next (hchunks next (by simp))).2
      rw [List.map_cons, List.map_cons, lineEnds, if_neg hnext, ← List.map_cons, hrest, hfirst]
      rfl

/-- All the paths are read, and nothing else. -/
theorem readPatch_paths (hplain : PlainlyChanged differ base candidate) (paths : List String) :
    readPatch none 0 0 ((paths.flatMap (diffChunks differ base candidate)).map chunkRecord) =
      some ⟨[], [], paths.filterMap (changedFile differ base candidate)⟩ := by
  induction paths with
  | nil => rfl
  | cons path paths ih =>
    rw [List.flatMap_cons, List.map_append, List.filterMap_cons]
    by_cases hchanged : base.content path = candidate.content path
    · unfold diffChunks changedFile
      rw [if_pos hchanged, if_pos hchanged]
      exact ih
    · have hpath := hplain path hchanged
      have hrecord : ∀ body : Text, chunkRecord (body ++ ['\n']) = (body, ['\n']) := by
        intro body
        unfold chunkRecord
        rw [List.dropLast_concat]
      have hgit : headerLine none ("diff --git a/".toList ++ (path.toList ++ (" b/".toList ++ path.toList))) =
          .other := rfl
      have hold : headerLine none ("--- ".toList ++ ("a/".toList ++ path.toList)) =
          .old ("a/".toList ++ path.toList) := by
        unfold headerLine
        rw [literal_append]
      have hnew : headerLine (some ("a/".toList ++ path.toList)) ("+++ ".toList ++ ("b/".toList ++ path.toList)) =
          .file ("a/".toList ++ path.toList) ("b/".toList ++ path.toList) := by
        have hnone : literal "--- ".toList ("+++ ".toList ++ ("b/".toList ++ path.toList)) = none := rfl
        unfold headerLine
        rw [hnone, literal_append]
      have hgroups := @readPatch_groups ((paths.flatMap (diffChunks differ base candidate)).map chunkRecord) _
        (fun group hgroup => hpath.terminated hgroup)
      rw [hpath.chunks hchanged, List.map_cons, List.map_cons, List.map_cons, hrecord, hrecord, hrecord]
      simp only [List.cons_append]
      rw [readPatch, if_pos ⟨rfl, rfl⟩]
      simp only [hgit]
      rw [readPatch, if_pos ⟨rfl, rfl⟩]
      simp only [hold]
      rw [readPatch, if_pos ⟨rfl, rfl⟩]
      simp only [hnew]
      rw [hgroups, ih]
      unfold changedFile
      rw [if_neg hchanged]
      simp

end Chunks

section Applied

variable {path : String} {tree : Contents}

theorem namedPath_new (hnamed : ∀ c ∈ path.toList, c ≠ '\n' ∧ c ≠ '\t') :
    namedPath ("b/".toList ++ path.toList) = path.toList := by
  have hroot : ∀ c ∈ "b/".toList, (c != '\t') = true := List.all_eq_true.mp rfl
  have hname : ∀ c ∈ "b/".toList ++ path.toList, (c != '\t') = true := by
    intro c hc
    obtain hstart | hpath := List.mem_append.mp hc
    · exact hroot c hstart
    · exact bne_iff_ne.mpr (hnamed c hpath).2
  unfold namedPath
  rw [List.takeWhile_eq_self_iff.mpr hname]
  rfl

/-- A plain change, applied to the text it was derived from. -/
theorem PlainChange.apply (h : PlainChange differ base candidate path)
    (hchanged : base.content path ≠ candidate.content path)
    (htree : tree path.toList = (base.content path).map String.toList) {file : FilePatch}
    (hfile : changedFile differ base candidate path = some file) :
    FilePatch.apply tree file =
      some (Function.update tree path.toList ((candidate.content path).map String.toList)) := by
  unfold changedFile at hfile
  rw [if_neg hchanged] at hfile
  obtain rfl := Option.some.inj hfile
  have hkept : "b/".toList ++ path.toList ≠ devNull := nofun
  have happlied := applyHunks_groups (differ.aligned (linesOf (base.content path))
    (linesOf (candidate.content path))) (fun group hgroup => h.cleanFrom hgroup)
  unfold FilePatch.apply
  simp only [if_neg hkept, namedPath_new h.named, htree]
  rw [linesOf_flatten, linesOf_flatten] at happlied
  obtain ⟨lines, hlines, hflat⟩ := Option.map_eq_some_iff.mp happlied
  rw [hlines, Option.bind_some, hflat]
  cases hafter : candidate.content path with
  | none => exact absurd hafter h.kept
  | some after => rfl

/-- Changes of different paths, one after the other. -/
theorem foldlM_paths (hplain : PlainlyChanged differ base candidate) {paths : List String}
    (hnodup : paths.Nodup)
    (htree : ∀ path ∈ paths, tree path.toList = (base.content path).map String.toList) :
    (paths.filterMap (changedFile differ base candidate)).foldlM FilePatch.apply tree =
      some (fun text => if String.ofList text ∈ paths then candidate.contents text else tree text) := by
  induction paths generalizing tree with
  | nil => simp
  | cons path paths ih =>
    obtain ⟨hnew, hrest⟩ := List.nodup_cons.mp hnodup
    have hthis := htree path List.mem_cons_self
    by_cases hchanged : base.content path = candidate.content path
    · have hnone : changedFile differ base candidate path = none := if_pos hchanged
      rw [List.filterMap_cons_none hnone, ih hrest (fun other hother => htree other (List.mem_cons_of_mem _ hother))]
      congr 1
      funext text
      by_cases htext : String.ofList text = path
      · obtain rfl := htext
        rw [if_neg hnew, if_pos List.mem_cons_self]
        rw [String.toList_ofList] at hthis
        rw [hthis, hchanged]
        rfl
      · simp [htext]
    · obtain ⟨file, hfile⟩ : ∃ file, changedFile differ base candidate path = some file :=
        ⟨_, if_neg hchanged⟩
      have hother : ∀ other ∈ paths, Function.update tree path.toList
          ((candidate.content path).map String.toList) other.toList = (base.content other).map String.toList := by
        intro other hother
        have hne : other.toList ≠ path.toList := fun heq => hnew (String.toList_inj.mp heq ▸ hother)
        rw [Function.update_of_ne hne]
        exact htree other (List.mem_cons_of_mem _ hother)
      rw [List.filterMap_cons_some hfile, List.foldlM_cons,
        (hplain path hchanged).apply hchanged hthis hfile, Option.bind_eq_bind, Option.bind_some,
        ih hrest hother]
      congr 1
      funext text
      by_cases htext : String.ofList text = path
      · obtain rfl := htext
        rw [if_neg hnew, if_pos List.mem_cons_self, String.toList_ofList, Function.update_self]
        rfl
      · have hne : text ≠ path.toList := by
          rintro rfl
          exact htext String.ofList_toList
        simp [htext, Function.update_of_ne hne]

theorem mem_bothPaths (hpath : base.content path ≠ candidate.content path) :
    path ∈ bothPaths base candidate := by
  unfold bothPaths sortedPaths
  rw [List.mem_insertionSort, List.mem_dedup, List.mem_append]
  by_contra hnone
  rw [not_or] at hnone
  have hbase : base.content path = none := by
    unfold CandidateTree.content
    rw [Keyed.get_none.mpr hnone.1]
    rfl
  have hcandidate : candidate.content path = none := by
    unfold CandidateTree.content
    rw [Keyed.get_none.mpr hnone.2]
    rfl
  exact hpath (hbase.trans hcandidate.symm)

theorem bothPaths_nodup : (bothPaths base candidate).Nodup := by
  unfold bothPaths sortedPaths
  exact (List.perm_insertionSort _ _).nodup_iff.mpr (List.nodup_dedup _)

/-- What plain changes derive, applied to the base. -/
theorem applyUnifiedDiff_derived (hplain : PlainlyChanged differ base candidate) :
    applyUnifiedDiff (((bothPaths base candidate).flatMap (diffChunks differ base candidate)).flatten)
      base.contents = some candidate.contents := by
  have hchunks : ∀ chunk ∈ (bothPaths base candidate).flatMap (diffChunks differ base candidate), Chunk chunk := by
    intro chunk hchunk
    obtain ⟨path, -, hmem⟩ := List.mem_flatMap.mp hchunk
    exact chunk_all hplain path chunk hmem
  have hfiles : readFiles (((bothPaths base candidate).flatMap (diffChunks differ base candidate)).flatten) =
      some ((bothPaths base candidate).filterMap (changedFile differ base candidate)) := by
    unfold readFiles
    rw [lineEnds_chunks hchunks, readPatch_paths hplain]
    rfl
  have hbase : ∀ path ∈ bothPaths base candidate,
      base.contents path.toList = (base.content path).map String.toList := by
    intro path _
    unfold CandidateTree.contents
    rw [String.ofList_toList]
  unfold applyUnifiedDiff
  rw [hfiles, Option.bind_some, foldlM_paths hplain bothPaths_nodup hbase]
  congr 1
  funext text
  split
  · rfl
  · rename_i hnone
    have hsame : base.content (String.ofList text) = candidate.content (String.ofList text) :=
      not_not.mp (fun hne => hnone (mem_bothPaths hne))
    unfold CandidateTree.contents
    rw [hsame]

end Applied

section Example

/-- All lines in one group, the old ones first. -/
def wholeGroup (old new : List Text) : Group :=
  ⟨0, 0, old.map (fun line => (.removed, line)) ++ new.map (fun line => (.added, line))⟩

def wholeDiffer : Differ where
  groups old new := if old = new then [] else [wholeGroup old new]
  aligned old new := by
    have hold : (wholeGroup old new).old = old := by
      simp [Group.old, wholeGroup, Mark.old, List.filterMap_append, List.filterMap_map]
    have hnew : (wholeGroup old new).new = new := by
      simp [Group.new, wholeGroup, Mark.new, List.filterMap_append, List.filterMap_map]
    split
    · assumption
    · rename_i hne
      refine ⟨?_, [], [], [], by simp [hold], by simp [hnew], rfl, rfl, rfl⟩
      intro hnone
      obtain ⟨hnoOld, hnoNew⟩ := List.append_eq_nil_iff.mp hnone
      rw [List.map_eq_nil_iff] at hnoOld hnoNew
      exact hne (hnoOld.trans hnoNew.symm)

/-- The library on paths in ASCII. -/
def pathLibrary : Library := ⟨id, id, fun _ => ""⟩

def appTree (content : String) (h : checkFiles pathLibrary [⟨"src/app.py", content⟩] ["src/*.py"] = .ok ()) :
    CandidateTree pathLibrary :=
  ⟨[⟨"src/app.py", content⟩], ["src/*.py"], h⟩

theorem appTree_content {content : String} (h) (path : String) :
    (appTree content h).content path = if path = "src/app.py" then some content else none := by
  by_cases hpath : path = "src/app.py"
  · subst hpath
    rfl
  · have hne : ¬"src/app.py" = path := fun heq => hpath heq.symm
    simp [CandidateTree.content, appTree, Keyed.get, hne, hpath]

def oldTree : CandidateTree pathLibrary := appTree "old\n" (by decide +kernel)

def newTree : CandidateTree pathLibrary := appTree "new\n" (by decide +kernel)

def openTree : CandidateTree pathLibrary := appTree "a" (by decide +kernel)

def closedTree : CandidateTree pathLibrary := appTree "a\n" (by decide +kernel)

def emptiedTree : CandidateTree pathLibrary := appTree "" (by decide +kernel)

def deletedTree : CandidateTree pathLibrary := ⟨[], ["src/*.py"], by decide +kernel⟩

end Example

end Solvan.Repair

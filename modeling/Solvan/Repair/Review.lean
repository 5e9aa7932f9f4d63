import Mathlib.Tactic.FinCases
import Solvan.Repair.DiffFormat

/-! What the parser shows of a unified diff: the whole change exactly when no line
of it passes for another. -/
namespace Solvan.Repair
open Solvan.Base

variable {s s' : ParseState} {raw text : Text} {current : DiffFile} {files : List DiffFile}

theorem parseLoop_cons {rest : List Text} (h : parseLoop s (raw :: rest) = some (s', false)) :
    ∃ middle, s.line raw = .next middle ∧ parseLoop middle rest = some (s', false) := by
  unfold parseLoop at h
  split at h
  · cases h
  · split at h
    · cases h
    · cases h
    · exact ⟨_, ‹_›, h⟩

theorem parseLoop_append {first second : List Text}
    (h : parseLoop s (first ++ second) = some (s', false)) :
    ∃ middle, parseLoop s first = some (middle, false) ∧ parseLoop middle second = some (s', false) := by
  induction first generalizing s with
  | nil => exact ⟨s, rfl, h⟩
  | cons raw first ih =>
    rw [List.cons_append, parseLoop] at h
    split at h
    · cases h
    · rename_i hroom
      split at h
      · cases h
      · cases h
      · rename_i next hline
        obtain ⟨middle, hfirst, hsecond⟩ := ih h
        refine ⟨middle, ?_, hsecond⟩
        simp only [parseLoop, if_neg hroom, hline]
        exact hfirst

theorem rawLine_context : rawLine (' ' :: text) = .context text := by
  simp [rawLine, headerStarts, hunkStarts, literal]

theorem rawLine_note : rawLine noNewline = .note := by decide

theorem rawLine_removed : rawLine ('-' :: text) =
    if "-- ".toList.isPrefixOf text then .header else .remove text := by
  simp [rawLine, headerStarts, hunkStarts, literal]

theorem rawLine_added : rawLine ('+' :: text) =
    if "++ ".toList.isPrefixOf text then .file (headerPath (text.drop 3)) else .add text := by
  simp [rawLine, headerStarts, hunkStarts, literal]

/-- A line with its text clipped. -/
def DiffLine.clipped (line : DiffLine) : DiffLine := { line with text := clip line.text }

/-- No line of the file is taken for a header. -/
def PatchLine.Unmistaken (line : PatchLine) : Prop :=
  (line.mark = .removed → "-- ".toList.isPrefixOf line.text.val = false) ∧
    (line.mark = .added → "++ ".toList.isPrefixOf line.text.val = false)

theorem line_note : s.line noNewline = .next s := by
  unfold ParseState.line
  rw [rawLine_note]
  cases s.files <;> rfl

/-- One line of a hunk in the current file. -/
theorem line_run {line : PatchLine} (hplain : line.Unmistaken) (hfiles : s.files = current :: files)
    (h : parseLoop s line.rawLines = some (s', false)) :
    s' = s.emit current files
      ⟨line.mark.kind, if line.mark.old then some s.oldLine else none,
        if line.mark.new then some s.newLine else none, clip line.text.val⟩ := by
  obtain ⟨middle, hline, hrest⟩ := parseLoop_cons h
  have hsame : middle = s' := by
    cases hend : line.unterminated with
    | false =>
      rw [hend] at hrest
      exact (Prod.mk.inj (Option.some.inj hrest)).1
    | true =>
      rw [hend] at hrest
      obtain ⟨last, hnote, hnil⟩ := parseLoop_cons hrest
      rw [line_note] at hnote
      rw [Parsed.next.inj hnote]
      exact (Prod.mk.inj (Option.some.inj hnil)).1
  subst hsame
  unfold PatchLine.raw ParseState.line at hline
  cases hmark : line.mark with
  | context =>
    rw [hmark, Mark.char, rawLine_context, hfiles] at hline
    exact (Parsed.next.inj hline).symm
  | added =>
    rw [hmark, Mark.char, rawLine_added, hplain.2 hmark, hfiles] at hline
    exact (Parsed.next.inj hline).symm
  | removed =>
    rw [hmark, Mark.char, rawLine_removed, hplain.1 hmark, hfiles] at hline
    exact (Parsed.next.inj hline).symm

def countMark (mark : Mark) (lines : List PatchLine) : Nat := lines.countP (fun line => line.mark == mark)

/-- The lines of a file that carry its text. -/
def DiffFile.shown (file : DiffFile) : List DiffLine := file.lines.filter (fun line => line.kind != .meta_)

/-- A file with more lines. -/
structure Grown (current current' : DiffFile) (shown : List DiffLine) (patch : List PatchLine) : Prop where
  path : current'.path = current.path
  shown : current'.shown = current.shown ++ shown
  added : current'.added = current.added + countMark .added patch
  removed : current'.removed = current.removed + countMark .removed patch

theorem Grown.trans {second third : DiffFile} {shown shown' : List DiffLine} {patch patch' : List PatchLine}
    (h : Grown current second shown patch) (h' : Grown second third shown' patch') :
    Grown current third (shown ++ shown') (patch ++ patch') where
  path := h'.path.trans h.path
  shown := by rw [h'.shown, h.shown, List.append_assoc]
  added := by
    rw [h'.added, h.added, countMark, countMark, countMark, List.countP_append, Nat.add_assoc]
  removed := by
    rw [h'.removed, h.removed, countMark, countMark, countMark, List.countP_append, Nat.add_assoc]

theorem grown_refl (current : DiffFile) : Grown current current [] [] :=
  ⟨rfl, (List.append_nil _).symm, rfl, rfl⟩

/-- A line of a hunk as the parser shows it, at the numbers of the state. -/
def PatchLine.shownAt (line : PatchLine) (s : ParseState) : DiffLine :=
  ⟨line.mark.kind, if line.mark.old then some s.oldLine else none,
    if line.mark.new then some s.newLine else none, clip line.text.val⟩

theorem grown_push (current : DiffFile) (line : PatchLine) (s : ParseState) :
    Grown current (current.push (line.shownAt s)) [line.shownAt s] [line] := by
  refine ⟨rfl, ?_, ?_, ?_⟩
  · unfold DiffFile.shown DiffFile.push PatchLine.shownAt
    cases line.mark <;> simp [Mark.kind]
  · unfold DiffFile.push PatchLine.shownAt countMark
    cases hmark : line.mark <;> simp [Mark.kind, hmark]
  · unfold DiffFile.push PatchLine.shownAt countMark
    cases hmark : line.mark <;> simp [Mark.kind, hmark]

theorem numbered_clipped (line : PatchLine) (lines : List PatchLine) (s : ParseState) :
    (numbered s.oldLine s.newLine (line :: lines)).map DiffLine.clipped =
      line.shownAt s :: (numbered (s.oldLine + if line.mark.old then 1 else 0)
        (s.newLine + if line.mark.new then 1 else 0) lines).map DiffLine.clipped := by
  rw [numbered, List.map_cons]
  rfl

theorem lines_run {lines : List PatchLine} (hplain : ∀ line ∈ lines, line.Unmistaken)
    (hfiles : s.files = current :: files)
    (h : parseLoop s (lines.flatMap PatchLine.rawLines) = some (s', false)) :
    ∃ current', s'.files = current' :: files ∧
      Grown current current' ((numbered s.oldLine s.newLine lines).map DiffLine.clipped) lines := by
  induction lines generalizing s current with
  | nil =>
    obtain ⟨rfl, _⟩ := Prod.mk.inj (Option.some.inj h)
    exact ⟨current, hfiles, grown_refl current⟩
  | cons line lines ih =>
    obtain ⟨middle, hfirst, hrest⟩ := parseLoop_append h
    have hmiddle : middle = s.emit current files (line.shownAt s) :=
      line_run (hplain line List.mem_cons_self) hfiles hfirst
    have hold : middle.oldLine = s.oldLine + if line.mark.old then 1 else 0 := by
      rw [hmiddle, ParseState.emit, PatchLine.shownAt]
      cases line.mark <;> rfl
    have hnew : middle.newLine = s.newLine + if line.mark.new then 1 else 0 := by
      rw [hmiddle, ParseState.emit, PatchLine.shownAt]
      cases line.mark <;> rfl
    have hpushed : middle.files = current.push (line.shownAt s) :: files := by rw [hmiddle]; rfl
    obtain ⟨current', hfiles', hgrown⟩ :=
      ih (fun line hline => hplain line (List.mem_cons_of_mem _ hline)) hpushed hrest
    refine ⟨current', hfiles', ?_⟩
    rw [hold, hnew] at hgrown
    rw [numbered_clipped]
    exact (grown_push current line s).trans hgrown

theorem decimal_of_isDigit {c : Char} (h : c.isDigit = true) : decimal c = some (c.toNat - 48) := by
  have hrange : 48 ≤ c.toNat ∧ c.toNat < 58 := by
    simp only [Char.isDigit, Bool.and_eq_true, decide_eq_true_eq, ge_iff_le, UInt32.le_iff_toNat_le] at h
    exact ⟨h.1, Nat.lt_succ_of_le h.2⟩
  unfold decimal decimalZeros
  rw [List.find?_cons_of_pos (by simpa using hrange)]
  rfl

theorem isDigit_toDigits {n : Nat} {c : Char} (hc : c ∈ Nat.toDigits 10 n) : c.isDigit = true :=
  Nat.isDigit_of_mem_toDigits (by decide) (by decide) hc

/-- The digits of a number, and what comes after. -/
theorem digits_toDigits {n : Nat} {rest : Text} (hrest : ∀ c ∈ rest.head?, decimal c = none) :
    digits (Nat.toDigits 10 n ++ rest) = some (Nat.toDigits 10 n, rest) := by
  have hall : ∀ c ∈ Nat.toDigits 10 n, (decimal c).isSome = true := by
    intro c hc
    rw [decimal_of_isDigit (isDigit_toDigits hc)]
    rfl
  have hstop : rest.takeWhile (fun c => (decimal c).isSome) = [] ∧
      rest.dropWhile (fun c => (decimal c).isSome) = rest := by
    cases rest with
    | nil => exact ⟨rfl, rfl⟩
    | cons c rest =>
      have hc : decimal c = none := hrest c rfl
      simp [hc]
  unfold digits
  rw [List.takeWhile_append_of_pos hall, List.dropWhile_append_of_pos hall, hstop.1, hstop.2,
    List.append_nil]
  have hne : Nat.toDigits 10 n ≠ [] := Nat.toDigits_ne_nil
  simp [hne]

theorem parseInt_toDigits {n value : Nat} (h : parseInt (Nat.toDigits 10 n) = some value) : value = n := by
  have hfold : ∀ (ds : Text) (start : Nat), (∀ c ∈ ds, c.isDigit = true) →
      ds.foldl (fun value c => 10 * value + (decimal c).getD 0) start = Nat.ofDigitChars 10 ds start := by
    intro ds
    induction ds with
    | nil => exact fun _ _ => rfl
    | cons c ds ih =>
      intro start hdigits
      rw [List.foldl_cons, Nat.ofDigitChars_cons,
        ih _ (fun c hc => hdigits c (List.mem_cons_of_mem _ hc)),
        decimal_of_isDigit (hdigits c List.mem_cons_self)]
      rfl
  unfold parseInt at h
  split at h
  · rw [hfold _ 0 (fun c hc => isDigit_toDigits hc), Nat.ofDigitChars_ten_toDigits] at h
    exact (Option.some.inj h).symm
  · cases h

/-- A range reads back as its start, whether its count stands or not. -/
theorem range_read {start count : Nat} {brief : Bool} {rest : Text}
    (hrest : ∀ c ∈ rest.head?, decimal c = none ∧ c ≠ ',') :
    range (rangeText start count brief ++ rest) = some (Nat.toDigits 10 start, rest) := by
  have hdecimal : ∀ c ∈ rest.head?, decimal c = none := fun c hc => (hrest c hc).1
  have hcomma : decimal ',' = none := by decide
  unfold range rangeText
  split
  · have hnone : optionalCount rest = some rest := by
      unfold optionalCount
      split
      · exact absurd rfl (hrest ',' rfl).2
      · rfl
    rw [List.append_nil, digits_toDigits hdecimal]
    simp [hnone]
  · have hcount : optionalCount (',' :: Nat.toDigits 10 count ++ rest) = some rest := by
      rw [List.cons_append, optionalCount, digits_toDigits hdecimal]
      rfl
    rw [List.append_assoc, digits_toDigits (by rintro c hc; obtain rfl := Option.some.inj hc; exact hcomma)]
    simp only [Option.bind_eq_bind, Option.bind_some, hcount]
    rfl

theorem hunkStarts_header (hunk : Hunk) :
    hunkStarts hunk.header = some (Nat.toDigits 10 hunk.oldStart, Nat.toDigits 10 hunk.newStart) := by
  have hspace : decimal ' ' = none := by decide
  unfold hunkStarts Hunk.header
  rw [literal_append]
  simp only [Option.bind_eq_bind, Option.bind_some]
  rw [range_read (by rintro c hc; obtain rfl := Option.some.inj hc; exact ⟨hspace, by decide⟩)]
  simp only [Option.bind_some, literal_append]
  rw [range_read (by rintro c hc; obtain rfl := Option.some.inj hc; exact ⟨hspace, by decide⟩)]
  simp only [Option.bind_some, literal_append]
  rfl

theorem rawLine_hunk (hunk : Hunk) :
    rawLine hunk.header = .hunk (Nat.toDigits 10 hunk.oldStart) (Nat.toDigits 10 hunk.newStart) := by
  have hstarts := hunkStarts_header hunk
  have hat : hunk.header = '@' :: hunk.header.tail := rfl
  unfold rawLine
  rw [hstarts, hat]
  simp [headerStarts]

/-- A hunk in the current file. -/
theorem hunk_run {hunk : Hunk} (hplain : ∀ line ∈ hunk.lines, line.Unmistaken)
    (hfiles : s.files = current :: files) (h : parseLoop s hunk.rawLines = some (s', false)) :
    ∃ current', s'.files = current' :: files ∧
      Grown current current' (hunk.numbered.map DiffLine.clipped) hunk.lines := by
  obtain ⟨middle, hline, hrest⟩ := parseLoop_cons h
  unfold ParseState.line at hline
  rw [rawLine_hunk, hfiles] at hline
  simp only at hline
  split at hline
  · rename_i old new hold hnew
    obtain rfl := parseInt_toDigits hold
    obtain rfl := parseInt_toDigits hnew
    obtain rfl := Parsed.next.inj hline
    obtain ⟨current', hfiles', hgrown⟩ := lines_run hplain rfl hrest
    have hmeta : Grown current (current.push ⟨.meta_, none, none, clip hunk.header⟩) [] [] := by
      refine ⟨rfl, ?_, rfl, rfl⟩
      unfold DiffFile.shown DiffFile.push
      simp
    exact ⟨current', hfiles', hmeta.trans hgrown⟩
  · cases hline

theorem hunks_run {hunks : List Hunk} (hplain : ∀ line ∈ hunks.flatMap Hunk.lines, line.Unmistaken)
    (hfiles : s.files = current :: files)
    (h : parseLoop s (hunks.flatMap Hunk.rawLines) = some (s', false)) :
    ∃ current', s'.files = current' :: files ∧
      Grown current current' ((hunks.flatMap Hunk.numbered).map DiffLine.clipped)
        (hunks.flatMap Hunk.lines) := by
  induction hunks generalizing s current with
  | nil =>
    obtain ⟨rfl, _⟩ := Prod.mk.inj (Option.some.inj h)
    exact ⟨current, hfiles, grown_refl current⟩
  | cons hunk hunks ih =>
    obtain ⟨middle, hfirst, hrest⟩ := parseLoop_append h
    rw [List.flatMap_cons] at hplain
    obtain ⟨next, hnext, hgrown⟩ :=
      hunk_run (fun line hline => hplain line (List.mem_append_left _ hline)) hfiles hfirst
    obtain ⟨last, hlast, hgrown'⟩ :=
      ih (fun line hline => hplain line (List.mem_append_right _ hline)) hnext hrest
    refine ⟨last, hlast, ?_⟩
    rw [List.flatMap_cons, List.flatMap_cons, List.map_append]
    exact hgrown.trans hgrown'

/-- A header of git is skipped, or passes for a line of context. -/
theorem rawLine_extended (h : extendedStarts.any (fun start => start.isPrefixOf raw) = true) :
    rawLine raw =
      if headerStarts.any (fun start => start.isPrefixOf raw) then .header else .context raw := by
  obtain ⟨start, hstart, hraw⟩ := List.any_eq_true.mp h
  obtain ⟨rest, rfl⟩ := List.isPrefixOf_iff_prefix.mp hraw
  unfold extendedStarts at hstart
  fin_cases hstart <;> simp [rawLine, headerStarts, hunkStarts, literal]

/-- The headers before a file, where they are skipped or there is no file yet. -/
theorem extended_run {lines : List LineText}
    (hextended : ∀ line ∈ lines, extendedStarts.any (fun start => start.isPrefixOf line.val) = true)
    (hskipped : s.files = [] ∨
      ∀ line ∈ lines, headerStarts.any (fun start => start.isPrefixOf line.val) = true)
    (h : parseLoop s (lines.map Subtype.val) = some (s', false)) : s' = s := by
  induction lines with
  | nil => exact (Prod.mk.inj (Option.some.inj h)).1.symm
  | cons line lines ih =>
    obtain ⟨middle, hline, hrest⟩ := parseLoop_cons h
    have hsame : s.line line.val = .next s := by
      unfold ParseState.line
      rw [rawLine_extended (hextended line List.mem_cons_self)]
      rcases hskipped with hnone | hknown
      · rw [hnone]
        cases headerStarts.any (fun start => start.isPrefixOf line.val) <;> rfl
      · rw [if_pos (hknown line List.mem_cons_self)]
    rw [hsame] at hline
    obtain rfl := Parsed.next.inj hline
    refine ih (fun line hline => hextended line (List.mem_cons_of_mem _ hline)) ?_ hrest
    exact hskipped.imp_right (fun hknown line hline => hknown line (List.mem_cons_of_mem _ hline))

/-- A file of a diff as the parser shows it. -/
def ShownAs (change : FileChange) (file : DiffFile) : Prop :=
  Grown ⟨headerPath change.newName, 0, 0, []⟩ file
    ((change.hunks.flatMap Hunk.numbered).map DiffLine.clipped) change.patchLines

theorem rawLine_old (name : Text) : rawLine ("--- ".toList ++ name) = .header := by
  simp [rawLine, headerStarts]

theorem rawLine_new (name : Text) : rawLine ("+++ ".toList ++ name) = .file (headerPath name) := by
  simp [rawLine]

theorem file_run {change : FileChange} (hplain : ∀ line ∈ change.patchLines, line.Unmistaken)
    (hskipped : s.files = [] ∨ change.KnownHeaders)
    (h : parseLoop s change.rawLines = some (s', false)) :
    ∃ file, s'.files = file :: s.files ∧ ShownAs change file := by
  obtain ⟨middle, hextended, hrest⟩ := parseLoop_append h
  obtain rfl := extended_run change.headers hskipped hextended
  obtain ⟨next, hold, hrest⟩ := parseLoop_cons hrest
  have hsame : middle.line ("--- ".toList ++ change.oldName) = .next middle := by
    unfold ParseState.line
    rw [rawLine_old]
  rw [hsame] at hold
  obtain rfl := Parsed.next.inj hold
  obtain ⟨next, hnew, hrest⟩ := parseLoop_cons hrest
  unfold ParseState.line at hnew
  rw [rawLine_new] at hnew
  simp only at hnew
  split at hnew
  · cases hnew
  · obtain rfl := Parsed.next.inj hnew
    exact hunks_run hplain rfl hrest

theorem diff_run {diff : UnifiedDiff} (hplain : ∀ file ∈ diff, ∀ line ∈ file.patchLines, line.Unmistaken)
    (hskipped : (s.files = [] ∧ ∀ file ∈ diff.tail, file.KnownHeaders) ∨
      ∀ file ∈ diff, file.KnownHeaders)
    (h : parseLoop s diff.rawLines = some (s', false)) :
    ∃ shown, s'.files = shown.reverse ++ s.files ∧ List.Forall₂ ShownAs diff shown := by
  induction diff generalizing s with
  | nil =>
    obtain ⟨rfl, _⟩ := Prod.mk.inj (Option.some.inj h)
    exact ⟨[], rfl, .nil⟩
  | cons change diff ih =>
    obtain ⟨middle, hfirst, hrest⟩ := parseLoop_append h
    have hthis : s.files = [] ∨ change.KnownHeaders :=
      hskipped.imp And.left (fun hknown => hknown change List.mem_cons_self)
    have hlater : ∀ file ∈ diff, file.KnownHeaders :=
      hskipped.elim And.right (fun hknown file hfile => hknown file (List.mem_cons_of_mem _ hfile))
    obtain ⟨file, hfile, hshown⟩ := file_run (hplain change List.mem_cons_self) hthis hfirst
    obtain ⟨shown, hfiles, hall⟩ :=
      ih (fun file hfile => hplain file (List.mem_cons_of_mem _ hfile)) (.inr hlater) hrest
    refine ⟨file :: shown, ?_, .cons hshown hall⟩
    rw [hfiles, hfile]
    simp

theorem clip_eq {text : Text} : clip text = text ↔ text.length ≤ maxLineLength ∨
    (text.length = maxLineLength + 1 ∧ text.getLast? = some '…') := by
  unfold clip
  split
  · rename_i hshort
    exact ⟨fun _ => .inl hshort, fun _ => rfl⟩
  · rename_i hlong
    constructor
    · intro heq
      right
      have hlength : text.length = maxLineLength + 1 := by
        have hboth := congrArg List.length heq
        rw [List.length_append, List.length_take, List.length_singleton] at hboth
        omega
      refine ⟨hlength, ?_⟩
      rw [← heq, List.getLast?_append]
      rfl
    · rintro (hshort | ⟨hlength, hlast⟩)
      · exact absurd hshort hlong
      · obtain ⟨front, rfl⟩ := List.getLast?_eq_some_iff.mp hlast
        rw [List.length_append, List.length_singleton] at hlength
        rw [List.take_append_of_le_length (by omega), List.take_of_length_le (by omega)]

theorem numbered_says (old new : Nat) (lines : List PatchLine) :
    (numbered old new lines).map (fun line => (line.kind, line.text)) =
      lines.map (fun line => (line.mark.kind, line.text.val)) := by
  induction lines generalizing old new with
  | nil => rfl
  | cons line lines ih => rw [numbered, List.map_cons, List.map_cons, ih]

theorem hunks_say (hunks : List Hunk) :
    (hunks.flatMap Hunk.numbered).map (fun line => (line.kind, line.text)) =
      (hunks.flatMap Hunk.lines).map (fun line => (line.mark.kind, line.text.val)) := by
  induction hunks with
  | nil => rfl
  | cons hunk hunks ih =>
    rw [List.flatMap_cons, List.flatMap_cons, List.map_append, List.map_append, ih, Hunk.numbered,
      numbered_says]

theorem texts_hunks (hunks : List Hunk) : (hunks.flatMap Hunk.numbered).map DiffLine.text =
    (hunks.flatMap Hunk.lines).map (fun line => line.text.val) := by
  have hboth := congrArg (List.map Prod.snd) (hunks_say hunks)
  rwa [List.map_map, List.map_map] at hboth

theorem kinds_hunks (hunks : List Hunk) : (hunks.flatMap Hunk.numbered).map DiffLine.kind =
    (hunks.flatMap Hunk.lines).map (fun line => line.mark.kind) := by
  have hboth := congrArg (List.map Prod.fst) (hunks_say hunks)
  rwa [List.map_map, List.map_map] at hboth

/-- Clipping changes nothing but what is too long. -/
theorem clipped_eq {lines : List DiffLine} :
    lines.map DiffLine.clipped = lines ↔ ∀ text ∈ lines.map DiffLine.text, clip text = text := by
  induction lines with
  | nil => simp
  | cons line lines ih =>
    rw [List.map_cons, List.map_cons, List.forall_mem_cons, List.cons.injEq, ih]
    refine and_congr_left' ⟨fun heq => congrArg DiffLine.text heq, fun heq => ?_⟩
    unfold DiffLine.clipped
    rw [heq]

theorem headerPath_kept {change : FileChange} (hkept : change.fate ≠ .deleted) :
    headerPath change.newName = change.path.val := by
  have hname : "b/".toList ++ change.path.val = 'b' :: '/' :: change.path.val := rfl
  have hstrip : strip ("b/".toList ++ change.path.val) = "b/".toList ++ change.path.val := by
    have hdrop : ('b' :: '/' :: change.path.val).dropWhile isSpace = 'b' :: '/' :: change.path.val :=
      List.dropWhile_cons_of_neg (by decide)
    unfold strip
    rw [hname, hdrop, List.rdropWhile_eq_self_iff]
    intro hne
    have hlast : ('b' :: '/' :: change.path.val).getLast hne = change.path.val.getLast change.nonempty := by
      rw [List.getLast_cons (List.cons_ne_nil _ _), List.getLast_cons change.nonempty]
    rw [hlast, change.named _ (List.getLast?_eq_some_getLast change.nonempty)]
    exact Bool.false_ne_true
  unfold headerPath FileChange.newName
  rw [if_neg hkept, hstrip]
  have hnonempty : change.path.val.isEmpty = false := by simp [change.nonempty]
  simp [hnonempty]

theorem headerPath_deleted {change : FileChange} (hdeleted : change.fate = .deleted) :
    headerPath change.newName ≠ change.path.val := by
  intro heq
  refine change.relative ?_
  rw [← heq, FileChange.newName, if_pos hdeleted]
  decide

/-- What is shown of a file says its change when nothing is clipped and it has its own path. -/
theorem saysFile_iff {change : FileChange} {file : DiffFile} (h : ShownAs change file) :
    SaysFile change file ↔ change.fate ≠ .deleted ∧
      ∀ line ∈ change.patchLines, clip line.text.val = line.text.val := by
  have hshown : file.shown = (change.hunks.flatMap Hunk.numbered).map DiffLine.clipped := h.shown
  have hclipped : (change.hunks.flatMap Hunk.numbered).map DiffLine.clipped =
      change.hunks.flatMap Hunk.numbered ↔
        ∀ line ∈ change.patchLines, clip line.text.val = line.text.val := by
    rw [clipped_eq, texts_hunks]
    simp only [List.forall_mem_map]
    rfl
  constructor
  · intro htold
    refine ⟨fun hdeleted => headerPath_deleted hdeleted (h.path.symm.trans htold.path), ?_⟩
    exact hclipped.mp (hshown.symm.trans htold.lines)
  · rintro ⟨hkept, hclip⟩
    exact ⟨h.path.trans (headerPath_kept hkept), hshown.trans (hclipped.mpr hclip),
      h.added.trans (Nat.zero_add _), h.removed.trans (Nat.zero_add _)⟩

/-! Counting: a line that passes for another is missing from what is shown, or one too many. -/

def RawLine.isFile : RawLine → Bool
  | .file _ => true
  | _ => false

/-- Whether a line is shown as one of a kind. -/
def RawLine.shows (kind : LineKind) : RawLine → Bool
  | .hunk _ _ => .meta_ == kind
  | .add _ => .add == kind
  | .remove _ => .remove == kind
  | .context _ => .context == kind
  | _ => false

def tally (kind : LineKind) (files : List DiffFile) : Nat :=
  (files.flatMap DiffFile.lines).countP (fun line => line.kind == kind)

theorem tally_push (kind : LineKind) (current : DiffFile) (files : List DiffFile) (line : DiffLine) :
    tally kind (current.push line :: files) =
      tally kind (current :: files) + if line.kind == kind then 1 else 0 := by
  unfold tally DiffFile.push
  rw [List.flatMap_cons, List.flatMap_cons, List.countP_append, List.countP_append, List.countP_append,
    List.countP_singleton]
  omega

/-- What a line adds, once there is a file. -/
theorem line_tally (hfiles : s.files = current :: files) (h : s.line raw = .next s') :
    s'.files ≠ [] ∧
      s'.files.length = s.files.length + (if (rawLine raw).isFile then 1 else 0) ∧
      ∀ kind, tally kind s'.files = tally kind s.files + if (rawLine raw).shows kind then 1 else 0 := by
  have hemit : ∀ (t : ParseState) (line : DiffLine), (t.emit current files line).files ≠ [] ∧
      (t.emit current files line).files.length = s.files.length ∧
      ∀ kind, tally kind (t.emit current files line).files =
        tally kind s.files + if line.kind == kind then 1 else 0 := by
    intro t line
    rw [hfiles]
    exact ⟨List.cons_ne_nil _ _, rfl, fun kind => tally_push kind current files line⟩
  have hsame : s.files ≠ [] := by simp [hfiles]
  unfold ParseState.line at h
  cases hraw : rawLine raw with
  | file path =>
    rw [hraw] at h
    simp only at h
    split at h
    · cases h
    · obtain rfl := Parsed.next.inj h
      exact ⟨List.cons_ne_nil _ _, rfl, fun kind => rfl⟩
  | header =>
    rw [hraw] at h
    obtain rfl := Parsed.next.inj h
    exact ⟨hsame, rfl, fun kind => rfl⟩
  | hunk old new =>
    rw [hraw, hfiles] at h
    simp only at h
    split at h
    · obtain rfl := Parsed.next.inj h
      exact hemit _ ⟨.meta_, none, none, clip raw⟩
    · cases h
  | note =>
    rw [hraw, hfiles] at h
    obtain rfl := Parsed.next.inj h
    exact ⟨hsame, rfl, fun kind => rfl⟩
  | add text =>
    rw [hraw, hfiles] at h
    obtain rfl := Parsed.next.inj h
    exact hemit _ ⟨.add, none, _, clip text⟩
  | remove text =>
    rw [hraw, hfiles] at h
    obtain rfl := Parsed.next.inj h
    exact hemit _ ⟨.remove, _, none, clip text⟩
  | context text =>
    rw [hraw, hfiles] at h
    obtain rfl := Parsed.next.inj h
    exact hemit _ ⟨.context, _, _, clip text⟩

theorem lines_tally {lines : List Text} (hfiles : s.files ≠ [])
    (h : parseLoop s lines = some (s', false)) :
    s'.files.length = s.files.length + lines.countP (fun raw => (rawLine raw).isFile) ∧
      ∀ kind, tally kind s'.files = tally kind s.files + lines.countP (fun raw => (rawLine raw).shows kind) := by
  induction lines generalizing s with
  | nil =>
    obtain ⟨rfl, _⟩ := Prod.mk.inj (Option.some.inj h)
    exact ⟨rfl, fun kind => rfl⟩
  | cons raw lines ih =>
    obtain ⟨middle, hline, hrest⟩ := parseLoop_cons h
    obtain ⟨current, files, hcurrent⟩ := List.exists_cons_of_ne_nil hfiles
    obtain ⟨hmore, hlength, htally⟩ := line_tally hcurrent hline
    obtain ⟨hlength', htally'⟩ := ih hmore hrest
    refine ⟨?_, fun kind => ?_⟩
    · rw [hlength', hlength, List.countP_cons]
      omega
    · rw [htally', htally, List.countP_cons]
      omega

/-- What the parser counts a class of lines by: not hunk headers, notes or old-file headers. -/
structure Counts (counted : RawLine → Bool) : Prop where
  hunk : ∀ old new, counted (.hunk old new) = false
  note : counted .note = false
  header : counted .header = false

theorem counts_isFile : Counts RawLine.isFile := ⟨fun _ _ => rfl, rfl, rfl⟩

theorem counts_shows {kind : LineKind} (hkind : kind ≠ .meta_) : Counts (RawLine.shows kind) :=
  ⟨fun _ _ => by simpa [RawLine.shows] using hkind.symm, rfl, rfl⟩

theorem countP_hunks {counted : RawLine → Bool} (h : Counts counted) (hunks : List Hunk) :
    (hunks.flatMap Hunk.rawLines).countP (fun raw => counted (rawLine raw)) =
      (hunks.flatMap Hunk.lines).countP (fun line => counted (rawLine line.raw)) := by
  have hlines : ∀ lines : List PatchLine,
      (lines.flatMap PatchLine.rawLines).countP (fun raw => counted (rawLine raw)) =
        lines.countP (fun line => counted (rawLine line.raw)) := by
    intro lines
    induction lines with
    | nil => rfl
    | cons line lines ih =>
      have hnote : (if line.unterminated then [noNewline] else []).countP
          (fun raw => counted (rawLine raw)) = 0 := by
        split <;> simp [rawLine_note, h.note]
      rw [List.flatMap_cons, List.countP_append, ih, PatchLine.rawLines, List.countP_cons, hnote,
        List.countP_cons]
      omega
  induction hunks with
  | nil => rfl
  | cons hunk hunks ih =>
    rw [List.flatMap_cons, List.flatMap_cons, List.countP_append, List.countP_append, ih, Hunk.rawLines,
      List.countP_cons_of_neg (by simp [rawLine_hunk, h.hunk]), hlines]

theorem countP_file {counted : RawLine → Bool} (h : Counts counted) (change : FileChange) :
    change.rawLines.countP (fun raw => counted (rawLine raw)) =
      (change.extended.map Subtype.val).countP (fun raw => counted (rawLine raw)) +
        (if counted (.file (headerPath change.newName)) then 1 else 0) +
        change.patchLines.countP (fun line => counted (rawLine line.raw)) := by
  have hold : counted (rawLine ("--- ".toList ++ change.oldName)) = false := by
    rw [rawLine_old, h.header]
  unfold FileChange.rawLines
  rw [List.countP_append, List.countP_cons_of_neg (by rw [hold]; decide), List.countP_cons,
    rawLine_new, countP_hunks h]
  unfold FileChange.patchLines
  omega

theorem countP_files {counted : RawLine → Bool} (h : Counts counted) (diff : UnifiedDiff) :
    diff.rawLines.countP (fun raw => counted (rawLine raw)) =
      (diff.flatMap (fun change => change.extended.map Subtype.val)).countP
          (fun raw => counted (rawLine raw)) +
        diff.countP (fun change => counted (.file (headerPath change.newName))) +
        (diff.flatMap FileChange.patchLines).countP (fun line => counted (rawLine line.raw)) := by
  induction diff with
  | nil => rfl
  | cons change diff ih =>
    have hrest : UnifiedDiff.rawLines (change :: diff) =
        change.rawLines ++ UnifiedDiff.rawLines diff := rfl
    rw [hrest, List.countP_append, countP_file h, ih, List.flatMap_cons, List.countP_append,
      List.countP_cons, List.flatMap_cons, List.countP_append]
    omega

/-- The headers of git are nothing but headers or context. -/
theorem extended_none {counted : RawLine → Bool} (hheader : counted .header = false)
    (hcontext : ∀ text, counted (.context text) = false) (diff : UnifiedDiff) :
    (diff.flatMap (fun change => change.extended.map Subtype.val)).countP
      (fun raw => counted (rawLine raw)) = 0 := by
  refine List.countP_eq_zero.mpr (fun raw hraw => ?_)
  obtain ⟨file, hfile, hline⟩ := List.mem_flatMap.mp hraw
  obtain ⟨line, hmem, rfl⟩ := List.mem_map.mp hline
  rw [rawLine_extended (file.headers line hmem)]
  split
  · simp [hheader]
  · simp [hcontext]

/-- What a run over a whole diff has shown, by class of line. The headers before the first
file leave no trace. -/
theorem diff_tally {change : FileChange} {diff : UnifiedDiff}
    (h : parseLoop ⟨[], 0, 0, 0⟩ (UnifiedDiff.rawLines (change :: diff)) = some (s', false)) :
    s'.files.length = diff.length + 1 +
        ((change :: diff).flatMap FileChange.patchLines).countP (fun line => (rawLine line.raw).isFile) ∧
      ∀ kind, kind ≠ .meta_ → tally kind s'.files =
        (diff.flatMap (fun change => change.extended.map Subtype.val)).countP
            (fun raw => (rawLine raw).shows kind) +
          ((change :: diff).flatMap FileChange.patchLines).countP
            (fun line => (rawLine line.raw).shows kind) := by
  obtain ⟨middle, hfirst, hrest⟩ := parseLoop_append h
  have hrest : parseLoop middle (UnifiedDiff.rawLines diff) = some (s', false) := hrest
  obtain ⟨before, hextended, hfirst⟩ := parseLoop_append hfirst
  obtain rfl := extended_run change.headers (.inl rfl) hextended
  obtain ⟨next, hold, hfirst⟩ := parseLoop_cons hfirst
  unfold ParseState.line at hold
  rw [rawLine_old] at hold
  obtain rfl := Parsed.next.inj hold
  obtain ⟨next, hnew, hfirst⟩ := parseLoop_cons hfirst
  unfold ParseState.line at hnew
  rw [rawLine_new] at hnew
  obtain rfl := Parsed.next.inj hnew
  have hopen : ([⟨headerPath change.newName, 0, 0, []⟩] : List DiffFile) ≠ [] := List.cons_ne_nil _ _
  obtain ⟨hlength, htally⟩ := lines_tally hopen hfirst
  have hmore : middle.files ≠ [] := by
    intro hnil
    rw [hnil] at hlength
    simp at hlength
    omega
  obtain ⟨hlength', htally'⟩ := lines_tally hmore hrest
  have hnone := extended_none (rfl : RawLine.isFile .header = false) (fun _ => rfl) diff
  have hall : diff.countP (fun change => (RawLine.file (headerPath change.newName)).isFile) =
      diff.length := congrFun List.countP_true diff
  have hzero : ∀ kind, diff.countP (fun change =>
      (RawLine.file (headerPath change.newName)).shows kind) = 0 := fun _ => congrFun List.countP_false diff
  refine ⟨?_, fun kind hkind => ?_⟩
  · have hfirst := countP_hunks counts_isFile change.hunks
    have hothers := countP_files counts_isFile diff
    rw [hnone, hall] at hothers
    rw [hlength', hlength, hfirst, hothers, List.flatMap_cons, List.countP_append]
    unfold FileChange.patchLines
    simp only [List.length_cons, List.length_nil]
    omega
  · have hfirst := countP_hunks (counts_shows hkind) change.hunks
    have hothers := countP_files (counts_shows hkind) diff
    rw [hzero kind] at hothers
    rw [htally', htally, hfirst, hothers, List.flatMap_cons, List.countP_append]
    unfold FileChange.patchLines tally
    simp only [List.flatMap_cons, List.flatMap_nil, List.append_nil, List.countP_nil]
    omega

theorem isFile_raw (line : PatchLine) : (rawLine line.raw).isFile =
    (line.mark == .added && "++ ".toList.isPrefixOf line.text.val) := by
  unfold PatchLine.raw
  cases line.mark with
  | context => exact congrArg RawLine.isFile rawLine_context
  | added =>
    rw [Mark.char, rawLine_added]
    cases "++ ".toList.isPrefixOf line.text.val <;> rfl
  | removed =>
    rw [Mark.char, rawLine_removed]
    split <;> rfl

theorem shows_remove_raw (line : PatchLine) : (rawLine line.raw).shows .remove =
    (line.mark == .removed && !"-- ".toList.isPrefixOf line.text.val) := by
  unfold PatchLine.raw
  cases line.mark with
  | context => exact congrArg (RawLine.shows .remove) rawLine_context
  | added =>
    rw [Mark.char, rawLine_added]
    split <;> rfl
  | removed =>
    rw [Mark.char, rawLine_removed]
    cases "-- ".toList.isPrefixOf line.text.val <;> rfl

theorem shows_context_raw (line : PatchLine) : (rawLine line.raw).shows .context =
    (line.mark == .context) := by
  unfold PatchLine.raw
  cases line.mark with
  | context => exact congrArg (RawLine.shows .context) rawLine_context
  | added =>
    rw [Mark.char, rawLine_added]
    split <;> rfl
  | removed =>
    rw [Mark.char, rawLine_removed]
    split <;> rfl

/-- A file that says its change has as many lines of each kind. -/
theorem SaysFile.count {change : FileChange} {file : DiffFile} (h : SaysFile change file) (mark : Mark) :
    file.lines.countP (fun line => line.kind == mark.kind) = countMark mark change.patchLines := by
  have hkind : ∀ other : Mark, (other.kind == mark.kind) = (other == mark) := by
    intro other
    cases mark <;> cases other <;> rfl
  have hmeta : ∀ kind : LineKind, (kind == mark.kind && kind != .meta_) = (kind == mark.kind) := by
    intro kind
    cases mark <;> cases kind <;> rfl
  have hfiltered := congrArg (List.countP (fun line => line.kind == mark.kind)) h.lines
  rw [List.countP_filter] at hfiltered
  simp only [hmeta] at hfiltered
  rw [hfiltered]
  have hkinds := congrArg (List.countP (fun kind => kind == mark.kind)) (kinds_hunks change.hunks)
  rw [List.countP_map, List.countP_map] at hkinds
  refine hkinds.trans (List.countP_congr (fun line _ => ?_))
  simp [hkind]

theorem says_tally {diff : UnifiedDiff} {files : List DiffFile} (h : List.Forall₂ SaysFile diff files)
    (mark : Mark) : tally mark.kind files = countMark mark (diff.flatMap FileChange.patchLines) := by
  induction h with
  | nil => rfl
  | cons hfile _ ih =>
    unfold tally countMark at ih ⊢
    rw [List.flatMap_cons, List.flatMap_cons, List.countP_append, List.countP_append, ih, hfile.count mark]
    rfl

theorem tally_reverse (kind : LineKind) (files : List DiffFile) :
    tally kind files.reverse = tally kind files :=
  ((List.reverse_perm files).flatMap_right _).countP_eq _

/-- Where none passes that should not, as many that pass are all that should. -/
theorem countP_gap {α : Type} {p q : α → Bool} {l : List α} (hsub : ∀ a ∈ l, q a = true → p a = true)
    (h : l.countP p ≤ l.countP q) : ∀ a ∈ l, p a = true → q a = true := by
  induction l with
  | nil => exact fun a ha => nomatch ha
  | cons b l ih =>
    have hsub' : ∀ a ∈ l, q a = true → p a = true := fun a ha => hsub a (List.mem_cons_of_mem b ha)
    have hrest := List.countP_mono_left hsub'
    have hb := hsub b List.mem_cons_self
    rw [List.countP_cons, List.countP_cons] at h
    intro a ha hp
    rcases List.mem_cons.mp ha with rfl | hmem
    · by_contra hq
      rw [if_pos hp, if_neg hq] at h
      omega
    · refine ih hsub' ?_ a hmem hp
      cases hq : q b with
      | true =>
        rw [if_pos (hb hq), if_pos hq] at h
        omega
      | false =>
        rw [hq, if_neg Bool.false_ne_true] at h
        omega

/-- A change that is shown whole has no line that passes for another. -/
theorem unmistaken_of_says {change : FileChange} {diff : UnifiedDiff}
    (h : parseLoop ⟨[], 0, 0, 0⟩ (UnifiedDiff.rawLines (change :: diff)) = some (s', false))
    (htold : List.Forall₂ SaysFile (change :: diff) s'.files.reverse) :
    (∀ file ∈ change :: diff, ∀ line ∈ file.patchLines, line.Unmistaken) ∧
      ∀ file ∈ diff, file.KnownHeaders := by
  obtain ⟨hlength, htally⟩ := diff_tally h
  have hsame : s'.files.length = diff.length + 1 := by
    rw [← List.length_reverse, ← htold.length_eq, List.length_cons]
  have hfakes : ((change :: diff).flatMap FileChange.patchLines).countP
      (fun line => (rawLine line.raw).isFile) = 0 := by omega
  have hmark : ∀ mark : Mark, tally mark.kind s'.files =
      countMark mark ((change :: diff).flatMap FileChange.patchLines) := fun mark =>
    (tally_reverse _ _).symm.trans (says_tally htold mark)
  have hremoved := (htally .remove (by decide)).symm.trans (hmark .removed)
  have hcontext := (htally .context (by decide)).symm.trans (hmark .context)
  have hstray : (diff.flatMap (fun change => change.extended.map Subtype.val)).countP
      (fun raw => (rawLine raw).shows .context) = 0 := by
    have hsum : ((change :: diff).flatMap FileChange.patchLines).countP
        (fun line => (rawLine line.raw).shows .context) =
          countMark .context ((change :: diff).flatMap FileChange.patchLines) :=
      List.countP_congr (fun line _ => by rw [shows_context_raw])
    omega
  have hnone := extended_none (rfl : RawLine.shows .remove .header = false) (fun _ => rfl) diff
  have hhidden := countP_gap (p := fun line : PatchLine => line.mark == .removed)
    (q := fun line => (rawLine line.raw).shows .remove)
    (fun line _ hshows => by
      rw [shows_remove_raw, Bool.and_eq_true] at hshows
      exact hshows.1)
    (l := (change :: diff).flatMap FileChange.patchLines) (by
      unfold countMark at hremoved
      rw [hnone] at hremoved
      exact Nat.le_of_eq (hremoved.symm.trans (Nat.zero_add _)))
  refine ⟨fun file hfile line hline => ⟨fun hmark => ?_, fun hmark => ?_⟩, fun file hfile line hline => ?_⟩
  · have hshows := hhidden line (List.mem_flatMap.mpr ⟨file, hfile, hline⟩) (beq_iff_eq.mpr hmark)
    rw [shows_remove_raw, Bool.and_eq_true, Bool.not_eq_true'] at hshows
    exact hshows.2
  · have hfile := List.countP_eq_zero.mp hfakes line (List.mem_flatMap.mpr ⟨file, hfile, hline⟩)
    rw [isFile_raw, hmark, beq_self_eq_true, Bool.true_and] at hfile
    exact Bool.eq_false_of_not_eq_true hfile
  · have hcontext := List.countP_eq_zero.mp hstray line.val
      (List.mem_flatMap.mpr ⟨file, hfile, List.mem_map_of_mem hline⟩)
    rw [rawLine_extended (file.headers line hline)] at hcontext
    split at hcontext
    · assumption
    · exact absurd rfl hcontext

/-! The text of a diff. -/

theorem unbroken_append {first second : Text} (hfirst : unbroken first = true)
    (hsecond : unbroken second = true) : unbroken (first ++ second) = true := by
  unfold unbroken at *
  rw [List.all_append, hfirst, hsecond]
  rfl

theorem unbroken_digits (n : Nat) : unbroken (Nat.toDigits 10 n) = true := by
  refine List.all_eq_true.mpr (fun c hc => ?_)
  have hdigit := isDigit_toDigits hc
  by_contra hbreak
  simp only [isLineBreak, Bool.not_eq_true', Bool.not_eq_false, List.contains_eq_mem, decide_eq_true_eq] at hbreak
  have hnone : ∀ c ∈ ['\n', '\r', '\x0b', '\x0c', '\x1c', '\x1d', '\x1e', '\u0085', '\u2028', '\u2029'],
      (!c.isDigit) = true := List.all_eq_true.mp rfl
  have hother := hnone c hbreak
  rw [hdigit] at hother
  cases hother

theorem unbroken_range (start count : Nat) (brief : Bool) :
    unbroken (rangeText start count brief) = true := by
  unfold rangeText
  refine unbroken_append (unbroken_digits start) ?_
  split
  · rfl
  · have hcomma : unbroken [','] = true := by decide
    exact unbroken_append hcomma (unbroken_digits count)

theorem unbroken_hunk (hunk : Hunk) : ∀ raw ∈ hunk.rawLines, unbroken raw = true := by
  intro raw hraw
  rcases List.mem_cons.mp hraw with rfl | hline
  · refine unbroken_append (by decide) (unbroken_append (unbroken_range _ _ _) ?_)
    refine unbroken_append (by decide) (unbroken_append (unbroken_range _ _ _) ?_)
    exact unbroken_append (by decide) hunk.heading.property
  · obtain ⟨line, _, hmem⟩ := List.mem_flatMap.mp hline
    have hmark : unbroken [line.mark.char] = true := by cases line.mark <;> decide
    rcases List.mem_cons.mp hmem with rfl | hnote
    · exact unbroken_append hmark line.text.property
    · split at hnote
      · obtain rfl := List.mem_singleton.mp hnote
        decide
      · cases hnote

theorem unbroken_rawLines (diff : UnifiedDiff) : ∀ raw ∈ diff.rawLines, unbroken raw = true := by
  intro raw hraw
  obtain ⟨change, _, hline⟩ := List.mem_flatMap.mp hraw
  have hnull : unbroken devNull = true := by decide
  rcases List.mem_append.mp hline with hextended | hrest
  · obtain ⟨line, _, rfl⟩ := List.mem_map.mp hextended
    exact line.property
  · rcases List.mem_cons.mp hrest with rfl | hrest
    · refine unbroken_append (by decide) ?_
      unfold FileChange.oldName
      split
      · exact hnull
      · exact unbroken_append (by decide) change.path.property
    · rcases List.mem_cons.mp hrest with rfl | hhunks
      · refine unbroken_append (by decide) ?_
        unfold FileChange.newName
        split
        · exact hnull
        · exact unbroken_append (by decide) change.path.property
      · obtain ⟨hunk, _, hmem⟩ := List.mem_flatMap.mp hhunks
        exact unbroken_hunk hunk raw hmem

theorem says_sum {diff : UnifiedDiff} {files : List DiffFile} (h : List.Forall₂ SaysFile diff files) :
    (files.map DiffFile.added).sum = (diff.map (FileChange.count · .added)).sum ∧
      (files.map DiffFile.removed).sum = (diff.map (FileChange.count · .removed)).sum := by
  induction h with
  | nil => exact ⟨rfl, rfl⟩
  | cons hfile _ ih =>
    simp only [List.map_cons, List.sum_cons, hfile.added, hfile.removed, ih.1, ih.2, and_self]

theorem PatchLine.plain_iff (line : PatchLine) :
    line.Plain ↔ line.Unmistaken ∧ clip line.text.val = line.text.val := by
  have hcut : ∀ start : Text, start.isPrefixOf line.text.val = false ↔ ¬start <+: line.text.val := by
    intro start
    rw [← List.isPrefixOf_iff_prefix, Bool.not_eq_true]
  unfold PatchLine.Unmistaken
  rw [hcut, hcut, clip_eq]
  exact ⟨fun h => ⟨⟨h.removed, h.added⟩, h.short⟩, fun h => ⟨h.1.1, h.1.2, h.2⟩⟩

/-- Before the first file nothing is emitted. -/
theorem line_unopened (h : s.line raw = .next s') (hnone : s'.files = []) :
    s.files = [] ∧ s'.emitted = s.emitted := by
  unfold ParseState.line at h
  split at h
  · split at h
    · cases h
    · obtain rfl := Parsed.next.inj h
      cases hnone
  · obtain rfl := Parsed.next.inj h
    exact ⟨hnone, rfl⟩
  · split at h
    · split at h
      · obtain rfl := Parsed.next.inj h
        exact ⟨hnone, rfl⟩
      · obtain rfl := Parsed.next.inj h
        cases hnone
    · cases h
  all_goals
    obtain rfl := Parsed.next.inj h
    first | exact ⟨hnone, rfl⟩ | cases hnone

/-- Only a file too many stops the run at a line. -/
theorem line_stopped (h : s.line raw = .stopped) : s.files ≠ [] := by
  intro hnone
  unfold ParseState.line at h
  rw [hnone] at h
  split at h
  · split at h
    · rename_i hmany
      exact absurd hmany (by decide)
    · cases h
  · cases h
  · split at h <;> cases h
  all_goals cases h

/-- A run that stopped short has a file to show. -/
theorem stopped_open {lines : List Text} (hstart : s.files = [] → s.emitted = 0)
    (h : parseLoop s lines = some (s', true)) : s'.files ≠ [] := by
  induction lines generalizing s with
  | nil => cases h
  | cons raw lines ih =>
    unfold parseLoop at h
    split at h
    · rename_i hfull
      obtain ⟨rfl, _⟩ := Prod.mk.inj (Option.some.inj h)
      intro hnone
      rw [hstart hnone] at hfull
      exact absurd hfull (by decide)
    · split at h
      · cases h
      · rename_i hstopped
        obtain ⟨rfl, _⟩ := Prod.mk.inj (Option.some.inj h)
        exact line_stopped hstopped
      · rename_i middle hline
        refine ih (fun hnone => ?_) h
        obtain ⟨hbefore, hsame⟩ := line_unopened hline hnone
        exact hsame.trans (hstart hbefore)

/-- What is shown of the files says their changes when nothing is clipped and no file is deleted. -/
theorem says_shown_iff {diff : UnifiedDiff} {files : List DiffFile} (h : List.Forall₂ ShownAs diff files) :
    List.Forall₂ SaysFile diff files ↔ ∀ file ∈ diff, file.fate ≠ .deleted ∧
      ∀ line ∈ file.patchLines, clip line.text.val = line.text.val := by
  induction h with
  | nil => simp
  | cons hshow _ ih => rw [List.forall₂_cons, List.forall_mem_cons, saysFile_iff hshow, ih]

/-- The files of a run that was not cut short say the diff if and only if it is plain. -/
theorem says_iff {diff : UnifiedDiff} (h : parseLoop ⟨[], 0, 0, 0⟩ diff.rawLines = some (s', false)) :
    List.Forall₂ SaysFile diff s'.files.reverse ↔ diff.Plain := by
  have hshown : (∀ file ∈ diff, ∀ line ∈ file.patchLines, line.Unmistaken) →
      (∀ file ∈ diff.tail, file.KnownHeaders) → List.Forall₂ ShownAs diff s'.files.reverse := by
    intro hplain hknown
    obtain ⟨shown, hfiles, hall⟩ := diff_run hplain (.inl ⟨rfl, hknown⟩) h
    rw [hfiles, List.append_nil, List.reverse_reverse]
    exact hall
  constructor
  · intro htold
    have hplain : (∀ file ∈ diff, ∀ line ∈ file.patchLines, line.Unmistaken) ∧
        ∀ file ∈ diff.tail, file.KnownHeaders := by
      cases diff with
      | nil => simp
      | cons change diff => exact unmistaken_of_says h htold
    have hboth := (says_shown_iff (hshown hplain.1 hplain.2)).mp htold
    exact ⟨fun file hfile line hline =>
        line.plain_iff.mpr ⟨hplain.1 file hfile line hline, (hboth file hfile).2 line hline⟩,
      fun file hfile => (hboth file hfile).1, hplain.2⟩
  · intro hplain
    have hlines := fun file hfile line hline => PatchLine.plain_iff line |>.mp (hplain.lines file hfile line hline)
    refine (says_shown_iff (hshown (fun file hfile line hline => (hlines file hfile line hline).1)
      hplain.headers)).mpr ?_
    exact fun file hfile => ⟨hplain.kept file hfile, fun line hline => (hlines file hfile line hline).2⟩

section Example

def lineOf (mark : Mark) (text : String) (h : unbroken text.toList = true) : PatchLine :=
  ⟨mark, ⟨text.toList, h⟩, false⟩

/-- A diff of one file in one hunk. -/
def oneHunk (lines : List PatchLine) : UnifiedDiff :=
  [{ extended := [⟨"diff --git a/schema.sql b/schema.sql".toList, by decide⟩]
     path := ⟨"schema.sql".toList, by decide⟩
     fate := .modified
     hunks := [⟨3, 3, true, true, ⟨[], rfl⟩, lines⟩]
     headers := by decide
     relative := by decide
     named := fun c hc => Option.some.inj hc ▸ rfl
     nonempty := by decide }]

def dropColumn : UnifiedDiff :=
  oneHunk [lineOf .context "BEGIN;" (by decide), lineOf .removed "DROP COLUMN note;" (by decide),
    lineOf .added "-- kept" (by decide)]

/-- A comment is taken out. -/
def dropComment : UnifiedDiff :=
  oneHunk [lineOf .context "BEGIN;" (by decide), lineOf .removed "-- run by hand" (by decide)]

def dropColumnParsed : ParsedDiff where
  files := [⟨"schema.sql".toList, 1, 1,
    [⟨.meta_, none, none, "@@ -3,2 +3,2 @@".toList⟩, ⟨.context, some 3, some 3, "BEGIN;".toList⟩,
      ⟨.remove, some 4, none, "DROP COLUMN note;".toList⟩, ⟨.add, none, some 4, "-- kept".toList⟩]⟩]
  added := 1
  removed := 1
  truncated := false
  note := ""

instance (line : PatchLine) : Decidable line.Unmistaken :=
  inferInstanceAs (Decidable ((_ = _ → _ = _) ∧ (_ = _ → _ = _)))

end Example

end Solvan.Repair
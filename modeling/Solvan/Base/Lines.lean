import Mathlib.Algebra.Order.Ring.Int
import Mathlib.Data.List.DropRight

/-! Lines of text, whatever ends them. -/
namespace Solvan.Base

variable {line text : List Char} {lines : List (List Char)}

/-- What `str.strip` takes off. -/
def isSpace (c : Char) : Bool :=
  [0x9, 0xa, 0xb, 0xc, 0xd, 0x1c, 0x1d, 0x1e, 0x1f, 0x20, 0x85, 0xa0, 0x1680, 0x2000, 0x2001, 0x2002, 0x2003,
    0x2004, 0x2005, 0x2006, 0x2007, 0x2008, 0x2009, 0x200a, 0x2028, 0x2029, 0x202f, 0x205f,
    0x3000].contains c.toNat

def strip (text : List Char) : List Char := (text.dropWhile isSpace).rdropWhile isSpace

/-- The characters that end a line for `str.splitlines`. -/
def isLineBreak (c : Char) : Bool :=
  ['\n', '\r', '\x0b', '\x0c', '\x1c', '\x1d', '\x1e', '\u0085', '\u2028', '\u2029'].contains c

/-- Text free of line breaks. -/
def unbroken (text : List Char) : Bool := text.all (fun c => !isLineBreak c)

/-- Each line and what ends it, with so much of the first line read already. -/
def splitRecords : List Char → List Char → List (List Char × List Char)
  | [], [] => []
  | line, [] => [(line, [])]
  | line, '\r' :: '\n' :: text => (line, ['\r', '\n']) :: splitRecords [] text
  | line, c :: text =>
    if isLineBreak c then (line, [c]) :: splitRecords [] text else splitRecords (line ++ [c]) text

/-- `str.splitlines()` -/
def splitlines (text : List Char) : List (List Char) := (splitRecords [] text).map Prod.fst

/-- `str.splitlines(keepends=True)` -/
def splitlinesKeepends (text : List Char) : List (List Char) :=
  (splitRecords [] text).map (fun record => record.1 ++ record.2)

/-- A text cut after each newline, with so much of the first piece read already. -/
def newlinePieces : List Char → List Char → List (List Char)
  | [], [] => []
  | line, [] => [line]
  | line, c :: text =>
    if c = '\n' then (line ++ [c]) :: newlinePieces [] text else newlinePieces (line ++ [c]) text

/-- A line that a newline ends, and nothing before. -/
def Terminated (line : List Char) : Prop := ∃ body, '\n' ∉ body ∧ line = body ++ ['\n']

/-- Lines as they stand in a text, each ended by a newline. -/
def unlines (lines : List (List Char)) : List Char := lines.flatMap (fun line => line ++ ['\n'])

theorem splitRecords_unbroken {rest : List Char} (hline : unbroken line = true) (read : List Char) :
    splitRecords read (line ++ '\n' :: rest) = (read ++ line, ['\n']) :: splitRecords [] rest := by
  induction line generalizing read with
  | nil => simp [splitRecords, isLineBreak]
  | cons c line ih =>
    simp only [unbroken, List.all_cons, Bool.and_eq_true, Bool.not_eq_true'] at hline
    have hc : c ≠ '\r' := by
      rintro rfl
      exact absurd hline.1 (by decide)
    rw [List.cons_append, splitRecords]
    · simp only [hline.1, Bool.false_eq_true, if_false]
      rw [ih (by simpa [unbroken] using hline.2), List.append_assoc, List.singleton_append]
    · rintro text rfl
      exact absurd rfl hc

/-- Unbroken lines read back as they were written. -/
theorem splitlines_unlines (hlines : ∀ line ∈ lines, unbroken line = true) :
    splitlines (unlines lines) = lines := by
  induction lines with
  | nil => rfl
  | cons line lines ih =>
    have hrest := ih (fun line hline => hlines line (List.mem_cons_of_mem _ hline))
    unfold splitlines unlines at hrest ⊢
    rw [List.flatMap_cons, List.append_assoc, List.singleton_append,
      splitRecords_unbroken (hlines line List.mem_cons_self), List.map_cons, hrest, List.nil_append]

theorem splitRecords_flatten (read text : List Char) :
    ((splitRecords read text).map (fun record => record.1 ++ record.2)).flatten = read ++ text := by
  fun_induction splitRecords read text with
  | case1 => rfl
  | case2 => simp
  | case3 line text ih => simp [ih]
  | case4 line c text _ hbreak ih => simp [ih]
  | case5 line c text _ hbreak ih => simp [ih]

theorem splitlinesKeepends_flatten (text : List Char) : (splitlinesKeepends text).flatten = text :=
  splitRecords_flatten [] text

/-- A newline only ends a line. -/
theorem splitRecords_newline {read : List Char} (hread : '\n' ∉ read) :
    ∀ record ∈ splitRecords read text, '\n' ∉ record.1 ∧
      (record.2 = [] ∨ record.2 = ['\r', '\n'] ∨ ∃ c, record.2 = [c]) := by
  fun_induction splitRecords read text with
  | case1 => exact fun record hrecord => nomatch hrecord
  | case2 line _ =>
    intro record hrecord
    obtain rfl := List.mem_singleton.mp hrecord
    exact ⟨hread, .inl rfl⟩
  | case3 line text ih =>
    intro record hrecord
    obtain rfl | hrest := List.mem_cons.mp hrecord
    · exact ⟨hread, .inr (.inl rfl)⟩
    · exact ih List.not_mem_nil record hrest
  | case4 line c text _ hbreak ih =>
    intro record hrecord
    obtain rfl | hrest := List.mem_cons.mp hrecord
    · exact ⟨hread, .inr (.inr ⟨c, rfl⟩)⟩
    · exact ih List.not_mem_nil record hrest
  | case5 line c text _ hbreak ih =>
    refine ih (fun hmem => ?_)
    obtain hline | hc := List.mem_append.mp hmem
    · exact hread hline
    · obtain rfl := List.mem_singleton.mp hc
      exact hbreak (by decide)

theorem terminated_of_getLast (hline : line ∈ splitlinesKeepends text)
    (hlast : line.getLast? = some '\n') : Terminated line := by
  obtain ⟨⟨body, ending⟩, hrecord, rfl⟩ := List.mem_map.mp hline
  obtain ⟨hbody, rfl | rfl | ⟨c, rfl⟩⟩ := splitRecords_newline List.not_mem_nil _ hrecord
  · rw [List.append_nil] at hlast
    exact absurd (List.mem_of_getLast? hlast) hbody
  · refine ⟨body ++ ['\r'], ?_, by simp⟩
    simpa using hbody
  · rw [List.getLast?_concat] at hlast
    obtain rfl := Option.some.inj hlast
    exact ⟨body, hbody, rfl⟩

theorem newlinePieces_flatten (read text : List Char) :
    (newlinePieces read text).flatten = read ++ text := by
  fun_induction newlinePieces read text with
  | case1 => rfl
  | case2 => simp
  | case3 line text ih => simp [ih]
  | case4 line c text _ ih => simp [ih]

theorem newlinePieces_body {body : List Char} (hbody : '\n' ∉ body) (read : List Char) :
    newlinePieces read (body ++ '\n' :: text) = (read ++ (body ++ ['\n'])) :: newlinePieces [] text := by
  induction body generalizing read with
  | nil => simp [newlinePieces]
  | cons c body ih =>
    rw [List.mem_cons, not_or] at hbody
    rw [List.cons_append, newlinePieces, if_neg (Ne.symm hbody.1), ih hbody.2]
    simp

/-- Terminated lines are the pieces that they make. -/
theorem newlinePieces_append (hlines : ∀ line ∈ lines, Terminated line) :
    newlinePieces [] (lines.flatten ++ text) = lines ++ newlinePieces [] text := by
  induction lines with
  | nil => rfl
  | cons line lines ih =>
    obtain ⟨body, hbody, rfl⟩ := hlines line List.mem_cons_self
    have hrest := ih (fun line hline => hlines line (List.mem_cons_of_mem _ hline))
    rw [List.flatten_cons, List.append_assoc, List.append_assoc, List.singleton_append,
      newlinePieces_body hbody, hrest, List.nil_append, List.cons_append]

end Solvan.Base

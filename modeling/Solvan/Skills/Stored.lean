import Solvan.Base.Split
import Solvan.Skills.Governance
import Solvan.Skills.Order

/-! What the import has stored of a package, and what an export writes of it. -/
namespace Solvan.Skills

open Solvan.Base Checks

variable {lib : Library} {path raw name rel text body generated : Text} {content : ByteArray}

section Paths

/-- A part of a path that is neither empty nor a step in place or upwards. -/
def ProperPart (part : Text) : Prop := part ≠ [] ∧ part ≠ ['.'] ∧ part ≠ ['.', '.']

/-- A path that the import takes as it is. -/
structure Proper (lib : Library) (path : Text) : Prop where
  nfc : lib.nfc path = path
  nul : '\x00' ∉ path
  backslash : '\\' ∉ path
  parts : ∀ part ∈ path.splitOn '/', ProperPart part

theorem posixJoin_eq (parts : List Text) : posixJoin parts = ['/'].intercalate parts := by
  induction parts with
  | nil => rfl
  | cons part rest ih =>
    cases rest with
    | nil => rw [posixJoin, List.intercalate_singleton]
    | cons next rest =>
      rw [posixJoin, ih, List.intercalate_cons_cons]
      · simp
      · exact List.cons_ne_nil _ _

theorem not_slash_first (h : ∀ part ∈ path.splitOn '/', ProperPart part) : startsWith path "/" = false := by
  rw [← Bool.not_eq_true]
  intro hstart
  obtain ⟨rest, rfl⟩ := List.isPrefixOf_iff_prefix.mp hstart
  refine (h [] ?_).1 rfl
  exact Split.mem_splitOn.mpr ⟨List.not_mem_nil, [], '/' :: rest, rfl, .inl rfl, .inr ⟨rest, rfl⟩⟩

theorem not_slash_last (h : ∀ part ∈ path.splitOn '/', ProperPart part) : endsWith path "/" = false := by
  rw [← Bool.not_eq_true]
  intro hend
  obtain ⟨front, rfl⟩ := List.isSuffixOf_iff_suffix.mp hend
  refine (h [] ?_).1 rfl
  exact Split.mem_splitOn.mpr ⟨List.not_mem_nil, front ++ ['/'], [], by simp, .inr ⟨front, rfl⟩, .inl rfl⟩

theorem canonicalPath_ok : canonicalPath lib raw = .ok path ↔
    '\x00' ∉ raw ∧ '\\' ∉ raw ∧ path = lib.nfc raw ∧ ∀ part ∈ path.splitOn '/', ProperPart part := by
  have hparts : ∀ path : Text, (path.splitOn '/').any (fun part => part.isEmpty || part == ['.'] || part == ['.', '.']) =
      false ↔ ∀ part ∈ path.splitOn '/', ProperPart part := by
    intro path
    simp [List.any_eq_false, ProperPart, List.isEmpty_iff, and_assoc]
  have hjoin : ∀ path : Text, posixJoin (path.splitOn '/') = path := fun path => by
    rw [posixJoin_eq, List.intercalate_splitOn]
  unfold canonicalPath
  constructor
  · intro h
    split at h
    · cases h
    · rename_i hraw
      simp only [Bool.or_eq_true, List.contains_iff_mem, not_or] at hraw
      dsimp only at h
      split at h
      · cases h
      · split at h
        · cases h
        · rename_i hany
          split at h
          · cases h
          · obtain rfl := Except.ok.inj h
            rw [hjoin]
            exact ⟨hraw.1, hraw.2, rfl, (hparts _).mp (by simpa using hany)⟩
  · rintro ⟨hnul, hbackslash, rfl, hproper⟩
    have hempty : (lib.nfc raw).isEmpty = false := by
      rw [List.isEmpty_eq_false_iff]
      intro hnil
      rw [hnil] at hproper
      exact (hproper [] (by simp)).1 rfl
    rw [if_neg (by simp [hnul, hbackslash])]
    dsimp only
    rw [if_neg (by simp [not_slash_first hproper, not_slash_last hproper, hempty]),
      if_neg (by rw [(hparts _).mpr hproper]; exact Bool.false_ne_true), hjoin,
      if_neg (by simp [not_slash_first hproper])]

theorem Proper.canonical (h : Proper lib path) : canonicalPath lib path = .ok path :=
  canonicalPath_ok.mpr ⟨h.nul, h.backslash, h.nfc.symm, h.parts⟩

/-- The normal form of a path has as many slashes as the path. -/
theorem nfc_count (lib : Library) (text : Text) : (lib.nfc text).count '/' = text.count '/' := by
  generalize hsize : text.length = size
  induction size using Nat.strongRecOn generalizing text with
  | _ size ih =>
    by_cases hslash : '/' ∈ text
    · obtain ⟨front, rest, rfl, hfront⟩ := List.eq_append_cons_of_mem hslash
      have hless : rest.length < size := by
        rw [← hsize, List.length_append, List.length_cons]
        omega
      rw [lib.nfc_slash, List.count_append, List.count_append, List.count_cons_self, List.count_cons_self,
        ih _ hless rest rfl, List.count_eq_zero_of_not_mem hfront,
        List.count_eq_zero_of_not_mem (lib.nfc_free front hfront)]
    · rw [List.count_eq_zero_of_not_mem hslash, List.count_eq_zero_of_not_mem (lib.nfc_free text hslash)]

/-- The path of a file below the root of a package. -/
theorem Proper.below {root : Text} (h : Proper lib (root ++ '/' :: rel)) : Proper lib rel := by
  have hnfc := h.nfc
  rw [lib.nfc_slash] at hnfc
  refine ⟨(Cut.cut_unique hnfc (nfc_count lib root)).2, fun hmem => h.nul ?_, fun hmem => h.backslash ?_,
    fun part hpart => h.parts part ?_⟩
  · exact List.mem_append_right _ (List.mem_cons_of_mem _ hmem)
  · exact List.mem_append_right _ (List.mem_cons_of_mem _ hmem)
  · rw [List.splitOn_append_cons_self]
    exact List.mem_append_right _ hpart

theorem Proper.named (h : Proper lib rel) (hname : isSkillName name = true) : Proper lib (name ++ '/' :: rel) := by
  have hslash : '/' ∉ name := skillName_free hname _ (by decide)
  have hdot : '.' ∉ name := skillName_free hname _ (by decide)
  refine ⟨?_, ?_, ?_, ?_⟩
  · rw [lib.nfc_slash, h.nfc, lib.nfc_ascii name]
    intro c hc
    have := skillName_range hname hc
    omega
  · simp [h.nul, skillName_free hname '\x00' (by decide)]
  · simp [h.backslash, skillName_free hname '\\' (by decide)]
  · rw [List.splitOn_append_cons_self, List.splitOn_eq_singleton hslash]
    refine List.forall_mem_cons.mpr ⟨⟨skillName_ne_nil hname, ?_, ?_⟩, h.parts⟩
    · rintro rfl
      exact hdot List.mem_cons_self
    · rintro rfl
      exact hdot List.mem_cons_self

end Paths

section Texts

theorem replaceCrlf_free (h : '\r' ∉ text) : replaceCrlf text = text := by
  induction text with
  | nil => rfl
  | cons c text ih =>
    obtain ⟨hc, htext⟩ := List.ne_and_not_mem_of_not_mem_cons h
    rw [replaceCrlf, ih htext]
    rintro rest rfl
    exact absurd rfl hc

theorem replaceCr_free (h : '\r' ∉ text) : replaceCr text = text := by
  refine (List.map_congr_left (fun c hc => ?_)).trans (List.map_id text)
  exact if_neg (fun (heq : c = '\r') => h (heq ▸ hc))

theorem not_mem_replaceCr : '\r' ∉ replaceCr text := by
  intro hmem
  obtain ⟨c, -, hc⟩ := List.mem_map.mp hmem
  split at hc
  · cases hc
  · rename_i hne
    exact hne hc

theorem unmarked_sub {c : Char} (h : c ∈ unmarked text) : c ∈ text := by
  unfold unmarked at h
  split at h
  · exact List.mem_cons_of_mem _ h
  · exact h

/-- What has no carriage return loses at most the mark before it. -/
theorem normalizeText_free (hpath : isTextPath path = true) (h : '\r' ∉ text) :
    normalizeText path (encode text) = .ok (encode (unmarked text)) := by
  have hfree : '\r' ∉ unmarked text := fun hmem => h (unmarked_sub hmem)
  rw [normalizeText, if_pos hpath, decode_encode]
  dsimp only
  rw [replaceCrlf_free hfree, replaceCr_free hfree]

theorem normalizeText_text {result : ByteArray} (hpath : isTextPath path = true)
    (h : normalizeText path content = .ok result) : ∃ text, decode result = some text ∧ '\r' ∉ text := by
  rw [normalizeText, if_pos hpath] at h
  split at h
  · cases h
  · obtain rfl := Except.ok.inj h
    exact ⟨_, decode_encode, not_mem_replaceCr⟩

theorem endsWith_append {front : Text} {ending : String} (h : endsWith path ending = true) :
    endsWith (front ++ path) ending = true :=
  List.isSuffixOf_iff_suffix.mpr ((List.isSuffixOf_iff_suffix.mp h).trans (List.suffix_append _ _))

theorem isTextPath_md (h : endsWith path ".md" = true) : isTextPath path = true := by
  rw [isTextPath, h]
  rfl

/-- The name of a Markdown file is that of no archive. -/
theorem isNestedArchive_md (h : endsWith path ".md" = true) : isNestedArchive lib path content = isArchiveContent content := by
  obtain ⟨front, rfl⟩ := List.isSuffixOf_iff_suffix.mp h
  have hfold : lib.casefold (front ++ ".md".toList) = lib.casefold front ++ ['.', 'm', 'd'] := by
    have hdot := lib.fold_lower '.' (by decide) (by decide)
    have hm := lib.fold_lower 'm' (by decide) (by decide)
    have hd := lib.fold_lower 'd' (by decide) (by decide)
    simp [Library.casefold, hdot, hm, hd]
  have hnone : archiveSuffixes.any (endsWith (lib.casefold (front ++ ".md".toList))) = false := by
    rw [hfold]
    simp [archiveSuffixes, endsWith, List.isSuffixOf, List.isPrefixOf]
  rw [isNestedArchive, hnone, Bool.false_or]

end Texts

section Stored

variable {item : SkillFile} {a : SkillImportInspection} {archive : ByteArray}

/-- The files that are guidance, as an inspection found them -/
def SkillImportInspection.guidance (a : SkillImportInspection) : List SkillFile :=
  a.files.filter (fun item => item.disposition = .promptEligible)

def skillPath : Text := "SKILL.md".toList

/-- The normal form of a text brings in neither what ends a text nor what separates paths elsewhere. -/
def Library.KeepsPlain (lib : Library) : Prop :=
  ∀ text, ('\x00' ∉ text → '\x00' ∉ lib.nfc text) ∧ ('\\' ∉ text → '\\' ∉ lib.nfc text)

/-- A guidance file that the import has stored. -/
structure Stored (lib : Library) (item : SkillFile) : Prop where
  proper : Proper lib item.path
  eligible : item.disposition = .promptEligible
  looked : ∃ findings, dispositionFor item.path item.content = .ok (.promptEligible, findings)
  text : ∃ text, decode item.content = some text ∧ '\r' ∉ text
  markdown : endsWith item.path ".md" = true

/-- The path of a guidance file -/
theorem dispositionFor_md {findings : List Finding} (h : dispositionFor path content = .ok (.promptEligible, findings)) :
    endsWith path ".md" = true := by
  unfold dispositionFor at h
  split at h
  · rename_i hskill
    rw [hskill]
    decide
  · split at h
    · split at h
      · cases h
      · rename_i hmd
        simpa using hmd
    · split at h <;> cases h

theorem takenMember_proper (hkeeps : lib.KeepsPlain) {member file : Text × ByteArray} (h : takenMember lib member = .ok file) :
    Proper lib file.1 ∧ normalizeText file.1 member.2 = .ok file.2 := by
  obtain ⟨path, hpath, h⟩ := bind_ok.mp h
  split at h
  · cases h
  · obtain ⟨content, hcontent, h⟩ := bind_ok.mp h
    obtain rfl := Except.ok.inj h
    obtain ⟨hnul, hbackslash, rfl, hparts⟩ := canonicalPath_ok.mp hpath
    exact ⟨⟨lib.nfc_nfc _, (hkeeps _).1 hnul, (hkeeps _).2 hbackslash, hparts⟩, hcontent⟩

/-- Every guidance file of an accepted package, and the one place of its `SKILL.md`. -/
structure Shelf (lib : Library) (guidance : List SkillFile) : Prop where
  stored : ∀ item ∈ guidance, Stored lib item
  sorted : guidance.Pairwise PathLe
  keys : (guidance.map (fun item => lib.casefold item.path)).Nodup
  paths : (guidance.map SkillFile.path).Nodup
  skill : (guidance.map SkillFile.path).filter isSkillPath = [skillPath]

theorem all_same {α : Type} {list : List α} {a : α} (hnodup : list.Nodup) (hmem : a ∈ list) (hall : ∀ b ∈ list, b = a) :
    list = [a] := by
  cases list with
  | nil => cases hmem
  | cons b list =>
    obtain ⟨rfl, hrest⟩ := List.forall_mem_cons.mp hall
    cases list with
    | nil => rfl
    | cons c list =>
      rw [hrest c List.mem_cons_self] at hnodup
      exact absurd List.mem_cons_self (List.nodup_cons.mp hnodup).1

theorem isSkillPath_below {root : Text} (h : isSkillPath rel = true) : isSkillPath (root ++ '/' :: rel) = true := by
  unfold isSkillPath at h ⊢
  rw [Bool.or_eq_true] at h ⊢
  right
  rcases h with h | h
  · obtain rfl := beq_iff_eq.mp h
    exact List.isSuffixOf_iff_suffix.mpr ⟨root, by simp⟩
  · have := @endsWith_append _ (root ++ ['/']) _ h
    simpa using this

theorem parent_append {front last : Text} (h : '/' ∉ last) : parent (front ++ '/' :: last) = front := by
  have hall : ∀ c ∈ last.reverse, (c != '/') = true := fun c hc =>
    bne_iff_ne.mpr (fun heq => h (heq ▸ List.mem_reverse.mp hc))
  have hsplit : (front ++ '/' :: last).reverse = last.reverse ++ '/' :: front.reverse := by simp
  rw [parent, List.rdropWhile, hsplit, List.dropWhile_append_of_pos hall, List.dropWhile_cons_of_neg (by simp)]
  simp

theorem skillPath_eq : skillPath = ['S', 'K', 'I', 'L', 'L', '.', 'm', 'd'] := rfl

theorem slash_not_mem_skillPath : '/' ∉ skillPath := by
  rw [skillPath_eq]
  simp

/-- The skill path of a package is its root, a slash and `SKILL.md`. -/
theorem parent_skill {path : Text} (h : isSkillPath path = true) (hslash : '/' ∈ path) :
    path = parent path ++ '/' :: skillPath := by
  unfold isSkillPath at h
  rw [Bool.or_eq_true] at h
  rcases h with h | h
  · rw [beq_iff_eq.mp h] at hslash
    exact absurd hslash slash_not_mem_skillPath
  · obtain ⟨front, rfl⟩ := List.isSuffixOf_iff_suffix.mp h
    have hlast : "/SKILL.md".toList = '/' :: skillPath := rfl
    rw [hlast, parent_append slash_not_mem_skillPath]

variable {members files : List (Text × ByteArray)} {root : Text} {examined : List (SkillFile × List Finding)}
  {skillMd : SkillFile} {frontmatter : List (Text × YamlValue)} {warnings : List Finding} {kept : List SkillFile}

/-- What an accepted package has stored of one of its files. -/
theorem Accepted.file (hkeeps : lib.KeepsPlain)
    (h : Accepted lib members files root examined skillMd frontmatter warnings kept) (hitem : item ∈ examined.map Prod.fst) :
    Proper lib item.path ∧ (root ++ '/' :: item.path, item.content) ∈ files ∧
      (∃ raw, normalizeText (root ++ '/' :: item.path) raw = .ok item.content) ∧
      ∃ findings, dispositionFor item.path item.content = .ok (item.disposition, findings) := by
  obtain ⟨result, hresult, rfl⟩ := List.mem_map.mp hitem
  obtain ⟨file, hfile, hlooked⟩ := mem_of_mapM h.looked result hresult
  obtain ⟨⟨disposition, findings⟩, hdisposition, hmade⟩ := bind_ok.mp hlooked
  obtain rfl := Except.ok.inj hmade
  obtain ⟨member, -, htaken⟩ := mem_of_mapM h.kept.taken file hfile
  obtain ⟨hproper, hcontent⟩ := takenMember_proper hkeeps htaken
  obtain ⟨skill, -, -, -, hunder⟩ := skillRoot_ok.mp h.rooted
  obtain ⟨rel, hrel⟩ := hunder file hfile
  have hdrop : file.1.drop (root.length + 1) = rel := by
    rw [← hrel, show root.length + 1 = (root ++ ['/']).length by simp, List.drop_left]
  have hpath : file.1 = root ++ '/' :: rel := by
    rw [← hrel]
    simp
  dsimp only
  rw [hdrop] at hdisposition ⊢
  rw [hpath] at hproper hcontent
  exact ⟨hproper.below, hpath ▸ hfile, ⟨member.2, hcontent⟩, findings, hdisposition⟩


theorem dispositionFor_skill {disposition : SkillFileDisposition} {findings : List Finding}
    (h : dispositionFor skillPath content = .ok (disposition, findings)) : disposition = .promptEligible := by
  unfold dispositionFor at h
  rw [if_pos (by rfl)] at h
  obtain ⟨body, -, h⟩ := bind_ok.mp h
  split at h
  · cases h
  · obtain ⟨text, -, h⟩ := bind_ok.mp h
    exact (Prod.mk.inj (Except.ok.inj h)).1.symm

/-- Every file of an accepted package has its place below the root. -/
theorem Accepted.paths (h : Accepted lib members files root examined skillMd frontmatter warnings kept) :
    files.map Prod.fst = ((examined.map Prod.fst).map SkillFile.path).map (fun rel => root ++ '/' :: rel) := by
  rw [examined_paths h.looked, List.map_map]
  obtain ⟨skill, -, -, -, hunder⟩ := skillRoot_ok.mp h.rooted
  refine List.map_congr_left (fun file hfile => ?_)
  obtain ⟨rel, hrel⟩ := hunder file hfile
  rw [Function.comp_apply, relativePath, ← hrel, show root.length + 1 = (root ++ ['/']).length by simp, List.drop_left]
  simp

theorem Accepted.skillPaths (h : Accepted lib members files root examined skillMd frontmatter warnings kept) :
    ((examined.map Prod.fst).map SkillFile.path).filter isSkillPath = [skillPath] := by
  obtain ⟨skill, hskill, hslash, rfl, -⟩ := skillRoot_ok.mp h.rooted
  have hmem : skill ∈ (files.map Prod.fst).filter isSkillPath := hskill ▸ List.mem_singleton_self _
  have honly : ∀ path ∈ files.map Prod.fst, isSkillPath path = true → path = skill := fun path hpath hsome =>
    List.mem_singleton.mp (hskill ▸ List.mem_filter.mpr ⟨hpath, hsome⟩)
  obtain ⟨hin, his⟩ := List.mem_filter.mp hmem
  have hplace := parent_skill his hslash
  have hbelow : ∀ rel, parent skill ++ '/' :: rel = skill → rel = skillPath := by
    intro rel heq
    rw [hplace, parent_append slash_not_mem_skillPath] at heq
    exact (List.cons.inj (List.append_cancel_left heq)).2
  refine all_same ?_ ?_ ?_
  · rw [examined_paths h.looked]
    exact h.distinct.filter _
  · rw [h.paths] at hin
    obtain ⟨rel, hrel, heq⟩ := List.mem_map.mp hin
    obtain rfl := hbelow rel heq
    exact List.mem_filter.mpr ⟨hrel, by rfl⟩
  · intro rel hrel
    obtain ⟨hrel, hsome⟩ := List.mem_filter.mp hrel
    refine hbelow rel (honly _ ?_ (isSkillPath_below hsome))
    rw [h.paths]
    exact List.mem_map_of_mem hrel

/-- The guidance of an accepted package. -/
theorem Accepted.shelf (hkeeps : lib.KeepsPlain)
    (h : Accepted lib members files root examined skillMd frontmatter warnings kept) :
    Shelf lib ((sortedFiles (examined.map Prod.fst)).filter (fun item => item.disposition = .promptEligible)) := by
  have hperm : (sortedFiles (examined.map Prod.fst)).Perm (examined.map Prod.fst) := List.perm_insertionSort _ _
  have hsub : ((sortedFiles (examined.map Prod.fst)).filter (fun item => item.disposition = .promptEligible)).Sublist
      (sortedFiles (examined.map Prod.fst)) := List.filter_sublist
  have hpaths : ((sortedFiles (examined.map Prod.fst)).map SkillFile.path).Nodup :=
    ((hperm.map _).nodup_iff).mpr (examined_paths h.looked ▸ h.distinct)
  refine ⟨fun item hitem => ?_, (List.pairwise_insertionSort PathLe _).sublist hsub, ?_, hpaths.sublist (hsub.map _), ?_⟩
  · obtain ⟨hitem, heligible⟩ := List.mem_filter.mp hitem
    obtain ⟨hproper, -, ⟨raw, hraw⟩, findings, hlooked⟩ := h.file hkeeps (hperm.mem_iff.mp hitem)
    rw [of_decide_eq_true heligible] at hlooked
    have hmd := dispositionFor_md hlooked
    have htext : isTextPath (root ++ '/' :: item.path) = true :=
      isTextPath_md (by simpa using @endsWith_append _ (root ++ ['/']) _ hmd)
    exact ⟨hproper, of_decide_eq_true heligible, ⟨findings, hlooked⟩, normalizeText_text htext hraw, hmd⟩
  · have hkeys : (examined.map Prod.fst |>.map (fun item => lib.casefold item.path)).Nodup := by
      refine List.Nodup.of_map (lib.casefold (root ++ ['/']) ++ ·) ?_
      have hfold : ((examined.map Prod.fst).map (fun item => lib.casefold item.path)).map (lib.casefold (root ++ ['/']) ++ ·) =
          files.map (collisionKey lib) := by
        have hfiles : files.map (collisionKey lib) = (files.map Prod.fst).map lib.casefold := by
          rw [List.map_map]
          rfl
        rw [hfiles, h.paths]
        simp [Library.casefold]
      rw [hfold]
      exact h.kept.distinct
    exact (((hperm.map _).nodup_iff).mpr hkeys).sublist (hsub.map _)
  · refine all_same ((hpaths.sublist (hsub.map _)).filter _) ?_ ?_
    · have hskill : skillPath ∈ ((examined.map Prod.fst).map SkillFile.path).filter isSkillPath :=
        h.skillPaths ▸ List.mem_singleton_self _
      obtain ⟨hmem, his⟩ := List.mem_filter.mp hskill
      obtain ⟨item, hitem, hpath⟩ := List.mem_map.mp hmem
      obtain ⟨-, -, -, findings, hlooked⟩ := h.file hkeeps hitem
      rw [hpath] at hlooked
      refine List.mem_filter.mpr ⟨List.mem_map.mpr ⟨item, List.mem_filter.mpr ⟨hperm.mem_iff.mpr hitem, ?_⟩, hpath⟩, his⟩
      exact decide_eq_true (dispositionFor_skill hlooked)
    · intro path hpath
      obtain ⟨hmem, his⟩ := List.mem_filter.mp hpath
      obtain ⟨item, hitem, rfl⟩ := List.mem_map.mp hmem
      have hin : item.path ∈ ((examined.map Prod.fst).map SkillFile.path).filter isSkillPath :=
        List.mem_filter.mpr ⟨List.mem_map_of_mem (hperm.mem_iff.mp (List.mem_filter.mp hitem).1), his⟩
      exact List.mem_singleton.mp (h.skillPaths ▸ hin)

end Stored

section Written

variable {header : Text} {item : SkillFile}

/-- A header as `safe_dump` writes it: no line begins with a dash, and no carriage return is written as such. -/
structure Dumped (header : Text) : Prop where
  quoted : '\r' ∉ header
  first : ∀ rest, header ≠ '-' :: rest
  indented : ∀ front back, header ≠ front ++ '\n' :: '-' :: back

/-- The end of the header is the first line that is `---`. -/
theorem cut_document (h : Dumped header) :
    Cut.cut "\n---\n".toList (skillDocument (header ++ ['\n']) body) = some ("---\n".toList ++ header, body) := by
  have hdocument : skillDocument (header ++ ['\n']) body = ("---\n".toList ++ header) ++ "\n---\n".toList ++ body := by
    simp [skillDocument]
  rw [hdocument]
  refine Cut.cut_first (by simp) (fun front back hsplit hback hprefix => ?_)
  obtain ⟨c, back, rfl⟩ := List.exists_cons_of_ne_nil hback
  obtain ⟨tail, htail⟩ := hprefix
  have hc : c = '\n' := by simpa using (congrArg List.head? htail).symm
  subst hc
  -- What follows the line break is a dash in the one list and not in the other.
  have hdash : (back ++ "\n---\n".toList ++ body).head? = some '-' := by
    have := congrArg (fun list => list.tail.head?) htail
    simpa using this.symm
  have hfront : "---\n".toList = ['-', '-', '-', '\n'] := rfl
  rw [hfront] at hsplit
  match front, hsplit with
  | [], hsplit => cases hsplit
  | [_], hsplit => cases hsplit
  | [_, _], hsplit => cases hsplit
  | [_, _, _], hsplit =>
    have hheader : header = back := by
      simp only [List.cons_append, List.cons.injEq, List.nil_append] at hsplit
      exact hsplit.2.2.2.2
    cases hb : back with
    | nil =>
      rw [hb] at hdash
      cases hdash
    | cons d rest =>
      rw [hb] at hdash
      obtain rfl : d = '-' := by simpa using hdash
      exact h.first rest (hheader.trans hb)
  | a :: b :: c :: d :: front, hsplit =>
    have hheader : header = front ++ '\n' :: back := by
      simp only [List.cons_append, List.cons.injEq, List.nil_append] at hsplit
      exact hsplit.2.2.2.2
    cases hb : back with
    | nil =>
      rw [hb] at hdash
      cases hdash
    | cons d rest =>
      rw [hb] at hdash
      obtain rfl : d = '-' := by simpa using hdash
      exact h.indented front rest (hb ▸ hheader)

theorem splitFrontmatter_document (h : Dumped header) :
    splitFrontmatter (skillDocument (header ++ ['\n']) body) = .ok (header, body) := by
  have hstart : startsWith (skillDocument (header ++ ['\n']) body) "---\n" = true :=
    List.isPrefixOf_iff_prefix.mpr ⟨header ++ ['\n'] ++ "---\n".toList ++ body, by simp [skillDocument]⟩
  rw [splitFrontmatter, hstart, cut_document h]
  simp

/-- The body of a stored `SKILL.md` -/
def skillBody (content : ByteArray) : Text :=
  match decode content with
  | some text =>
    match Cut.cut "\n---\n".toList text with
    | some (_, body) => body
    | none => []
  | none => []

/-- What an export holds of a guidance file: its own content, below another frontmatter if it is the `SKILL.md`. -/
def writtenContent (generated : Text) (item : SkillFile) : ByteArray :=
  if item.path = skillPath then encode (skillDocument generated (skillBody item.content)) else item.content

theorem Stored.bodyOf (h : Stored lib item) (hskill : item.path = skillPath) :
    (∃ text front, decode item.content = some text ∧ startsWith text "---\n" = true ∧
      Cut.cut "\n---\n".toList text = some (front, skillBody item.content) ∧ '\r' ∉ skillBody item.content) ∧
    frontmatterBody item.content = .ok (encode (skillBody item.content)) := by
  obtain ⟨findings, hlooked⟩ := h.looked
  obtain ⟨text, htext, hfree⟩ := h.text
  rw [hskill] at hlooked
  unfold dispositionFor at hlooked
  rw [if_pos (by rfl)] at hlooked
  obtain ⟨content, hcontent, -⟩ := bind_ok.mp hlooked
  have hbody := hcontent
  obtain ⟨text', htext', hcontent⟩ := bind_ok.mp hcontent
  rw [decoded, htext] at htext'
  obtain rfl := Except.ok.inj htext'
  obtain ⟨⟨front, body⟩, hsplit, hmade⟩ := bind_ok.mp hcontent
  obtain rfl := Except.ok.inj hmade
  unfold splitFrontmatter at hsplit
  split at hsplit
  · cases hsplit
  · rename_i hstart
    split at hsplit
    · cases hsplit
    · rename_i before after hcut
      obtain ⟨-, rfl⟩ := Prod.mk.inj (Except.ok.inj hsplit)
      have hskillBody : skillBody item.content = after := by
        simp only [skillBody, htext, hcut]
      rw [hskillBody]
      refine ⟨⟨text, before, htext, by simpa using hstart, hcut, fun hmem => hfree ?_⟩, hbody⟩
      rw [Cut.cut_some hcut]
      exact List.mem_append_right _ hmem

theorem exportContent_stored (h : Stored lib item) : exportContent generated item = .ok (writtenContent generated item) := by
  unfold exportContent writtenContent
  by_cases hskill : item.path = skillPath
  · obtain ⟨⟨text, front, htext, hstart, hcut, -⟩, -⟩ := h.bodyOf hskill
    rw [if_pos (show item.path = "SKILL.md".toList from hskill), if_pos hskill, decoded, htext]
    refine bind_ok.mpr ⟨text, rfl, ?_⟩
    simp only [hcut, hstart, if_true]
  · rw [if_neg (show ¬item.path = "SKILL.md".toList from hskill), if_neg hskill]

theorem frontmatterBody_document (h : Dumped header) :
    frontmatterBody (encode (skillDocument (header ++ ['\n']) body)) = .ok (encode body) := by
  rw [frontmatterBody, decoded, decode_encode]
  exact bind_ok.mpr ⟨_, rfl, bind_ok.mpr ⟨(header, body), splitFrontmatter_document h, rfl⟩⟩

/-- A file that is written is looked at as the one that was stored. -/
theorem dispositionFor_written (hdumped : Dumped header) (h : Stored lib item) :
    dispositionFor item.path (writtenContent (header ++ ['\n']) item) = dispositionFor item.path item.content := by
  unfold writtenContent
  by_cases hskill : item.path = skillPath
  · obtain ⟨-, hbody⟩ := h.bodyOf hskill
    rw [if_pos hskill, dispositionFor, dispositionFor, if_pos (show item.path = "SKILL.md".toList from hskill),
      if_pos (show item.path = "SKILL.md".toList from hskill), frontmatterBody_document hdumped, hbody]
  · rw [if_neg hskill]

theorem contentFile_written (hdumped : Dumped header) (h : Stored lib item) :
    contentFile { item with content := writtenContent (header ++ ['\n']) item } = contentFile item := by
  unfold writtenContent contentFile
  by_cases hskill : item.path = skillPath
  · obtain ⟨-, hbody⟩ := h.bodyOf hskill
    rw [if_pos (show item.path = "SKILL.md".toList from hskill), if_pos hskill,
      if_pos (show item.path = "SKILL.md".toList from hskill), frontmatterBody_document hdumped, hbody]
  · rw [if_neg (show ¬item.path = "SKILL.md".toList from hskill), if_neg hskill,
      if_neg (show ¬item.path = "SKILL.md".toList from hskill)]

/-- The text of a file that is written has no carriage return. -/
theorem Stored.writtenText (hdumped : Dumped header) (h : Stored lib item) :
    ∃ text, decode (writtenContent (header ++ ['\n']) item) = some text ∧ '\r' ∉ text := by
  unfold writtenContent
  by_cases hskill : item.path = skillPath
  · obtain ⟨⟨-, -, -, -, -, hfree⟩, -⟩ := h.bodyOf hskill
    rw [if_pos hskill, decode_encode]
    refine ⟨_, rfl, ?_⟩
    simp [skillDocument, hdumped.quoted, hfree]
  · rw [if_neg hskill]
    exact h.text

/-- What a second import makes of some content. -/
def reread (content : ByteArray) : ByteArray :=
  match decode content with
  | some text => encode (unmarked text)
  | none => content

theorem reread_encode : reread (encode text) = encode (unmarked text) := by
  rw [reread, decode_encode]

/-- A text that a byte order mark still stands before -/
def isMarked (content : ByteArray) : Bool :=
  match decode content with
  | some ('\ufeff' :: _) => true
  | _ => false

/-- A second import takes a mark away where there is one. -/
theorem reread_same_iff : reread content = content ↔ isMarked content = false := by
  cases htext : decode content with
  | none => simp [reread, isMarked, htext]
  | some text =>
    have hcontent := encode_decode htext
    simp only [reread, isMarked, htext]
    split
    · rename_i rest hmarked
      obtain rfl := Option.some.inj hmarked
      refine ⟨fun h => ?_, fun h => by cases h⟩
      -- The text would be as long without its first character.
      have hsame := congrArg List.length (encode_inj (h.trans hcontent.symm))
      simp [unmarked] at hsame
    · rename_i hnone
      refine ⟨fun _ => rfl, fun _ => ?_⟩
      have hplain : unmarked text = text := by
        unfold unmarked
        split
        · rename_i rest
          exact absurd rfl (hnone rest)
        · rfl
      rw [hplain, hcontent]

theorem reread_skill (hskill : item.path = skillPath) : reread (writtenContent generated item) = writtenContent generated item := by
  rw [writtenContent, if_pos hskill, reread_encode]
  rfl

/-- A member of an export is taken unless it begins like an archive. -/
theorem takenMember_written (hdumped : Dumped header) (hname : isSkillName name = true) (h : Stored lib item) :
    takenMember lib (name ++ '/' :: item.path, writtenContent (header ++ ['\n']) item) =
      if isArchiveContent (writtenContent (header ++ ['\n']) item) then reject .packageBoundsExceeded
      else .ok (name ++ '/' :: item.path, reread (writtenContent (header ++ ['\n']) item)) := by
  have hmd : endsWith (name ++ '/' :: item.path) ".md" = true := by
    simpa using @endsWith_append _ (name ++ ['/']) _ h.markdown
  obtain ⟨text, htext, hfree⟩ := h.writtenText hdumped
  have hcontent : normalizeText (name ++ '/' :: item.path) (writtenContent (header ++ ['\n']) item) =
      .ok (reread (writtenContent (header ++ ['\n']) item)) := by
    rw [← encode_decode htext, reread_encode]
    exact normalizeText_free (isTextPath_md hmd) hfree
  rw [takenMember, (h.proper.named hname).canonical]
  change (if isNestedArchive lib _ _ then _ else _) = _
  rw [isNestedArchive_md hmd, hcontent]
  rfl

end Written

end Solvan.Skills

import Solvan.Base.Checks
import Solvan.Skills.Interchange

/-! The packages that the import accepts, member by member. -/
namespace Solvan.Skills

open Checks

variable {lib : Library} {intake : Intake} {member : Text × ByteArray} {members : List (Text × ByteArray)}
  {files : List (Text × ByteArray)} {root : Text}

/-- What becomes of one member, looked at by itself. -/
def takenMember (lib : Library) (member : Text × ByteArray) : Import (Text × ByteArray) := do
  let path ← canonicalPath lib member.1
  if isNestedArchive lib path member.2 then reject .packageBoundsExceeded
  else
    let content ← normalizeText path member.2
    return (path, content)

def collisionKey (lib : Library) (file : Text × ByteArray) : Text := lib.casefold file.1

/-- What becomes of one file under the root. -/
def examinedFile (root : Text) (file : Text × ByteArray) : Import (SkillFile × List Finding) := do
  let relative := file.1.drop (root.length + 1)
  let (disposition, findings) ← dispositionFor relative file.2
  return (⟨relative, file.2, disposition⟩, findings)

def relativePath (root : Text) (file : Text × ByteArray) : Text := file.1.drop (root.length + 1)

theorem canonicalPath_codes {raw : Text} {error : ImportFailure} (h : canonicalPath lib raw = .error error) :
    error.codes ≠ [] := by
  have hcode : error = .skillImportError [.pathUnsafe] := by
    simp only [canonicalPath, reject] at h
    repeat' split at h
    all_goals cases h
    all_goals rfl
  rw [hcode]
  exact List.cons_ne_nil _ _

theorem normalizeText_codes {path : Text} {content : ByteArray} {error : ImportFailure}
    (h : normalizeText path content = .error error) : error.codes ≠ [] := by
  simp only [normalizeText, reject] at h
  repeat' split at h
  all_goals cases h
  exact List.cons_ne_nil _ _

/-- A member that is fine, and whose key is new, is added. -/
theorem Intake.take_ok {file : Text × ByteArray} (h : takenMember lib member = .ok file)
    (hnew : collisionKey lib file ∉ intake.collisionKeys) :
    intake.take lib member = ⟨intake.normalized ++ [file], intake.collisionKeys ++ [collisionKey lib file],
      intake.structuralErrors⟩ := by
  obtain ⟨path, hpath, h⟩ := bind_ok.mp h
  split at h
  · cases h
  · rename_i hnested
    obtain ⟨content, hcontent, h⟩ := bind_ok.mp h
    cases h
    have hkey : intake.collisionKeys.contains (lib.casefold path) = false := by
      rw [← Bool.not_eq_true, List.contains_iff_mem]
      exact hnew
    simp only [Intake.take, hpath, hkey, hnested, hcontent, Bool.false_eq_true, ↓reduceIte, collisionKey]

/-- Any other leaves an error behind. -/
theorem Intake.take_clean (h : (intake.take lib member).structuralErrors = []) :
    intake.structuralErrors = [] ∧
      ∃ file, takenMember lib member = .ok file ∧ collisionKey lib file ∉ intake.collisionKeys := by
  unfold Intake.take at h
  cases hpath : canonicalPath lib member.1 with
  | error error =>
    simp only [hpath, List.append_eq_nil_iff] at h
    exact absurd h.2 (canonicalPath_codes hpath)
  | ok path =>
    simp only [hpath] at h
    split at h
    · simp at h
    · rename_i hkey
      split at h
      · simp at h
      · rename_i hnested
        cases hcontent : normalizeText path member.2 with
        | error error =>
          simp only [hcontent, List.append_eq_nil_iff] at h
          exact absurd h.2 (normalizeText_codes hcontent)
        | ok content =>
          simp only [hcontent] at h
          refine ⟨h, (path, content), ?_, by simpa [collisionKey] using hkey⟩
          simp [takenMember, hpath, hnested, hcontent, bind_ok]

/-- The members that are kept together: each is fine, and their keys are new and differ. -/
structure Kept (lib : Library) (keys : List Text) (members files : List (Text × ByteArray)) : Prop where
  taken : members.mapM (takenMember lib) = .ok files
  distinct : (files.map (collisionKey lib)).Nodup
  fresh : ∀ file ∈ files, collisionKey lib file ∉ keys

theorem Kept.foldl (h : Kept lib intake.collisionKeys members files) :
    members.foldl (Intake.take lib) intake = ⟨intake.normalized ++ files,
      intake.collisionKeys ++ files.map (collisionKey lib), intake.structuralErrors⟩ := by
  obtain ⟨htaken, hdistinct, hfresh⟩ := h
  induction members generalizing intake files with
  | nil =>
    cases htaken
    simp
  | cons member rest ih =>
    obtain ⟨file, files, hfile, hrest, rfl⟩ := List.forall₂_cons_left_iff.mp (mapM_ok.mp htaken)
    rw [List.map_cons, List.nodup_cons] at hdistinct
    rw [List.foldl_cons, Intake.take_ok hfile (hfresh file List.mem_cons_self)]
    rw [ih (mapM_ok.mpr hrest) hdistinct.2]
    · simp
    · intro other hother
      rw [List.mem_append, List.mem_singleton, not_or]
      refine ⟨hfresh other (List.mem_cons_of_mem _ hother), fun hsame => hdistinct.1 ?_⟩
      exact List.mem_map.mpr ⟨other, hother, hsame⟩

theorem Kept.of_clean (h : (members.foldl (Intake.take lib) intake).structuralErrors = []) :
    intake.structuralErrors = [] ∧ ∃ files, Kept lib intake.collisionKeys members files := by
  induction members generalizing intake with
  | nil => exact ⟨h, [], rfl, List.nodup_nil, fun _ hfile => (nomatch hfile)⟩
  | cons member rest ih =>
    obtain ⟨hclean, files, hkept⟩ := ih h
    obtain ⟨hbefore, file, hfile, hnew⟩ := Intake.take_clean hclean
    rw [Intake.take_ok hfile hnew] at hkept
    refine ⟨hbefore, file :: files, mapM_ok.mpr (.cons hfile (mapM_ok.mp hkept.taken)), ?_, ?_⟩
    · rw [List.map_cons, List.nodup_cons]
      refine ⟨fun hmem => ?_, hkept.distinct⟩
      obtain ⟨other, hother, hsame⟩ := List.mem_map.mp hmem
      exact hkept.fresh other hother (by simp [hsame])
    · intro other hother
      rcases List.mem_cons.mp hother with rfl | hrest
      · exact hnew
      · exact fun hmem => hkept.fresh other hrest (List.mem_append_left _ hmem)

theorem Kept.perm {members' : List (Text × ByteArray)} (h : Kept lib [] members files)
    (hperm : members.Perm members') : ∃ files', Kept lib [] members' files' ∧ files.Perm files' := by
  obtain ⟨files', htaken, hfiles⟩ := mapM_perm hperm h.taken
  exact ⟨files', ⟨htaken, (hfiles.map _).nodup_iff.mp h.distinct, fun _ _ => List.not_mem_nil⟩, hfiles⟩

theorem skillRoot_ok : skillRoot files = .ok root ↔
    ∃ skillPath, (files.map Prod.fst).filter isSkillPath = [skillPath] ∧ '/' ∈ skillPath ∧
      root = parent skillPath ∧ ∀ file ∈ files, (root ++ ['/']) <+: file.1 := by
  unfold skillRoot
  split
  · rename_i skillPath hskill
    simp only [hskill, List.cons.injEq, and_true, exists_eq_left']
    split
    · rename_i hslash
      rw [Bool.not_eq_true', ← Bool.not_eq_true, List.contains_iff_mem] at hslash
      simp [reject, hslash]
    · rename_i hslash
      simp only [Bool.not_eq_true', Bool.not_eq_false, List.contains_iff_mem] at hslash
      split
      · rename_i hout
        refine ⟨fun h => (nomatch h), ?_⟩
        rintro ⟨-, rfl, hunder⟩
        obtain ⟨file, hfile, hnot⟩ := List.any_eq_true.mp hout
        simp [List.isPrefixOf_iff_prefix.mpr (hunder file hfile)] at hnot
      · rename_i hunder
        simp only [Bool.not_eq_true, List.any_eq_false, Bool.not_eq_true', Bool.not_eq_false,
          List.isPrefixOf_iff_prefix] at hunder
        rw [Except.ok.injEq]
        exact ⟨fun h => ⟨hslash, h.symm, fun file hfile => h ▸ hunder file hfile⟩, fun h => h.2.1.symm⟩
  · rename_i hnone
    refine ⟨fun h => (nomatch h), ?_⟩
    rintro ⟨skillPath, hskill, -⟩
    exact absurd hskill (hnone skillPath)

/-- The one root is that of the files in any order. -/
theorem skillRoot_perm {files' : List (Text × ByteArray)} (hperm : files.Perm files')
    (h : skillRoot files = .ok root) : skillRoot files' = .ok root := by
  obtain ⟨skillPath, hskill, hslash, hroot, hunder⟩ := skillRoot_ok.mp h
  have hfilter := ((hperm.map Prod.fst).filter isSkillPath).symm
  rw [hskill, List.perm_singleton] at hfilter
  exact skillRoot_ok.mpr ⟨skillPath, hfilter, hslash, hroot, fun file hfile =>
    hunder file (hperm.mem_iff.mpr hfile)⟩

/-- The loop over the files looks at each by itself, and asks that no two have one path. -/
theorem examine_ok {seen : List Text} {result : List SkillFile × List Finding} :
    examine root files seen = .ok result ↔
      ∃ examined, files.mapM (examinedFile root) = .ok examined ∧
        result = (examined.map Prod.fst, examined.flatMap Prod.snd) ∧
        (∀ file ∈ files, relativePath root file ≠ []) ∧ (files.map (relativePath root)).Nodup ∧
        ∀ file ∈ files, relativePath root file ∉ seen := by
  induction files generalizing seen result with
  | nil =>
    rw [examine]
    constructor
    · intro h
      cases h
      exact ⟨[], rfl, rfl, by simp, List.nodup_nil, by simp⟩
    · rintro ⟨examined, hexamined, rfl, -⟩
      cases hexamined
      rfl
  | cons file rest ih =>
    obtain ⟨path, content⟩ := file
    rw [examine]
    dsimp only
    split
    · rename_i hbad
      refine ⟨fun h => (nomatch h), ?_⟩
      rintro ⟨examined, -, -, hnonempty, -, hfresh⟩
      have hne := hnonempty _ List.mem_cons_self
      have hnew := hfresh _ List.mem_cons_self
      simp only [relativePath] at hne hnew
      simp [hne, hnew] at hbad
    · rename_i hgood
      simp only [Bool.or_eq_true, List.isEmpty_iff, List.contains_iff_mem, not_or] at hgood
      obtain ⟨hnonempty, hnew⟩ := hgood
      constructor
      · intro h
        obtain ⟨⟨disposition, fileFindings⟩, hdisposition, h⟩ := bind_ok.mp h
        obtain ⟨⟨laterFiles, laterFindings⟩, hlater, h⟩ := bind_ok.mp h
        cases h
        obtain ⟨examined, hexamined, hresult, hnone, hdistinct, hfresh⟩ := ih.mp hlater
        cases hresult
        have hfile : examinedFile root (path, content) =
            .ok (⟨path.drop (root.length + 1), content, disposition⟩, fileFindings) :=
          bind_ok.mpr ⟨_, hdisposition, rfl⟩
        refine ⟨_ :: examined, mapM_ok.mpr (.cons hfile (mapM_ok.mp hexamined)), rfl, ?_, ?_, ?_⟩
        · exact List.forall_mem_cons.mpr ⟨hnonempty, hnone⟩
        · rw [List.map_cons, List.nodup_cons]
          refine ⟨fun hmem => ?_, hdistinct⟩
          obtain ⟨other, hother, hsame⟩ := List.mem_map.mp hmem
          exact hfresh other hother (List.mem_append_right _ (List.mem_singleton.mpr hsame))
        · exact List.forall_mem_cons.mpr ⟨hnew, fun other hother hmem =>
            hfresh other hother (List.mem_append_left _ hmem)⟩
      · rintro ⟨examined, hexamined, rfl, hnone, hdistinct, hfresh⟩
        obtain ⟨head, later, hhead, hlater, rfl⟩ := List.forall₂_cons_left_iff.mp (mapM_ok.mp hexamined)
        obtain ⟨⟨disposition, fileFindings⟩, hdisposition, hmade⟩ := bind_ok.mp hhead
        cases hmade
        rw [List.map_cons, List.nodup_cons] at hdistinct
        refine bind_ok.mpr ⟨_, hdisposition, bind_ok.mpr ⟨_, ih.mpr ⟨later, mapM_ok.mpr hlater, rfl,
          (List.forall_mem_cons.mp hnone).2, hdistinct.2, fun other hother hmem => ?_⟩, rfl⟩⟩
        rcases List.mem_append.mp hmem with hseen | hsame
        · exact (List.forall_mem_cons.mp hfresh).2 other hother hseen
        · exact hdistinct.1 (List.mem_map.mpr ⟨other, hother, List.mem_singleton.mp hsame⟩)

/-- The frontmatter names another directory than that of the package. -/
def nameMismatch (root : Text) (frontmatter : List (Text × YamlValue)) : Bool :=
  match frontmatter.lookup "name".toList with
  | some (.str name) => lastPart root != name
  | _ => true

/-- What the parts of an accepted package come to. -/
def madeInspection (lib : Library) (bundleHash : String) (root : Text)
    (examined : List (SkillFile × List Finding)) (frontmatter : List (Text × YamlValue))
    (warnings : List Finding) (content : List SkillFile) : SkillImportInspection where
  sourceBundleHash := bundleHash
  normalizedPackageHash := digest lib "solvan/skill/normalized-package/v1"
    (manifest lib (sortedFiles (examined.map Prod.fst)) true)
  guidanceContentHash := guidanceContentHash lib content
  files := sortedFiles (examined.map Prod.fst)
  frontmatter := frontmatter
  warnings := sortedFindings (examined.flatMap Prod.snd ++ warnings ++
    if nameMismatch root frontmatter then [.nameDirectoryMismatch] else [])

/-- The parts of an accepted package. -/
structure Accepted (lib : Library) (members files : List (Text × ByteArray)) (root : Text)
    (examined : List (SkillFile × List Finding)) (skillMd : SkillFile)
    (frontmatter : List (Text × YamlValue)) (warnings : List Finding) (content : List SkillFile) : Prop where
  kept : Kept lib [] members files
  rooted : skillRoot files = .ok root
  looked : files.mapM (examinedFile root) = .ok examined
  nonempty : ∀ file ∈ files, relativePath root file ≠ []
  distinct : (files.map (relativePath root)).Nodup
  skill : (sortedFiles (examined.map Prod.fst)).find? (fun item => item.path = "SKILL.md".toList) = some skillMd
  parsed : parseFrontmatter lib skillMd.content = .ok frontmatter
  validated : validateFrontmatter frontmatter = .ok warnings
  guidance : contentFiles (sortedFiles (examined.map Prod.fst)) = .ok content

theorem inspectMembers_ok {bundleHash : String} {a : SkillImportInspection} :
    inspectMembers lib bundleHash members = .ok a ↔
      ∃ files root examined skillMd frontmatter warnings content,
        Accepted lib members files root examined skillMd frontmatter warnings content ∧
          a = madeInspection lib bundleHash root examined frontmatter warnings content := by
  constructor
  · intro h
    simp only [inspectMembers] at h
    split at h
    · cases h
    · rename_i hclean
      simp only [Bool.not_eq_true', Bool.not_eq_false, List.isEmpty_iff] at hclean
      obtain ⟨-, files, hkept⟩ := Kept.of_clean hclean
      rw [hkept.foldl] at h
      obtain ⟨root, hroot, h⟩ := bind_ok.mp h
      obtain ⟨⟨skillFiles, findings⟩, hexamine, h⟩ := bind_ok.mp h
      obtain ⟨examined, hlooked, hresult, hnonempty, hdistinct, -⟩ := examine_ok.mp hexamine
      cases hresult
      dsimp only at h
      split at h
      · cases h
      · rename_i skillMd hskill
        obtain ⟨frontmatter, hparsed, h⟩ := bind_ok.mp h
        obtain ⟨warnings, hvalidated, h⟩ := bind_ok.mp h
        obtain ⟨content, hcontent, h⟩ := bind_ok.mp h
        cases h
        exact ⟨files, root, examined, skillMd, frontmatter, warnings, content,
          ⟨hkept, hroot, hlooked, hnonempty, hdistinct, hskill, hparsed, hvalidated, hcontent⟩, rfl⟩
  · rintro ⟨files, root, examined, skillMd, frontmatter, warnings, content, h, rfl⟩
    have hexamine : examine root files [] = .ok (examined.map Prod.fst, examined.flatMap Prod.snd) :=
      examine_ok.mpr ⟨examined, h.looked, rfl, h.nonempty, h.distinct, fun _ _ => List.not_mem_nil⟩
    have hfold : members.foldl (Intake.take lib) ⟨[], [], []⟩ = _ := Kept.foldl h.kept
    simp only [inspectMembers, hfold, List.isEmpty_nil, Bool.not_true,
      Bool.false_eq_true, ↓reduceIte, List.nil_append, bind_ok]
    refine ⟨root, h.rooted, _, hexamine, ?_⟩
    simp only [h.skill, bind_ok]
    exact ⟨frontmatter, h.parsed, warnings, h.validated, content, h.guidance, rfl⟩

end Solvan.Skills

import Solvan.Skills.Stored

/-! The import of an export. -/
namespace Solvan.Skills

open Solvan.Base Checks

section Zip

variable {lib : Library} {entries members : List (Text × ByteArray)} {infos : List ZipInfo} {archive : ByteArray}
  {remaining : Nat}

/-- An entry as `deterministic_export` writes it. -/
structure WrittenEntry (lib : Library) (entry : Text × ByteArray) (info : ZipInfo) : Prop where
  named : info.filename = entry.1
  file : info.fileSize = entry.2.size
  compressed : info.compressSize = lib.deflatedSize entry.2
  mode : info.externalAttr = 0o100644 <<< 16
  intact : info.Intact entry.2

def expandedSize (entries : List (Text × ByteArray)) : Nat := (entries.map (fun entry => entry.2.size)).sum

def deflatedTotal (lib : Library) (entries : List (Text × ByteArray)) : Nat :=
  (entries.map (fun entry => lib.deflatedSize entry.2)).sum

/-- The end of a ZIP archive, and of each entry its content, its header and its place in the directory. -/
def bundleSize (lib : Library) (entries : List (Text × ByteArray)) : Nat :=
  22 + (entries.map (fun entry => 76 + 2 * (encode entry.1).size + lib.deflatedSize entry.2)).sum

/-- What is written of some entries is a ZIP archive that these are read from. -/
structure WritesBack (lib : Library) (entries : List (Text × ByteArray)) : Prop where
  zip : lib.isZipfile (lib.writeZip entries) = true
  size : (lib.writeZip entries).size = bundleSize lib entries
  entries : ∃ infos, lib.infolist (lib.writeZip entries) = .ok infos ∧ List.Forall₂ (WrittenEntry lib) entries infos

theorem WrittenEntry.regular {entry : Text × ByteArray} {info : ZipInfo} (h : WrittenEntry lib entry info) :
    info.special = false := by
  rw [ZipInfo.special, ZipInfo.fileType, h.mode]
  decide

theorem written_sizes (h : List.Forall₂ (WrittenEntry lib) entries infos) :
    infos.length = entries.length ∧ (infos.map ZipInfo.fileSize).sum = expandedSize entries ∧
      (infos.map ZipInfo.compressSize).sum = deflatedTotal lib entries := by
  unfold expandedSize deflatedTotal
  induction h with
  | nil => exact ⟨rfl, rfl, rfl⟩
  | cons hentry hrest ih =>
    obtain ⟨hlength, hfile, hcompressed⟩ := ih
    simp only [List.length_cons, List.map_cons, List.sum_cons, hlength, hfile, hcompressed, hentry.file,
      hentry.compressed, and_self]

theorem readZip_written (h : List.Forall₂ (WrittenEntry lib) entries infos)
    (hfiles : ∀ entry ∈ entries, endsWith entry.1 "/" = false) :
    readZip remaining infos = .ok members ↔ members = entries ∧ expandedSize entries ≤ remaining := by
  induction h generalizing remaining members with
  | nil => simp [readZip, expandedSize, eq_comm]
  | @cons entry info entries infos hentry hrest ih =>
    obtain ⟨hfile, hothers⟩ := List.forall_mem_cons.mp hfiles
    have hdir : info.isDir = false := by rw [ZipInfo.isDir, hentry.named, hfile]
    have hsize : expandedSize (entry :: entries) = entry.2.size + expandedSize entries := by
      rw [expandedSize, List.map_cons, List.sum_cons]
      rfl
    rw [readZip_cons hentry.intact hdir, hsize, hentry.named]
    constructor
    · rintro ⟨-, hfits, others, hread, rfl⟩
      obtain ⟨rfl, hrest⟩ := (ih hothers).mp hread
      exact ⟨rfl, by omega⟩
    · rintro ⟨rfl, hfits⟩
      exact ⟨hentry.regular, by omega, entries, (ih hothers).mpr ⟨rfl, by omega⟩, rfl⟩

/-- The bounds that the import puts on an archive. -/
structure Fits (lib : Library) (entries : List (Text × ByteArray)) : Prop where
  archive : bundleSize lib entries ≤ maxArchiveBytes
  expanded : expandedSize entries ≤ maxExpandedBytes
  ratio : expandedSize entries ≤ maxCompressionRatio * max 1 (deflatedTotal lib entries)

/-- The members of an archive that was written are its entries, where these fit. -/
theorem extractMembers_written (h : WritesBack lib entries) (hfiles : ∀ entry ∈ entries, endsWith entry.1 "/" = false)
    (hsome : entries ≠ []) (hfew : entries.length ≤ maxEntries) :
    extractMembers lib (lib.writeZip entries) = .ok members ↔ members = entries ∧ Fits lib entries := by
  obtain ⟨infos, hinfos, hwritten⟩ := h.entries
  obtain ⟨hlength, hfile, hcompressed⟩ := written_sizes hwritten
  have hzip : zipMembers lib (lib.writeZip entries) = .ok members ↔
      members = entries ∧ expandedSize entries ≤ maxExpandedBytes ∧
        expandedSize entries ≤ maxCompressionRatio * max 1 (deflatedTotal lib entries) := by
    simp only [zipMembers, hinfos, Except.mapError, bind_ok, Except.ok.injEq, exists_eq_left', hlength, hfile, hcompressed,
      if_neg (Nat.not_lt.mpr hfew)]
    split
    · rename_i hover
      refine ⟨fun h => (by cases h), ?_⟩
      rintro ⟨-, hexpanded, hratio⟩
      simp only [Bool.or_eq_true, decide_eq_true_eq] at hover
      omega
    · rename_i hover
      simp only [Bool.or_eq_true, decide_eq_true_eq, not_or, Nat.not_lt] at hover
      rw [readZip_written hwritten hfiles]
      exact ⟨fun h => ⟨h.1, hover⟩, fun h => ⟨h.1, h.2.1⟩⟩
  by_cases hlimit : bundleSize lib entries ≤ maxArchiveBytes
  · rw [extractMembers_zip (h.size ▸ hlimit) h.zip, hzip]
    constructor
    · rintro ⟨⟨rfl, hexpanded, hratio⟩, -⟩
      exact ⟨rfl, hlimit, hexpanded, hratio⟩
    · rintro ⟨rfl, hfits⟩
      exact ⟨⟨rfl, hfits.expanded, hfits.ratio⟩, hsome⟩
  · rw [extractMembers, h.size, if_pos (Nat.lt_of_not_le hlimit)]
    exact ⟨fun h => (by cases h), fun h => absurd h.2.archive hlimit⟩

theorem readZip_length (h : readZip remaining infos = .ok members) : members.length ≤ infos.length := by
  induction infos generalizing remaining members with
  | nil =>
    obtain rfl := Except.ok.inj h
    exact Nat.le_refl _
  | cons info infos ih =>
    rw [readZip] at h
    rw [List.length_cons]
    split at h
    · exact Nat.le_succ_of_le (ih h)
    · split at h
      · cases h
      · split at h
        · cases h
        · split at h
          · cases h
          · obtain ⟨others, hothers, h⟩ := bind_ok.mp h
            obtain rfl := Except.ok.inj h
            exact Nat.succ_le_succ (ih hothers)

theorem readTar_length {infos : List TarInfo} (h : readTar infos = .ok members) : members.length ≤ infos.length := by
  induction infos generalizing members with
  | nil =>
    obtain rfl := Except.ok.inj h
    exact Nat.le_refl _
  | cons info infos ih =>
    rw [readTar] at h
    rw [List.length_cons]
    split at h
    · exact Nat.le_succ_of_le (ih h)
    · split at h
      · cases h
      · split at h
        · cases h
        · cases h
        · obtain ⟨others, hothers, h⟩ := bind_ok.mp h
          obtain rfl := Except.ok.inj h
          exact Nat.succ_le_succ (ih hothers)

theorem zipMembers_length (h : zipMembers lib archive = .ok members) : members.length ≤ maxEntries := by
  obtain ⟨infos, -, h⟩ := bind_ok.mp h
  split at h
  · cases h
  · rename_i hfew
    dsimp only at h
    split at h
    · cases h
    · exact (readZip_length h).trans (Nat.le_of_not_lt hfew)

theorem tarMembers_length (h : tarMembers lib archive = .ok members) : members.length ≤ maxEntries := by
  have hread : ∃ infos, infos.length ≤ maxEntries ∧ readTar infos = .ok members := by
    unfold tarMembers at h
    dsimp only at h
    split at h
    all_goals
      obtain ⟨tarBytes, -, h⟩ := bind_ok.mp h
      split at h
      · cases h
      · obtain ⟨infos, -, h⟩ := bind_ok.mp h
        split at h
        · cases h
        · rename_i hfew
          split at h
          · cases h
          · exact ⟨infos, Nat.le_of_not_lt hfew, h⟩
  obtain ⟨infos, hfew, hread⟩ := hread
  exact (readTar_length hread).trans hfew

/-- An archive that is unpacked has no more members than the import allows. -/
theorem extractMembers_length (h : extractMembers lib archive = .ok members) : members.length ≤ maxEntries := by
  unfold extractMembers at h
  dsimp only at h
  split at h
  · cases h
  · split at h
    all_goals
      obtain ⟨found, hfound, h⟩ := bind_ok.mp h
      split at h
      · cases h
      obtain rfl := Except.ok.inj h
    · exact zipMembers_length hfound
    · exact tarMembers_length hfound

end Zip

section Back

variable {lib : Library} {guidance : List SkillFile} {files : List (Text × ByteArray)} {item : SkillFile}
  {name header rel description license exportId : Text} {contentHash : String}

/-- A file in an export, and as a second import unpacks it. -/
def packed (name generated : Text) (item : SkillFile) : Text × ByteArray :=
  (name ++ '/' :: item.path, writtenContent generated item)

def unpacked (name generated : Text) (item : SkillFile) : Text × ByteArray :=
  (name ++ '/' :: item.path, reread (writtenContent generated item))

def rewritten (generated : Text) (item : SkillFile) : SkillFile :=
  { item with content := writtenContent generated item }

theorem isSkillPath_named (hname : '/' ∉ name) : isSkillPath (name ++ '/' :: rel) = isSkillPath rel := by
  rw [Bool.eq_iff_iff]
  refine ⟨fun h => ?_, isSkillPath_below⟩
  have hlast : "/SKILL.md".toList = '/' :: skillPath := rfl
  unfold isSkillPath at h ⊢
  rw [Bool.or_eq_true] at h ⊢
  rcases h with h | h
  · refine absurd ?_ slash_not_mem_skillPath
    rw [show skillPath = name ++ '/' :: rel from (beq_iff_eq.mp h).symm]
    simp
  · obtain ⟨front, hfront⟩ := List.isSuffixOf_iff_suffix.mp h
    rw [hlast] at hfront
    -- The last part of the path begins in the name, or not before its slash.
    obtain ⟨tail, hhead, htail⟩ | ⟨tail, hhead, htail⟩ := List.append_eq_append_iff.mp hfront
    · cases tail with
      | nil =>
        left
        rw [(List.cons.inj htail).2.symm]
        exact beq_self_eq_true _
      | cons c tail =>
        obtain ⟨rfl, -⟩ := List.cons.inj htail
        exact absurd (hhead ▸ List.mem_append_right _ List.mem_cons_self) hname
    · cases tail with
      | nil =>
        left
        rw [(List.cons.inj htail).2]
        exact beq_self_eq_true _
      | cons c tail =>
        right
        rw [(List.cons.inj htail).2]
        exact List.isSuffixOf_iff_suffix.mpr ⟨tail, by rw [hlast]; rfl⟩

/-- The members of an export are kept where none begins like an archive. -/
theorem kept_packed (hdumped : Dumped header) (hname : isSkillName name = true) (h : Shelf lib guidance) :
    Kept lib [] (guidance.map (packed name (header ++ ['\n']))) files ↔
      (∀ item ∈ guidance, isArchiveContent (writtenContent (header ++ ['\n']) item) = false) ∧
        files = guidance.map (unpacked name (header ++ ['\n'])) := by
  have htaken : (guidance.map (packed name (header ++ ['\n']))).mapM (takenMember lib) = .ok files ↔
      (∀ item ∈ guidance, isArchiveContent (writtenContent (header ++ ['\n']) item) = false) ∧
        files = guidance.map (unpacked name (header ++ ['\n'])) := by
    rw [List.mapM_map]
    exact mapM_guarded (fun item hitem => takenMember_written hdumped hname (h.stored item hitem))
  constructor
  · exact fun hkept => htaken.mp hkept.taken
  · rintro ⟨hnone, rfl⟩
    refine ⟨htaken.mpr ⟨hnone, rfl⟩, ?_, fun _ _ => List.not_mem_nil⟩
    have hkeys : (guidance.map (unpacked name (header ++ ['\n']))).map (collisionKey lib) =
        (guidance.map (fun item => lib.casefold item.path)).map (lib.casefold (name ++ ['/']) ++ ·) := by
      simp [unpacked, collisionKey, Library.casefold]
    rw [hkeys]
    exact h.keys.map (List.append_right_injective _)

theorem relativePath_unpacked : relativePath name (unpacked name (header ++ ['\n']) item) = item.path := by
  simp [relativePath, unpacked]

/-- The root of an export is the name of the skill. -/
theorem skillRoot_unpacked (hname : isSkillName name = true) (h : Shelf lib guidance) :
    skillRoot (guidance.map (unpacked name (header ++ ['\n']))) = .ok name := by
  refine skillRoot_ok.mpr ⟨name ++ '/' :: skillPath, ?_, by simp, ?_, ?_⟩
  · have hpaths : (guidance.map (unpacked name (header ++ ['\n']))).map Prod.fst =
        (guidance.map SkillFile.path).map (fun rel => name ++ '/' :: rel) := by
      simp [unpacked]
    have hsame : isSkillPath ∘ (fun rel => name ++ '/' :: rel) = isSkillPath :=
      funext (fun rel => isSkillPath_named (skillName_free hname '/' (by decide)))
    rw [hpaths, List.filter_map, hsame, h.skill]
    rfl
  · rw [parent_append slash_not_mem_skillPath]
  · intro file hfile
    obtain ⟨item, -, rfl⟩ := List.mem_map.mp hfile
    exact ⟨item.path, by simp [unpacked]⟩

/-- The frontmatter of an export, as it is read. -/
def exportedFields (name description license : Text) (contentHash : String) (exportId : Text) : List (Text × YamlValue) :=
  [("description".toList, .str description), ("license".toList, .str license),
    ("metadata".toList, .mapping [("solvan-content-digest".toList, .str contentHash.toList),
      ("solvan-export-id".toList, .str exportId)]),
    ("name".toList, .str name)]

theorem validate_exported (hname : isSkillName name = true)
    (hdescription : 1 ≤ description.length ∧ description.length ≤ 1000) :
    (∃ warnings, validateFrontmatter (exportedFields name description license contentHash exportId) = .ok warnings) ↔
      name.length ≤ 64 ∧ strip description ≠ [] := by
  have hlookupName : (exportedFields name description license contentHash exportId).lookup "name".toList =
      some (.str name) := rfl
  have hlookupDescription : (exportedFields name description license contentHash exportId).lookup "description".toList =
      some (.str description) := rfl
  have hlong : 1 ≤ name.length := List.length_pos_iff.mpr (skillName_ne_nil hname)
  rw [validateFrontmatter, hlookupName, hlookupDescription]
  dsimp only
  split
  · rename_i hbad
    refine ⟨fun ⟨_, h⟩ => (by cases h), ?_⟩
    rintro ⟨hshort, hstrip⟩
    have hlimit : description.length ≤ 1024 := by omega
    simp [hlong, hshort, hname, hdescription.1, hlimit, hstrip] at hbad
  · rename_i hgood
    simp only [Bool.not_eq_true', Bool.not_eq_false, Bool.and_eq_true, decide_eq_true_eq] at hgood
    exact ⟨fun _ => ⟨hgood.1.1.1.1.2, by simpa using hgood.2⟩, fun _ => ⟨_, rfl⟩⟩

/-- What `safe_dump` writes of the frontmatter of an export, and what is loaded of it. -/
structure DumpsBack (lib : Library) (name description license : Text) (contentHash : String) (exportId header : Text) :
    Prop where
  dumps : lib.safeDump (exportMetadata name description license contentHash exportId) = header ++ ['\n']
  dumped : Dumped header
  loads : loadHeader lib header = .ok (exportedFields name description license contentHash exportId)

theorem parseFrontmatter_document {body : Text} (h : DumpsBack lib name description license contentHash exportId header) :
    parseFrontmatter lib (encode (skillDocument (header ++ ['\n']) body)) =
      .ok (exportedFields name description license contentHash exportId) := by
  rw [parseFrontmatter, decoded, decode_encode]
  exact bind_ok.mpr ⟨_, rfl, bind_ok.mpr ⟨(header, body), splitFrontmatter_document h.dumped, h.loads⟩⟩

theorem find_skill {generated : Text} (h : Shelf lib guidance) : ∃ item ∈ guidance, item.path = skillPath ∧
    (guidance.map (rewritten generated)).find? (fun item => item.path = "SKILL.md".toList) =
      some (rewritten generated item) := by
  have hmem : skillPath ∈ (guidance.map SkillFile.path).filter isSkillPath := h.skill ▸ List.mem_singleton_self _
  obtain ⟨item, hitem, hpath⟩ := List.mem_map.mp (List.mem_filter.mp hmem).1
  have hsome : ((guidance.map (rewritten generated)).find? (fun item => item.path = "SKILL.md".toList)).isSome = true :=
    List.find?_isSome.mpr ⟨_, List.mem_map_of_mem hitem, decide_eq_true hpath⟩
  obtain ⟨found, hfound⟩ := Option.isSome_iff_exists.mp hsome
  obtain ⟨other, hother, rfl⟩ := List.mem_map.mp (List.mem_of_find?_eq_some hfound)
  have hfirst := List.find?_some hfound
  have hsame : other.path = skillPath := of_decide_eq_true hfirst
  obtain rfl := List.inj_on_of_nodup_map h.paths hother hitem (hsame.trans hpath.symm)
  exact ⟨other, hother, hpath, hfound⟩

theorem sorted_rewritten {generated : Text} (h : Shelf lib guidance) :
    sortedFiles (guidance.map (rewritten generated)) = guidance.map (rewritten generated) :=
  List.Pairwise.insertionSort_eq (List.pairwise_map.mpr h.sorted)

theorem contentFiles_rewritten (hdumped : Dumped header) (h : Shelf lib guidance) :
    contentFiles (guidance.map (rewritten (header ++ ['\n']))) = guidance.mapM contentFile := by
  have hall : (guidance.map (rewritten (header ++ ['\n']))).filter (fun item => item.disposition = .promptEligible) =
      guidance.map (rewritten (header ++ ['\n'])) := by
    refine List.filter_eq_self.mpr (fun item hitem => ?_)
    obtain ⟨stored, hstored, rfl⟩ := List.mem_map.mp hitem
    exact decide_eq_true (h.stored stored hstored).eligible
  rw [contentFiles, hall, List.mapM_map]
  exact mapM_congr (fun item hitem => contentFile_written hdumped (h.stored item hitem))

/-- What makes the guidance of a package portable, as far as its files and its frontmatter go. -/
structure Readable (guidance : List SkillFile) (name description generated : Text) : Prop where
  named : name.length ≤ 64
  described : strip description ≠ []
  /-- No file is taken for an archive. -/
  plain : ∀ item ∈ guidance, isArchiveContent (writtenContent generated item) = false
  /-- No reference still begins with a byte order mark. -/
  unmarked : ∀ item ∈ guidance, item.path ≠ skillPath → isMarked item.content = false

theorem Readable.same (h : Readable guidance name description (header ++ ['\n'])) (hitem : item ∈ guidance) :
    reread (writtenContent (header ++ ['\n']) item) = writtenContent (header ++ ['\n']) item := by
  by_cases hskill : item.path = skillPath
  · exact reread_skill hskill
  · rw [writtenContent, if_neg hskill]
    exact reread_same_iff.mpr (h.unmarked item hitem hskill)

/-- What is readable is read again. -/
theorem reimported (hdumps : DumpsBack lib name description license contentHash exportId header)
    (hname : isSkillName name = true) (hdescription : 1 ≤ description.length ∧ description.length ≤ 1000)
    (h : Shelf lib guidance) (hcontent : ∃ content, guidance.mapM contentFile = .ok content)
    (hreadable : Readable guidance name description (header ++ ['\n'])) (bundleHash : String) :
    ∃ b, inspectMembers lib bundleHash (guidance.map (packed name (header ++ ['\n']))) = .ok b ∧
      contentFiles b.files = guidance.mapM contentFile ∧
      b.frontmatter = exportedFields name description license contentHash exportId := by
  obtain ⟨content, hcontent⟩ := hcontent
  have hlooked : ∃ examined, (guidance.map (unpacked name (header ++ ['\n']))).mapM (examinedFile name) = .ok examined ∧
      examined.map Prod.fst = guidance.map (rewritten (header ++ ['\n'])) := by
    rw [List.mapM_map]
    refine exists_mapM (fun item hitem => ?_)
    have hstored := h.stored item hitem
    obtain ⟨findings, hlooked⟩ := hstored.looked
    rw [← dispositionFor_written hdumps.dumped hstored] at hlooked
    refine ⟨(⟨item.path, writtenContent (header ++ ['\n']) item, .promptEligible⟩, findings),
      bind_ok.mpr ⟨(.promptEligible, findings), ?_, ?_⟩, ?_⟩
    · have hpath := @relativePath_unpacked item name header
      rw [relativePath] at hpath
      rw [hpath, unpacked, hreadable.same hitem]
      exact hlooked
    · have hpath := @relativePath_unpacked item name header
      rw [relativePath] at hpath
      rw [hpath, unpacked, hreadable.same hitem]
      rfl
    · rw [rewritten, ← hstored.eligible]
  obtain ⟨examined, hlooked, hfirst⟩ := hlooked
  obtain ⟨warnings, hwarnings⟩ := (@validate_exported name description license exportId contentHash hname hdescription).mpr
    ⟨hreadable.named, hreadable.described⟩
  obtain ⟨item, hitem, hpath, hfind⟩ := @find_skill _ _ (header ++ ['\n']) h
  have hsorted : sortedFiles (examined.map Prod.fst) = guidance.map (rewritten (header ++ ['\n'])) := by
    rw [hfirst, sorted_rewritten h]
  have accepted : Accepted lib (guidance.map (packed name (header ++ ['\n'])))
      (guidance.map (unpacked name (header ++ ['\n']))) name examined (rewritten (header ++ ['\n']) item)
      (exportedFields name description license contentHash exportId) warnings content := {
    kept := (kept_packed hdumps.dumped hname h).mpr ⟨hreadable.plain, rfl⟩
    rooted := skillRoot_unpacked hname h
    looked := hlooked
    nonempty := fun file hfile => by
      obtain ⟨item, hitem, rfl⟩ := List.mem_map.mp hfile
      rw [relativePath_unpacked]
      intro hnil
      have hparts := (h.stored item hitem).proper.parts
      rw [hnil] at hparts
      exact (hparts [] (by simp)).1 rfl
    distinct := by
      have hpaths : relativePath name ∘ unpacked name (header ++ ['\n']) = SkillFile.path :=
        funext (fun _ => relativePath_unpacked)
      rw [List.map_map, hpaths]
      exact h.paths
    skill := hsorted ▸ hfind
    parsed := by
      rw [rewritten, writtenContent, if_pos hpath]
      exact parseFrontmatter_document hdumps
    validated := hwarnings
    guidance := by rw [hsorted, contentFiles_rewritten hdumps.dumped h, hcontent] }
  refine ⟨_, inspectMembers_ok.mpr ⟨_, _, _, _, _, _, _, accepted, rfl⟩, ?_, rfl⟩
  change contentFiles (sortedFiles (examined.map Prod.fst)) = _
  rw [hsorted, contentFiles_rewritten hdumps.dumped h]

/-- What is looked at is what was unpacked. -/
theorem examined_unpacked {examined : List (SkillFile × List Finding)} {found : SkillFile}
    (hlooked : (guidance.map (unpacked name (header ++ ['\n']))).mapM (examinedFile name) = .ok examined)
    (hfound : found ∈ examined.map Prod.fst) :
    ∃ item ∈ guidance, found.path = item.path ∧ found.content = reread (writtenContent (header ++ ['\n']) item) := by
  obtain ⟨result, hresult, rfl⟩ := List.mem_map.mp hfound
  obtain ⟨file, hfile, hmade⟩ := mem_of_mapM hlooked result hresult
  obtain ⟨item, hitem, rfl⟩ := List.mem_map.mp hfile
  have hpath := examinedFile_path hmade
  rw [relativePath_unpacked] at hpath
  obtain ⟨disposition, -, hmade⟩ := bind_ok.mp hmade
  obtain rfl := Except.ok.inj hmade
  exact ⟨item, hitem, hpath, rfl⟩

theorem contentFile_path {made : SkillFile} (h : contentFile item = .ok made) : made.path = item.path := by
  unfold contentFile at h
  split at h
  · obtain ⟨_, -, h⟩ := bind_ok.mp h
    obtain rfl := Except.ok.inj h
    rfl
  · rw [Except.ok.inj h]

/-- What is read again with its guidance was readable. -/
theorem readable_of_reimported {b : SkillImportInspection} {bundleHash : String}
    (hdumps : DumpsBack lib name description license contentHash exportId header)
    (hname : isSkillName name = true) (hdescription : 1 ≤ description.length ∧ description.length ≤ 1000)
    (h : Shelf lib guidance) (hcontent : ∃ content, guidance.mapM contentFile = .ok content)
    (hb : inspectMembers lib bundleHash (guidance.map (packed name (header ++ ['\n']))) = .ok b)
    (hsame : contentFiles b.files = guidance.mapM contentFile) :
    Readable guidance name description (header ++ ['\n']) := by
  obtain ⟨content, hcontent⟩ := hcontent
  obtain ⟨files, root, examined, skillMd, frontmatter, warnings, found, accepted, rfl⟩ := inspectMembers_ok.mp hb
  obtain ⟨hplain, rfl⟩ := (kept_packed hdumps.dumped hname h).mp accepted.kept
  obtain rfl : name = root := Except.ok.inj ((skillRoot_unpacked hname h).symm.trans accepted.rooted)
  have hexamined : ∀ item ∈ sortedFiles (examined.map Prod.fst), ∃ stored ∈ guidance, item.path = stored.path ∧
      item.content = reread (writtenContent (header ++ ['\n']) stored) := fun item hitem =>
    examined_unpacked accepted.looked ((List.perm_insertionSort PathLe _).mem_iff.mp hitem)
  have hfrontmatter : frontmatter = exportedFields name description license contentHash exportId := by
    obtain ⟨stored, -, hpath, hskill⟩ := hexamined skillMd (List.mem_of_find?_eq_some accepted.skill)
    have hfound := List.find?_some accepted.skill
    have hstored : stored.path = skillPath := hpath.symm.trans (of_decide_eq_true hfound)
    have hparsed := accepted.parsed
    rw [hskill, reread_skill hstored, writtenContent, if_pos hstored, parseFrontmatter_document hdumps] at hparsed
    exact (Except.ok.inj hparsed).symm
  subst hfrontmatter
  obtain ⟨hnamed, hdescribed⟩ := (validate_exported hname hdescription).mp ⟨warnings, accepted.validated⟩
  refine ⟨hnamed, hdescribed, hplain, fun item hitem hskill => ?_⟩
  -- The reference is in the content, and comes there from what was unpacked under its path.
  obtain ⟨made, hmade, hone⟩ : ∃ made ∈ content, contentFile item = .ok made :=
    mapM_mem hcontent item hitem
  have hreference : contentFile item = .ok item := if_neg (show ¬item.path = "SKILL.md".toList from hskill)
  obtain rfl := Except.ok.inj (hreference.symm.trans hone)
  have hagain : contentFiles (sortedFiles (examined.map Prod.fst)) = .ok content := hsame.trans hcontent
  obtain ⟨source, hsource, hmade⟩ := mem_of_mapM hagain item hmade
  obtain ⟨hsource, -⟩ := List.mem_filter.mp hsource
  have hpath := contentFile_path hmade
  have hnone : ¬source.path = "SKILL.md".toList := fun heq => hskill (hpath.trans heq)
  have hsourceOne : contentFile source = .ok source := if_neg hnone
  obtain rfl := Except.ok.inj (hsourceOne.symm.trans hmade)
  obtain ⟨stored, hstored, hsamePath, hread⟩ := hexamined source hsource
  obtain rfl := List.inj_on_of_nodup_map h.paths hitem hstored hsamePath
  rw [writtenContent, if_neg hskill] at hread
  exact reread_same_iff.mp hread.symm

end Back

section Round

variable {lib : Library} {command : SkillCompileCommand} {archive : ByteArray} {a : SkillImportInspection}
  {destinationId exportId header : Text}

/-- The name of the skill in the key of a command -/
def SkillCompileCommand.skillName (command : SkillCompileCommand) : Text :=
  (command.guidanceKey.dropWhile (· != '.')).drop 1

/-- The license of a command, as a revision has it -/
def SkillCompileCommand.license (command : SkillCompileCommand) : Text :=
  Words.unwords ' ' (Words.words isSpace command.normalizedLicenseIdentifier)

theorem skillName_key {key : Text} (h : isSkillGuidanceKey key = true) :
    isSkillName ((key.dropWhile (· != '.')).drop 1) = true := by
  unfold isSkillGuidanceKey at h
  split at h
  · rename_i owner name hsplit
    obtain ⟨howner, hname⟩ := Bool.and_eq_true_iff.mp h
    have hkey : key = owner ++ '.' :: name := by
      rw [← @List.intercalate_splitOn _ key _ _ '.', hsplit]
      simp [List.intercalate]
    have hall : ∀ c ∈ owner, (c != '.') = true := fun c hc =>
      bne_iff_ne.mpr (fun heq => skillName_free howner '.' (by decide) (heq ▸ hc))
    rw [hkey, List.dropWhile_append_of_pos hall, List.dropWhile_cons_of_neg (by simp)]
    exact hname
  · cases h

/-- A second import of what is exported of a first finds the same guidance, under the digest of the first, and this is
the digest that the export declares. -/
def RoundTrips (lib : Library) (command : SkillCompileCommand) (a : SkillImportInspection)
    (destinationId exportId : Text) : Prop :=
  ∃ revision bundle receipt b, compileImport command a = .ok revision ∧
    exportApprovedRevision lib { revision with lifecycle := .approved } a.files destinationId false exportId =
      .ok (bundle, receipt) ∧
    inspectSkillArchive lib bundle = .ok b ∧ contentFiles b.files = contentFiles a.files ∧
    b.guidanceContentHash = a.guidanceContentHash ∧ receipt.contentHash = a.guidanceContentHash ∧
    ∃ metadata, b.frontmatter.lookup "metadata".toList = some (.mapping metadata) ∧
      metadata.lookup "solvan-content-digest".toList = some (.str a.guidanceContentHash.toList)

/-- The files of an export -/
def packedFile (name generated : Text) (item : SkillFile) : SkillFile :=
  ⟨name ++ '/' :: item.path, writtenContent generated item, item.disposition⟩

/-- The entries of the export of some guidance, in their order -/
def packedEntries (name generated : Text) (guidance : List SkillFile) : List (Text × ByteArray) :=
  exportEntries (guidance.map (packedFile name generated))

theorem packedEntries_perm {name generated : Text} {guidance : List SkillFile}
    (h : ∀ item ∈ guidance, item.disposition = .promptEligible) :
    (packedEntries name generated guidance).Perm (guidance.map (packed name generated)) := by
  have hperm : (sortedFiles (guidance.map (packedFile name generated))).Perm (guidance.map (packedFile name generated)) :=
    List.perm_insertionSort PathLe _
  have hall : (sortedFiles (guidance.map (packedFile name generated))).filter
      (fun item => item.disposition = .promptEligible) = sortedFiles (guidance.map (packedFile name generated)) := by
    refine List.filter_eq_self.mpr (fun item hitem => ?_)
    obtain ⟨stored, hstored, rfl⟩ := List.mem_map.mp (hperm.mem_iff.mp hitem)
    exact decide_eq_true (h stored hstored)
  rw [packedEntries, exportEntries, hall]
  have hmap := hperm.map (fun item => (item.path, item.content))
  rw [List.map_map] at hmap
  exact hmap

/-- A package of which the export can be read again. -/
structure Portable (lib : Library) (command : SkillCompileCommand) (a : SkillImportInspection) (header : Text) :
    Prop where
  readable : Readable a.guidance command.skillName command.description (header ++ ['\n'])
  fits : Fits lib (a.guidance.map (packed command.skillName (header ++ ['\n'])))

/-- What is known of an accepted package. -/
structure Shelved (lib : Library) (a : SkillImportInspection) : Prop where
  shelf : Shelf lib a.guidance
  few : a.guidance.length ≤ maxEntries
  named : ∃ name, a.frontmatter.lookup "name".toList = some (.str name)
  content : ∃ content, contentFiles a.files = .ok content ∧ a.guidanceContentHash = guidanceContentHash lib content

theorem validated_name {frontmatter : List (Text × YamlValue)} {warnings : List Finding}
    (h : validateFrontmatter frontmatter = .ok warnings) :
    ∃ name, frontmatter.lookup "name".toList = some (.str name) := by
  unfold validateFrontmatter at h
  split at h
  · rename_i name description hname hdescription
    exact ⟨name, hname⟩
  · cases h

theorem accepted_shelved (hkeeps : lib.KeepsPlain) (h : inspectSkillArchive lib archive = .ok a) : Shelved lib a := by
  obtain ⟨members, hmembers, h⟩ := bind_ok.mp h
  obtain ⟨files, root, examined, skillMd, frontmatter, warnings, content, accepted, rfl⟩ := inspectMembers_ok.mp h
  refine ⟨accepted.shelf hkeeps, ?_, validated_name accepted.validated, content, accepted.guidance, rfl⟩
  have hfiles : files.length = members.length := (mapM_ok.mp accepted.kept.taken).length_eq.symm
  have hexamined : examined.length = files.length := (mapM_ok.mp accepted.looked).length_eq.symm
  refine Nat.le_trans (List.length_filter_le _ _) ?_
  change (sortedFiles (examined.map Prod.fst)).length ≤ _
  rw [sortedFiles, List.length_insertionSort, List.length_map, hexamined, hfiles]
  exact extractMembers_length hmembers

/-- The digest of what is found. -/
theorem inspected_hash {members : List (Text × ByteArray)} {bundleHash : String} {content : List SkillFile}
    (h : inspectMembers lib bundleHash members = .ok a) (hcontent : contentFiles a.files = .ok content) :
    a.guidanceContentHash = guidanceContentHash lib content := by
  obtain ⟨files, root, examined, skillMd, frontmatter, warnings, found, accepted, rfl⟩ := inspectMembers_ok.mp h
  obtain rfl : found = content := Except.ok.inj (accepted.guidance.symm.trans hcontent)
  rfl

/-- What is stored is exported, as long as its frontmatter is. -/
theorem Shelved.exported (h : Shelved lib a)
    (hdumps : DumpsBack lib command.skillName command.description command.license a.guidanceContentHash exportId header) :
    ∃ revision receipt, compileImport command a = .ok revision ∧
      exportApprovedRevision lib { revision with lifecycle := .approved } a.files destinationId false exportId =
        .ok (lib.writeZip (packedEntries command.skillName (header ++ ['\n']) a.guidance), receipt) ∧
      receipt.contentHash = a.guidanceContentHash := by
  obtain ⟨name, hname⟩ := h.named
  have hfiles : a.guidance.mapM (exportFile command.skillName (header ++ ['\n'])) =
      .ok (a.guidance.map (packedFile command.skillName (header ++ ['\n']))) := by
    refine (mapM_guarded (p := fun _ => false) (e := .raised "") (fun item hitem => ?_)).mpr ⟨fun _ _ => rfl, rfl⟩
    exact bind_ok.mpr ⟨_, exportContent_stored (h.shelf.stored item hitem), rfl⟩
  refine ⟨⟨command.guidanceKey, command.version, command.description, a.guidanceContentHash, some command.license, .draft⟩,
    ⟨exportId, command.guidanceKey, command.version,
      exportBundleHash lib (lib.writeZip (packedEntries command.skillName (header ++ ['\n']) a.guidance)),
      a.guidanceContentHash, GuidanceLifecycle.approved.value, destinationId⟩, ?_, ?_, rfl⟩
  · rw [compileImport, hname]
    dsimp only
    rw [if_neg (Nat.not_lt.mpr command.described.2)]
    rfl
  · have hkey : skillNameFromKey command.guidanceKey = .ok command.skillName := if_pos command.keyed
    unfold exportApprovedRevision
    dsimp only
    rw [if_neg (by simp), if_neg (by simp), if_neg (by simp)]
    refine bind_ok.mpr ⟨_, hkey, ?_⟩
    rw [hdumps.dumps]
    exact bind_ok.mpr ⟨_, hfiles, rfl⟩

theorem Fits.perm {entries entries' : List (Text × ByteArray)} (hperm : entries.Perm entries') (h : Fits lib entries) :
    Fits lib entries' := by
  have hexpanded : expandedSize entries = expandedSize entries' := (hperm.map _).sum_nat
  have hdeflated : deflatedTotal lib entries = deflatedTotal lib entries' := (hperm.map _).sum_nat
  have hbundle : bundleSize lib entries = bundleSize lib entries' := congrArg (22 + ·) (hperm.map _).sum_nat
  exact ⟨hbundle ▸ h.archive, hexpanded ▸ h.expanded, hexpanded ▸ hdeflated ▸ h.ratio⟩

/-- The entries of an export are files, there are some, and not too many. -/
theorem Shelved.entries (h : Shelved lib a) :
    (packedEntries command.skillName (header ++ ['\n']) a.guidance).Perm
        (a.guidance.map (packed command.skillName (header ++ ['\n']))) ∧
      (∀ entry ∈ packedEntries command.skillName (header ++ ['\n']) a.guidance, endsWith entry.1 "/" = false) ∧
      packedEntries command.skillName (header ++ ['\n']) a.guidance ≠ [] ∧
      (packedEntries command.skillName (header ++ ['\n']) a.guidance).length ≤ maxEntries := by
  have hperm := @packedEntries_perm command.skillName (header ++ ['\n']) a.guidance
    (fun item hitem => (h.shelf.stored item hitem).eligible)
  refine ⟨hperm, fun entry hentry => ?_, fun hnil => ?_, ?_⟩
  · obtain ⟨item, hitem, rfl⟩ := List.mem_map.mp (hperm.mem_iff.mp hentry)
    exact not_slash_last ((h.shelf.stored item hitem).proper.named (skillName_key command.keyed)).parts
  · rw [hnil] at hperm
    have hnone := List.map_eq_nil_iff.mp (List.nil_perm.mp hperm)
    have hskill := h.shelf.skill
    rw [hnone] at hskill
    cases hskill
  · rw [hperm.length_eq, List.length_map]
    exact h.few

/-- The guidance of a package that is accepted makes the round trip only if it is portable. -/
theorem RoundTrips.portable (hshelved : Shelved lib a)
    (hdumps : DumpsBack lib command.skillName command.description command.license a.guidanceContentHash exportId header)
    (hwrites : WritesBack lib (packedEntries command.skillName (header ++ ['\n']) a.guidance))
    (h : RoundTrips lib command a destinationId exportId) : Portable lib command a header := by
  obtain ⟨revision, bundle, receipt, b, hrevision, hexport, hb, hcontent, -⟩ := h
  obtain ⟨revision', receipt', hrevision', hexport', -⟩ :=
    @Shelved.exported lib command a destinationId exportId header hshelved hdumps
  obtain rfl := Except.ok.inj (hrevision.symm.trans hrevision')
  obtain ⟨rfl, -⟩ := Prod.mk.inj (Except.ok.inj (hexport.symm.trans hexport'))
  obtain ⟨hperm, hfiles, hsome, hfew⟩ := @Shelved.entries lib command a header hshelved
  obtain ⟨members, hmembers, hb⟩ := bind_ok.mp hb
  obtain ⟨rfl, hfits⟩ := (extractMembers_written hwrites hfiles hsome hfew).mp hmembers
  obtain ⟨b', hb', hsame⟩ := inspectMembers_perm "" hperm hb
  obtain ⟨content, hguidance, -⟩ := hshelved.content
  rw [hsame.files] at hcontent
  exact ⟨readable_of_reimported hdumps (skillName_key command.keyed) command.described hshelved.shelf
    ⟨content, hguidance⟩ hb' hcontent, hfits.perm hperm⟩

theorem Portable.roundTrips (hshelved : Shelved lib a)
    (hdumps : DumpsBack lib command.skillName command.description command.license a.guidanceContentHash exportId header)
    (hwrites : WritesBack lib (packedEntries command.skillName (header ++ ['\n']) a.guidance))
    (h : Portable lib command a header) : RoundTrips lib command a destinationId exportId := by
  obtain ⟨revision, receipt, hrevision, hexport, hreceipt⟩ :=
    @Shelved.exported lib command a destinationId exportId header hshelved hdumps
  obtain ⟨hperm, hfiles, hsome, hfew⟩ := @Shelved.entries lib command a header hshelved
  obtain ⟨content, hguidance, hhash⟩ := hshelved.content
  obtain ⟨b', hb', hcontent, hfrontmatter⟩ := reimported hdumps (skillName_key command.keyed) command.described
    hshelved.shelf ⟨content, hguidance⟩ h.readable ""
  obtain ⟨b, hb, hsame⟩ := inspectMembers_perm
    (sourceBundleHash lib (lib.writeZip (packedEntries command.skillName (header ++ ['\n']) a.guidance))) hperm.symm hb'
  have hmembers := (extractMembers_written hwrites hfiles hsome hfew).mpr ⟨rfl, h.fits.perm hperm.symm⟩
  rw [hsame.files] at hcontent
  refine ⟨revision, _, receipt, b, hrevision, hexport, bind_ok.mpr ⟨_, hmembers, hb⟩, hcontent, ?_, hreceipt, ?_⟩
  · exact (inspected_hash hb (hcontent.trans hguidance)).trans hhash.symm
  · rw [← hsame.frontmatter, hfrontmatter]
    exact ⟨_, rfl, rfl⟩

/-- The export of a package that was accepted makes the round trip if and only if the package is portable. -/
theorem round_trips_iff (hkeeps : lib.KeepsPlain) (haccepted : inspectSkillArchive lib archive = .ok a)
    (hdumps : DumpsBack lib command.skillName command.description command.license a.guidanceContentHash exportId header)
    (hwrites : WritesBack lib (packedEntries command.skillName (header ++ ['\n']) a.guidance)) :
    RoundTrips lib command a destinationId exportId ↔ Portable lib command a header :=
  ⟨RoundTrips.portable (accepted_shelved hkeeps haccepted) hdumps hwrites,
    Portable.roundTrips (accepted_shelved hkeeps haccepted) hdumps hwrites⟩

end Round

section Example

def exampleDigest : String := "sha256:" ++ String.ofList (List.replicate 64 '0')

def exampleHeader : Text :=
  "description: Shows things.\nlicense: MIT\nmetadata:\n  solvan-content-digest: ".toList ++ exampleDigest.toList ++
    "\n  solvan-export-id: sea_1\nname: demo".toList

def textNode (value : String) : YamlNode := .scalar "tag:yaml.org,2002:str".toList value.toList

def exampleExportNode : YamlNode :=
  .mapping [(textNode "description", textNode "Shows things."), (textNode "license", textNode "MIT"),
    (textNode "metadata", .mapping [(textNode "solvan-content-digest", textNode exampleDigest),
      (textNode "solvan-export-id", textNode "sea_1")]),
    (textNode "name", textNode "demo")]

/-- An entry that is stored as it is. -/
def storedEntry (entry : Text × ByteArray) : ZipInfo where
  filename := entry.1
  fileSize := entry.2.size
  compressSize := entry.2.size
  externalAttr := 0o100644 <<< 16
  read limit := .ok (entry.2.extract 0 limit)

/-- The package with a reference as it is uploaded, and the export with the reference as it is stored. -/
def uploaded (reference : String) : List (Text × ByteArray) :=
  [("demo/SKILL.md".toList, "---\nname: demo\ndescription: Shows things.\n---\nLook.\n".toUTF8),
    ("demo/references/guide.md".toList, reference.toUTF8)]

def exportedAgain (reference : String) : List (Text × ByteArray) :=
  [("demo/SKILL.md".toList, encode (skillDocument (exampleHeader ++ ['\n']) "Look.\n".toList)),
    ("demo/references/guide.md".toList, reference.toUTF8)]

/-- The libraries, as they behave on the upload, which begins with one byte, and on its export. -/
def roundLibrary (reference stored : String) : Library :=
  { exampleLibrary with
    infolist := fun archive =>
      .ok ((if archive = ⟨#[0]⟩ then uploaded reference else exportedAgain stored).map storedEntry)
    writeZip := fun entries => ⟨Array.replicate
      (22 + (entries.map (fun entry => 76 + 2 * (encode entry.1).size + entry.2.size)).sum) 0⟩
    compose := fun header => .ok (if header = exampleHeader then exampleExportNode else exampleNode)
    safeDump := fun _ => exampleHeader ++ ['\n'] }

def exampleCommand : SkillCompileCommand where
  guidanceKey := "acme.demo".toList
  version := "1".toList
  description := "Shows things.".toList
  normalizedLicenseIdentifier := "MIT".toList
  keyed := by decide
  described := by decide

theorem exampleDigest_toList : exampleDigest.toList = "sha256:".toList ++ List.replicate 64 '0' := by
  unfold exampleDigest
  rw [String.toList_append]
  exact congrArg ("sha256:".toList ++ ·) String.toList_ofList

/-- What is read off the characters of the header. -/
theorem exampleHeader_facts : ('\r' ∉ exampleHeader ∧ exampleHeader.head? ≠ some '-' ∧ ¬['\n', '-'] <:+: exampleHeader) ∧
    (encode (skillDocument (exampleHeader ++ ['\n']) "Look.\n".toList)).size = 198 ∧
      isArchiveContent (encode (skillDocument (exampleHeader ++ ['\n']) "Look.\n".toList)) = false := by
  unfold exampleHeader
  rw [exampleDigest_toList]
  exact ⟨⟨by decide +kernel, by decide +kernel, by decide +kernel⟩, by decide +kernel, by decide +kernel⟩

theorem exampleHeader_dumped : Dumped exampleHeader := by
  obtain ⟨⟨hquoted, hfirst, hindented⟩, -⟩ := exampleHeader_facts
  refine ⟨hquoted, fun rest h => ?_, fun front back h => ?_⟩
  · exact hfirst (by rw [h, List.head?_cons])
  · exact hindented ⟨front, back, by rw [h]; simp⟩

theorem exampleCommand_skillName : exampleCommand.skillName = "demo".toList := by decide

theorem example_keeps (reference stored : String) : (roundLibrary reference stored).KeepsPlain :=
  fun _ => ⟨id, id⟩

theorem example_dumps (reference stored : String) {digest : String} (h : digest = exampleDigest) :
    DumpsBack (roundLibrary reference stored) exampleCommand.skillName exampleCommand.description exampleCommand.license
      digest "sea_1".toList exampleHeader := by
  subst h
  have hlicense : exampleCommand.license = "MIT".toList := by decide
  have hcompose : (roundLibrary reference stored).compose exampleHeader = .ok exampleExportNode :=
    congrArg Except.ok (if_pos rfl)
  refine ⟨rfl, exampleHeader_dumped, ?_⟩
  rw [exampleCommand_skillName, hlicense, loadHeader, hcompose]
  rfl

theorem storedEntry_written (reference stored : String) (entry : Text × ByteArray) :
    WrittenEntry (roundLibrary reference stored) entry (storedEntry entry) :=
  ⟨rfl, rfl, rfl, rfl, fun _ => rfl⟩

theorem example_writes (reference stored : String) {entries : List (Text × ByteArray)} (h : entries = exportedAgain stored) :
    WritesBack (roundLibrary reference stored) entries := by
  subst h
  have hsize : ((roundLibrary reference stored).writeZip (exportedAgain stored)).size =
      bundleSize (roundLibrary reference stored) (exportedAgain stored) := Array.size_replicate
  refine ⟨rfl, hsize, (exportedAgain stored).map storedEntry, ?_, ?_⟩
  · have hother : (roundLibrary reference stored).writeZip (exportedAgain stored) ≠ ⟨#[0]⟩ := by
      intro hsame
      rw [hsame, bundleSize] at hsize
      have hone : (⟨#[0]⟩ : ByteArray).size = 1 := rfl
      omega
    have hread : (if (roundLibrary reference stored).writeZip (exportedAgain stored) = ⟨#[0]⟩ then uploaded reference
        else exportedAgain stored) = exportedAgain stored := if_neg hother
    exact congrArg (fun read : List (Text × ByteArray) => Except.ok (read.map storedEntry)) hread
  · exact List.forall₂_map_right_iff.mpr (List.forall₂_same.mpr (fun entry _ => storedEntry_written reference stored entry))

/-- What the import has stored of the upload. -/
def storedGuidance (stored : String) : List SkillFile :=
  [⟨skillPath, "---\nname: demo\ndescription: Shows things.\n---\nLook.\n".toUTF8, .promptEligible⟩,
    ⟨"references/guide.md".toList, stored.toUTF8, .promptEligible⟩]

theorem written_skill {generated : Text} : writtenContent generated
    ⟨skillPath, "---\nname: demo\ndescription: Shows things.\n---\nLook.\n".toUTF8, .promptEligible⟩ =
      encode (skillDocument generated "Look.\n".toList) := by
  have hbody : skillBody "---\nname: demo\ndescription: Shows things.\n---\nLook.\n".toUTF8 = "Look.\n".toList := by
    decide
  exact (if_pos rfl).trans (congrArg (fun body => encode (skillDocument generated body)) hbody)

theorem written_reference {generated : Text} {stored : String} :
    writtenContent generated ⟨"references/guide.md".toList, stored.toUTF8, .promptEligible⟩ = stored.toUTF8 := by
  have hother : "references/guide.md".toList ≠ skillPath := by decide
  exact if_neg hother

theorem storedGuidance_packed {stored : String} :
    (storedGuidance stored).map (packed "demo".toList (exampleHeader ++ ['\n'])) = exportedAgain stored := by
  have hskill : "demo".toList ++ '/' :: skillPath = "demo/SKILL.md".toList := by decide
  have hreference : "demo".toList ++ '/' :: "references/guide.md".toList = "demo/references/guide.md".toList := by decide
  unfold storedGuidance exportedAgain
  rw [List.map_cons, List.map_cons, List.map_nil]
  unfold packed
  rw [written_skill, written_reference, hskill, hreference]

/-- The stored files are in their order already. -/
theorem storedGuidance_entries {generated : Text} {stored : String} :
    packedEntries "demo".toList generated (storedGuidance stored) =
      (storedGuidance stored).map (packed "demo".toList generated) := by
  have hpaths : (encode ("demo".toList ++ '/' :: skillPath)).data.toList ≤
      (encode ("demo".toList ++ '/' :: "references/guide.md".toList)).data.toList := by decide
  have hsorted : sortedFiles ((storedGuidance stored).map (packedFile "demo".toList generated)) =
      (storedGuidance stored).map (packedFile "demo".toList generated) :=
    List.Pairwise.insertionSort_eq (List.pairwise_pair.mpr hpaths)
  rw [packedEntries, exportEntries, hsorted]
  rfl

theorem example_entries {stored : String} {a : SkillImportInspection} (h : a.guidance = storedGuidance stored) :
    packedEntries exampleCommand.skillName (exampleHeader ++ ['\n']) a.guidance = exportedAgain stored := by
  rw [h, exampleCommand_skillName, storedGuidance_entries, storedGuidance_packed]

theorem roundLibrary_deflatedSize {reference stored : String} {content : ByteArray} :
    (roundLibrary reference stored).deflatedSize content = content.size := rfl

theorem bundleSize_pair {lib : Library} {name name' : Text} {content content' : ByteArray} :
    bundleSize lib [(name, content), (name', content')] = 22 + (76 + 2 * (encode name).size + lib.deflatedSize content +
      (76 + 2 * (encode name').size + lib.deflatedSize content')) := by
  simp [bundleSize]

/-- Entries that are stored as they are fit where their archive does. -/
theorem fits_stored {reference stored : String} {entries : List (Text × ByteArray)}
    (h : bundleSize (roundLibrary reference stored) entries ≤ maxArchiveBytes) :
    Fits (roundLibrary reference stored) entries := by
  have hdeflated : deflatedTotal (roundLibrary reference stored) entries = expandedSize entries := rfl
  have hsum : expandedSize entries ≤ bundleSize (roundLibrary reference stored) entries :=
    (List.sum_le_sum (fun entry _ => Nat.le_add_left _ _)).trans (Nat.le_add_left _ 22)
  refine ⟨h, hsum.trans h, ?_⟩
  rw [hdeflated]
  unfold maxCompressionRatio
  omega

theorem example_portable {a : SkillImportInspection} (h : a.guidance = storedGuidance "Read on.\n") :
    Portable (roundLibrary "Read on.\n" "Read on.\n") exampleCommand a exampleHeader := by
  have hplain : isArchiveContent "Read on.\n".toUTF8 = false := by decide
  have hsize : "Read on.\n".toUTF8.size = 9 := by decide
  have hskill : (encode "demo/SKILL.md".toList).size = 13 := by decide
  have hreference : (encode "demo/references/guide.md".toList).size = 24 := by decide
  have hunmarked : isMarked "Read on.\n".toUTF8 = false := by decide
  obtain ⟨-, hdocument, harchive⟩ := exampleHeader_facts
  constructor
  · rw [h, exampleCommand_skillName]
    refine ⟨by decide, by decide, ?_, ?_⟩
    · unfold storedGuidance
      rw [List.forall_mem_cons, List.forall_mem_singleton, written_skill, written_reference]
      exact ⟨harchive, hplain⟩
    · unfold storedGuidance
      rw [List.forall_mem_cons, List.forall_mem_singleton]
      exact ⟨fun hother => absurd rfl hother, fun _ => hunmarked⟩
  · rw [h, exampleCommand_skillName, storedGuidance_packed]
    refine fits_stored ?_
    unfold exportedAgain
    rw [bundleSize_pair, roundLibrary_deflatedSize, roundLibrary_deflatedSize, hdocument, hsize, hskill, hreference]
    decide

/-- A package whose reference holds no mark makes the round trip. -/
theorem round_trips_plain : ∃ a, inspectSkillArchive (roundLibrary "Read on.\n" "Read on.\n") ⟨#[0]⟩ = .ok a ∧
    RoundTrips (roundLibrary "Read on.\n" "Read on.\n") exampleCommand a "catalog".toList "sea_1".toList := by
  have hok : (inspectSkillArchive (roundLibrary "Read on.\n" "Read on.\n") ⟨#[0]⟩).map
      (fun a => (a.guidance, a.guidanceContentHash)) = .ok (storedGuidance "Read on.\n", exampleDigest) := by
    decide +kernel
  obtain ⟨a, ha, hsame⟩ := map_ok.mp hok
  obtain ⟨hguidance, hdigest⟩ := Prod.mk.inj hsame
  have hwrites := example_writes "Read on.\n" "Read on.\n" (example_entries hguidance)
  exact ⟨a, ha, (round_trips_iff (example_keeps _ _) ha (example_dumps _ _ hdigest) hwrites).mpr
    (example_portable hguidance)⟩

/-- A reference that begins with two marks is stored with one, and comes back without any. -/
theorem marked_reference_lost :
    ∃ a, inspectSkillArchive (roundLibrary "\uFEFF\uFEFFRead on.\n" "\uFEFFRead on.\n") ⟨#[0]⟩ = .ok a ∧
      (roundLibrary "\uFEFF\uFEFFRead on.\n" "\uFEFFRead on.\n").KeepsPlain ∧
      DumpsBack (roundLibrary "\uFEFF\uFEFFRead on.\n" "\uFEFFRead on.\n") exampleCommand.skillName
        exampleCommand.description exampleCommand.license a.guidanceContentHash "sea_1".toList exampleHeader ∧
      WritesBack (roundLibrary "\uFEFF\uFEFFRead on.\n" "\uFEFFRead on.\n")
        (packedEntries exampleCommand.skillName (exampleHeader ++ ['\n']) a.guidance) ∧
      ¬RoundTrips (roundLibrary "\uFEFF\uFEFFRead on.\n" "\uFEFFRead on.\n") exampleCommand a "catalog".toList
        "sea_1".toList := by
  have hok : (inspectSkillArchive (roundLibrary "\uFEFF\uFEFFRead on.\n" "\uFEFFRead on.\n") ⟨#[0]⟩).map
      (fun a => (a.guidance, a.guidanceContentHash)) = .ok (storedGuidance "\uFEFFRead on.\n", exampleDigest) := by
    decide +kernel
  obtain ⟨a, ha, hsame⟩ := map_ok.mp hok
  obtain ⟨hguidance, hdigest⟩ := Prod.mk.inj hsame
  have hkeeps := example_keeps "\uFEFF\uFEFFRead on.\n" "\uFEFFRead on.\n"
  have hdumps := example_dumps "\uFEFF\uFEFFRead on.\n" "\uFEFFRead on.\n" hdigest
  have hwrites := example_writes "\uFEFF\uFEFFRead on.\n" "\uFEFFRead on.\n" (example_entries hguidance)
  refine ⟨a, ha, hkeeps, hdumps, hwrites, fun h => ?_⟩
  have hportable := h.portable (accepted_shelved hkeeps ha) hdumps hwrites
  have hunmarked := hportable.readable.unmarked
  rw [hguidance] at hunmarked
  exact absurd hunmarked (by decide +kernel)

end Example

end Solvan.Skills

import Solvan.Skills.Accepted

/-! The order of the members of an archive, which the import does not depend on. -/
namespace Solvan.Skills

open Checks

variable {lib : Library} {members members' : List (Text × ByteArray)} {a : SkillImportInspection}

instance : Std.Total PathLe := ⟨fun _ _ => List.le_total _ _⟩

instance : IsTrans SkillFile PathLe := ⟨fun _ _ _ => List.le_trans⟩

theorem PathLe.antisymm {a b : SkillFile} (hab : PathLe a b) (hba : PathLe b a) : a.path = b.path :=
  encode_inj (ByteArray.ext (Array.toList_inj.mp (List.le_antisymm hab hba)))

/-- Files with paths of their own have one order. -/
theorem sortedFiles_perm {files files' : List SkillFile} (hperm : files.Perm files')
    (hdistinct : (files.map SkillFile.path).Nodup) : sortedFiles files = sortedFiles files' := by
  have hfirst := List.perm_insertionSort PathLe files
  have hsecond := List.perm_insertionSort PathLe files'
  refine ((hfirst.trans hperm).trans hsecond.symm).eq_of_pairwise (fun a b ha hb hab hba => ?_)
    (List.pairwise_insertionSort PathLe files) (List.pairwise_insertionSort PathLe files')
  exact List.inj_on_of_nodup_map hdistinct (hfirst.mem_iff.mp ha)
    (hperm.mem_iff.mpr (hsecond.mem_iff.mp hb)) (hab.antisymm hba)

theorem sortedFindings_congr {findings findings' : List Finding}
    (h : ∀ finding, finding ∈ findings ↔ finding ∈ findings') :
    sortedFindings findings = sortedFindings findings' :=
  List.filter_congr (fun finding _ => Bool.eq_iff_iff.mpr
    (List.contains_iff_mem.trans ((h finding).trans List.contains_iff_mem.symm)))

theorem examinedFile_path {root : Text} {file : Text × ByteArray} {examined : SkillFile × List Finding}
    (h : examinedFile root file = .ok examined) : examined.1.path = relativePath root file := by
  obtain ⟨_, -, hmade⟩ := bind_ok.mp h
  cases hmade
  rfl

/-- The files that were looked at have the relative paths of those that were kept. -/
theorem examined_paths {root : Text} {files : List (Text × ByteArray)}
    {examined : List (SkillFile × List Finding)} (h : files.mapM (examinedFile root) = .ok examined) :
    (examined.map Prod.fst).map SkillFile.path = files.map (relativePath root) := by
  have hforall := mapM_ok.mp h
  induction hforall with
  | nil => rfl
  | cons hfile hrest ih =>
    rw [List.map_cons, List.map_cons, List.map_cons, ih (mapM_ok.mpr hrest), examinedFile_path hfile]

/-- Two inspections that found the same, of bundles that may differ. -/
structure SamePackage (a b : SkillImportInspection) : Prop where
  files : a.files = b.files
  frontmatter : a.frontmatter = b.frontmatter
  warnings : a.warnings = b.warnings
  normalizedPackageHash : a.normalizedPackageHash = b.normalizedPackageHash
  guidanceContentHash : a.guidanceContentHash = b.guidanceContentHash

theorem inspectMembers_perm {bundleHash : String} (otherHash : String) (hperm : members.Perm members')
    (h : inspectMembers lib bundleHash members = .ok a) :
    ∃ b, inspectMembers lib otherHash members' = .ok b ∧ SamePackage a b := by
  obtain ⟨files, root, examined, skillMd, frontmatter, warnings, content, accepted, rfl⟩ := inspectMembers_ok.mp h
  obtain ⟨files', hkept, hfiles⟩ := accepted.kept.perm hperm
  obtain ⟨examined', hlooked, hexamined⟩ := mapM_perm hfiles accepted.looked
  have hsorted : sortedFiles (examined.map Prod.fst) = sortedFiles (examined'.map Prod.fst) :=
    sortedFiles_perm (hexamined.map _) (examined_paths accepted.looked ▸ accepted.distinct)
  have accepted' : Accepted lib members' files' root examined' skillMd frontmatter warnings content := {
    kept := hkept
    rooted := skillRoot_perm hfiles accepted.rooted
    looked := hlooked
    nonempty := fun file hfile => accepted.nonempty file (hfiles.mem_iff.mpr hfile)
    distinct := (hfiles.map _).nodup_iff.mp accepted.distinct
    skill := hsorted ▸ accepted.skill
    parsed := accepted.parsed
    validated := accepted.validated
    guidance := hsorted ▸ accepted.guidance }
  refine ⟨_, inspectMembers_ok.mpr ⟨files', root, examined', skillMd, frontmatter, warnings, content,
    accepted', rfl⟩, hsorted, rfl, ?_, ?_, rfl⟩
  · refine sortedFindings_congr (fun finding => ?_)
    simp only [List.mem_append, (hexamined.flatMap_right _).mem_iff]
  · exact congrArg (fun sorted => digest lib "solvan/skill/normalized-package/v1" (manifest lib sorted true)) hsorted

/-- Two archives with the same members, in whatever order, or two that cannot be unpacked. -/
def Reordered (lib : Library) (archive archive' : ByteArray) : Prop :=
  match extractMembers lib archive, extractMembers lib archive' with
  | .ok members, .ok members' => members.Perm members'
  | .error _, .error _ => True
  | _, _ => False

/-- Two inspections that found the same, or two that were refused. -/
inductive Agree : Import SkillImportInspection → Import SkillImportInspection → Prop where
  | refused (first second : ImportFailure) : Agree (.error first) (.error second)
  | found {a b : SkillImportInspection} (same : SamePackage a b) : Agree (.ok a) (.ok b)

/-- An entry that can be read to its end, or as far as one likes. -/
def ZipInfo.Intact (info : ZipInfo) (content : ByteArray) : Prop :=
  ∀ limit, info.read limit = .ok (content.extract 0 limit)

def ZipInfo.special (info : ZipInfo) : Bool := info.fileType = 0o120000 || info.fileType = 0o060000

theorem readZip_dir {remaining : Nat} {info : ZipInfo} {rest : List ZipInfo} (hdir : info.isDir = true) :
    readZip remaining (info :: rest) = readZip remaining rest := by
  rw [readZip, if_pos hdir]

theorem readZip_cons {remaining : Nat} {info : ZipInfo} {rest : List ZipInfo} {content : ByteArray}
    {found : List (Text × ByteArray)} (hintact : info.Intact content) (hfile : info.isDir = false) :
    readZip remaining (info :: rest) = .ok found ↔ info.special = false ∧ content.size ≤ remaining ∧
      ∃ others, readZip (remaining - content.size) rest = .ok others ∧
        found = (info.filename, content) :: others := by
  rw [readZip, hfile, if_neg Bool.false_ne_true]
  change (if info.special then _ else _) = _ ↔ _
  cases hspecial : info.special with
  | true => exact ⟨fun h => (by cases h), fun h => Bool.noConfusion h.1⟩
  | false =>
    rw [if_neg Bool.false_ne_true, hintact (remaining + 1)]
    dsimp only
    by_cases hfits : content.size ≤ remaining
    · have hwhole : content.extract 0 (remaining + 1) = content := by
        ext1
        rw [ByteArray.data_extract]
        exact Array.extract_eq_self_of_le (by rw [ByteArray.size_data]; omega)
      rw [hwhole, if_neg (Nat.not_lt.mpr hfits)]
      constructor
      · intro h
        obtain ⟨others, hothers, hfound⟩ := bind_ok.mp h
        cases hfound
        exact ⟨rfl, hfits, others, hothers, rfl⟩
      · rintro ⟨-, -, others, hothers, rfl⟩
        exact bind_ok.mpr ⟨others, hothers, rfl⟩
    · have hsize : remaining < (content.extract 0 (remaining + 1)).size := by
        rw [ByteArray.size_extract]
        omega
      rw [if_pos hsize]
      exact ⟨fun h => (by cases h), fun h => absurd h.2.1 hfits⟩

/-- The members that are read are the same, whatever order the entries are in. -/
theorem readZip_perm {remaining : Nat} {infos infos' : List ZipInfo} {found : List (Text × ByteArray)}
    (hperm : infos.Perm infos') (hintact : ∀ info ∈ infos, ∃ content, info.Intact content)
    (h : readZip remaining infos = .ok found) :
    ∃ found', readZip remaining infos' = .ok found' ∧ found.Perm found' := by
  induction hperm generalizing remaining found with
  | nil => exact ⟨found, h, .refl _⟩
  | cons info _ ih =>
    obtain ⟨⟨content, hcontent⟩, hrest⟩ := List.forall_mem_cons.mp hintact
    cases hdir : info.isDir with
    | true =>
      rw [readZip_dir hdir] at h ⊢
      exact ih hrest h
    | false =>
      obtain ⟨hspecial, hfits, others, hothers, rfl⟩ := (readZip_cons hcontent hdir).mp h
      obtain ⟨others', hothers', hsame⟩ := ih hrest hothers
      exact ⟨_, (readZip_cons hcontent hdir).mpr ⟨hspecial, hfits, others', hothers', rfl⟩, hsame.cons _⟩
  | swap first second rest =>
    obtain ⟨⟨content, hcontent⟩, hintact⟩ := List.forall_mem_cons.mp hintact
    obtain ⟨⟨content', hcontent'⟩, -⟩ := List.forall_mem_cons.mp hintact
    cases hdir : second.isDir with
    | true =>
      rw [readZip_dir hdir] at h
      cases hdir' : first.isDir with
      | true =>
        rw [readZip_dir hdir'] at h ⊢
        exact ⟨found, by rw [readZip_dir hdir]; exact h, .refl _⟩
      | false =>
        obtain ⟨hspecial, hfits, others, hothers, rfl⟩ := (readZip_cons hcontent' hdir').mp h
        exact ⟨_, (readZip_cons hcontent' hdir').mpr ⟨hspecial, hfits, others,
          by rw [readZip_dir hdir]; exact hothers, rfl⟩, .refl _⟩
    | false =>
      obtain ⟨hspecial, hfits, others, hothers, rfl⟩ := (readZip_cons hcontent hdir).mp h
      cases hdir' : first.isDir with
      | true =>
        rw [readZip_dir hdir'] at hothers ⊢
        exact ⟨_, (readZip_cons hcontent hdir).mpr ⟨hspecial, hfits, others, hothers, rfl⟩, .refl _⟩
      | false =>
        obtain ⟨hspecial', hfits', last, hlast, rfl⟩ := (readZip_cons hcontent' hdir').mp hothers
        rw [Nat.sub_right_comm] at hlast
        exact ⟨_, (readZip_cons hcontent' hdir').mpr ⟨hspecial', by omega, _,
          (readZip_cons hcontent hdir).mpr ⟨hspecial, by omega, last, hlast, rfl⟩, rfl⟩, .swap _ _ _⟩
  | trans hfirst _ ih ih' =>
    obtain ⟨middle, hmiddle, hsame⟩ := ih hintact h
    obtain ⟨found', hfound', hsame'⟩ := ih' (fun info hinfo => hintact info (hfirst.mem_iff.mpr hinfo)) hmiddle
    exact ⟨found', hfound', hsame.trans hsame'⟩

theorem zipMembers_perm {archive archive' : ByteArray} {infos infos' : List ZipInfo}
    {found : List (Text × ByteArray)} (hinfos : lib.infolist archive = .ok infos)
    (hinfos' : lib.infolist archive' = .ok infos') (hperm : infos.Perm infos')
    (hintact : ∀ info ∈ infos, ∃ content, info.Intact content) (h : zipMembers lib archive = .ok found) :
    ∃ found', zipMembers lib archive' = .ok found' ∧ found.Perm found' := by
  simp only [zipMembers, hinfos, hinfos', Except.mapError, bind_ok, Except.ok.injEq, exists_eq_left'] at h ⊢
  rw [← hperm.length_eq, ← (hperm.map ZipInfo.fileSize).sum_nat, ← (hperm.map ZipInfo.compressSize).sum_nat]
  split at h
  · cases h
  · rename_i hentries
    split at h
    · cases h
    · rename_i hbounds
      rw [if_neg hentries, if_neg hbounds]
      exact readZip_perm hperm hintact h

theorem extractMembers_zip {archive : ByteArray} (hlimit : archive.size ≤ maxArchiveBytes)
    (hzip : lib.isZipfile archive = true) : extractMembers lib archive = .ok members ↔
      zipMembers lib archive = .ok members ∧ members ≠ [] := by
  rw [extractMembers, if_neg (Nat.not_lt.mpr hlimit), if_pos hzip, bind_ok]
  constructor
  · rintro ⟨found, hfound, h⟩
    dsimp only at h
    split at h
    · cases h
    · rename_i hempty
      cases h
      exact ⟨hfound, fun hnil => hempty (List.isEmpty_iff.mpr hnil)⟩
  · rintro ⟨hfound, hne⟩
    exact ⟨members, hfound, if_neg (fun hempty => hne (List.isEmpty_iff.mp hempty))⟩

/-- A ZIP archive whose entries are put in another order is reordered. -/
theorem zip_reordered {archive archive' : ByteArray} {infos infos' : List ZipInfo}
    (hlimit : archive.size ≤ maxArchiveBytes) (hlimit' : archive'.size ≤ maxArchiveBytes)
    (hzip : lib.isZipfile archive = true) (hzip' : lib.isZipfile archive' = true)
    (hinfos : lib.infolist archive = .ok infos) (hinfos' : lib.infolist archive' = .ok infos')
    (hperm : infos.Perm infos') (hintact : ∀ info ∈ infos, ∃ content, info.Intact content) :
    Reordered lib archive archive' := by
  have hintact' : ∀ info ∈ infos', ∃ content, info.Intact content := fun info hinfo =>
    hintact info (hperm.mem_iff.mpr hinfo)
  unfold Reordered
  cases hfirst : extractMembers lib archive with
  | ok members =>
    obtain ⟨hfound, hne⟩ := (extractMembers_zip hlimit hzip).mp hfirst
    obtain ⟨members', hfound', hsame⟩ := zipMembers_perm hinfos hinfos' hperm hintact hfound
    have hne' : members' ≠ [] := fun hnil => hne (List.perm_nil.mp (hnil ▸ hsame))
    rw [(extractMembers_zip hlimit' hzip').mpr ⟨hfound', hne'⟩]
    exact hsame
  | error failure =>
    cases hsecond : extractMembers lib archive' with
    | error failure' => trivial
    | ok members' =>
      obtain ⟨hfound', hne'⟩ := (extractMembers_zip hlimit' hzip').mp hsecond
      obtain ⟨members, hfound, hsame⟩ := zipMembers_perm hinfos' hinfos hperm.symm hintact' hfound'
      have hne : members ≠ [] := fun hnil => hne' (List.perm_nil.mp (hnil ▸ hsame))
      rw [(extractMembers_zip hlimit hzip).mpr ⟨hfound, hne⟩] at hfirst
      cases hfirst

/-- What the import finds does not depend on the order of the members of an archive. -/
theorem inspect_order_independent {archive archive' : ByteArray} (h : Reordered lib archive archive') :
    Agree (inspectSkillArchive lib archive) (inspectSkillArchive lib archive') := by
  unfold Reordered at h
  unfold inspectSkillArchive
  cases hfirst : extractMembers lib archive with
  | error failure =>
    cases hsecond : extractMembers lib archive' with
    | error failure' => exact .refused _ _
    | ok members' =>
      rw [hfirst, hsecond] at h
      exact h.elim
  | ok members =>
    cases hsecond : extractMembers lib archive' with
    | error failure' =>
      rw [hfirst, hsecond] at h
      exact h.elim
    | ok members' =>
      rw [hfirst, hsecond] at h
      change Agree (inspectMembers lib (sourceBundleHash lib archive) members)
        (inspectMembers lib (sourceBundleHash lib archive') members')
      cases ha : inspectMembers lib (sourceBundleHash lib archive) members with
      | ok a =>
        obtain ⟨b, hb, hsame⟩ := inspectMembers_perm (sourceBundleHash lib archive') h ha
        rw [hb]
        exact .found hsame
      | error failure =>
        cases hb : inspectMembers lib (sourceBundleHash lib archive') members' with
        | ok b =>
          obtain ⟨a, ha', -⟩ := inspectMembers_perm (sourceBundleHash lib archive) h.symm hb
          rw [ha'] at ha
          cases ha
        | error failure' => exact .refused _ _

theorem Agree.accepted {first second : Import SkillImportInspection} (h : Agree first second)
    (hfirst : first.isOk = true) : ∃ a b, first = .ok a ∧ second = .ok b ∧ SamePackage a b := by
  cases h with
  | refused failure failure' => cases hfirst
  | found same => exact ⟨_, _, rfl, rfl, same⟩

section Example

/-- The frontmatter `name: demo`, `description: Shows things.` -/
def exampleNode : YamlNode :=
  let text := "tag:yaml.org,2002:str".toList
  .mapping [(.scalar text "name".toList, .scalar text "demo".toList),
    (.scalar text "description".toList, .scalar text "Shows things.".toList)]

def exampleEntry (name content : String) : ZipInfo where
  filename := name.toList
  fileSize := content.utf8ByteSize
  compressSize := content.utf8ByteSize
  externalAttr := 0o100644 <<< 16
  read limit := .ok (content.toUTF8.extract 0 limit)

theorem exampleEntry_intact (name content : String) : (exampleEntry name content).Intact content.toUTF8 :=
  fun _ => rfl

def exampleEntries : List ZipInfo :=
  [exampleEntry "demo/SKILL.md" "---\nname: demo\ndescription: Shows things.\n---\nLook.\n",
    exampleEntry "demo/references/guide.md" "Read on.\n"]

/-- The libraries, as they behave on two archives that begin with a byte each. -/
def exampleLibrary : Library where
  nfc := id
  nfc_nfc _ := rfl
  nfc_ascii _ _ := rfl
  nfc_slash _ _ := rfl
  nfc_free _ h := h
  fold c := [c.toLower]
  fold_lower c _ hupper := by
    simp only [Char.isUpper, decide_eq_false_iff_not] at hupper
    rw [Char.toLower, dif_neg (by omega)]
  sha256 _ := String.ofList (List.replicate 64 '0')
  isZipfile _ := true
  infolist archive := .ok (if archive = ⟨#[0]⟩ then exampleEntries else exampleEntries.reverse)
  writeZip _ := ByteArray.empty
  deflatedSize := ByteArray.size
  getmembers _ := .error .caught
  Decompressor := Unit
  decompressobj := ()
  decompress _ _ _ := .error .caught
  progress _ _ _ _ h := nomatch h
  scan _ := .ok []
  compose _ := .ok exampleNode
  scalar _ value := .ok (.str value)
  str value := match value with
    | .str s => s
    | _ => []
  str_str _ := rfl
  safeDump _ := []

/-- The two orders of an accepted package. -/
theorem example_orders_agree :
    ∃ a b, inspectSkillArchive exampleLibrary ⟨#[0]⟩ = .ok a ∧ inspectSkillArchive exampleLibrary ⟨#[1]⟩ = .ok b ∧
      SamePackage a b := by
  have hintact : ∀ info ∈ exampleEntries, ∃ content, info.Intact content := by
    unfold exampleEntries
    simp only [List.forall_mem_cons, List.not_mem_nil, false_imp_iff, implies_true, and_true]
    exact ⟨⟨_, exampleEntry_intact _ _⟩, ⟨_, exampleEntry_intact _ _⟩⟩
  have hinfos : exampleLibrary.infolist ⟨#[0]⟩ = .ok exampleEntries := congrArg Except.ok (if_pos rfl)
  have hinfos' : exampleLibrary.infolist ⟨#[1]⟩ = .ok exampleEntries.reverse :=
    congrArg Except.ok (if_neg (by decide))
  have hreordered := zip_reordered (by decide) (by decide) rfl rfl hinfos hinfos' (List.reverse_perm _).symm hintact
  exact Agree.accepted (inspect_order_independent hreordered) (by decide +kernel)

end Example

end Solvan.Skills

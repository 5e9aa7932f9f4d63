import Solvan.Base.Words
import Solvan.Skills.Interchange

/-! The compilation of an import into a revision, and the export of an approved one. -/
namespace Solvan.Skills

open Solvan.Base

section Names
variable {name : Text}

theorem skillName_char (h : isSkillName name = true) {c : Char} (hc : c ∈ name) :
    c = '-' ∨ ('a' ≤ c ∧ c ≤ 'z') ∨ ('0' ≤ c ∧ c ≤ '9') := by
  rw [← @List.intercalate_splitOn _ name _ _ '-'] at hc
  refine (Words.mem_unwords hc).imp_right (fun ⟨part, hpart, hc⟩ => ?_)
  obtain ⟨-, hall⟩ := Bool.and_eq_true_iff.mp (List.all_eq_true.mp h part hpart)
  simpa using List.all_eq_true.mp hall c hc

theorem skillName_range (h : isSkillName name = true) {c : Char} (hc : c ∈ name) :
    c.toNat = 45 ∨ (97 ≤ c.toNat ∧ c.toNat ≤ 122) ∨ (48 ≤ c.toNat ∧ c.toNat ≤ 57) := by
  obtain rfl | ⟨hlow, hhigh⟩ | ⟨hlow, hhigh⟩ := skillName_char h hc
  · exact .inl rfl
  · exact .inr (.inl ⟨hlow, hhigh⟩)
  · exact .inr (.inr ⟨hlow, hhigh⟩)

theorem skillName_free (h : isSkillName name = true) (c : Char)
    (hc : ¬(c.toNat = 45 ∨ (97 ≤ c.toNat ∧ c.toNat ≤ 122) ∨ (48 ≤ c.toNat ∧ c.toNat ≤ 57))) : c ∉ name :=
  fun hmem => hc (skillName_range h hmem)

theorem skillName_ne_nil (h : isSkillName name = true) : name ≠ [] := by
  rintro rfl
  cases h

end Names

inductive GuidanceLifecycle where
  | draft | inReview | approved | deprecated | retired
deriving DecidableEq, Repr

def GuidanceLifecycle.value : GuidanceLifecycle → String
  | .draft => "DRAFT"
  | .inReview => "IN_REVIEW"
  | .approved => "APPROVED"
  | .deprecated => "DEPRECATED"
  | .retired => "RETIRED"

/-- `_SKILL_GUIDANCE_KEY` -/
def isSkillGuidanceKey (key : Text) : Bool :=
  match key.splitOn '.' with
  | [owner, name] => isSkillName owner && isSkillName name
  | _ => false

/-- `skill_name_from_key` -/
def skillNameFromKey (guidanceKey : Text) : Import Text :=
  if isSkillGuidanceKey guidanceKey then .ok ((guidanceKey.dropWhile (· != '.')).drop 1)
  else .error (.raised "GUIDANCE_KEY_INVALID")

/-- A `SkillCompileCommand`, as far as an export reads what is compiled from it. -/
structure SkillCompileCommand where
  guidanceKey : Text
  version : Text
  description : Text
  normalizedLicenseIdentifier : Text
  keyed : isSkillGuidanceKey guidanceKey = true
  described : 1 ≤ description.length ∧ description.length ≤ 1000

structure GuidanceRevision where
  guidanceKey : Text
  version : Text
  description : Text
  contentHash : String
  sourceLicense : Option Text
  lifecycle : GuidanceLifecycle

/-- `compile_import` -/
def compileImport (command : SkillCompileCommand) (inspection : SkillImportInspection) : Import GuidanceRevision :=
  match inspection.frontmatter.lookup "name".toList with
  | some (.str _) =>
    if 1000 < command.description.length then .error (.raised "DESCRIPTION_OVER_GOVERNED_LENGTH")
    else
      .ok {
        guidanceKey := command.guidanceKey
        version := command.version
        description := command.description
        contentHash := inspection.guidanceContentHash
        sourceLicense := some (Words.unwords ' ' (Words.words isSpace command.normalizedLicenseIdentifier))
        lifecycle := .draft }
  | _ => .error (.raised "FRONTMATTER_INVALID")

structure ExportReceipt where
  exportId : Text
  guidanceKey : Text
  version : Text
  bundleHash : String
  contentHash : String
  lifecycle : String
  destinationId : Text

/-- The frontmatter of an export -/
def exportMetadata (skillName description license : Text) (contentHash : String) (exportId : Text) : YamlValue :=
  .mapping [("name".toList, .str skillName), ("description".toList, .str description), ("license".toList, .str license),
    ("metadata".toList, .mapping [("solvan-content-digest".toList, .str contentHash.toList),
      ("solvan-export-id".toList, .str exportId)])]

/-- The `SKILL.md` of an export, with its frontmatter written out -/
def skillDocument (generated body : Text) : Text := "---\n".toList ++ generated ++ "---\n".toList ++ body

/-- What is written of a file into an export. -/
def exportContent (generated : Text) (item : SkillFile) : Import ByteArray :=
  if item.path = "SKILL.md".toList then do
    let text ← decoded item.content
    match Cut.cut "\n---\n".toList text with
    | some (_, body) =>
      if startsWith text "---\n" then .ok (encode (skillDocument generated body))
      else .error (.raised "FRONTMATTER_INVALID")
    | none => .error (.raised "FRONTMATTER_INVALID")
  else .ok item.content

def exportFile (skillName generated : Text) (item : SkillFile) : Import SkillFile := do
  let content ← exportContent generated item
  return ⟨skillName ++ '/' :: item.path, content, item.disposition⟩

/-- `export_approved_revision` -/
def exportApprovedRevision (lib : Library) (revision : GuidanceRevision) (files : List SkillFile) (destinationId : Text)
    (staleAcknowledged : Bool) (exportId : Text) : Import (ByteArray × ExportReceipt) :=
  if revision.lifecycle = .deprecated && !staleAcknowledged then
    .error (.raised "STALE_CONTENT_ACKNOWLEDGMENT_REQUIRED")
  else if revision.lifecycle = .approved && staleAcknowledged then
    .error (.raised "STALE_CONTENT_ACKNOWLEDGMENT_NOT_APPLICABLE")
  else if revision.lifecycle ≠ .approved && revision.lifecycle ≠ .deprecated then .error (.raised "LIFECYCLE_REFUSED")
  else
    match revision.sourceLicense with
    | none => .error (.raised "LICENSE_MISSING")
    | some license => do
      let skillName ← skillNameFromKey revision.guidanceKey
      let generated := lib.safeDump (exportMetadata skillName revision.description license revision.contentHash exportId)
      let promptFiles ← (files.filter (fun item => item.disposition = .promptEligible)).mapM
        (exportFile skillName generated)
      let bundle := deterministicExport lib promptFiles
      return (bundle, {
        exportId := exportId
        guidanceKey := revision.guidanceKey
        version := revision.version
        bundleHash := exportBundleHash lib bundle
        contentHash := revision.contentHash
        lifecycle := revision.lifecycle.value
        destinationId := destinationId })

end Solvan.Skills

import Solvan.Skills.Package

/-! The import of a skill package, and the deterministic export. -/
namespace Solvan.Skills

open Solvan.Base

/-- `text.startswith(…)` of a text written out -/
def startsWith (text : Text) (start : String) : Bool := start.toList.isPrefixOf text

/-- `text.endswith(…)` of a text written out -/
def endsWith (text : Text) (ending : String) : Bool := ending.toList.isSuffixOf text

/-- `posixpath.join` of parts none of which is empty or begins with a slash -/
def posixJoin : List Text → Text
  | [] => []
  | [part] => part
  | part :: rest => part ++ '/' :: posixJoin rest

/-- `_canonical_path` -/
def canonicalPath (lib : Library) (raw : Text) : Import Text :=
  if raw.contains '\x00' || raw.contains '\\' then reject .pathUnsafe
  else
    let path := lib.nfc raw
    if startsWith path "/" || path.isEmpty || endsWith path "/" then reject .pathUnsafe
    else
      let parts := path.splitOn '/'
      if parts.any (fun part => part.isEmpty || part == ['.'] || part == ['.', '.']) then reject .pathUnsafe
      else
        let normalized := posixJoin parts
        if normalized != path || startsWith normalized "/" then reject .pathUnsafe
        else .ok normalized

/-- `text.replace("\r\n", "\n")` -/
def replaceCrlf : Text → Text
  | [] => []
  | '\r' :: '\n' :: text => '\n' :: replaceCrlf text
  | c :: text => c :: replaceCrlf text

/-- `text.replace("\r", "\n")` -/
def replaceCr (text : Text) : Text := text.map (fun c => if c = '\r' then '\n' else c)

/-- A text without the byte order mark before it. -/
def unmarked : Text → Text
  | '\ufeff' :: text => text
  | text => text

def isTextPath (path : Text) : Bool :=
  endsWith path ".md" || endsWith path ".yaml" || endsWith path ".yml" || endsWith path ".json" ||
    endsWith path ".txt"

/-- `_normalize_text` -/
def normalizeText (path : Text) (content : ByteArray) : Import ByteArray :=
  if isTextPath path then
    match decode content with
    | none => reject .encodingInvalid
    | some text => .ok (encode (replaceCr (replaceCrlf (unmarked text))))
  else .ok content

/-- The order of paths by their UTF-8 bytes. -/
def PathLe (a b : SkillFile) : Prop := (encode a.path).data.toList ≤ (encode b.path).data.toList

instance : DecidableRel PathLe := fun _ _ => inferInstanceAs (Decidable (_ ≤ _))

/-- `sorted(files, key=lambda value: value.path.encode("utf-8"))` -/
def sortedFiles (files : List SkillFile) : List SkillFile := files.insertionSort PathLe

/-- `_manifest` -/
def manifest (lib : Library) (files : List SkillFile) (includeDisposition : Bool) : ByteArray :=
  (Json.dumps (.arr ((sortedFiles files).map (fun item =>
    .obj ([("path", .str (String.ofList item.path)), ("size", .int item.content.size),
        ("sha256", .str (lib.sha256 item.content))] ++
      if includeDisposition then [("disposition", .str item.disposition.value)] else []))))).toUTF8

/-- `_digest` -/
def digest (lib : Library) (domain : String) (manifest : ByteArray) : String :=
  "sha256:" ++ lib.sha256
    (domain.toUTF8 ++ "\x00".toUTF8 ++ (String.ofList (Nat.toDigits 10 manifest.size)).toUTF8 ++ "\x00".toUTF8 ++
      manifest)

/-- `source_bundle_hash` -/
def sourceBundleHash (lib : Library) (bundle : ByteArray) : String :=
  digest lib "solvan/skill/source-bundle/v1" bundle

/-- The header and the body of a text that opens with frontmatter. -/
def splitFrontmatter (text : Text) : Import (Text × Text) :=
  if !startsWith text "---\n" then reject .frontmatterInvalid
  else
    match Cut.cut "\n---\n".toList text with
    | none => reject .frontmatterInvalid
    | some (front, body) => .ok (front.drop 4, body)

/-- `content.decode("utf-8")` of content that is decoded without a guard -/
def decoded (content : ByteArray) : Import Text :=
  match decode content with
  | none => .error (.raised "UnicodeDecodeError")
  | some text => .ok text

mutual

/-- `construct_object`, with the mappings of the strict loader -/
def construct (lib : Library) : YamlNode → Import YamlValue
  | .scalar tag value => (lib.scalar tag value).mapError (LibraryError.failure .frontmatterInvalid)
  | .sequence items => (constructItems lib items).map .sequence
  | .mapping pairs => (constructMapping lib pairs []).map .mapping

def constructItems (lib : Library) : List YamlNode → Import (List YamlValue)
  | [] => .ok []
  | item :: items => do
    let value ← construct lib item
    let values ← constructItems lib items
    return value :: values

/-- `construct_mapping`, after the fields that were constructed before -/
def constructMapping (lib : Library) :
    List (YamlNode × YamlNode) → List (Text × YamlValue) → Import (List (Text × YamlValue))
  | [], fields => .ok fields
  | pair :: pairs, fields => do
    let fields ← constructPair lib pair fields
    constructMapping lib pairs fields

def constructPair (lib : Library) :
    YamlNode × YamlNode → List (Text × YamlValue) → Import (List (Text × YamlValue))
  | (keyNode, valueNode), fields => do
    -- A sequence is still empty when it is made a key.
    let key := match ← construct lib keyNode with
      | .sequence _ => "[]".toList
      | key => lib.str key
    if (fields.lookup key).isSome then reject .yamlUnsafe
    else
      let value ← construct lib valueNode
      return fields ++ [(key, value)]

end

/-- The frontmatter that a header says -/
def loadHeader (lib : Library) (header : Text) : Import (List (Text × YamlValue)) := do
  let tokens ← (lib.scan header).mapError (LibraryError.failure .frontmatterInvalid)
  if tokens.any (fun token => token != .other) then reject .yamlUnsafe
  else
    let node ← (lib.compose header).mapError (LibraryError.failure .frontmatterInvalid)
    match ← construct lib node with
    | .mapping fields => .ok fields
    | _ => reject .frontmatterInvalid

/-- `_parse_frontmatter` -/
def parseFrontmatter (lib : Library) (content : ByteArray) : Import (List (Text × YamlValue)) := do
  let text ← decoded content
  let (header, _) ← splitFrontmatter text
  loadHeader lib header

/-- `_SKILL_NAME` -/
def isSkillName (name : Text) : Bool :=
  (name.splitOn '-').all (fun part =>
    !part.isEmpty && part.all (fun c => ('a' ≤ c && c ≤ 'z') || ('0' ≤ c && c ≤ '9')))

def knownFrontmatterFields : List Text :=
  ["name", "description", "license", "compatibility", "metadata", "allowed-tools"].map String.toList

def YamlValue.isStr : YamlValue → Bool
  | .str _ => true
  | _ => false

/-- A field that is there and not null, and is not as it should be -/
def malformed (frontmatter : List (Text × YamlValue)) (field : String) (wellFormed : YamlValue → Bool) : Bool :=
  match frontmatter.lookup field.toList with
  | none => false
  | some .null => false
  | some value => !wellFormed value

/-- `_validate_frontmatter` -/
def validateFrontmatter (frontmatter : List (Text × YamlValue)) : Import (List Finding) :=
  match frontmatter.lookup "name".toList, frontmatter.lookup "description".toList with
  | some (.str name), some (.str description) =>
    if !(1 ≤ name.length && name.length ≤ 64 && isSkillName name && 1 ≤ description.length &&
        description.length ≤ 1024 && !(strip description).isEmpty) then reject .frontmatterInvalid
    else
      .ok (sortedFindings
        ((if 1000 < description.length then [.descriptionOverGovernedLength] else []) ++
          (if frontmatter.any (fun field => !knownFrontmatterFields.contains field.1) then
            [.unknownFrontmatterField] else []) ++
          (if malformed frontmatter "compatibility" (fun value =>
              match value with
              | .str s => decide (1 ≤ s.length ∧ s.length ≤ 500)
              | _ => false) ||
            malformed frontmatter "metadata" (fun value =>
              match value with
              | .mapping fields => fields.all (fun field => field.2.isStr)
              | _ => false) ||
            malformed frontmatter "allowed-tools" YamlValue.isStr then
            [.frontmatterFieldMalformed] else [])))
  | _, _ => reject .frontmatterInvalid

/-- `_frontmatter_body` -/
def frontmatterBody (content : ByteArray) : Import ByteArray := do
  let text ← decoded content
  let (_, body) ← splitFrontmatter text
  return encode body

def gunzipCap : Nat := maxExpandedBytes + (maxEntries * 4 + 8) * 512

/-- The loop of `_bounded_gunzip` -/
def gunzipLoop (lib : Library) (state : lib.Decompressor) (data : ByteArray) (eof : Bool) (output : ByteArray)
    (hbounded : output.size ≤ gunzipCap) : Import ByteArray :=
  if hgo : 0 < data.size ∧ eof = false then
    match hstep : lib.decompress state data (gunzipCap + 1 - output.size) with
    | .error error => .error (error.failure .archiveInvalid)
    | .ok inflated =>
      if hcap : gunzipCap < (output ++ inflated.output).size then reject .packageBoundsExceeded
      else
        gunzipLoop lib inflated.state inflated.unconsumedTail inflated.eof (output ++ inflated.output)
          (Nat.le_of_not_lt hcap)
  else .ok output
termination_by data.size + (gunzipCap - output.size)
decreasing_by
  obtain ⟨-, htail, hprogress⟩ := lib.progress state data _ inflated hstep
  have hstep := hprogress hgo.1 (by omega)
  rw [ByteArray.size_append] at hcap ⊢
  omega

/-- `_bounded_gunzip` -/
def boundedGunzip (lib : Library) (archive : ByteArray) : Import ByteArray :=
  gunzipLoop lib lib.decompressobj archive false ByteArray.empty (Nat.zero_le _)

/-- `zip_info.is_dir()` -/
def ZipInfo.isDir (info : ZipInfo) : Bool := endsWith info.filename "/"

/-- The file type in the mode of an entry -/
def ZipInfo.fileType (info : ZipInfo) : Nat := (info.externalAttr >>> 16) &&& 0o170000

/-- The loop over the entries of a ZIP archive -/
def readZip : Nat → List ZipInfo → Import (List (Text × ByteArray))
  | _, [] => .ok []
  | remaining, info :: rest =>
    if info.isDir then readZip remaining rest
    else if info.fileType = 0o120000 || info.fileType = 0o060000 then reject .specialFile
    else
      match info.read (remaining + 1) with
      | .error error => .error (error.failure .archiveInvalid)
      | .ok content =>
        if remaining < content.size then reject .packageBoundsExceeded
        else do
          let members ← readZip (remaining - content.size) rest
          return (info.filename, content) :: members

/-- The loop over the entries of a tar archive -/
def readTar : List TarInfo → Import (List (Text × ByteArray))
  | [] => .ok []
  | info :: rest =>
    if info.isdir then readTar rest
    else if !info.isfile then reject .specialFile
    else
      match info.extractfile with
      | .error error => .error (error.failure .archiveInvalid)
      | .ok none => reject .packageStructureInvalid
      | .ok (some content) => do
        let members ← readTar rest
        return (info.name, content) :: members

def zipMembers (lib : Library) (archive : ByteArray) : Import (List (Text × ByteArray)) := do
  let zipInfos ← (lib.infolist archive).mapError (LibraryError.failure .archiveInvalid)
  if maxEntries < zipInfos.length then reject .packageBoundsExceeded
  else
    let expanded := (zipInfos.map ZipInfo.fileSize).sum
    let compressed := max 1 (zipInfos.map ZipInfo.compressSize).sum
    if maxExpandedBytes < expanded || maxCompressionRatio * compressed < expanded then
      reject .packageBoundsExceeded
    else readZip maxExpandedBytes zipInfos

def tarMembers (lib : Library) (archive : ByteArray) : Import (List (Text × ByteArray)) := do
  let tarBytes ← if archive.extract 0 2 = ⟨#[0x1f, 0x8b]⟩ then boundedGunzip lib archive else .ok archive
  if tarBytes.size < 262 || tarBytes.extract 257 262 != "ustar".toUTF8 then reject .archiveTypeUnsupported
  else
    let tarInfos ← (lib.getmembers tarBytes).mapError (LibraryError.failure .archiveInvalid)
    if maxEntries < tarInfos.length then reject .packageBoundsExceeded
    else
      let expanded := ((tarInfos.filter TarInfo.isfile).map TarInfo.size).sum
      if maxExpandedBytes < expanded || maxCompressionRatio * max 1 archive.size < expanded then
        reject .packageBoundsExceeded
      else readTar tarInfos

/-- `_extract_members` -/
def extractMembers (lib : Library) (archive : ByteArray) : Import (List (Text × ByteArray)) :=
  if maxArchiveBytes < archive.size then reject .packageBoundsExceeded
  else do
    let members ← if lib.isZipfile archive then zipMembers lib archive else tarMembers lib archive
    if members.isEmpty then reject .packageStructureInvalid
    else return members

def archiveSuffixes : List String :=
  [".zip", ".tar", ".tar.gz", ".tgz", ".tar.bz2", ".tbz2", ".tar.xz", ".txz", ".gz", ".bz2", ".xz"]

/-- The content of an archive, by how it begins. -/
def isArchiveContent (content : ByteArray) : Bool :=
  content.extract 0 4 == ⟨#[0x50, 0x4b, 0x03, 0x04]⟩ || content.extract 0 4 == ⟨#[0x50, 0x4b, 0x05, 0x06]⟩ ||
    content.extract 0 4 == ⟨#[0x50, 0x4b, 0x07, 0x08]⟩ || content.extract 0 2 == ⟨#[0x1f, 0x8b]⟩ ||
    decide (262 ≤ content.size) && content.extract 257 262 == "ustar".toUTF8

/-- `_is_nested_archive` -/
def isNestedArchive (lib : Library) (path : Text) (content : ByteArray) : Bool :=
  archiveSuffixes.any (endsWith (lib.casefold path)) || isArchiveContent content

/-- The characters that a lower-case letter is searched for as. -/
def sameLetter (letter c : Char) : Bool :=
  c == letter || c.toLower == letter && c.toNat < 128 ||
    letter == 'i' && (c == 'İ' || c == 'ı') || letter == 's' && c == 'ſ'

/-- A text begins with some letters, whatever their case. -/
def matchesHere : List Char → Text → Bool
  | [], _ => true
  | _ :: _, [] => false
  | letter :: letters, c :: text => sameLetter letter c && matchesHere letters text

/-- `_EXTERNAL_LINK.search` -/
def hasExternalLink (text : Text) : Bool :=
  text.tails.any (fun rest =>
    ["http://", "https://", "file:", "data:"].any (fun scheme => matchesHere scheme.toList rest))

/-- How many lines `bytes.splitlines` finds after a line that has begun or not. -/
def byteLines : Bool → List UInt8 → Nat
  | begun, [] => if begun then 1 else 0
  | _, 0x0d :: 0x0a :: bytes => 1 + byteLines false bytes
  | _, byte :: bytes => if byte = 0x0a ∨ byte = 0x0d then 1 + byteLines false bytes else byteLines true bytes

/-- `_disposition_for` -/
def dispositionFor (relative : Text) (content : ByteArray) : Import (SkillFileDisposition × List Finding) :=
  if relative = "SKILL.md".toList then do
    let body ← frontmatterBody content
    if maxSkillBodyBytes < body.size || maxSkillBodyLines < byteLines false body.data.toList then
      reject .bodyBoundsExceeded
    else
      let text ← decoded body
      return (.promptEligible, if hasExternalLink text then [.externalLinkPresent] else [])
  else if startsWith relative "references/" then
    if !endsWith relative ".md" then .ok (.stripped, [.referenceNotMarkdown])
    else if maxReferenceBytes < content.size then .ok (.stripped, [.fileOverSize])
    else do
      let text ← decoded content
      return (.promptEligible, (if 1 < relative.count '/' then [.referenceDepthExceeded] else []) ++
        if hasExternalLink text then [.externalLinkPresent] else [])
  else if maxOtherFileBytes < content.size then .ok (.stripped, [.fileOverSize])
  else .ok (.inertStored, [])

/-- What the loop over the members carries along. -/
structure Intake where
  normalized : List (Text × ByteArray)
  collisionKeys : List Text
  structuralErrors : List ImportCode

/-- The codes of a failure that is caught as a `SkillImportError`. -/
def ImportFailure.codes : ImportFailure → List ImportCode
  | .skillImportError codes => codes
  | .raised _ => []

/-- One member of the package -/
def Intake.take (lib : Library) (intake : Intake) (member : Text × ByteArray) : Intake :=
  match canonicalPath lib member.1 with
  | .error error => { intake with structuralErrors := intake.structuralErrors ++ error.codes }
  | .ok path =>
    let collisionKey := lib.casefold path
    if intake.collisionKeys.contains collisionKey then
      { intake with structuralErrors := intake.structuralErrors ++ [.pathCollision] }
    else
      let intake := { intake with collisionKeys := intake.collisionKeys ++ [collisionKey] }
      if isNestedArchive lib path member.2 then
        { intake with structuralErrors := intake.structuralErrors ++ [.packageBoundsExceeded] }
      else
        match normalizeText path member.2 with
        | .error error => { intake with structuralErrors := intake.structuralErrors ++ error.codes }
        | .ok content => { intake with normalized := intake.normalized ++ [(path, content)] }

def isSkillPath (path : Text) : Bool := path == "SKILL.md".toList || endsWith path "/SKILL.md"

/-- `path.rsplit("/", 1)[0]` of a path with a slash -/
def parent (path : Text) : Text := (path.rdropWhile (· != '/')).dropLast

/-- `path.rsplit("/", 1)[-1]` -/
def lastPart (path : Text) : Text := path.rtakeWhile (· != '/')

/-- The one root of a package -/
def skillRoot (normalized : List (Text × ByteArray)) : Import Text :=
  match (normalized.map Prod.fst).filter isSkillPath with
  | [skillPath] =>
    if !skillPath.contains '/' then reject .packageStructureInvalid
    else
      let root := parent skillPath
      if normalized.any (fun file => !(root ++ ['/']).isPrefixOf file.1) then reject .packageStructureInvalid
      else .ok root
  | _ => reject .packageStructureInvalid

/-- The loop over the files under the root, after the relative paths that were seen before -/
def examine (root : Text) : List (Text × ByteArray) → List Text → Import (List SkillFile × List Finding)
  | [], _ => .ok ([], [])
  | (path, content) :: rest, relativePaths =>
    let relative := path.drop (root.length + 1)
    if relative.isEmpty || relativePaths.contains relative then reject .packageStructureInvalid
    else do
      let (disposition, fileFindings) ← dispositionFor relative content
      let (files, findings) ← examine root rest (relativePaths ++ [relative])
      return (⟨relative, content, disposition⟩ :: files, fileFindings ++ findings)

structure SkillImportInspection where
  sourceBundleHash : String
  normalizedPackageHash : String
  guidanceContentHash : String
  files : List SkillFile
  frontmatter : List (Text × YamlValue)
  warnings : List Finding

/-- A file with what of it is guidance. -/
def contentFile (item : SkillFile) : Import SkillFile :=
  if item.path = "SKILL.md".toList then do
    let body ← frontmatterBody item.content
    return { item with content := body }
  else .ok item

/-- The files that are guidance. -/
def contentFiles (files : List SkillFile) : Import (List SkillFile) :=
  (files.filter (fun item => item.disposition = .promptEligible)).mapM contentFile

/-- The hash of the files that are guidance. -/
def guidanceContentHash (lib : Library) (content : List SkillFile) : String :=
  digest lib "solvan/skill/guidance-content/v1" (manifest lib content false)

/-- `inspect_skill_archive` once the members are extracted -/
def inspectMembers (lib : Library) (bundleHash : String) (rawMembers : List (Text × ByteArray)) :
    Import SkillImportInspection := do
  let intake := rawMembers.foldl (Intake.take lib) ⟨[], [], []⟩
  if !intake.structuralErrors.isEmpty then .error (.skillImportError (sortedCodes intake.structuralErrors))
  else
    let root ← skillRoot intake.normalized
    let (files, findings) ← examine root intake.normalized []
    let resultFiles := sortedFiles files
    match resultFiles.find? (fun item => item.path = "SKILL.md".toList) with
    | none => .error (.raised "StopIteration")
    | some skillMd =>
      let frontmatter ← parseFrontmatter lib skillMd.content
      let warnings ← validateFrontmatter frontmatter
      let mismatch := match frontmatter.lookup "name".toList with
        | some (.str name) => lastPart root != name
        | _ => true
      let content ← contentFiles resultFiles
      return {
        sourceBundleHash := bundleHash
        normalizedPackageHash :=
          digest lib "solvan/skill/normalized-package/v1" (manifest lib resultFiles true)
        guidanceContentHash := guidanceContentHash lib content
        files := resultFiles
        frontmatter := frontmatter
        warnings := sortedFindings (findings ++ warnings ++ if mismatch then [.nameDirectoryMismatch] else []) }

/-- `inspect_skill_archive` -/
def inspectSkillArchive (lib : Library) (archive : ByteArray) : Import SkillImportInspection := do
  let rawMembers ← extractMembers lib archive
  inspectMembers lib (sourceBundleHash lib archive) rawMembers

/-- The entries of an export, in its order -/
def exportEntries (files : List SkillFile) : List (Text × ByteArray) :=
  ((sortedFiles files).filter (fun item => item.disposition = .promptEligible)).map
    (fun item => (item.path, item.content))

/-- `deterministic_export` -/
def deterministicExport (lib : Library) (files : List SkillFile) : ByteArray := lib.writeZip (exportEntries files)

/-- `export_bundle_hash` -/
def exportBundleHash (lib : Library) (bundle : ByteArray) : String :=
  digest lib "solvan/skill/export-bundle/v1"
    (manifest lib [⟨"bundle.zip".toList, bundle, .inertStored⟩] false)

end Solvan.Skills

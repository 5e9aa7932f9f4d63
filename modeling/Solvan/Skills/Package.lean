import Mathlib
import Solvan.Base.Cut
import Solvan.Base.Json.Text
import Solvan.Base.Lines

/-! What skill packages are made of, and the libraries that read and write them. -/
namespace Solvan.Skills

abbrev Text := List Char

/-- The codes of `SkillImportError`, in their order -/
inductive ImportCode where
  | archiveInvalid | archiveTypeUnsupported | bodyBoundsExceeded | encodingInvalid | frontmatterInvalid
  | packageBoundsExceeded | packageStructureInvalid | pathCollision | pathUnsafe | specialFile | yamlUnsafe
deriving DecidableEq, Repr

/-- A `SkillImportError`, or another error that leaves the import. -/
inductive ImportFailure where
  | skillImportError (codes : List ImportCode)
  | raised (message : String)
deriving DecidableEq, Repr

/-- The sorted set of some codes. -/
def sortedCodes (codes : List ImportCode) : List ImportCode :=
  [.archiveInvalid, .archiveTypeUnsupported, .bodyBoundsExceeded, .encodingInvalid, .frontmatterInvalid,
    .packageBoundsExceeded, .packageStructureInvalid, .pathCollision, .pathUnsafe, .specialFile,
    .yamlUnsafe].filter (fun code => codes.contains code)

abbrev Import (α : Type) := Except ImportFailure α

def reject {α : Type} (code : ImportCode) : Import α := .error (.skillImportError [code])

inductive SkillFileDisposition where
  | promptEligible | inertStored | stripped
deriving DecidableEq, Repr

def SkillFileDisposition.value : SkillFileDisposition → String
  | .promptEligible => "PROMPT_ELIGIBLE"
  | .inertStored => "INERT_STORED"
  | .stripped => "STRIPPED"

structure SkillFile where
  path : Text
  content : ByteArray
  disposition : SkillFileDisposition
deriving DecidableEq

/-- The warnings of an inspection, in their order -/
inductive Finding where
  | descriptionOverGovernedLength | externalLinkPresent | fileOverSize | frontmatterFieldMalformed
  | nameDirectoryMismatch | referenceDepthExceeded | referenceNotMarkdown | unknownFrontmatterField
deriving DecidableEq, Repr

def sortedFindings (findings : List Finding) : List Finding :=
  [.descriptionOverGovernedLength, .externalLinkPresent, .fileOverSize, .frontmatterFieldMalformed,
    .nameDirectoryMismatch, .referenceDepthExceeded, .referenceNotMarkdown, .unknownFrontmatterField].filter
    (fun finding => findings.contains finding)

def maxArchiveBytes : Nat := 1 * 1024 * 1024
def maxExpandedBytes : Nat := 1 * 1024 * 1024
def maxEntries : Nat := 64
def maxCompressionRatio : Nat := 100
def maxSkillBodyBytes : Nat := 64 * 1024
def maxSkillBodyLines : Nat := 500
def maxReferenceBytes : Nat := 64 * 1024
def maxOtherFileBytes : Nat := 256 * 1024

/-- An error of a library that the import turns into one of its own, or another. -/
inductive LibraryError where
  | caught
  | other (message : String)
deriving DecidableEq, Repr

/-- What the import makes of an error of a library. -/
def LibraryError.failure (code : ImportCode) : LibraryError → ImportFailure
  | .caught => .skillImportError [code]
  | .other message => .raised message

/-- An entry of a ZIP archive, and what reading so many bytes of it gives. -/
structure ZipInfo where
  filename : Text
  fileSize : Nat
  compressSize : Nat
  externalAttr : Nat
  read : Nat → Except LibraryError ByteArray

/-- An entry of a tar archive, and what it holds. -/
structure TarInfo where
  name : Text
  size : Nat
  isfile : Bool
  isdir : Bool
  extractfile : Except LibraryError (Option ByteArray)

/-- A node of a YAML document. -/
inductive YamlNode where
  | scalar (tag value : Text)
  | sequence (items : List YamlNode)
  | mapping (pairs : List (YamlNode × YamlNode))

/-- A constructed value. Scalars that are neither null nor text are known by their `repr`. -/
inductive YamlValue where
  | null
  | str (s : Text)
  | other (repr : Text)
  | sequence (items : List YamlValue)
  | mapping (fields : List (Text × YamlValue))

inductive YamlToken where
  | anchor | alias | tag | other
deriving DecidableEq, Repr

/-- What one call of a decompressor gives: output, the input it left, whether the stream is over, and the
decompressor after it. -/
structure Inflated (σ : Type) where
  output : ByteArray
  unconsumedTail : ByteArray
  eof : Bool
  state : σ

/-- The libraries of the import: Unicode, SHA-256, `zipfile`, `tarfile`, `zlib` and `yaml`. -/
structure Library where
  /-- `unicodedata.normalize("NFC", …)` -/
  nfc : Text → Text
  nfc_nfc : ∀ text, nfc (nfc text) = nfc text
  nfc_ascii : ∀ text, (∀ c ∈ text, c.toNat < 128) → nfc text = text
  /-- A slash composes with nothing. -/
  nfc_slash : ∀ front back, nfc (front ++ '/' :: back) = nfc front ++ '/' :: nfc back
  nfc_free : ∀ text, '/' ∉ text → '/' ∉ nfc text
  /-- `str.casefold` of a character -/
  fold : Char → Text
  fold_lower : ∀ c : Char, c.toNat < 128 → c.isUpper = false → fold c = [c]
  sha256 : ByteArray → String
  isZipfile : ByteArray → Bool
  infolist : ByteArray → Except LibraryError (List ZipInfo)
  /-- `ZipFile.writestr` of each of some files, as `deterministic_export` sets it up -/
  writeZip : List (Text × ByteArray) → ByteArray
  /-- How many bytes `DEFLATE` makes of some content. -/
  deflatedSize : ByteArray → Nat
  getmembers : ByteArray → Except LibraryError (List TarInfo)
  Decompressor : Type
  decompressobj : Decompressor
  decompress : Decompressor → ByteArray → Nat → Except LibraryError (Inflated Decompressor)
  /-- A call of the decompressor keeps to its limit, and gives or takes a byte. -/
  progress : ∀ state data limit inflated, decompress state data limit = .ok inflated →
    inflated.output.size ≤ limit ∧ inflated.unconsumedTail.size ≤ data.size ∧
      (0 < data.size → 0 < limit →
        inflated.unconsumedTail.size < data.size ∨ 0 < inflated.output.size)
  scan : Text → Except LibraryError (List YamlToken)
  compose : Text → Except LibraryError YamlNode
  scalar : Text → Text → Except LibraryError YamlValue
  /-- `str` of a constructed value -/
  str : YamlValue → Text
  str_str : ∀ s, str (.str s) = s
  /-- `yaml.safe_dump` with sorted keys, block style and Unicode -/
  safeDump : YamlValue → Text

/-- `path.casefold()` -/
def Library.casefold (lib : Library) (path : Text) : Text := path.flatMap lib.fold

/-- `content.decode("utf-8")` -/
def decode (content : ByteArray) : Option Text := content.utf8Decode?.map Array.toList

/-- `text.encode("utf-8")` -/
def encode (text : Text) : ByteArray := (String.ofList text).toUTF8

variable {text : Text} {content : ByteArray}

theorem encode_eq (text : Text) : encode text = text.utf8Encode := by
  rw [encode, String.toUTF8_eq_toByteArray, String.toByteArray_ofList]

theorem decode_encode : decode (encode text) = some text := by
  rw [encode_eq]
  simp [decode]

theorem encode_decode (h : decode content = some text) : encode text = content := by
  obtain ⟨chars, hchars, rfl⟩ := Option.map_eq_some_iff.mp h
  have hget := @ByteArray.utf8Encode_get_utf8Decode? content (by rw [hchars]; rfl)
  rw [encode_eq]
  simpa [hchars] using hget

theorem encode_inj {text' : Text} (h : encode text = encode text') : text = text' := by
  have hdecoded := congrArg decode h
  rwa [decode_encode, decode_encode, Option.some.injEq] at hdecoded

@[simp] theorem encode_append (front back : Text) : encode (front ++ back) = encode front ++ encode back := by
  rw [encode_eq, encode_eq, encode_eq, List.utf8Encode_append]

end Solvan.Skills

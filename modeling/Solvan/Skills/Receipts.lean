import Solvan.Base.Regex
import Solvan.Skills.Package

/-! The receipts of the security scanners, and which files their hash tells from all others. -/
namespace Solvan.Skills.Receipts
open Base Base.Regex

structure SecurityScanReceipt where
  scanner : String
  version : String
  verdict : String
  reasonCodes : List String
  contentHash : String
deriving DecidableEq

structure ModelArmorScanner where
  version : String
  scan : ByteArray → String → SecurityScanReceipt

/-- The libraries of the scanners. -/
structure Tables extends CharTables where
  sha256 : ByteArray → String
  /-- `str.isdigit` -/
  digit : Char → Bool
  /-- `content.decode("utf-8", errors="replace")` -/
  decodeReplace : ByteArray → Text
  /-- The license that `yaml.safe_load` finds in a header, where it is a mapping and the license a text -/
  license : Text → Option Text

section Scan

variable (t : Tables)

/-- `_SECRET_PATTERNS` -/
def secretPatterns : List Regex :=
  [inTurn [literal "AKIA", .repeated (among "" upperLetter) 16 (some 0)],
    inTurn [literal "-----BEGIN ", perhaps (oneOf [literal "RSA ", literal "EC ", literal "OPENSSH "]),
      literal "PRIVATE KEY-----"],
    inTurn [oneOf [inTurn [caseless "api", perhaps (.set "_-".toList.contains), caseless "key"], caseless "secret",
        caseless "password", caseless "token"],
      spaces t.toCharTables, .set ":=".toList.contains, spaces t.toCharTables,
      .repeated (.set (fun c => !t.space c)) 12 none]]

def isDecimal (c : Char) : Bool := (t.decimal c).isSome

/-- `_PII_PATTERNS` -/
def piiPatterns : List Regex :=
  [inTurn [.boundary t.word, .repeated (among "._%+-" caselessLetter) 1 none, literal "@",
      .repeated (among ".-" caselessLetter) 1 none, literal ".", .repeated (.set caselessLetter) 2 none,
      .boundary t.word],
    inTurn [.boundary t.word, perhaps (literal "+"), .set (isDecimal t),
      .repeated (.set (fun c => isDecimal t c || " ()-".toList.contains c)) 8 none, .set (isDecimal t),
      .boundary t.word]]

/-- `_pii_present` -/
def piiPresent (pattern : Regex) (text : Text) : Bool :=
  (pattern.findall text).any (fun found => found.contains '@' || decide (10 ≤ found.countP t.digit))

/-- What the digest is updated with, file by file -/
def material : List SkillFile → List UInt8
  | [] => []
  | item :: files => (encode item.path).data.toList ++ 0 :: item.content.data.toList ++ material files

/-- `_content_hash` -/
def contentHash (sha256 : ByteArray → String) (files : List SkillFile) : String :=
  "sha256:" ++ sha256 (material files).toByteArray

def allowedLicenses : List String :=
  ["Apache-2.0", "BSD-2-Clause", "BSD-3-Clause", "CC-BY-4.0", "ISC", "MIT", "MPL-2.0"]

/-- `value.split()`, behind some characters of a part that has begun -/
def words : Text → Text → List Text
  | part, [] => if part.isEmpty then [] else [part]
  | part, c :: rest =>
    if t.space c then (if part.isEmpty then words [] rest else part :: words [] rest) else words (part ++ [c]) rest

/-- `" ".join(value.split())` -/
def normalized (value : Text) : Text := [' '].intercalate (words t [] value)

/-- The license in the frontmatter of a skill -/
def licenseOf (content : ByteArray) : Option Text := do
  let text ← decode content
  let (front, _) ← Cut.cut "\n---\n".toList text
  if "---\n".toList.isPrefixOf front then t.license (front.drop 4) else none

/-- `_license_receipt` -/
def licenseReceipt (files : List SkillFile) (hash : String) : SecurityScanReceipt :=
  let receipt := fun verdict codes => SecurityScanReceipt.mk "LICENSE_POLICY" "spdx-registry-1" verdict codes hash
  match files.find? (fun item => item.path == "SKILL.md".toList) with
  | none => receipt "REVIEW" ["LICENSE_MISSING"]
  | some skill =>
    match licenseOf t skill.content with
    | none => receipt "REVIEW" ["LICENSE_MISSING"]
    | some value =>
      if (words t [] value).isEmpty then receipt "REVIEW" ["LICENSE_MISSING"]
      else if allowedLicenses.any (fun license => license.toList == normalized t value) then receipt "ALLOWED" []
      else receipt "DENIED" ["LICENSE_POLICY_DENIED"]

/-- The receipt of a scanner that denies on a finding -/
def findingReceipt (scanner code : String) (found : Bool) (hash : String) : SecurityScanReceipt :=
  ⟨scanner, "deterministic-1", if found then "DENIED" else "ALLOWED", if found then [code] else [], hash⟩

/-- `scan_skill_files` -/
def scanSkillFiles (armor : ModelArmorScanner) (files : List SkillFile) : List SecurityScanReceipt :=
  let hash := contentHash t.sha256 files
  let text := ['\n'].intercalate (files.map (fun item => t.decodeReplace item.content))
  let promptFiles := files.filter (fun item => item.disposition == .promptEligible)
  let combinedPrompt := ([0x0a] : List UInt8).intercalate (promptFiles.map (fun item => item.content.data.toList))
  [findingReceipt "SECRET_SCANNER" "SECRET_OR_CREDENTIAL" ((secretPatterns t).any (fun r => r.search text)) hash,
    findingReceipt "PII_SCANNER" "PII_DETECTED" ((piiPatterns t).any (fun r => piiPresent t r text)) hash,
    licenseReceipt t files hash,
    armor.scan combinedPrompt.toByteArray (contentHash t.sha256 promptFiles)]

end Scan

/-- The paths and contents of some files -/
def bytesOf (files : List SkillFile) : List (Text × ByteArray) := files.map (fun item => (item.path, item.content))

section Hash

variable {files others : List SkillFile} {item : SkillFile} {path : Text} {c : Char}

theorem byte_ne_zero {n : Nat} (hpos : 0 < n) (hbyte : n < 256) : (0 : UInt8) ≠ UInt8.ofNat n := by
  intro h
  have hvalue := congrArg UInt8.toNat h
  rw [UInt8.toNat_ofNat', Nat.mod_eq_of_lt hbyte] at hvalue
  exact absurd hvalue (Nat.ne_of_lt hpos)

/-- Of the bytes of a character only that of the null character is zero. -/
theorem zero_mem_char : (0 : UInt8) ∈ String.utf8EncodeChar c ↔ c = '\x00' := by
  constructor
  · intro h
    unfold String.utf8EncodeChar at h
    dsimp only at h
    split at h
    · rename_i hascii
      by_contra hne
      have hpos : 0 < c.val.toNat := by
        rw [Nat.pos_iff_ne_zero]
        exact fun hzero => hne (Char.ext (UInt32.toNat_inj.mp hzero))
      exact absurd (List.mem_singleton.mp h) (byte_ne_zero hpos (by omega))
    · split at h
      · simp only [List.mem_cons, List.not_mem_nil, or_false] at h
        rcases h with h | h <;> exact absurd h (byte_ne_zero (by omega) (by omega))
      · split at h
        · simp only [List.mem_cons, List.not_mem_nil, or_false] at h
          rcases h with h | h | h <;> exact absurd h (byte_ne_zero (by omega) (by omega))
        · simp only [List.mem_cons, List.not_mem_nil, or_false] at h
          rcases h with h | h | h | h <;> exact absurd h (byte_ne_zero (by omega) (by omega))
  · rintro rfl
    decide

/-- Of the bytes of a text only those of the null character are zero. -/
theorem zero_mem_encode : (0 : UInt8) ∈ (encode path).data.toList ↔ '\x00' ∈ path := by
  have hbytes : (encode path).data.toList = path.flatMap String.utf8EncodeChar := by
    rw [encode_eq, List.utf8Encode, List.data_toByteArray]
  rw [hbytes, List.mem_flatMap]
  constructor
  · rintro ⟨c, hc, hzero⟩
    exact zero_mem_char.mp hzero ▸ hc
  · exact fun h => ⟨'\x00', h, by decide⟩

theorem count_material : files.length ≤ (material files).count 0 := by
  induction files with
  | nil => exact Nat.zero_le _
  | cons item files ih =>
    simp only [material, List.append_assoc, List.count_append, List.cons_append, List.count_cons_self,
      List.length_cons]
    omega

/-- One file whose path and content have no null byte -/
def Plain (files : List SkillFile) : Prop :=
  ∃ item, files = [item] ∧ '\x00' ∉ item.path ∧ (0 : UInt8) ∉ item.content.data.toList

/-- What is hashed of one plain file is hashed of no other files. -/
theorem material_plain (h : Plain files) (hsame : material others = material files) : bytesOf others = bytesOf files := by
  obtain ⟨item, rfl, hpath, hcontent⟩ := h
  rw [← zero_mem_encode] at hpath
  have hone : (material [item]).count 0 = 1 := by
    simp [material, List.count_eq_zero.mpr hpath, List.count_eq_zero.mpr hcontent]
  have hlength : others.length ≤ 1 := hone ▸ hsame ▸ count_material
  cases others with
  | nil =>
    rw [← hsame] at hone
    cases hone
  | cons other rest =>
    obtain rfl : rest = [] := by
      rw [List.length_cons] at hlength
      exact List.eq_nil_of_length_eq_zero (by omega)
    have hcounts : ((encode other.path).data.toList).count 0 = 0 := by
      rw [← hsame] at hone
      simp only [material, List.append_nil, List.count_append, List.count_cons_self] at hone
      omega
    simp only [material, List.append_nil] at hsame
    obtain ⟨hfront, hback⟩ := Cut.cut_unique hsame (hcounts.trans (List.count_eq_zero.mpr hpath).symm)
    have hpaths : other.path = item.path := encode_inj (ByteArray.ext (Array.toList_inj.mp hfront))
    have hcontents : other.content = item.content := ByteArray.ext (Array.toList_inj.mp hback)
    simp [bytesOf, hpaths, hcontents]

/-- Any other files share what is hashed of them with files of other paths or contents. -/
theorem material_shared (hsome : files ≠ []) (hnot : ¬Plain files) :
    ∃ others, material others = material files ∧ bytesOf others ≠ bytesOf files := by
  cases files with
  | nil => exact absurd rfl hsome
  | cons item rest =>
    cases rest with
    | cons next rest =>
      -- The contents of one file may be those of the first and all that is hashed of the others.
      refine ⟨[⟨item.path, (item.content.data.toList ++ material (next :: rest)).toByteArray, item.disposition⟩], ?_, ?_⟩
      · simp [material, List.data_toByteArray]
      · intro h
        have hlength := congrArg List.length h
        simp [bytesOf] at hlength
    | nil =>
      by_cases hpath : '\x00' ∈ item.path
      · -- The path may end at its null character.
        obtain ⟨front, back, hsplit⟩ := List.append_of_mem hpath
        refine ⟨[⟨front, ((encode back).data.toList ++ 0 :: item.content.data.toList).toByteArray, item.disposition⟩],
          ?_, ?_⟩
        · have hzero : (encode ('\x00' :: back)).data.toList = 0 :: (encode back).data.toList := by
            rw [show '\x00' :: back = ['\x00'] ++ back from rfl, encode_append]
            rfl
          have hencoded : (encode item.path).data.toList =
              (encode front).data.toList ++ 0 :: (encode back).data.toList := by
            rw [hsplit, encode_append, ByteArray.data_append, Array.toList_append, hzero]
          simp [material, List.data_toByteArray, hencoded]
        · intro h
          have hsame : front = item.path := by
            simp only [bytesOf, List.map_cons, List.map_nil, List.cons.injEq, Prod.mk.injEq] at h
            exact h.1.1
          have hlength := congrArg List.length (hsame.trans hsplit)
          simp at hlength
      · have hcontent : (0 : UInt8) ∈ item.content.data.toList := by
          by_contra hnone
          exact hnot ⟨item, rfl, hpath, hnone⟩
        -- A file without a name may begin at the null byte of the content.
        obtain ⟨front, back, hsplit⟩ := List.append_of_mem hcontent
        refine ⟨[⟨item.path, front.toByteArray, item.disposition⟩, ⟨[], back.toByteArray, item.disposition⟩], ?_, ?_⟩
        · have hempty : (encode []).data.toList = [] := rfl
          simp [material, List.data_toByteArray, hempty, hsplit]
        · intro h
          have hlength := congrArg List.length h
          simp [bytesOf] at hlength

/-- The hash binds files if and only if there are none, or they are one plain file. -/
theorem contentHash_binds_iff (sha256 : ByteArray → String) (hinjective : Function.Injective sha256)
    (files : List SkillFile) :
    (∀ others, contentHash sha256 others = contentHash sha256 files → bytesOf others = bytesOf files) ↔
      files = [] ∨ Plain files := by
  have hmaterial : ∀ others, contentHash sha256 others = contentHash sha256 files ↔ material others = material files := by
    intro others
    unfold contentHash
    rw [String.append_right_inj, hinjective.eq_iff]
    refine ⟨fun h => ?_, fun h => by rw [h]⟩
    have hdata := congrArg (fun bytes : ByteArray => bytes.data.toList) h
    simpa only [List.data_toByteArray, List.toList_toArray] using hdata
  simp only [hmaterial]
  constructor
  · intro h
    by_contra hneither
    obtain ⟨hsome, hnot⟩ := not_or.mp hneither
    obtain ⟨others, hsame, hdiffer⟩ := material_shared hsome hnot
    exact hdiffer (h others hsame)
  · rintro (rfl | hplain) others hsame
    · cases others with
      | nil => rfl
      | cons other rest => simp [material] at hsame
    · exact material_plain hplain hsame

/-- The receipts of the scans of all files carry their hash. -/
theorem receipts_hash (t : Tables) (armor : ModelArmorScanner) (files : List SkillFile) :
    ∀ receipt ∈ (scanSkillFiles t armor files).take 3, receipt.contentHash = contentHash t.sha256 files := by
  have hlicense : (licenseReceipt t files (contentHash t.sha256 files)).contentHash = contentHash t.sha256 files := by
    unfold licenseReceipt
    dsimp only
    repeat' split
    all_goals rfl
  intro receipt hreceipt
  simp only [scanSkillFiles, List.take_succ_cons, List.take_zero, List.mem_cons, List.not_mem_nil, or_false] at hreceipt
  rcases hreceipt with rfl | rfl | rfl
  · rfl
  · rfl
  · exact hlicense

def oneFile : List SkillFile := [⟨"SKILL.md".toList, "x".toUTF8, .promptEligible⟩]

def oneFileHash : String := "6886217c4c6a71618c69fb0636a57919b39f8b8390dc5f32ab18f321b4679582"

/-- The hash of what is hashed of that file, and a label of any other bytes -/
def fileHash (bytes : ByteArray) : String :=
  if bytes = (material oneFile).toByteArray then oneFileHash
  else String.ofList ('x' :: bytes.data.toList.map (fun b => Char.ofNat b.toNat))

theorem fileHash_injective : Function.Injective fileHash := by
  have hchar : Function.Injective (fun b : UInt8 => Char.ofNat b.toNat) := by
    intro a b h
    have hvalid : ∀ n < 256, (Char.ofNat n).toNat = n := by decide +kernel
    have hvalue := congrArg Char.toNat h
    simp only [hvalid _ a.toNat_lt, hvalid _ b.toNat_lt] at hvalue
    exact UInt8.toNat_inj.mp hvalue
  have hdistinct : ∀ cs, oneFileHash ≠ String.ofList ('x' :: cs) := by
    intro cs h
    have hletters : oneFileHash.toList = 'x' :: cs := (congrArg String.toList h).trans String.toList_ofList
    have hhead : oneFileHash.toList.head? = some 'x' := congrArg List.head? hletters
    exact absurd hhead (by decide +kernel)
  intro a b h
  unfold fileHash at h
  split at h
  · rename_i ha
    split at h
    · rename_i hb
      exact ha.trans hb.symm
    · exact absurd h (hdistinct _)
  · split at h
    · exact absurd h.symm (hdistinct _)
    · have hbytes := (List.cons.inj (String.ofList_injective h)).2
      exact ByteArray.ext (Array.toList_inj.mp (hchar.list_map hbytes))

theorem one_file_bound :
    (∀ others, contentHash fileHash others = contentHash fileHash oneFile → bytesOf others = bytesOf oneFile) ↔
      oneFile = [] ∨ Plain oneFile :=
  contentHash_binds_iff fileHash fileHash_injective oneFile

/-- Two files and one that holds the null byte have one hash. -/
theorem files_share_hash :
    contentHash fileHash
        [⟨"SKILL.md".toList, "x".toUTF8, .promptEligible⟩, ⟨"a.md".toList, "y".toUTF8, .promptEligible⟩] =
      contentHash fileHash [⟨"SKILL.md".toList, "xa.md\x00y".toUTF8, .promptEligible⟩] ∧
    bytesOf [⟨"SKILL.md".toList, "x".toUTF8, .promptEligible⟩, ⟨"a.md".toList, "y".toUTF8, .promptEligible⟩] ≠
      bytesOf [⟨"SKILL.md".toList, "xa.md\x00y".toUTF8, .promptEligible⟩] := by
  refine ⟨congrArg (fun bytes => "sha256:" ++ fileHash bytes) (by decide +kernel), by decide +kernel⟩

end Hash

end Solvan.Skills.Receipts

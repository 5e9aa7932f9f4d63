import Mathlib
import Solvan.Base.Json.Rigid
import Solvan.Repair.Transform

/-! The serialised form of a transform, and the parser of its one closed shape. -/
namespace Solvan.Repair

open Json

def OperationKind.value : OperationKind → String
  | .create => "CREATE"
  | .replace => "REPLACE"
  | .delete => "DELETE"

/-- The kind that a text names, if any. -/
def OperationKind.named (kind : String) : Option OperationKind :=
  [OperationKind.create, .replace, .delete].find? (fun known => known.value == kind)

/-- A text, or null for none -/
def optionalText (value : Option String) : Json := (value.map Json.str).getD .null

/-- `TransformOperation.canonical_dict` -/
def OperationFields.canonicalFields (op : OperationFields) : List (String × Json) :=
  [("kind", .str op.kind.value), ("path", .str op.path), ("expected_base_hash", optionalText op.expectedBaseHash),
    ("expected_base_mode", optionalText op.expectedBaseMode), ("result_hash", optionalText op.resultHash),
    ("result_mode", optionalText op.resultMode), ("content_base64", optionalText op.contentBase64)]

section Transform

variable {lib : Library}

/-- `CanonicalPatchTransform.canonical_dict` -/
def TransformFields.canonicalFields (transform : TransformFields lib) : List (String × Json) :=
  [("schema_version", .int 1), ("transform_version", .str transform.version),
    ("base_commit_sha", .str transform.baseCommitSha), ("base_tree_hash", .str transform.baseTreeHash),
    ("proposed_tree_hash", .str transform.proposedTreeHash),
    ("operations", .arr (transform.operations.map (fun op => .obj op.val.canonicalFields)))]

def TransformFields.canonicalDict (transform : TransformFields lib) : Json := .obj transform.canonicalFields

end Transform

/-- `frozenset(fields) == keys` -/
def hasKeys (fields : List (String × Json)) (keys : List String) : Bool :=
  fields.all (fun f => keys.contains f.1) && keys.all (fun key => (fields.lookup key).isSome)

/-- `_string` -/
def stringField (fields : List (String × Json)) (key : String) : Except String String :=
  match fields.lookup key with
  | some (.str s) => .ok s
  | _ => .error ("patch transform " ++ key ++ " is invalid")

/-- `_optional_string` -/
def optionalStringField (fields : List (String × Json)) (key : String) : Except String (Option String) :=
  match fields.lookup key with
  | none | some .null => .ok none
  | some (.str s) => .ok (some s)
  | _ => .error ("patch transform " ++ key ++ " is invalid")

def operationKeys : List String :=
  ["kind", "path", "expected_base_hash", "expected_base_mode", "result_hash", "result_mode", "content_base64"]

def documentKeys : List String :=
  ["schema_version", "transform_version", "base_commit_sha", "base_tree_hash", "proposed_tree_hash", "operations"]

/-- `TransformOperation` of a kind that is still a text -/
def operationOf (lib : Library) (kind : String) (op : OperationFields) : Except String (TransformOperation lib) :=
  match OperationKind.named kind with
  | none => do
    validatePath lib op.path true
    throw "transform operation kind is not closed"
  | some known => Repair.construct (OperationFields.postInit lib) { op with kind := known }

/-- The loop body of `parse_patch_transform` -/
def parseOperation (lib : Library) (item : Json) : Except String (TransformOperation lib) :=
  match item with
  | .obj fields =>
    if hasKeys fields operationKeys then do
      let kind ← stringField fields "kind"
      let path ← stringField fields "path"
      let expectedBaseHash ← optionalStringField fields "expected_base_hash"
      let expectedBaseMode ← optionalStringField fields "expected_base_mode"
      let resultHash ← optionalStringField fields "result_hash"
      let resultMode ← optionalStringField fields "result_mode"
      let contentBase64 ← optionalStringField fields "content_base64"
      operationOf lib kind
        ⟨.create, path, expectedBaseHash, expectedBaseMode, resultHash, resultMode, contentBase64⟩
    else .error "patch transform operation shape is invalid"
  | _ => .error "patch transform operation shape is invalid"

/-- The loop of `parse_patch_transform` -/
def parseOperations (lib : Library) : List Json → Except String (List (TransformOperation lib))
  | [] => .ok []
  | item :: items => do
    let operation ← parseOperation lib item
    let operations ← parseOperations lib items
    return operation :: operations

/-- `parse_patch_transform` -/
def parsePatchTransform (lib : Library) (value : Json) : Except String (CanonicalPatchTransform lib) :=
  match value with
  | .obj fields =>
    if hasKeys fields documentKeys then
      match fields.lookup "operations", (fields.lookup "schema_version").any (fun version => equal version (.int 1)) with
      | some (.arr operations), true => do
        let parsed ← parseOperations lib operations
        let version ← stringField fields "transform_version"
        let baseCommitSha ← stringField fields "base_commit_sha"
        let baseTreeHash ← stringField fields "base_tree_hash"
        let proposedTreeHash ← stringField fields "proposed_tree_hash"
        Repair.construct (TransformFields.postInit lib)
          ⟨version, baseCommitSha, baseTreeHash, proposedTreeHash, parsed⟩
      | _, _ => .error "patch transform document version is invalid"
    else .error "patch transform document shape is invalid"
  | _ => .error "patch transform document shape is invalid"

section Fields

variable {fields : List (String × Json)} {key s : String} {value : Option String}

theorem stringField_ok : stringField fields key = .ok s ↔ fields.lookup key = some (.str s) := by
  unfold stringField
  split
  · rename_i t ht
    simp [ht]
  · rename_i hnot
    exact ⟨nofun, fun h => absurd h (hnot s)⟩

theorem optionalStringField_ok (hthere : (fields.lookup key).isSome = true) :
    optionalStringField fields key = .ok value ↔ fields.lookup key = some (optionalText value) := by
  unfold optionalStringField optionalText
  split
  · rename_i hnone
    rw [hnone] at hthere
    cases hthere
  · rename_i hnull
    rw [hnull]
    cases value <;> simp
  · rename_i t ht
    rw [ht]
    cases value <;> simp [eq_comm]
  · rename_i hnull hnot
    refine ⟨nofun, fun h => ?_⟩
    cases value with
    | none => exact absurd h hnull
    | some t => exact absurd h (hnot t)

/-- Distinct keys that are those of a list are as many. -/
theorem hasKeys_length {keys : List String} (hkeys : keys.Nodup) (hdistinct : (fields.map Prod.fst).Nodup)
    (h : hasKeys fields keys = true) : fields.length = keys.length := by
  simp only [hasKeys, Bool.and_eq_true, List.all_eq_true, List.contains_iff_mem] at h
  have hperm : (fields.map Prod.fst).Perm keys := by
    refine (List.perm_ext_iff_of_nodup hdistinct hkeys).mpr (fun key => ⟨fun hmem => ?_, fun hmem => ?_⟩)
    · obtain ⟨f, hf, rfl⟩ := List.mem_map.mp hmem
      exact h.1 f hf
    · obtain ⟨value, hvalue⟩ := Option.isSome_iff_exists.mp (h.2 key hmem)
      exact List.mem_map_of_mem (lookup_mem hvalue)
  rw [← hperm.length_eq, List.length_map]

theorem hasKeys_lookup {keys : List String} (h : hasKeys fields keys = true) (hkey : key ∈ keys) :
    (fields.lookup key).isSome = true := by
  simp only [hasKeys, Bool.and_eq_true, List.all_eq_true] at h
  exact h.2 key hkey

end Fields

section RoundTrip

variable {lib : Library} {d item : Json} {doubles : Decimal → Prop}

theorem named_value (kind : OperationKind) : OperationKind.named kind.value = some kind := by
  cases kind <;> decide

theorem value_named {kind : OperationKind} {text : String} (h : OperationKind.named text = some kind) :
    kind.value = text := by
  simpa using List.find?_some h

/-- What is serialised of an operation is parsed back. -/
theorem parseOperation_canonical (op : TransformOperation lib) :
    parseOperation lib (.obj op.val.canonicalFields) = .ok op := by
  have hoptional : ∀ key value, op.val.canonicalFields.lookup key = some (optionalText value) →
      optionalStringField op.val.canonicalFields key = .ok value := fun key value h =>
    (optionalStringField_ok (by rw [h]; rfl)).mpr h
  unfold parseOperation
  dsimp only
  rw [if_pos (by rfl)]
  simp only [stringField_ok.mpr (show op.val.canonicalFields.lookup "kind" = some (.str op.val.kind.value) from rfl),
    stringField_ok.mpr (show op.val.canonicalFields.lookup "path" = some (.str op.val.path) from rfl),
    hoptional "expected_base_hash" op.val.expectedBaseHash rfl,
    hoptional "expected_base_mode" op.val.expectedBaseMode rfl, hoptional "result_hash" op.val.resultHash rfl,
    hoptional "result_mode" op.val.resultMode rfl, hoptional "content_base64" op.val.contentBase64 rfl]
  show operationOf lib op.val.kind.value { op.val with kind := .create } = .ok op
  unfold operationOf
  rw [named_value]
  exact construct_self op

theorem parseOperations_canonical (ops : List (TransformOperation lib)) :
    parseOperations lib (ops.map (fun op => .obj op.val.canonicalFields)) = .ok ops := by
  induction ops with
  | nil => rfl
  | cons op ops ih =>
    rw [List.map_cons, parseOperations, parseOperation_canonical, ih]
    rfl

/-- What an operation is parsed from is its serialised form. -/
theorem parseOperation_same (hloaded : Loaded doubles item) {op : TransformOperation lib}
    (h : parseOperation lib item = .ok op) : Same (.obj op.val.canonicalFields) item := by
  unfold parseOperation at h
  split at h
  · rename_i fields
    split at h
    · rename_i hkeys
      obtain ⟨kind, hkind, h⟩ := bind_ok.mp h
      obtain ⟨path, hpath, h⟩ := bind_ok.mp h
      obtain ⟨expectedBaseHash, hbaseHash, h⟩ := bind_ok.mp h
      obtain ⟨expectedBaseMode, hbaseMode, h⟩ := bind_ok.mp h
      obtain ⟨resultHash, hresultHash, h⟩ := bind_ok.mp h
      obtain ⟨resultMode, hresultMode, h⟩ := bind_ok.mp h
      obtain ⟨contentBase64, hcontent, h⟩ := bind_ok.mp h
      unfold operationOf at h
      split at h
      · obtain ⟨_, -, h⟩ := bind_ok.mp h
        cases h
      · rename_i known hknown
        have hop : op.val = ⟨known, path, expectedBaseHash, expectedBaseMode, resultHash, resultMode, contentBase64⟩ :=
          construct_ok h
        have hoptional : ∀ key ∈ operationKeys, ∀ value, optionalStringField fields key = .ok value →
            fields.lookup key = some (optionalText value) := fun key hkey value hvalue =>
          (optionalStringField_ok (hasKeys_lookup hkeys hkey)).mp hvalue
        cases hloaded with
        | obj hdistinct _ =>
          have hlength := hasKeys_length (by decide) hdistinct hkeys
          rw [hop]
          refine same_obj (show operationKeys.Nodup by decide) (show operationKeys.length = _ from hlength.symm)
            (fun f hf => ?_)
          simp only [OperationFields.canonicalFields, List.mem_cons, List.not_mem_nil, or_false] at hf
          rcases hf with rfl | rfl | rfl | rfl | rfl | rfl | rfl
          · exact ⟨_, stringField_ok.mp hkind, by rw [value_named hknown]; rfl⟩
          · exact ⟨_, stringField_ok.mp hpath, rfl⟩
          · exact ⟨_, hoptional "expected_base_hash" (by decide) _ hbaseHash, rfl⟩
          · exact ⟨_, hoptional "expected_base_mode" (by decide) _ hbaseMode, rfl⟩
          · exact ⟨_, hoptional "result_hash" (by decide) _ hresultHash, rfl⟩
          · exact ⟨_, hoptional "result_mode" (by decide) _ hresultMode, rfl⟩
          · exact ⟨_, hoptional "content_base64" (by decide) _ hcontent, rfl⟩
    · cases h
  · cases h

theorem parseOperations_same {items : List Json} (hloaded : ∀ item ∈ items, Loaded doubles item)
    {ops : List (TransformOperation lib)} (h : parseOperations lib items = .ok ops) :
    Same (.arr (ops.map (fun op => .obj op.val.canonicalFields))) (.arr items) := by
  rw [same_arr]
  induction items generalizing ops with
  | nil =>
    obtain rfl := Except.ok.inj h
    exact .nil
  | cons item items ih =>
    obtain ⟨op, hop, h⟩ := bind_ok.mp h
    obtain ⟨rest, hrest, h⟩ := bind_ok.mp h
    obtain rfl := Except.ok.inj h
    obtain ⟨hitem, hitems⟩ := List.forall_mem_cons.mp hloaded
    exact .cons (parseOperation_same hitem hop) (ih hitems hrest)

/-- The version of a document, if it is one. -/
def schemaVersion : Json → Option Json
  | .obj fields => fields.lookup "schema_version"
  | _ => none

/-- What is serialised of a transform is parsed back under any version that equals the integer. -/
theorem parse_versioned {version : Json} (hversion : equal version (.int 1) = true) (t : CanonicalPatchTransform lib) :
    parsePatchTransform lib (.obj (("schema_version", version) :: t.val.canonicalFields.tail)) = .ok t := by
  unfold parsePatchTransform
  generalize hfields : ("schema_version", version) :: t.val.canonicalFields.tail = fields
  have hshape : hasKeys fields documentKeys = true := by
    rw [← hfields]
    rfl
  have hany : (fields.lookup "schema_version").any (fun version => equal version (.int 1)) = true := by
    rw [← hfields]
    exact hversion
  have hoperations : fields.lookup "operations" =
      some (.arr (t.val.operations.map (fun op => .obj op.val.canonicalFields))) := by
    rw [← hfields]
    rfl
  have hstring : ∀ key text, t.val.canonicalFields.tail.lookup key = some (.str text) → key ≠ "schema_version" →
      stringField fields key = .ok text := by
    intro key text hlookup hkey
    rw [stringField_ok, ← hfields, List.lookup_cons, show (key == "schema_version") = false by simpa using hkey]
    exact hlookup
  dsimp only
  rw [if_pos hshape, hoperations, hany]
  simp only [parseOperations_canonical, hstring "transform_version" t.val.version rfl (by decide),
    hstring "base_commit_sha" t.val.baseCommitSha rfl (by decide),
    hstring "base_tree_hash" t.val.baseTreeHash rfl (by decide),
    hstring "proposed_tree_hash" t.val.proposedTreeHash rfl (by decide)]
  exact construct_self t

theorem parse_canonicalDict (t : CanonicalPatchTransform lib) : parsePatchTransform lib t.val.canonicalDict = .ok t :=
  parse_versioned ((equal_iff rfl).mpr ⟨_, rfl, rfl⟩) t

theorem loaded_optionalText (value : Option String) : Loaded doubles (optionalText value) := by
  cases value
  · exact .null
  · exact .str _

theorem loaded_operation (op : OperationFields) : Loaded doubles (.obj op.canonicalFields) := by
  refine .obj (show operationKeys.Nodup by decide) (fun f hf => ?_)
  simp only [OperationFields.canonicalFields, List.mem_cons, List.not_mem_nil, or_false] at hf
  rcases hf with rfl | rfl | rfl | rfl | rfl | rfl | rfl
  · exact .str _
  · exact .str _
  all_goals exact loaded_optionalText _

theorem loaded_versioned {version : Json} (hversion : Loaded doubles version) (t : TransformFields lib) :
    Loaded doubles (.obj (("schema_version", version) :: t.canonicalFields.tail)) := by
  refine .obj (show documentKeys.Nodup by decide) (fun f hf => ?_)
  simp only [TransformFields.canonicalFields, List.tail_cons, List.mem_cons, List.not_mem_nil, or_false] at hf
  rcases hf with rfl | rfl | rfl | rfl | rfl | rfl
  · exact hversion
  · exact .str _
  · exact .str _
  · exact .str _
  · exact .str _
  · refine .arr (fun item hitem => ?_)
    obtain ⟨op, -, rfl⟩ := List.mem_map.mp hitem
    exact loaded_operation op.val

/-- A document is what its transform is serialised as if and only if its version is the integer. -/
theorem canonicalDict_same_iff (hloaded : Loaded doubles d) {t : CanonicalPatchTransform lib}
    (h : parsePatchTransform lib d = .ok t) :
    Same t.val.canonicalDict d ↔ schemaVersion d = some (.int 1) := by
  unfold parsePatchTransform at h
  split at h
  · rename_i fields
    split at h
    · rename_i hkeys
      split at h
      · rename_i operations hoperations hversion
        obtain ⟨parsed, hparsed, h⟩ := bind_ok.mp h
        obtain ⟨version, htransform, h⟩ := bind_ok.mp h
        obtain ⟨baseCommitSha, hcommit, h⟩ := bind_ok.mp h
        obtain ⟨baseTreeHash, hbase, h⟩ := bind_ok.mp h
        obtain ⟨proposedTreeHash, hproposed, h⟩ := bind_ok.mp h
        have ht : t.val = ⟨version, baseCommitSha, baseTreeHash, proposedTreeHash, parsed⟩ := construct_ok h
        cases hloaded with
        | obj hdistinct hvalues =>
          have hlength := hasKeys_length (by decide) hdistinct hkeys
          have hitems : ∀ item ∈ operations, Loaded doubles item := by
            cases hvalues _ (lookup_mem hoperations) with
            | arr hitems => exact hitems
          rw [ht]
          constructor
          · intro hsame
            obtain ⟨found, hfound, hone⟩ := hsame.lookup hdistinct (k := "schema_version") (a := .int 1) rfl
            exact hfound.trans (congrArg some (same_int hone))
          · intro hone
            refine same_obj (show documentKeys.Nodup by decide) (show documentKeys.length = _ from hlength.symm)
              (fun f hf => ?_)
            simp only [TransformFields.canonicalFields, List.mem_cons, List.not_mem_nil, or_false] at hf
            rcases hf with rfl | rfl | rfl | rfl | rfl | rfl
            · exact ⟨_, hone, rfl⟩
            · exact ⟨_, stringField_ok.mp htransform, rfl⟩
            · exact ⟨_, stringField_ok.mp hcommit, rfl⟩
            · exact ⟨_, stringField_ok.mp hbase, rfl⟩
            · exact ⟨_, stringField_ok.mp hproposed, rfl⟩
            · exact ⟨_, hoperations, parseOperations_same hitems hparsed⟩
      · cases h
    · cases h
  · cases h

/-- The parser inverts the serialiser; the serialiser inverts the parser on a document if and only if its version
is the integer. -/
theorem parse_inverse_iff (lib : Library) (doubles : Decimal → Prop) :
    (∀ t : CanonicalPatchTransform lib, parsePatchTransform lib t.val.canonicalDict = .ok t) ∧
    ∀ (d : Json) (t : CanonicalPatchTransform lib), Loaded doubles d → parsePatchTransform lib d = .ok t →
      (Same t.val.canonicalDict d ∧ lib.canonicalSha256 t.val.canonicalDict = lib.canonicalSha256 d ↔
        schemaVersion d = some (.int 1)) := by
  refine ⟨parse_canonicalDict, fun d t hloaded h => ?_⟩
  rw [← canonicalDict_same_iff hloaded h]
  refine ⟨And.left, fun hsame => ⟨hsame, ?_⟩⟩
  unfold Library.canonicalSha256 Domain.canonicalJsonHash Domain.canonicalJson
  rw [dumps_eq_iff.mpr hsame]

end RoundTrip

def deletedHash : String := "sha256:01d09d19c2139a46aebfb577780d123d7396e97201bc7ead210a2ebff8239dee"

def wholeHash : String := "sha256:cae662172fd450bb0cd710a769079c05bfc5d8e35efa6576edc7d0377afdd4a2"

/-- A document that deletes a file, with a version. -/
def deletionDocument (version : Json) : Json :=
  .obj [("schema_version", version), ("transform_version", .str transformVersion),
    ("base_commit_sha", .str "0000000000000000000000000000000000000000"), ("base_tree_hash", .str wholeHash),
    ("proposed_tree_hash", .str wholeHash),
    ("operations", .arr [.obj [("kind", .str "DELETE"), ("path", .str "src/app.py"),
      ("expected_base_hash", .str deletedHash), ("expected_base_mode", .str "100644"), ("result_hash", .null),
      ("result_mode", .null), ("content_base64", .null)]])]

/-- The library on the texts of the two documents below. -/
def deletionLibrary : Library where
  nfc := id
  casefold := fun s => String.ofList (s.toList.map Char.toLower)
  sha256 := fun value =>
    if value = Domain.canonicalJson (deletionDocument (.int 1)) then
      "f845cf46c92a4a32f93647228f3baebafd66c5445718b9e3f136e14170512bbc"
    else if value = Domain.canonicalJson (deletionDocument (.bool true)) then
      "c52e765a3e6fe9248d599e039996736b0fc8bcd782c580cba4fc677a13a00e09"
    else ""

def deletion : CanonicalPatchTransform deletionLibrary :=
  ⟨⟨transformVersion, "0000000000000000000000000000000000000000", wholeHash, wholeHash,
    [⟨⟨.delete, "src/app.py", some deletedHash, some "100644", none, none, none⟩, by decide +kernel⟩]⟩,
    by decide +kernel⟩

theorem deletion_inverse :
    Same deletion.val.canonicalDict (deletionDocument (.int 1)) ∧
      deletionLibrary.canonicalSha256 deletion.val.canonicalDict =
        deletionLibrary.canonicalSha256 (deletionDocument (.int 1)) :=
  ((parse_inverse_iff deletionLibrary (fun _ => True)).2 (deletionDocument (.int 1)) deletion
    (loaded_versioned (.int 1) deletion.val) (parse_canonicalDict deletion)).mpr rfl

/-- A document whose version is the boolean is accepted, and is not what its transform is serialised as. -/
theorem boolean_version_accepted :
    Loaded (fun _ => True) (deletionDocument (.bool true)) ∧
      parsePatchTransform deletionLibrary (deletionDocument (.bool true)) = .ok deletion ∧
      ¬Same deletion.val.canonicalDict (deletionDocument (.bool true)) ∧
      deletionLibrary.canonicalSha256 deletion.val.canonicalDict ≠
        deletionLibrary.canonicalSha256 (deletionDocument (.bool true)) := by
  have hloaded : Loaded (fun _ => True) (deletionDocument (.bool true)) := loaded_versioned (.bool true) deletion.val
  have hparse : parsePatchTransform deletionLibrary (deletionDocument (.bool true)) = .ok deletion :=
    parse_versioned ((equal_iff rfl).mpr ⟨_, rfl, rfl⟩) deletion
  have hnot : ¬Same deletion.val.canonicalDict (deletionDocument (.bool true)) := fun hsame =>
    nomatch (canonicalDict_same_iff hloaded hparse).mp hsame
  have htext : Domain.canonicalJson (deletionDocument (.bool true)) ≠
      Domain.canonicalJson (deletionDocument (.int 1)) := by
    intro heq
    unfold Domain.canonicalJson at heq
    rw [String.toUTF8_eq_toByteArray, String.toUTF8_eq_toByteArray, String.toByteArray_inj] at heq
    exact hnot (dumps_eq_iff.mp heq.symm)
  have hdocument : deletion.val.canonicalDict = deletionDocument (.int 1) := rfl
  have hhash : ∀ value, deletionLibrary.canonicalSha256 value = "sha256:" ++
      if Domain.canonicalJson value = Domain.canonicalJson (deletionDocument (.int 1)) then
        "f845cf46c92a4a32f93647228f3baebafd66c5445718b9e3f136e14170512bbc"
      else if Domain.canonicalJson value = Domain.canonicalJson (deletionDocument (.bool true)) then
        "c52e765a3e6fe9248d599e039996736b0fc8bcd782c580cba4fc677a13a00e09"
      else "" := fun _ => rfl
  refine ⟨hloaded, hparse, hnot, fun heq => ?_⟩
  rw [hdocument, hhash, hhash, if_pos rfl, if_neg htext, if_pos rfl] at heq
  exact absurd heq (by decide +kernel)

end Solvan.Repair

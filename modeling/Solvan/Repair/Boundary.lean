import Solvan.Base.Split
import Solvan.Repair.Transform

/-! Where the paths of patches and candidates lead. -/
namespace Solvan.Repair

variable {lib : Library} {path : String}

/-- `path.split("/")` -/
def components (path : String) : List String := (path.toList.splitOn '/').map String.ofList

/-- The areas no repair may touch. -/
def reservedAreas : List String := [".git", ".github", "infra", "deploy", "iam", "policy"]

/-- One component of a relative path, from the place reached so far. -/
def descend (place : List String) (part : String) : List String :=
  if part = "" ∨ part = "." then place
  else if part = ".." ∧ place ≠ [] ∧ place.getLast? ≠ some ".." then place.dropLast
  else place ++ [part]

/-- The place a relative path denotes. -/
def location (path : String) : List String := (components path).foldl descend []

/-- A path in normal form, to a place outside the reserved areas. -/
structure Contained (path : String) : Prop where
  normal : ∀ part ∈ components path, part ≠ "" ∧ part ≠ "." ∧ part ≠ ".."
  outside : ∀ area ∈ reservedAreas, ¬[area] <+: location path

/-- A path that an operation of a transform or a file of a candidate may have. -/
def Accepted (lib : Library) (path : String) : Prop :=
  (∃ op : TransformOperation lib, op.val.path = path) ∨
    ∃ tree : CandidateTree lib, path ∈ tree.files.map CandidateFile.path

/-- A spelling with a slash or a dot too many: `.`, `./…`, `…/.`, `…/`, `…//…` or `…/./…`. -/
def Redundant (path : String) : Prop :=
  path = "." ∨ "./".toList <+: path.toList ∨ "/.".toList <:+ path.toList ∨ "/".toList <:+ path.toList ∨
    "//".toList <:+: path.toList ∨ "/./".toList <:+: path.toList

instance (path : String) : Decidable (Redundant path) := by
  unfold Redundant
  infer_instance

/-- What both checks have in common. -/
structure Checked (path : String) : Prop where
  nonempty : path.toList ≠ []
  relative : path.toList.head? ≠ some '/'
  upward : ".." ∉ pathParts path
  unreserved : reserved path = false

theorem checked_of_parts (hempty : (path == "") = false) (hslash : startsWith path "/" = false)
    (hupward : (pathParts path).contains ".." = false) (hreserved : reserved path = false) : Checked path where
  nonempty hnil := by
    have heq : path = "" := String.toList_eq_nil_iff.mp hnil
    rw [heq] at hempty
    cases hempty
  relative hhead := by
    unfold startsWith at hslash
    obtain ⟨rest, hrest⟩ := List.head?_eq_some_iff.mp hhead
    rw [hrest] at hslash
    cases hslash
  upward hmem := by
    rw [List.contains_iff_mem.mpr hmem] at hupward
    cases hupward
  unreserved := hreserved

theorem checked_operation (op : TransformOperation lib) : Checked op.val.path := by
  obtain ⟨_, hpath, _⟩ := bind_ok.mp op.property
  have hchecks := require_ok.mp hpath
  simp only [Bool.not_eq_true', Bool.or_eq_false_iff, Bool.and_eq_false_iff, Bool.true_eq_false, false_or] at hchecks
  obtain ⟨⟨⟨⟨⟨⟨⟨⟨hempty, -⟩, hslash⟩, -⟩, -⟩, -⟩, hparts⟩, -⟩, ⟨-, -⟩, hreserved⟩ := hchecks
  refine checked_of_parts hempty hslash ?_ hreserved
  by_contra hupward
  have hmem : ".." ∈ pathParts op.val.path := by simpa using hupward
  have hpart := List.any_eq_false.mp hparts ".." hmem
  exact hpart (by decide)

theorem forM_ok {α : Type} {f : α → Except String Unit} {items : List α} (h : items.forM f = .ok ()) :
    ∀ a ∈ items, f a = .ok () := by
  induction items with
  | nil => exact fun _ ha => nomatch ha
  | cons a items ih =>
    have hcons : (f a >>= fun _ => items.forM f) = .ok () := h
    obtain ⟨_, ha, hitems⟩ := bind_ok.mp hcons
    exact List.forall_mem_cons.mpr ⟨ha, ih hitems⟩

theorem checked_file {tree : CandidateTree lib} {file : CandidateFile} (hfile : file ∈ tree.files) :
    Checked file.path := by
  obtain ⟨_, _, hvalid⟩ := bind_ok.mp tree.valid
  obtain ⟨_, hfiles, _⟩ := bind_ok.mp hvalid
  obtain ⟨_, hpath, _⟩ := bind_ok.mp (forM_ok hfiles file hfile)
  obtain ⟨_, _, hsafe⟩ := bind_ok.mp hpath
  have hchecks := require_ok.mp hsafe
  simp only [Bool.not_eq_true', Bool.or_eq_false_iff] at hchecks
  obtain ⟨⟨⟨⟨⟨hempty, hslash⟩, -⟩, hupward⟩, -⟩, hreserved⟩ := hchecks
  exact checked_of_parts hempty hslash hupward hreserved

theorem mem_components {part : String} : part ∈ components path ↔ part.toList ∈ path.toList.splitOn '/' := by
  unfold components
  rw [List.mem_map]
  constructor
  · rintro ⟨cs, hcs, rfl⟩
    rwa [String.toList_ofList]
  · exact fun h => ⟨_, h, String.ofList_toList⟩

/-- A path has an empty component exactly where two slashes meet or one ends it. -/
theorem empty_component (h : Checked path) : "" ∈ components path ↔
    "/".toList <:+ path.toList ∨ "//".toList <:+: path.toList := by
  have hslash : "/".toList = ['/'] := by rfl
  have hslashes : "//".toList = ['/', '/'] := by rfl
  rw [mem_components, Split.mem_splitOn, hslash, hslashes]
  constructor
  · rintro ⟨-, front, back, heq, hfront, hback⟩
    have heq : path.toList = front ++ back := by simpa using heq
    rcases hfront with rfl | ⟨before, rfl⟩
    · rcases hback with rfl | ⟨after, rfl⟩
      · exact absurd heq h.nonempty
      · exact absurd (congrArg List.head? heq) h.relative
    · rcases hback with rfl | ⟨after, rfl⟩
      · exact .inl ⟨before, by rw [heq, List.append_nil]⟩
      · exact .inr ⟨before, after, by rw [heq]; simp⟩
  · intro hends
    refine ⟨List.not_mem_nil, ?_⟩
    rcases hends with ⟨before, heq⟩ | ⟨before, after, heq⟩
    · exact ⟨before ++ ['/'], [], by simp [← heq], .inr ⟨before, rfl⟩, .inl rfl⟩
    · exact ⟨before ++ ['/'], '/' :: after, by simp [← heq], .inr ⟨before, rfl⟩, .inr ⟨after, rfl⟩⟩

/-- A path has a lone dot among its components exactly where one stands between
slashes or ends. -/
theorem dot_component : "." ∈ components path ↔ path = "." ∨ "./".toList <+: path.toList ∨
    "/.".toList <:+ path.toList ∨ "/./".toList <:+: path.toList := by
  have hdot : ".".toList = ['.'] := by rfl
  have hstart : "./".toList = ['.', '/'] := by rfl
  have hend : "/.".toList = ['/', '.'] := by rfl
  have hmiddle : "/./".toList = ['/', '.', '/'] := by rfl
  rw [mem_components, Split.mem_splitOn, hdot, hstart, hend, hmiddle, ← String.toList_inj, hdot]
  constructor
  · rintro ⟨-, front, back, heq, hfront, hback⟩
    rcases hfront with rfl | ⟨before, rfl⟩
    · rcases hback with rfl | ⟨after, rfl⟩
      · exact .inl heq
      · exact .inr (.inl ⟨after, by rw [heq]; rfl⟩)
    · rcases hback with rfl | ⟨after, rfl⟩
      · exact .inr (.inr (.inl ⟨before, by rw [heq]; simp⟩))
      · exact .inr (.inr (.inr ⟨before, after, by rw [heq]; simp⟩))
  · intro hends
    refine ⟨by decide, ?_⟩
    rcases hends with heq | ⟨after, heq⟩ | ⟨before, heq⟩ | ⟨before, after, heq⟩
    · exact ⟨[], [], by rw [heq]; rfl, .inl rfl, .inl rfl⟩
    · exact ⟨[], '/' :: after, by rw [← heq]; rfl, .inl rfl, .inr ⟨after, rfl⟩⟩
    · exact ⟨before ++ ['/'], [], by simp [← heq], .inr ⟨before, rfl⟩, .inl rfl⟩
    · exact ⟨before ++ ['/'], '/' :: after, by simp [← heq], .inr ⟨before, rfl⟩, .inr ⟨after, rfl⟩⟩

theorem redundant_iff (h : Checked path) : Redundant path ↔ "" ∈ components path ∨ "." ∈ components path := by
  rw [empty_component h, dot_component]
  unfold Redundant
  tauto

/-- Without redundant components, the place a path denotes is its components. -/
theorem location_normal (h : ∀ part ∈ components path, part ≠ "" ∧ part ≠ "." ∧ part ≠ "..") :
    location path = components path := by
  have hall : ∀ (parts place : List String), (∀ part ∈ parts, part ≠ "" ∧ part ≠ "." ∧ part ≠ "..") →
      parts.foldl descend place = place ++ parts := by
    intro parts
    induction parts with
    | nil => exact fun place _ => (List.append_nil place).symm
    | cons part parts ih =>
      intro place hparts
      obtain ⟨⟨hempty, hdot, hup⟩, hrest⟩ := List.forall_mem_cons.mp hparts
      have hstep : descend place part = place ++ [part] := by
        unfold descend
        rw [if_neg (by simp [hempty, hdot]), if_neg (by simp [hup])]
      rw [List.foldl_cons, hstep, ih _ hrest, List.append_assoc, List.singleton_append]
  exact hall _ _ h

/-- A path whose first component is an area is that area or below it. -/
theorem first_component {area : String} {rest : List String} (h : components path = area :: rest) :
    path = area ∨ startsWith path (area ++ "/") = true := by
  have hsplit : path.toList.splitOn '/' = area.toList :: rest.map String.toList := by
    have hmap := congrArg (List.map String.toList) h
    unfold components at hmap
    rw [List.map_map, List.map_cons] at hmap
    have hid : String.toList ∘ String.ofList = id := funext fun _ => String.toList_ofList
    rwa [hid, List.map_id] at hmap
  have hjoin : ['/'].intercalate (path.toList.splitOn '/') = path.toList := List.intercalate_splitOn '/'
  rw [hsplit] at hjoin
  cases rest with
  | nil =>
    have hsame : area.toList = path.toList := by simpa using hjoin
    exact .inl (String.toList_inj.mp hsame.symm)
  | cons next rest =>
    right
    rw [List.map_cons, List.intercalate_cons_cons] at hjoin
    have hslash : "/".toList = ['/'] := by rfl
    unfold startsWith
    rw [List.isPrefixOf_iff_prefix, ← hjoin, String.toList_append, hslash]
    exact List.prefix_append _ _

theorem reserved_area {area : String} (harea : area ∈ reservedAreas)
    (h : path = area ∨ startsWith path (area ++ "/") = true) : reserved path = true := by
  have hlisted : ∀ area ∈ reservedAreas, ∃ start ∈ forbiddenPrefixes,
      String.ofList (start.toList.rdropWhile (· == '/')) = area ∧ start = area ++ "/" := by decide
  obtain ⟨start, hstart, hbare, hslash⟩ := hlisted area harea
  refine List.any_eq_true.mpr ⟨start, hstart, ?_⟩
  rw [hbare, hslash, Bool.or_eq_true, beq_iff_eq]
  exact h

theorem Accepted.checked (h : Accepted lib path) : Checked path := by
  rcases h with ⟨op, rfl⟩ | ⟨tree, hpath⟩
  · exact checked_operation op
  · obtain ⟨file, hfile, rfl⟩ := List.mem_map.mp hpath
    exact checked_file hfile

/-- An accepted path is in normal form, and outside the reserved areas, unless its
spelling has a slash or a dot too many. -/
theorem accepted_contained_iff (h : Accepted lib path) : Contained path ↔ ¬Redundant path := by
  have hchecked := h.checked
  rw [redundant_iff hchecked]
  constructor
  · rintro ⟨hnormal, -⟩ (hempty | hdot)
    · exact (hnormal _ hempty).1 rfl
    · exact (hnormal _ hdot).2.1 rfl
  · intro hspelled
    have hnormal : ∀ part ∈ components path, part ≠ "" ∧ part ≠ "." ∧ part ≠ ".." := by
      intro part hpart
      refine ⟨fun heq => hspelled (.inl (heq ▸ hpart)), fun heq => hspelled (.inr (heq ▸ hpart)), ?_⟩
      rintro rfl
      refine hchecked.upward (List.mem_append_right _ (List.mem_filter.mpr ⟨hpart, by decide⟩))
    refine ⟨hnormal, fun area harea hbelow => ?_⟩
    rw [location_normal hnormal] at hbelow
    obtain ⟨rest, hrest⟩ := hbelow
    have hreserved := reserved_area harea (first_component hrest.symm)
    rw [hchecked.unreserved] at hreserved
    cases hreserved

section Example

def spelledLibrary : Library := ⟨id, id, fun _ => ""⟩

def spelledTree (path : String) (h : checkFiles spelledLibrary [⟨path, ""⟩] ["**"] = .ok ()) :
    CandidateTree spelledLibrary :=
  ⟨[⟨path, ""⟩], ["**"], h⟩

/-- A path that is spelled plainly. -/
theorem source_contained : Contained "src/app.py" :=
  (@accepted_contained_iff spelledLibrary _
    (.inr ⟨spelledTree "src/app.py" (by decide +kernel), List.mem_singleton_self _⟩)).mpr (by decide +kernel)

/-- A workflow can be written through another spelling of its path. -/
theorem workflow_uncontained :
    Accepted spelledLibrary "./.github/workflows/release.yml" ∧
      (∃ op : TransformOperation spelledLibrary, op.val.path = "./.github/workflows/release.yml") ∧
      ¬Contained "./.github/workflows/release.yml" ∧
      [".github"] <+: location "./.github/workflows/release.yml" := by
  refine ⟨.inr ⟨spelledTree _ (by decide +kernel), List.mem_singleton_self _⟩, ?_, ?_, by decide +kernel⟩
  · exact ⟨⟨⟨.delete, "./.github/workflows/release.yml",
      some ("sha256:" ++ String.ofList (List.replicate 64 '0')), some "100644", none, none, none⟩,
      by decide +kernel⟩, rfl⟩
  · intro hcontained
    exact hcontained.outside ".github" (by decide) (by decide +kernel)

end Example

end Solvan.Repair

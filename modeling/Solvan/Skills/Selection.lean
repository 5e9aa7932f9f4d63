import Solvan.Base.Checks
import Solvan.Base.Keyed
import Solvan.Base.Lines
import Solvan.Skills.Governance

/-! Which approved skills a reader is offered, and which a selector selects. -/
namespace Solvan.Skills.Selection
open Base

inductive Classification where
  | public_ | internal | confidential | restricted
deriving DecidableEq, Repr

/-- `_CLASSIFICATION_RANK` -/
def Classification.rank : Classification → Nat
  | .public_ => 0
  | .internal => 1
  | .confidential => 2
  | .restricted => 3

/-- A revision of `guidance_revisions`, as far as selection reads it. -/
structure Revision where
  revisionHash : String
  lifecycle : String
  guidanceKind : String
  purpose : String
  eligibleRegions : List String
  classification : Classification
  discoverableDepartments : List String
  description : String

structure Head where
  guidanceKey : String
  approvedVersion : Option String

structure Owner where
  retired : Bool

/-- A row of `skill_reader_grants` -/
structure ReaderGrant where
  principal : String
  ownerDepartment : String
  purpose : String
  region : String
  classificationCeiling : Classification
  expiresAt : Option Int

/-- The tables of one scope. Heads are in the order in which the queries return them. -/
structure Tables where
  heads : List Head
  revision : (guidanceKey version : String) → Option Revision
  owner : (ownerSlug : String) → Option Owner
  displayName : (guidanceKey : String) → String
  grants : List ReaderGrant
  distinct : (heads.map Head.guidanceKey).Nodup

/-- What the joins give of a head. -/
structure SkillRow where
  guidanceKey : String
  version : String
  ownerSlug : String
  owner : Owner
  revision : Revision

structure ParsedSkillSelector where
  ownerSlug : Option String
  skillName : String
  note : String
deriving DecidableEq, Repr

structure SkillSelectionCandidate where
  guidanceKey : String
  version : String
  revisionHash : String
  ownerSlug : String
deriving DecidableEq, Repr

structure SkillAutocompleteItem where
  selector : String
  guidanceKey : String
  version : String
  displayName : String
  description : String
deriving DecidableEq, Repr

/-- `split_part(value, '.', n)` -/
def splitPart (value : String) (n : Nat) : String :=
  String.ofList ((value.toList.splitOn '.').getD (n - 1) [])

/-- `_canonical_skill_key` -/
def canonicalSkillKey (guidanceKey : String) : Option (String × String) :=
  match guidanceKey.toList.splitOn '.' with
  | [owner, name] =>
    if isSkillName owner && isSkillName name then some (String.ofList owner, String.ofList name) else none
  | _ => none

/-- `f"{owner}/{name}"` -/
def qualified (owner name : String) : String := owner ++ "/" ++ name

/-- `parse_skill_selector` -/
def parseSkillSelector (text : String) : Except String ParsedSkillSelector :=
  let value := Words.unwords ' ' (Words.words isSpace text.toList)
  if 2322 < value.length then .error "GUIDANCE_SELECTOR_INVALID"
  else
    match value with
    | '/' :: rest =>
      let note := String.ofList ((rest.dropWhile (· != ' ')).drop 1)
      match (rest.takeWhile (· != ' ')).splitOn '/' with
      | [name] =>
        if !isSkillName name then .error "GUIDANCE_SELECTOR_INVALID"
        else if 2000 < note.length then .error "GUIDANCE_NOTE_TOO_LONG"
        else .ok ⟨none, String.ofList name, note⟩
      | [owner, name] =>
        if !(isSkillName owner && isSkillName name) then .error "GUIDANCE_SELECTOR_INVALID"
        else if 2000 < note.length then .error "GUIDANCE_NOTE_TOO_LONG"
        else .ok ⟨some (String.ofList owner), String.ofList name, note⟩
      | _ => .error "GUIDANCE_SELECTOR_INVALID"
    | _ => .error "GUIDANCE_SELECTOR_INVALID"

namespace Tables

variable (t : Tables)

/-- What both queries join to a head, before what each of them asks for. -/
def joined (region : String) (head : Head) : Option SkillRow := do
  let version ← head.approvedVersion
  let revision ← t.revision head.guidanceKey version
  let owner ← t.owner (splitPart head.guidanceKey 1)
  if revision.lifecycle = "APPROVED" ∧ revision.guidanceKind = "SKILL" ∧ region ∈ revision.eligibleRegions ∧
      owner.retired = false ∧ splitPart head.guidanceKey 3 = "" then
    some ⟨head.guidanceKey, version, splitPart head.guidanceKey 1, owner, revision⟩
  else none

def approved (region : String) : List SkillRow := t.heads.filterMap (t.joined region)

/-- The grants of a reader that have not expired. -/
def activeGrants (principal region : String) (now : Int) : List ReaderGrant :=
  t.grants.filter fun grant => grant.principal == principal && grant.region == region &&
    grant.expiresAt.all (fun expires => decide (now < expires))

end Tables

/-- What a query for one purpose, ceiling and department asks of a row, and what is checked of it again. -/
def SkillRow.eligible (parsed : ParsedSkillSelector) (purpose : String) (ceiling : Classification)
    (departments : List String) (row : SkillRow) : Bool :=
  row.revision.purpose == purpose && decide (row.revision.classification.rank ≤ ceiling.rank) &&
    row.revision.discoverableDepartments.any departments.contains && splitPart row.guidanceKey 2 == parsed.skillName &&
    parsed.ownerSlug.all (row.ownerSlug == ·) && canonicalSkillKey row.guidanceKey == some (row.ownerSlug, parsed.skillName)

def SkillRow.candidate (row : SkillRow) : SkillSelectionCandidate :=
  ⟨row.guidanceKey, row.version, row.revision.revisionHash, row.ownerSlug⟩

/-- `_eligible_rows` -/
def eligibleRows (t : Tables) (parsed : ParsedSkillSelector) (region purpose : String) (ceiling : Classification)
    (departments : List String) : List SkillRow :=
  (t.approved region).filter (SkillRow.eligible parsed purpose ceiling departments)

/-- `resolve_for_principal` -/
def resolveForPrincipal (t : Tables) (principal command region : String) (now : Int) :
    Except String (ParsedSkillSelector × SkillSelectionCandidate) := do
  let parsed ← parseSkillSelector command
  let grants := t.activeGrants principal region now
  if grants.isEmpty then .error "GUIDANCE_READER_GRANT_REQUIRED"
  else
    let rows := grants.flatMap fun grant =>
      eligibleRows t parsed region grant.purpose grant.classificationCeiling [grant.ownerDepartment]
    match Keyed.dict SkillSelectionCandidate.guidanceKey (rows.map SkillRow.candidate) with
    | [] => .error "GUIDANCE_NOT_ELIGIBLE"
    | [candidate] => .ok (parsed, candidate)
    | candidates => .error ("GUIDANCE_SELECTOR_AMBIGUOUS:" ++ ", ".intercalate
        ((candidates.map fun candidate => "/" ++ qualified candidate.ownerSlug parsed.skillName).insertionSort (· ≤ ·)))

/-- Whether a grant lets its reader see a row. -/
def ReaderGrant.covers (grant : ReaderGrant) (row : SkillRow) : Bool :=
  grant.purpose == row.revision.purpose && row.revision.discoverableDepartments.contains grant.ownerDepartment &&
    decide (row.revision.classification.rank ≤ grant.classificationCeiling.rank)

/-- The item of a row that is offered for a query. -/
def offer (lower : String → String) (t : Tables) (grants : List ReaderGrant) (query : String) (row : SkillRow) :
    Option SkillAutocompleteItem :=
  match canonicalSkillKey row.guidanceKey with
  | none => none
  | some (owner, name) =>
    if owner ≠ row.ownerSlug then none
    else if query ≠ "" ∧ ¬query.toList <:+: (qualified owner name).toList ∧
        ¬query.toList <:+: (lower (t.displayName row.guidanceKey)).toList then none
    else if !grants.any (·.covers row) then none
    else some ⟨"/" ++ qualified owner name, row.guidanceKey, row.version, t.displayName row.guidanceKey,
      row.revision.description⟩

/-- `query.strip().lower().lstrip("/")` -/
def normalized (lower : String → String) (query : String) : String :=
  String.ofList ((lower (String.ofList (strip query.toList))).toList.dropWhile (· == '/'))

/-- `autocomplete_for_principal` -/
def autocompleteForPrincipal (lower : String → String) (t : Tables) (principal region query : String)
    (limit : Int) (now : Int) : Except String (List SkillAutocompleteItem) :=
  if ¬(1 ≤ limit ∧ limit ≤ 50) then .error "GUIDANCE_AUTOCOMPLETE_LIMIT_INVALID"
  else
    let grants := t.activeGrants principal region now
    if grants.isEmpty then .ok []
    else
      let rows := (t.approved region).filter fun row => grants.any (·.covers row)
      .ok ((rows.filterMap (offer lower t grants (normalized lower query))).take limit.toNat)


/-- What a selector asks of a row. -/
def SkillRow.named (parsed : ParsedSkillSelector) (row : SkillRow) : Prop :=
  canonicalSkillKey row.guidanceKey = some (row.ownerSlug, parsed.skillName) ∧
    ∀ owner ∈ parsed.ownerSlug, row.ownerSlug = owner

/-- A row which one of a reader's grants lets it see. -/
def Tables.Readable (t : Tables) (principal region : String) (now : Int) (row : SkillRow) : Prop :=
  row ∈ t.approved region ∧ ∃ grant ∈ t.activeGrants principal region now, grant.covers row = true

/-- What a query of autocompletion asks of a row. -/
def SkillRow.matches (lower : String → String) (t : Tables) (query : String) (row : SkillRow) : Prop :=
  ∃ owner name, canonicalSkillKey row.guidanceKey = some (owner, name) ∧ owner = row.ownerSlug ∧
    (query = "" ∨ query.toList <:+: (qualified owner name).toList ∨
      query.toList <:+: (lower (t.displayName row.guidanceKey)).toList)

variable {t : Tables} {row row' : SkillRow} {parsed : ParsedSkillSelector} {grant : ReaderGrant}
  {principal region key : String} {now : Int}

theorem slug_apart {text : List Char} (h : isSkillName text = true) :
    '/' ∉ text ∧ '.' ∉ text ∧ ∀ c ∈ text, isSpace c = false := by
  refine ⟨skillName_free h _ (by decide), skillName_free h _ (by decide), fun c hc => ?_⟩
  have hrange := skillName_range h hc
  simp only [isSpace, List.contains_eq_mem, decide_eq_false_iff_not, List.mem_cons, List.not_mem_nil, or_false]
  omega

/-- The parts of two names and what stands between them. -/
theorem splitOn_pair {sep : Char} {first second : List Char} (hfirst : sep ∉ first) (hsecond : sep ∉ second) :
    (first ++ sep :: second).splitOn sep = [first, second] := by
  rw [List.splitOn_append_cons_self, List.splitOn_eq_singleton hfirst, List.splitOn_eq_singleton hsecond]
  rfl

theorem canonicalSkillKey_some {owner name : String} : canonicalSkillKey key = some (owner, name) ↔
    key.toList = owner.toList ++ '.' :: name.toList ∧ isSkillName owner.toList = true ∧
      isSkillName name.toList = true := by
  unfold canonicalSkillKey
  constructor
  · intro h
    split at h
    · rename_i first second hsplit
      split at h
      · rename_i hnames
        obtain ⟨rfl, rfl⟩ := Prod.mk.inj (Option.some.inj h)
        obtain ⟨hfirst, hsecond⟩ := Bool.and_eq_true_iff.mp hnames
        rw [String.toList_ofList, String.toList_ofList]
        refine ⟨?_, hfirst, hsecond⟩
        rw [← @List.intercalate_splitOn _ key.toList _ _ '.', hsplit]
        simp
      · cases h
    · cases h
  · rintro ⟨hkey, howner, hname⟩
    rw [hkey, splitOn_pair (slug_apart howner).2.1 (slug_apart hname).2.1]
    simp only [howner, hname, Bool.and_self, if_true, String.ofList_toList]

theorem canonicalSkillKey_inj {key' : String} {names : String × String} (h : canonicalSkillKey key = some names)
    (h' : canonicalSkillKey key' = some names) : key = key' := by
  obtain ⟨owner, name⟩ := names
  exact String.toList_injective ((canonicalSkillKey_some.mp h).1.trans (canonicalSkillKey_some.mp h').1.symm)

theorem splitPart_second {owner name : String} (h : canonicalSkillKey key = some (owner, name)) :
    splitPart key 2 = name := by
  obtain ⟨hkey, howner, hname⟩ := canonicalSkillKey_some.mp h
  rw [splitPart, hkey, splitOn_pair (slug_apart howner).2.1 (slug_apart hname).2.1]
  exact String.ofList_toList

/-- What a query for one grant returns. -/
theorem eligible_iff :
    row.eligible parsed grant.purpose grant.classificationCeiling [grant.ownerDepartment] = true ↔
      grant.covers row = true ∧ row.named parsed := by
  have hdepartment : row.revision.discoverableDepartments.any [grant.ownerDepartment].contains = true ↔
      row.revision.discoverableDepartments.contains grant.ownerDepartment = true := by
    simp [List.any_eq_true]
  have howner : parsed.ownerSlug.all (row.ownerSlug == ·) = true ↔ ∀ owner ∈ parsed.ownerSlug, row.ownerSlug = owner := by
    cases parsed.ownerSlug <;> simp
  simp only [SkillRow.eligible, ReaderGrant.covers, SkillRow.named, Bool.and_eq_true, hdepartment, howner, beq_iff_eq]
  constructor
  · rintro ⟨⟨⟨⟨⟨hpurpose, hceiling⟩, hseen⟩, -⟩, howner⟩, hkey⟩
    exact ⟨⟨⟨hpurpose.symm, hseen⟩, hceiling⟩, hkey, howner⟩
  · rintro ⟨⟨⟨hpurpose, hseen⟩, hceiling⟩, hkey, howner⟩
    exact ⟨⟨⟨⟨⟨hpurpose.symm, hceiling⟩, hseen⟩, splitPart_second hkey⟩, howner⟩, hkey⟩

theorem joined_key {head : Head} (h : t.joined region head = some row) : row.guidanceKey = head.guidanceKey := by
  obtain ⟨version, -, h⟩ := Option.bind_eq_some_iff.mp h
  obtain ⟨revision, -, h⟩ := Option.bind_eq_some_iff.mp h
  obtain ⟨owner, -, h⟩ := Option.bind_eq_some_iff.mp h
  split at h
  · rw [← Option.some.inj h]
  · cases h

/-- A key has one row. -/
theorem approved_unique (h : row ∈ t.approved region) (h' : row' ∈ t.approved region)
    (hkey : row.guidanceKey = row'.guidanceKey) : row = row' := by
  obtain ⟨head, hhead, hrow⟩ := List.mem_filterMap.mp h
  obtain ⟨head', hhead', hrow'⟩ := List.mem_filterMap.mp h'
  have hsame : head = head' := List.inj_on_of_nodup_map t.distinct hhead hhead'
    ((joined_key hrow).symm.trans (hkey.trans (joined_key hrow')))
  rw [hsame] at hrow
  exact Option.some.inj (hrow.symm.trans hrow')

theorem mem_eligibleRows : row ∈ (t.activeGrants principal region now).flatMap (fun grant =>
      eligibleRows t parsed region grant.purpose grant.classificationCeiling [grant.ownerDepartment]) ↔
    t.Readable principal region now row ∧ row.named parsed := by
  simp only [List.mem_flatMap, eligibleRows, List.mem_filter, eligible_iff, Tables.Readable]
  constructor
  · rintro ⟨grant, hgrant, happroved, hcovers, hnamed⟩
    exact ⟨⟨happroved, grant, hgrant, hcovers⟩, hnamed⟩
  · rintro ⟨⟨happroved, grant, hgrant, hcovers⟩, hnamed⟩
    exact ⟨grant, hgrant, happroved, hcovers, hnamed⟩

theorem resolveForPrincipal_ok {command : String} {candidate : SkillSelectionCandidate} :
    resolveForPrincipal t principal command region now = .ok (parsed, candidate) ↔
      parseSkillSelector command = .ok parsed ∧
        ∃ row, t.Readable principal region now row ∧ row.named parsed ∧ row.candidate = candidate ∧
          ∀ other, t.Readable principal region now other → other.named parsed → other.guidanceKey = row.guidanceKey := by
  rw [resolveForPrincipal, Checks.bind_ok]
  constructor
  · rintro ⟨parsed', hparse, h⟩
    dsimp only at h
    split at h
    · cases h
    · split at h
      · cases h
      · rename_i only hdict
        obtain ⟨rfl, rfl⟩ := Prod.mk.inj (Except.ok.inj h)
        obtain ⟨row, hrow, rfl⟩ := List.mem_map.mp (Keyed.mem_dict (hdict ▸ List.mem_singleton_self _))
        obtain ⟨hreadable, hnamed⟩ := mem_eligibleRows.mp hrow
        refine ⟨hparse, row, hreadable, hnamed, rfl, fun other hother hothernamed => ?_⟩
        have hkey := @Keyed.dict_keys _ _ _ SkillSelectionCandidate.guidanceKey _ other.candidate
          (List.mem_map_of_mem (mem_eligibleRows.mpr ⟨hother, hothernamed⟩))
        rw [hdict] at hkey
        exact List.mem_singleton.mp hkey
      · cases h
  · rintro ⟨hparse, row, hreadable, hnamed, rfl, honly⟩
    refine ⟨parsed, hparse, ?_⟩
    dsimp only
    have hgrants : (t.activeGrants principal region now).isEmpty = false := by
      obtain ⟨-, grant, hgrant, -⟩ := hreadable
      exact List.isEmpty_eq_false_iff.mpr (List.ne_nil_of_mem hgrant)
    have hsame : ∀ other ∈ ((t.activeGrants principal region now).flatMap (fun grant =>
        eligibleRows t parsed region grant.purpose grant.classificationCeiling [grant.ownerDepartment])).map
          SkillRow.candidate, other = row.candidate := by
      intro other hother
      obtain ⟨row', hrow', rfl⟩ := List.mem_map.mp hother
      obtain ⟨hreadable', hnamed'⟩ := mem_eligibleRows.mp hrow'
      rw [approved_unique hreadable'.1 hreadable.1 (honly row' hreadable' hnamed')]
    rw [hgrants, if_neg Bool.false_ne_true, Keyed.dict_single
      (List.mem_map_of_mem (mem_eligibleRows.mpr ⟨hreadable, hnamed⟩)) hsame]

/-- A qualified selector is read as the names it was made of. -/
theorem parse_qualified {owner name : String} (howner : isSkillName owner.toList = true)
    (hname : isSkillName name.toList = true) (hlength : ("/" ++ qualified owner name).length ≤ 2322) :
    parseSkillSelector ("/" ++ qualified owner name) = .ok ⟨some owner, name, ""⟩ := by
  obtain ⟨hslash, -, hsolid⟩ := slug_apart howner
  obtain ⟨hslash', -, hsolid'⟩ := slug_apart hname
  have htext : ("/" ++ qualified owner name).toList = '/' :: (owner.toList ++ '/' :: name.toList) := by
    simp [qualified, String.toList_append]
  have hwhole : ∀ c ∈ '/' :: (owner.toList ++ '/' :: name.toList), isSpace c = false := by
    simp only [List.mem_cons, List.mem_append]
    rintro c (rfl | hc | rfl | hc)
    · decide
    · exact hsolid c hc
    · decide
    · exact hsolid' c hc
  have hwords : Words.unwords ' ' (Words.words isSpace ("/" ++ qualified owner name).toList) =
      '/' :: (owner.toList ++ '/' :: name.toList) := by
    rw [htext, Words.words, List.splitOnP_eq_singleton hwhole, List.filter_cons_of_pos (by rfl), List.filter_nil,
      Words.unwords, List.intercalate_singleton]
  have hnotblank : ∀ c ∈ owner.toList ++ '/' :: name.toList, (c != ' ') = true := by
    intro c hc
    have hc := hwhole c (List.mem_cons_of_mem _ hc)
    refine bne_iff_ne.mpr ?_
    rintro rfl
    exact absurd hc (by decide)
  have hshort : ¬2322 < ('/' :: (owner.toList ++ '/' :: name.toList)).length := by
    rw [← htext, String.length_toList]
    omega
  rw [parseSkillSelector, hwords, if_neg hshort]
  simp only [List.takeWhile_eq_self_iff.mpr hnotblank, List.dropWhile_eq_nil_iff.mpr hnotblank, List.drop_nil,
    splitOn_pair hslash hslash', howner, hname, Bool.and_self, Bool.not_true, Bool.false_eq_true, if_false,
    String.ofList_toList]
  rfl

/-- A row that is offered, and the item made of it. -/
theorem offer_some {lower : String → String} {grants : List ReaderGrant} {query : String} {item : SkillAutocompleteItem} :
    offer lower t grants query row = some item ↔ row.matches lower t query ∧ (∃ grant ∈ grants, grant.covers row = true) ∧
      ∃ names, canonicalSkillKey row.guidanceKey = some names ∧ item = ⟨"/" ++ qualified names.1 names.2, row.guidanceKey,
        row.version, t.displayName row.guidanceKey, row.revision.description⟩ := by
  unfold offer SkillRow.matches
  cases hkey : canonicalSkillKey row.guidanceKey with
  | none =>
    simp only [reduceCtorEq, false_iff]
    rintro ⟨⟨_, _, h, _⟩, -⟩
    cases h
  | some names =>
    obtain ⟨owner, name⟩ := names
    have hany : (∃ grant ∈ grants, grant.covers row = true) ↔ grants.any (·.covers row) = true := by
      rw [List.any_eq_true]
    simp only [hany]
    constructor
    · intro h
      split_ifs at h with howner hquery hgrants
      refine ⟨⟨owner, name, rfl, not_not.mp howner, ?_⟩, by simpa using hgrants, _, rfl, (Option.some.inj h).symm⟩
      tauto
    · rintro ⟨⟨owner', name', heq, howner, hquery⟩, hgrants, names, hnames, rfl⟩
      obtain ⟨rfl, rfl⟩ := Prod.mk.inj (Option.some.inj heq)
      obtain rfl := Option.some.inj hnames
      rw [if_neg (not_not.mpr howner), if_neg (by tauto), hgrants]
      rfl

theorem mem_autocomplete {lower : String → String} {query : String} {limit : Int} {items : List SkillAutocompleteItem}
    (h : autocompleteForPrincipal lower t principal region query limit now = .ok items) :
    items = (((t.approved region).filter fun row => (t.activeGrants principal region now).any (·.covers row)).filterMap
      (offer lower t (t.activeGrants principal region now) (normalized lower query))).take limit.toNat := by
  unfold autocompleteForPrincipal at h
  split at h
  · cases h
  · dsimp only at h
    split at h
    · rename_i hgrants
      rw [← Except.ok.inj h, List.isEmpty_iff.mp hgrants]
      simp
    · exact (Except.ok.inj h).symm

theorem autocomplete_ok {lower : String → String} {query : String} {limit : Int} {items : List SkillAutocompleteItem}
    (h : autocompleteForPrincipal lower t principal region query limit now = .ok items) :
    (∀ item ∈ items, ∃ row, t.Readable principal region now row ∧ row.matches lower t (normalized lower query) ∧
      item.guidanceKey = row.guidanceKey ∧ item.version = row.version ∧
      (item.selector.length ≤ 2322 → ∃ parsed,
        resolveForPrincipal t principal item.selector region now = .ok (parsed, row.candidate))) ∧
    ((items.length : Int) < limit → ∀ row, t.Readable principal region now row →
      row.matches lower t (normalized lower query) → ∃ item ∈ items, item.guidanceKey = row.guidanceKey) := by
  have hitems := mem_autocomplete h
  refine ⟨fun item hitem => ?_, fun hshort row hreadable hmatches => ?_⟩
  · rw [hitems] at hitem
    obtain ⟨row, hrow, hoffer⟩ := List.mem_filterMap.mp (List.mem_of_mem_take hitem)
    obtain ⟨happroved, -⟩ := List.mem_filter.mp hrow
    obtain ⟨hmatches, hgrants, names, hnames, rfl⟩ := offer_some.mp hoffer
    have hreadable : t.Readable principal region now row := ⟨happroved, hgrants⟩
    refine ⟨row, hreadable, hmatches, rfl, rfl, fun hlength => ⟨⟨some names.1, names.2, ""⟩, ?_⟩⟩
    obtain ⟨-, howner, hname⟩ := canonicalSkillKey_some.mp hnames
    obtain ⟨owner, name, hkey, hslug, -⟩ := hmatches
    obtain rfl := Option.some.inj (hnames.symm.trans hkey)
    refine resolveForPrincipal_ok.mpr ⟨parse_qualified howner hname hlength, row, hreadable,
      ⟨hslug ▸ hkey, ?_⟩, rfl, fun other hother hnamed => ?_⟩
    · rintro _ ⟨⟩
      exact hslug.symm
    · obtain ⟨hotherkey, hotherowner⟩ := hnamed
      rw [hotherowner owner rfl] at hotherkey
      exact canonicalSkillKey_inj hotherkey hkey
  · obtain ⟨owner, name, hkey, hslug, -⟩ := id hmatches
    have hoffer := offer_some.mpr ⟨hmatches, hreadable.2, (owner, name), hkey, rfl⟩
    have hrow : row ∈ (t.approved region).filter fun row => (t.activeGrants principal region now).any (·.covers row) :=
      List.mem_filter.mpr ⟨hreadable.1, List.any_eq_true.mpr hreadable.2⟩
    refine ⟨⟨"/" ++ qualified owner name, row.guidanceKey, row.version, t.displayName row.guidanceKey,
      row.revision.description⟩, ?_, rfl⟩
    -- The limit took nothing away.
    rw [hitems, List.length_take] at hshort
    rw [hitems, List.take_of_length_le (by omega)]
    exact List.mem_filterMap.mpr ⟨row, hrow, hoffer⟩

/-- A selector resolves to the one skill that it names among those which a grant of the reader covers. Every skill that the
    reader is offered is one of these, its selector resolves to it, and a list which the limit does not cut leaves out none
    that the query matches. -/
theorem offered_skills_resolve (lower : String → String) (t : Tables) (principal region : String) (now : Int) :
    (∀ command parsed candidate, resolveForPrincipal t principal command region now = .ok (parsed, candidate) ↔
      parseSkillSelector command = .ok parsed ∧
        ∃ row, t.Readable principal region now row ∧ row.named parsed ∧ row.candidate = candidate ∧
          ∀ other, t.Readable principal region now other → other.named parsed →
            other.guidanceKey = row.guidanceKey) ∧
    ∀ query limit items, autocompleteForPrincipal lower t principal region query limit now = .ok items →
      (∀ item ∈ items, ∃ row, t.Readable principal region now row ∧ row.matches lower t (normalized lower query) ∧
        item.guidanceKey = row.guidanceKey ∧ item.version = row.version ∧
        (item.selector.length ≤ 2322 → ∃ parsed,
          resolveForPrincipal t principal item.selector region now = .ok (parsed, row.candidate))) ∧
      ((items.length : Int) < limit → ∀ row, t.Readable principal region now row →
        row.matches lower t (normalized lower query) → ∃ item ∈ items, item.guidanceKey = row.guidanceKey) := by
  refine ⟨fun command parsed candidate => resolveForPrincipal_ok, fun query limit items h => ?_⟩
  exact autocomplete_ok h

/-- One skill, and one reader that may see it. -/
def triageTables : Tables where
  heads := [⟨"ops.triage", some "1"⟩]
  revision _ _ := some ⟨"sha256:0", "APPROVED", "SKILL", "INCIDENT", ["eu"], .internal, ["operations"], "Where to begin."⟩
  owner _ := some ⟨false⟩
  displayName _ := "Triage"
  grants := [⟨"ana", "operations", "INCIDENT", "eu", .confidential, none⟩]
  distinct := List.nodup_singleton _

theorem offered_skills_resolve_triage : ∃ row : SkillRow, row.guidanceKey = "ops.triage" ∧
    ∃ parsed, resolveForPrincipal triageTables "ana" "/ops/triage" "eu" 0 = .ok (parsed, row.candidate) := by
  have hoffered : autocompleteForPrincipal id triageTables "ana" "eu" "/tri" 20 0 =
      .ok [⟨"/ops/triage", "ops.triage", "1", "Triage", "Where to begin."⟩] := by decide +kernel
  obtain ⟨row, -, -, hkey, -, hresolves⟩ :=
    ((offered_skills_resolve id triageTables "ana" "eu" 0).2 "/tri" 20 _ hoffered).1 _ List.mem_cons_self
  exact ⟨row, hkey.symm, hresolves (by decide)⟩

end Solvan.Skills.Selection

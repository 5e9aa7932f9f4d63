import Solvan.Alerts.Documents

/-! Which filters are read again from what they are encoded as, and what their digests tell apart. -/
namespace Solvan.Alerts.Requests
open Base
open Ingress (Text text Value)

section Encoding

variable (lib : Library)

/-- `rfc8785.dumps(self.canonical_dict())` -/
def document (f : AlertListFilter) : Except Raised (List UInt8) := dumps lib (ofJson lib.double f.canonicalDict)

/-- `encoded` -/
def encoded (f : AlertListFilter) : Except Raised Text := (document lib f).map b64EncodeText

/-- `digest` -/
def digest (f : AlertListFilter) : Except Raised Text :=
  (document lib f).map (fun bytes => text "sha256:" ++ lib.sha256 bytes)

end Encoding

/-- The bytes of a list of texts. -/
def listSize (values : List String) : Nat :=
  if values.isEmpty then 2 else (values.map (fun value => value.toList.length + 3)).sum + 1

/-- The bytes of a time. -/
def timeSize : Option Datetime → Nat
  | none => 4
  | some time => (naiveText time.wall).length + 3

/-- The bytes of a query. -/
def querySize : Option String → Nat
  | none => 4
  | some query => (Json.utf8 query).length + 2

/-- The bytes of a filter's document, all fields of which are written. -/
def size (f : AlertListFilter) : Nat :=
  253 + f.view.label.toList.length + f.incidentLink.label.toList.length +
    listSize (f.episodeState.map EpisodeState.label) + listSize (f.sourceProvider.map ProviderKind.label) +
    listSize f.connectionId + listSize f.department + listSize f.targetKey +
    listSize (f.severity.map Severity.label) + listSize f.policyKey + listSize (f.mode.map Mode.label) +
    listSize (f.providerState.map ProviderState.label) + listSize (f.disposition.map DispositionKind.label) +
    timeSize f.sourceTimeFrom + timeSize f.sourceTimeTo + querySize f.query + (Nat.toDigits 10 f.limit).length

/-- A list as `_closed_strings` gives one. -/
structure Listed {α : Type} (accept : Text → Option α) (label : α → String) (values : List α) : Prop where
  short : values.length ≤ 100
  sorted : values.Pairwise (fun a b => label a ≤ label b)
  distinct : (values.map label).Nodup
  accepted : ∀ a ∈ values, accept (text (label a)) = some a
  full : ∀ a ∈ values, label a ≠ ""

section Lists

variable {lib : Library} {α : Type} {accept : Text → Option α} {label : α → String} {values : List α}

theorem fullText_some {value : Item lib} {t : Text} : fullText lib value = some t ↔ value = .str t ∧ t ≠ [] := by
  unfold fullText
  cases value with
  | str s =>
    dsimp only
    split
    · rename_i hempty
      refine ⟨fun h => (nomatch h), fun ⟨h, hne⟩ => absurd (List.isEmpty_iff.mp hempty) ?_⟩
      injection h with h
      exact h ▸ hne
    · rename_i hfull
      constructor
      · intro h
        obtain rfl := Option.some.inj h
        exact ⟨rfl, fun hnil => hfull (List.isEmpty_iff.mpr hnil)⟩
      · rintro ⟨h, -⟩
        injection h with h
        rw [h]
  | null | bool | int | float | arr | obj => exact ⟨fun h => (nomatch h), fun h => (nomatch h.1)⟩

theorem listed_nil : Listed accept label [] :=
  ⟨Nat.zero_le _, .nil, .nil, fun _ h => (nomatch h), fun _ h => (nomatch h)⟩

/-- Texts that are accepted are the labels of what they are accepted as. -/
theorem accept_label (hlabel : ∀ t a, accept t = some a → text (label a) = t) {texts : List Text}
    (h : texts.map accept = values.map some) :
    values.map (fun a => text (label a)) = texts ∧ ∀ a ∈ values, accept (text (label a)) = some a := by
  induction texts generalizing values with
  | nil =>
    obtain rfl := List.map_eq_nil_iff.mp h.symm
    exact ⟨rfl, fun a ha => nomatch ha⟩
  | cons t texts ih =>
    obtain ⟨a, rest, rfl, ha, hrest⟩ := List.map_eq_cons_iff.mp h.symm
    obtain ⟨htexts, haccepted⟩ := ih hrest.symm
    have ht := hlabel t a ha.symm
    rw [List.map_cons, ht, htexts]
    refine ⟨rfl, List.forall_mem_cons.mpr ⟨?_, haccepted⟩⟩
    rw [ht]
    exact ha.symm

theorem fullText_ne {items : List (Item lib)} {texts : List Text} (h : items.map (fullText lib) = texts.map some) :
    ∀ t ∈ texts, t ≠ [] := by
  intro t ht
  have hsome : some t ∈ items.map (fullText lib) := h ▸ List.mem_map_of_mem ht
  obtain ⟨item, -, hitem⟩ := List.mem_map.mp hsome
  exact (fullText_some.mp hitem).2

/-- What `_closed_strings` gives is sorted, without doubles, and of accepted texts. -/
theorem closedStrings_ok (hlabel : ∀ t a, accept t = some a → text (label a) = t) {value : Item lib}
    (h : closedStrings lib accept label value = .ok values) : Listed accept label values := by
  cases value with
  | null =>
    obtain rfl := Except.ok.inj h
    exact listed_nil
  | arr items =>
    unfold closedStrings at h
    dsimp only at h
    split at h
    · cases h
    · rename_i texts htexts
      split at h
      · cases h
      · rename_i hsmall
        split at h
        · cases h
        · rename_i accepted haccepted
          obtain rfl := Except.ok.inj h
          obtain ⟨hshort, hdistinct⟩ := not_or.mp hsmall
          obtain ⟨hback, haccept⟩ := accept_label hlabel (Checks.mapM_some.mp haccepted)
          have hlength := congrArg List.length hback
          rw [List.length_map] at hlength
          have hperm : (accepted.insertionSort (fun a b => label a ≤ label b)).Perm accepted :=
            List.perm_insertionSort _ _
          have hnodup : (accepted.map label).Nodup := by
            refine List.Nodup.of_map text ?_
            rw [List.map_map]
            exact hback ▸ Decidable.not_not.mp hdistinct
          refine ⟨?_, ?_, (hperm.map label).nodup_iff.mpr hnodup, fun a ha => haccept a (hperm.mem_iff.mp ha),
            fun a ha hempty => ?_⟩
          · rw [hperm.length_eq]
            omega
          · have : Std.Total (fun a b : α => label a ≤ label b) := ⟨fun a b => String.le_total (label a) (label b)⟩
            have : IsTrans α (fun a b => label a ≤ label b) := ⟨fun _ _ _ => String.le_trans⟩
            exact List.pairwise_insertionSort _ _
          · refine fullText_ne (Checks.mapM_some.mp htexts) (text (label a)) ?_ (by rw [hempty]; rfl)
            rw [← hback]
            exact List.mem_map_of_mem (hperm.mem_iff.mp ha)
  | bool | int | float | str | obj => cases h

theorem ofItems_eq_map {Double : Type} (double : Decimal → Double) (items : List Json) :
    ofItems double items = items.map (ofJson double) := by
  induction items with
  | nil => rfl
  | cons j items ih => rw [ofItems, ih, List.map_cons]

/-- Such a list is given again by the list of its labels. -/
theorem closedStrings_listed (h : Listed accept label values) :
    closedStrings lib accept label (ofJson lib.double (strings (values.map label))) = .ok values := by
  have hitems : ofJson lib.double (strings (values.map label)) =
      .arr (values.map (fun a => .str (text (label a)))) := by
    rw [strings, ofJson, ofItems_eq_map, List.map_map, List.map_map]
    rfl
  have htexts : (values.map (fun a => (.str (text (label a)) : Item lib))).mapM (fullText lib) =
      some (values.map (fun a => text (label a))) := by
    refine Checks.mapM_some.mpr ?_
    rw [List.map_map, List.map_map]
    refine List.map_congr_left fun a ha => fullText_some.mpr ⟨rfl, fun hnil => h.full a ha ?_⟩
    exact text_inj hnil
  have hsmall : ¬(100 < (values.map (fun a => text (label a))).length ∨
      ¬(values.map (fun a => text (label a))).Nodup) := by
    have hnodup : ((values.map label).map text).Nodup := h.distinct.map fun _ _ => text_inj
    rw [List.map_map] at hnodup
    rw [List.length_map]
    exact not_or.mpr ⟨Nat.not_lt.mpr h.short, not_not.mpr hnodup⟩
  have haccepted : (values.map (fun a => text (label a))).mapM accept = some values := by
    refine Checks.mapM_some.mpr ?_
    rw [List.map_map]
    exact List.map_congr_left h.accepted
  rw [hitems]
  unfold closedStrings
  dsimp only
  rw [htexts]
  dsimp only
  rw [if_neg hsmall, haccepted]
  exact congrArg Except.ok h.sorted.insertionSort_eq

theorem closedStrings_free {accept : Text → Option String} {values : List String} (h : Listed accept id values) :
    closedStrings lib accept id (ofJson lib.double (strings values)) = .ok values := by
  have hlabels : values.map id = values := List.map_id values
  have hread := @closedStrings_listed lib _ _ _ _ h
  rwa [hlabels] at hread

end Lists

section Texts

variable {lib : Library} {α : Type}

theorem labelled_label {all : List α} {label : α → String} (t : Text) (a : α) (h : labelled all label t = some a) :
    text (label a) = t := by
  have hfound : (text (label a) == t) = true := @List.find?_some _ (fun b => text (label b) == t) a all h
  exact beq_iff_eq.mp hfound

theorem isSafeFilterChar_ascii {c : Nat} (h : isSafeFilterChar c = true) : c < 128 ∧ 32 < c ∧ c ≠ 34 ∧ c ≠ 92 := by
  have hother : ∀ d ∈ text "_.:/@+-", d < 128 ∧ 32 < d ∧ d ≠ 34 ∧ d ≠ 92 := by decide
  obtain hletter | hother' := Bool.or_eq_true_iff.mp h
  · have hrange := of_decide_eq_true hletter
    omega
  · exact hother c (List.contains_iff_mem.mp hother')

theorem isValidChar_ascii {c : Nat} (h : c < 128) : c.isValidChar := .inl (by omega)

theorem safeFilterValue_text (t : Text) (s : String) (h : safeFilterValue t = some s) : text s = t := by
  unfold safeFilterValue at h
  split at h
  · rename_i hsafe
    obtain rfl := Option.some.inj h
    refine text_asString fun c hc => isValidChar_ascii ?_
    exact (isSafeFilterChar_ascii (List.all_eq_true.mp hsafe.2.2 c hc)).1
  · cases h

/-- A query as it is kept. -/
structure Normal (lib : Library) (query : String) : Prop where
  safe : safeQuery lib (text query) = true
  fixed : normalizeQuery lib (text query) = text query

/-- The words of a text, folded -/
def foldedWords (lib : Library) (t : Text) : List Text := (Words.words lib.space t).map (·.flatMap lib.fold)

theorem normalizeQuery_eq (hlib : Lawful lib) (t : Text) :
    normalizeQuery lib t = Words.unwords 32 (foldedWords lib t) := Words.flatMap_unwords hlib.fold_blank

theorem foldedWords_word (hlib : Lawful lib) (t : Text) : ∀ w ∈ foldedWords lib t, Words.Word lib.space w := by
  intro w hw
  obtain ⟨v, hv, rfl⟩ := List.mem_map.mp hw
  obtain ⟨hne, hsolid⟩ := Words.words_word hv
  refine ⟨fun hnil => ?_, fun d hd => ?_⟩
  · obtain ⟨c, hc⟩ := List.exists_mem_of_ne_nil v hne
    exact hlib.fold_ne c (List.flatMap_eq_nil_iff.mp hnil c hc)
  · obtain ⟨c, hc, hd⟩ := List.mem_flatMap.mp hd
    exact hlib.fold_solid c (hsolid c hc) d hd

/-- Blanks and capitals are gone after one time. -/
theorem normalizeQuery_again (hlib : Lawful lib) (t : Text) :
    normalizeQuery lib (normalizeQuery lib t) = normalizeQuery lib t := by
  have hwords : foldedWords lib (normalizeQuery lib t) = foldedWords lib t := by
    rw [foldedWords, normalizeQuery_eq hlib, Words.words_unwords hlib.space_blank (foldedWords_word hlib t), foldedWords,
      List.map_map]
    refine List.map_congr_left fun w _ => ?_
    rw [Function.comp_apply, List.flatMap_assoc]
    exact List.flatMap_congr fun c _ => hlib.fold_fold c
  rw [normalizeQuery_eq hlib (normalizeQuery lib t), hwords, normalizeQuery_eq hlib]

theorem safeQuery_chars (hlib : Lawful lib) {t : Text} (h : safeQuery lib t = true) :
    ∀ c ∈ t, c.isValidChar ∧ 32 ≤ c ∧ c ≠ 34 ∧ c ≠ 92 := by
  have hother : ∀ d ∈ text " .:@/+-", d < 128 ∧ 32 ≤ d ∧ d ≠ 34 ∧ d ≠ 92 := by decide
  intro c hc
  have hsafe := List.all_eq_true.mp (Bool.and_eq_true_iff.mp h).2 c hc
  obtain hword | hlisted := Bool.or_eq_true_iff.mp hsafe
  · have hvalid := hlib.word_valid c hword
    by_cases hascii : c < 128
    · have hrange := hlib.word_ascii c hascii hword
      refine ⟨hvalid, ?_⟩
      omega
    · refine ⟨hvalid, ?_⟩
      omega
  · obtain ⟨hascii, hrange⟩ := hother c (List.contains_iff_mem.mp hlisted)
    exact ⟨isValidChar_ascii hascii, hrange⟩

theorem queryOf_ok (hlib : Lawful lib) {value : Item lib} {query : Option String}
    (h : queryOf lib value = .ok query) : ∀ q ∈ query, Normal lib q := by
  cases value with
  | null =>
    obtain rfl := Except.ok.inj h
    exact fun q hq => nomatch hq
  | str t =>
    unfold queryOf at h
    dsimp only at h
    split at h
    · rename_i hsafe
      obtain rfl := Except.ok.inj h
      rintro q hq
      obtain rfl := Option.some.inj hq
      have hback := text_asString fun c hc => (safeQuery_chars hlib hsafe c hc).1
      refine ⟨?_, ?_⟩
      · rw [hback]
        exact hsafe
      · rw [hback]
        exact normalizeQuery_again hlib t
    · cases h
  | bool | int | float | arr | obj => cases h

theorem queryOf_normal {query : Option String} (h : ∀ q ∈ query, Normal lib q) :
    queryOf lib (ofJson lib.double ((query.map Json.str).getD .null)) = .ok query := by
  cases query with
  | none => rfl
  | some q =>
    obtain ⟨hsafe, hfixed⟩ := h q rfl
    show queryOf lib (.str (text q)) = _
    unfold queryOf
    dsimp only
    rw [hfixed, if_pos hsafe, asString_text]

theorem utcOf_ok {value : Item lib} {time : Option Datetime} (h : utcOf lib value = .ok time) :
    ∀ d ∈ time, d.utcoffset = some 0 := by
  cases value with
  | null =>
    obtain rfl := Except.ok.inj h
    exact fun d hd => nomatch hd
  | str t =>
    unfold utcOf at h
    dsimp only at h
    split at h
    · cases h
    · split at h
      · cases h
      · split at h
        · cases h
        · rename_i hoffset
          obtain rfl := Except.ok.inj h
          rintro d hd
          obtain rfl := Option.some.inj hd
          exact not_not.mp hoffset
  | bool | int | float | arr | obj => cases h

/-- A time at offset zero is read from what was written of it. -/
theorem utcOf_time (hlib : Lawful lib) {time : Option Datetime} (h : ∀ d ∈ time, d.utcoffset = some 0) :
    utcOf lib (ofJson lib.double (timeOrNull time)) = .ok time := by
  cases time with
  | none => rfl
  | some d =>
    have hoffset := h d rfl
    have htext : text (zuluText d) = (naiveText d.wall).map Char.toNat ++ ['Z'.toNat] := by
      rw [text, zulu_text hoffset, List.map_append]
      rfl
    have hread : (naiveText d.wall).map Char.toNat ++ text "+00:00" = text (String.ofList (timeText d)) := by
      have hwritten : (String.ofList (timeText d)).toList = naiveText d.wall ++ "+00:00".toList := by
        rw [timeText, hoffset, String.toList_ofList]
        rfl
      rw [text, text, hwritten, List.map_append]
    show utcOf lib (.str (text (zuluText d))) = _
    unfold utcOf
    dsimp only
    rw [htext, List.getLast?_concat, if_neg (not_not.mpr rfl), List.dropLast_concat, hread, hlib.reads d hoffset]
    exact if_neg (not_not.mpr hoffset)

theorem member_label {all : List α} {label : α → String} {a : α} (h : labelled all label (text (label a)) = some a) :
    member lib all label (ofJson lib.double (.str (label a))) = .ok a := by
  show member lib all label (.str (text (label a))) = _
  unfold member
  dsimp only
  rw [h]

theorem limitOf_limit {n : Nat} (h : 1 ≤ n ∧ n ≤ 100) : limitOf lib (ofJson lib.double (.int n)) = .ok ⟨n, h⟩ := by
  have hrange : 1 ≤ (n : Int) ∧ (n : Int) ≤ 100 := by omega
  show limitOf lib (.int n) = _
  unfold limitOf
  dsimp only
  rw [dif_pos hrange]
  rfl

end Texts

/-- A filter as `from_encoded` gives one. -/
structure Valid (lib : Library) (f : AlertListFilter) : Prop where
  query : ∀ q ∈ f.query, Normal lib q
  start : ∀ d ∈ f.sourceTimeFrom, d.utcoffset = some 0
  finish : ∀ d ∈ f.sourceTimeTo, d.utcoffset = some 0
  ordered : reversed f.sourceTimeFrom f.sourceTimeTo = false
  episodeState : Listed (labelled EpisodeState.every EpisodeState.label) EpisodeState.label f.episodeState
  sourceProvider : Listed (labelled ProviderKind.every ProviderKind.label) ProviderKind.label f.sourceProvider
  connectionId : Listed safeFilterValue id f.connectionId
  department : Listed safeFilterValue id f.department
  targetKey : Listed safeFilterValue id f.targetKey
  severity : Listed (labelled Severity.every Severity.label) Severity.label f.severity
  policyKey : Listed safeFilterValue id f.policyKey
  mode : Listed (labelled Mode.every Mode.label) Mode.label f.mode
  providerState : Listed (labelled ProviderState.every ProviderState.label) ProviderState.label f.providerState
  disposition : Listed (labelled DispositionKind.every DispositionKind.label) DispositionKind.label f.disposition

/-- The fields that are written, in the order of `canonical_dict`. -/
def canonicalFields (f : AlertListFilter) : List (String × Json) :=
  match f.canonicalDict with
  | .obj fields => fields
  | _ => []

section Filters

variable {lib : Library} {f : AlertListFilter} {fields : Fields lib}

theorem labelled_view (view : View) : labelled View.every View.label (text view.label) = some view := by
  cases view <;> decide +kernel

theorem labelled_link (link : LinkFilter) : labelled LinkFilter.every LinkFilter.label (text link.label) = some link := by
  cases link <;> decide +kernel

theorem entry_words {α : Type} (values : List α) (label : α → String) : Entry (strings (values.map label)) :=
  .strings _

theorem entry_time (time : Option Datetime) : Entry (timeOrNull time) := by
  cases time with
  | none => exact .null
  | some d => exact .str _

theorem entry_query (query : Option String) : Entry ((query.map Json.str).getD .null) := by
  cases query with
  | none => exact .null
  | some q => exact .str q

theorem canonicalFields_keys (f : AlertListFilter) : (canonicalFields f).map Prod.fst = filterKeys := rfl

/-- What is written of a filter is the document of one. -/
theorem canonicalFields_document (f : AlertListFilter) : Document (canonicalFields f) where
  distinct := by
    rw [canonicalFields_keys]
    decide +kernel
  known field hfield := canonicalFields_keys f ▸ List.mem_map_of_mem hfield
  entries := by
    have hlimit : (f.limit : Int).natAbs < 2 ^ 53 := by
      have := f.bounded
      omega
    show ∀ field ∈ [_, _, _, _, _, _, _, _, _, _, _, _, _, _, _, _, _], _
    simp only [List.forall_mem_cons]
    exact ⟨.int (by decide), .str _, entry_words _ _, entry_words _ _, .strings _, .strings _, .strings _,
      entry_words _ _, .strings _, entry_words _ _, entry_words _ _, entry_words _ _, .str _, entry_time _,
      entry_time _, entry_query _, .int hlimit, fun field hfield => nomatch hfield⟩

/-- The fields of an accepted filter make one that is valid. -/
theorem readFilter_ok (hlib : Lawful lib) (h : readFilter lib fields = .ok f) : Valid lib f := by
  obtain ⟨-, -, h⟩ := Checks.bind_ok.mp h
  obtain ⟨view, hview, h⟩ := Checks.bind_ok.mp h
  obtain ⟨link, hlink, h⟩ := Checks.bind_ok.mp h
  obtain ⟨limit, -, h⟩ := Checks.bind_ok.mp h
  obtain ⟨query, hquery, h⟩ := Checks.bind_ok.mp h
  obtain ⟨start, hstart, h⟩ := Checks.bind_ok.mp h
  obtain ⟨finish, hfinish, h⟩ := Checks.bind_ok.mp h
  obtain ⟨_, hordered, h⟩ := Checks.bind_ok.mp h
  obtain ⟨states, hstates, h⟩ := Checks.bind_ok.mp h
  obtain ⟨providers, hproviders, h⟩ := Checks.bind_ok.mp h
  obtain ⟨connections, hconnections, h⟩ := Checks.bind_ok.mp h
  obtain ⟨departments, hdepartments, h⟩ := Checks.bind_ok.mp h
  obtain ⟨targets, htargets, h⟩ := Checks.bind_ok.mp h
  obtain ⟨severities, hseverities, h⟩ := Checks.bind_ok.mp h
  obtain ⟨policies, hpolicies, h⟩ := Checks.bind_ok.mp h
  obtain ⟨modes, hmodes, h⟩ := Checks.bind_ok.mp h
  obtain ⟨providerStates, hproviderStates, h⟩ := Checks.bind_ok.mp h
  obtain ⟨dispositions, hdispositions, h⟩ := Checks.bind_ok.mp h
  obtain rfl := Except.ok.inj h
  exact {
    query := queryOf_ok hlib hquery
    start := utcOf_ok hstart
    finish := utcOf_ok hfinish
    ordered := by simpa using require_ok.mp hordered
    episodeState := closedStrings_ok labelled_label hstates
    sourceProvider := closedStrings_ok labelled_label hproviders
    connectionId := closedStrings_ok safeFilterValue_text hconnections
    department := closedStrings_ok safeFilterValue_text hdepartments
    targetKey := closedStrings_ok safeFilterValue_text htargets
    severity := closedStrings_ok labelled_label hseverities
    policyKey := closedStrings_ok safeFilterValue_text hpolicies
    mode := closedStrings_ok labelled_label hmodes
    providerState := closedStrings_ok labelled_label hproviderStates
    disposition := closedStrings_ok labelled_label hdispositions }

theorem get_canonical (f : AlertListFilter) (key : String) (i : Nat) {j : Json}
    (h : (canonicalFields f)[i]? = some (key, j)) (default : Item lib) :
    get lib (ofFields lib.double (inOrder (canonicalFields f))) key default = ofJson lib.double j :=
  get_document ((canonicalFields_document f).perm inOrder_perm.symm).distinct
    (inOrder_perm.mem_iff.mpr (List.mem_of_getElem? h)) default

/-- What is written of a valid filter gives it again. -/
theorem readFilter_canonical (hlib : Lawful lib) (h : Valid lib f) :
    readFilter lib (ofFields lib.double (inOrder (canonicalFields f))) = .ok f := by
  have hordered := @require_ok _ ()|>.mpr (show (!reversed f.sourceTimeFrom f.sourceTimeTo) = true by
    rw [h.ordered]
    rfl)
  unfold readFilter freeStrings closedWords
  rw [get_canonical f "schema_version" 0 rfl, get_canonical f "view" 1 rfl, get_canonical f "episode_state" 2 rfl,
    get_canonical f "source_provider" 3 rfl, get_canonical f "connection_id" 4 rfl, get_canonical f "department" 5 rfl,
    get_canonical f "target_key" 6 rfl, get_canonical f "severity" 7 rfl, get_canonical f "policy_key" 8 rfl,
    get_canonical f "mode" 9 rfl, get_canonical f "provider_state" 10 rfl, get_canonical f "disposition" 11 rfl,
    get_canonical f "incident_link" 12 rfl, get_canonical f "source_time_from" 13 rfl,
    get_canonical f "source_time_to" 14 rfl, get_canonical f "query" 15 rfl, get_canonical f "limit" 16 rfl]
  refine Checks.bind_ok.mpr ⟨(), rfl, ?_⟩
  refine Checks.bind_ok.mpr ⟨f.view, member_label (labelled_view f.view), ?_⟩
  refine Checks.bind_ok.mpr ⟨f.incidentLink, member_label (labelled_link f.incidentLink), ?_⟩
  refine Checks.bind_ok.mpr ⟨⟨f.limit, f.bounded⟩, limitOf_limit f.bounded, ?_⟩
  refine Checks.bind_ok.mpr ⟨f.query, queryOf_normal h.query, ?_⟩
  refine Checks.bind_ok.mpr ⟨f.sourceTimeFrom, utcOf_time hlib h.start, ?_⟩
  refine Checks.bind_ok.mpr ⟨f.sourceTimeTo, utcOf_time hlib h.finish, ?_⟩
  refine Checks.bind_ok.mpr ⟨(), hordered, ?_⟩
  refine Checks.bind_ok.mpr ⟨f.episodeState, closedStrings_listed h.episodeState, ?_⟩
  refine Checks.bind_ok.mpr ⟨f.sourceProvider, closedStrings_listed h.sourceProvider, ?_⟩
  refine Checks.bind_ok.mpr ⟨f.connectionId, closedStrings_free h.connectionId, ?_⟩
  refine Checks.bind_ok.mpr ⟨f.department, closedStrings_free h.department, ?_⟩
  refine Checks.bind_ok.mpr ⟨f.targetKey, closedStrings_free h.targetKey, ?_⟩
  refine Checks.bind_ok.mpr ⟨f.severity, closedStrings_listed h.severity, ?_⟩
  refine Checks.bind_ok.mpr ⟨f.policyKey, closedStrings_free h.policyKey, ?_⟩
  refine Checks.bind_ok.mpr ⟨f.mode, closedStrings_listed h.mode, ?_⟩
  refine Checks.bind_ok.mpr ⟨f.providerState, closedStrings_listed h.providerState, ?_⟩
  exact Checks.bind_ok.mpr ⟨f.disposition, closedStrings_listed h.disposition, rfl⟩

theorem fromEncoded_ok (hlib : Lawful lib) {s : Text} (h : fromEncoded lib (some s) = .ok f) : Valid lib f := by
  obtain ⟨decoded, -, h⟩ := Checks.bind_ok.mp h
  obtain ⟨raw, -, h⟩ := Checks.bind_ok.mp h
  cases raw with
  | obj fields =>
    obtain ⟨_, -, h⟩ := Checks.bind_ok.mp h
    obtain ⟨_, -, h⟩ := Checks.bind_ok.mp h
    obtain ⟨_, -, h⟩ := Checks.bind_ok.mp h
    exact readFilter_ok hlib h
  | null | bool | int | float | str | arr => cases h

theorem document_eq (hlib : Lawful lib) (f : AlertListFilter) :
    document lib f = .ok (Json.utf8 (Json.dumps (.obj (canonicalFields f)))) :=
  dumps_ok.mpr (hlib.canonical_document _ (canonicalFields_document f))

end Filters

/-- A character in ASCII that JSON need not escape. -/
def Clear (c : Char) : Prop := 32 ≤ c.toNat ∧ c.toNat < 128 ∧ c.toNat ≠ 34 ∧ c.toNat ≠ 92

instance : DecidablePred Clear := fun c =>
  inferInstanceAs (Decidable (32 ≤ c.toNat ∧ c.toNat < 128 ∧ c.toNat ≠ 34 ∧ c.toNat ≠ 92))

theorem clear_all {cs : List Char} (h : cs.all (fun c => decide (Clear c)) = true) : ∀ c ∈ cs, Clear c := fun c hc =>
  of_decide_eq_true (List.all_eq_true.mp h c hc)

section Sizes

variable {lib : Library} {f : AlertListFilter}

theorem escape_clear {c : Char} (hprint : 32 ≤ c.toNat) (hquote : c.toNat ≠ 34) (hslash : c.toNat ≠ 92) :
    Json.escape c = [c] := by
  have hne : ∀ d : Char, c.toNat ≠ d.toNat → c ≠ d := fun d h heq => h (congrArg Char.toNat heq)
  have hlow : ∀ d : Char, d.toNat < 32 → c ≠ d := fun d h => hne d (by omega)
  unfold Json.escape
  rw [if_neg (hne '\x22' hquote), if_neg (hne '\\' hslash), if_neg (hlow '\n' (by decide)),
    if_neg (hlow '\r' (by decide)), if_neg (hlow '\t' (by decide)), if_neg (hlow '\x0c' (by decide)),
    if_neg (hlow '\x08' (by decide)), if_neg (by omega)]

theorem clear_digit {c : Char} (h : c.isDigit = true) : Clear c := by
  obtain ⟨hlow, hhigh⟩ := Char.isDigit_iff_toNat.mp h
  have hzero : ('0').toNat = 48 := by decide
  have hnine : ('9').toNat = 57 := by decide
  unfold Clear
  omega

theorem weight_ascii {cs : List Char} (h : ∀ c ∈ cs, c.toNat < 128) : Json.weight cs = cs.length := by
  induction cs with
  | nil => rfl
  | cons c cs ih =>
    obtain ⟨hc, hcs⟩ := List.forall_mem_cons.mp h
    have hone : c.utf8Size = 1 := Char.utf8Size_eq_one_iff.mpr (UInt32.le_iff_toNat_le.mpr (Nat.le_of_lt_succ hc))
    rw [Json.weight_cons, hone, ih hcs, List.length_cons, Nat.add_comm]

theorem weight_clear {s : String} (h : ∀ c ∈ s.toList, Clear c) : Json.weight (Json.quote s) = s.toList.length + 2 := by
  rw [Json.weight_quote_plain fun c hc => escape_clear (h c hc).1 (h c hc).2.2.1 (h c hc).2.2.2,
    weight_ascii fun c hc => (h c hc).2.1]

theorem weight_strings {values : List String} (h : ∀ value ∈ values, ∀ c ∈ value.toList, Clear c) :
    Json.weight (strings values).text = listSize values := by
  cases values with
  | nil => rfl
  | cons value values =>
    have hsizes : ((value :: values).map Json.str).map (fun j => Json.weight j.text + 1) =
        (value :: values).map (fun value => value.toList.length + 3) := by
      rw [List.map_map]
      refine List.map_congr_left fun v hv => ?_
      rw [Function.comp_apply, Json.text, weight_clear (h v hv)]
    rw [strings, Json.weight_arr_eq (by simp), hsizes]
    rfl

theorem weight_free {values : List String} (h : Listed safeFilterValue id values) :
    Json.weight (strings values).text = listSize values := by
  refine weight_strings fun value hvalue c hc => ?_
  have hsafe := h.accepted value hvalue
  unfold safeFilterValue at hsafe
  split at hsafe
  · rename_i hchars
    have hchar := isSafeFilterChar_ascii (List.all_eq_true.mp hchars.2.2 c.toNat (List.mem_map_of_mem hc))
    exact ⟨hchar.2.1.le, hchar.1, hchar.2.2⟩
  · cases hsafe

theorem weight_time {time : Option Datetime} (h : ∀ d ∈ time, d.utcoffset = some 0) :
    Json.weight (timeOrNull time).text = timeSize time := by
  cases time with
  | none => rfl
  | some d =>
    have hclear : ∀ c, Plain c → Clear c := by
      rintro c (hdigit | rfl | rfl | rfl | rfl)
      · exact clear_digit hdigit
      · decide
      · decide
      · decide
      · decide
    show Json.weight (Json.quote (zuluText d)) = _
    rw [weight_clear, zulu_text (h d rfl), List.length_append]
    · rfl
    · rw [zulu_text (h d rfl)]
      refine List.forall_mem_append.mpr ⟨fun c hc => hclear c (naive_plain _ c hc), clear_all (by decide)⟩

theorem weight_query (hlib : Lawful lib) {query : Option String} (h : ∀ q ∈ query, Normal lib q) :
    Json.weight (((query.map Json.str).getD .null : Json)).text = querySize query := by
  cases query with
  | none => rfl
  | some q =>
    show Json.weight (Json.quote q) = _
    rw [Json.weight_quote_plain, querySize, Json.length_utf8]
    intro c hc
    obtain ⟨-, hprint, hquote, hslash⟩ := safeQuery_chars hlib (h q rfl).safe c.toNat (List.mem_map_of_mem hc)
    exact escape_clear hprint hquote hslash

theorem weight_words {α : Type} (label : α → String) (values : List α)
    (h : ∀ a, (label a).toList.all (fun c => decide (Clear c)) = true) :
    Json.weight (strings (values.map label)).text = listSize (values.map label) := by
  refine weight_strings fun value hvalue => ?_
  obtain ⟨a, -, rfl⟩ := List.mem_map.mp hvalue
  exact clear_all (h a)

theorem weight_limit (n : Nat) : Json.weight (Json.int n).text = (Nat.toDigits 10 n).length := by
  have hdigits : ∀ c ∈ Nat.toDigits 10 n, Clear c := fun c hc =>
    clear_digit (Nat.isDigit_of_mem_toDigits (by decide) (by decide) hc)
  show Json.weight (Nat.toDigits 10 n) = _
  exact weight_ascii fun c hc => (hdigits c hc).2.1

/-- The size of a filter is that of its document. -/
theorem length_document (hlib : Lawful lib) (h : Valid lib f) :
    (Json.utf8 (Json.dumps (.obj (canonicalFields f)))).length = size f := by
  have hview : Json.weight (Json.str f.view.label).text = f.view.label.toList.length + 2 :=
    weight_clear (clear_all (by cases f.view <;> decide))
  have hlink : Json.weight (Json.str f.incidentLink.label).text = f.incidentLink.label.toList.length + 2 :=
    weight_clear (clear_all (by cases f.incidentLink <;> decide))
  have hstates := weight_words EpisodeState.label f.episodeState (fun a => by cases a <;> decide)
  have hproviders := weight_words ProviderKind.label f.sourceProvider (fun a => by cases a; decide)
  have hseverities := weight_words Severity.label f.severity (fun a => by cases a <;> decide)
  have hmodes := weight_words Mode.label f.mode (fun a => by cases a <;> decide)
  have hproviderStates := weight_words ProviderState.label f.providerState (fun a => by cases a <;> decide)
  have hdispositions := weight_words DispositionKind.label f.disposition (fun a => by cases a <;> decide)
  have hkeys : ((canonicalFields f).map (fun field => Json.weight (Json.quote field.1) + 2)).sum = 247 := by
    have hsum : (filterKeys.map (fun key => Json.weight (Json.quote key) + 2)).sum = 247 := by decide +kernel
    rwa [← canonicalFields_keys f, List.map_map] at hsum
  have hfields : ((canonicalFields f).map (fun field => Json.weight (Json.fieldText field) + 1)).sum =
      ((canonicalFields f).map (fun field => Json.weight (Json.quote field.1) + 2)).sum +
        ((canonicalFields f).map (fun field => Json.weight field.2.text)).sum := by
    rw [← List.sum_map_add]
    refine congrArg List.sum (List.map_congr_left fun field _ => ?_)
    have hcolon : (':').utf8Size = 1 := by decide
    rw [Json.fieldText, Json.weight_append, Json.weight_cons, hcolon]
    omega
  have hone : Json.weight (Json.int 1).text = 1 := by decide
  rw [(canonicalFields_document f).length_utf8 (by simp [canonicalFields, AlertListFilter.canonicalDict]), hfields, hkeys]
  simp only [canonicalFields, AlertListFilter.canonicalDict, List.map_cons, List.map_nil, List.sum_cons, List.sum_nil,
    hone, hview, hlink, hstates, hproviders, hseverities, hmodes, hproviderStates, hdispositions,
    weight_free h.connectionId, weight_free h.department, weight_free h.targetKey, weight_free h.policyKey,
    weight_time h.start, weight_time h.finish, weight_query hlib h.query, weight_limit]
  unfold size
  omega

end Sizes

/-- Two filters whose documents SHA-256 tells apart. -/
def Distinguished (lib : Library) (f f' : AlertListFilter) : Prop :=
  ∀ x x', document lib f = .ok x → document lib f' = .ok x' → lib.sha256 x = lib.sha256 x' → x = x'

section Canonical

variable {lib : Library} {f f' : AlertListFilter} {s : Text}

/-- A filter is read again from what it is encoded as, where that is short enough. -/
theorem fromEncoded_encoded (hlib : Lawful lib) (h : Valid lib f) :
    (∃ t, encoded lib f = .ok t ∧ fromEncoded lib (some t) = .ok f) ↔ size f ≤ 6144 := by
  have hlength := length_document hlib h
  have hencoded : encoded lib f = .ok (b64EncodeText (Json.utf8 (Json.dumps (.obj (canonicalFields f))))) := by
    rw [encoded, document_eq hlib]
    rfl
  have hne : canonicalFields f ≠ [] := by simp [canonicalFields, AlertListFilter.canonicalDict]
  constructor
  · rintro ⟨t, ht, hread⟩
    obtain rfl := Except.ok.inj (hencoded.symm.trans ht)
    by_contra hlong
    rw [fromEncoded_long (by omega)] at hread
    cases hread
  · intro hshort
    refine ⟨_, hencoded, ?_⟩
    rw [fromEncoded_document hlib (canonicalFields_document f) hne (hlength.le.trans hshort), readFilter_canonical hlib h]

/-- Different filters have different documents. -/
theorem document_inj (hlib : Lawful lib) (h : Valid lib f) (h' : Valid lib f')
    (heq : Json.utf8 (Json.dumps (.obj (canonicalFields f))) = Json.utf8 (Json.dumps (.obj (canonicalFields f')))) :
    f = f' := by
  have hload := hlib.loads_document _ (canonicalFields_document f)
  rw [heq, hlib.loads_document _ (canonicalFields_document f')] at hload
  have hfields := Value.obj.inj (Except.ok.inj hload)
  have hread := readFilter_canonical hlib h
  rw [← hfields, readFilter_canonical hlib h'] at hread
  exact (Except.ok.inj hread).symm

theorem digest_eq_iff (hlib : Lawful lib) (h : Valid lib f) (h' : Valid lib f') (hsha : Distinguished lib f f') :
    digest lib f = digest lib f' ↔ f = f' := by
  constructor
  · intro heq
    rw [digest, digest, document_eq hlib, document_eq hlib] at heq
    have hhash := List.append_cancel_left (Except.ok.inj heq)
    exact document_inj hlib h h' (hsha _ _ (document_eq hlib f) (document_eq hlib f') hhash)
  · rintro rfl
    rfl

/-- An accepted filter is read again from what it is encoded as exactly when its document has at most 6144 bytes, and
its digest is that of no other. -/
theorem filters_canonical_iff (hlib : Lawful lib) (hread : fromEncoded lib (some s) = .ok f) :
    ((∃ t, encoded lib f = .ok t ∧ fromEncoded lib (some t) = .ok f) ↔ size f ≤ 6144) ∧
      ∀ s' f', fromEncoded lib (some s') = .ok f' → Distinguished lib f f' →
        (digest lib f = digest lib f' ↔ f = f') := by
  have h := fromEncoded_ok hlib hread
  exact ⟨fromEncoded_encoded hlib h, fun _ _ hread' hsha => digest_eq_iff hlib h (fromEncoded_ok hlib hread') hsha⟩

end Canonical

section Example

mutual

theorem toJson_ofJson : (j : Json) → toJson (ofJson id j) = some j
  | .null | .bool _ | .int _ | .float _ => rfl
  | .str s => congrArg (Option.map Json.str) (stringOf_text s)
  | .arr items => congrArg (Option.map Json.arr) (toItems_ofItems items)
  | .obj fields => congrArg (Option.map Json.obj) (toFields_ofFields fields)

theorem toItems_ofItems : (items : List Json) → toItems (ofItems id items) = some items
  | [] => rfl
  | j :: js => by rw [ofItems, toItems, toJson_ofJson j, toItems_ofItems js]; rfl

theorem toFields_ofFields : (fields : List (String × Json)) → toFields (ofFields id fields) = some fields
  | [] => rfl
  | f :: fs => by rw [ofFields, toFields, toField_ofField f, toFields_ofFields fs]; rfl

theorem toField_ofField : (field : String × Json) → toField (ofField id field) = some field
  | (k, j) => by rw [ofField, toField, stringOf_text k, toJson_ofJson j]; rfl

end

theorem Entry.plain {j : Json} (h : Entry j) : j.plain = true := by
  cases h with
  | null | int | str => rfl
  | strings values =>
    show Json.plainItems (values.map Json.str) = true
    induction values with
    | nil => rfl
    | cons value values ih => exact ih

theorem Entry.interoperable {j : Json} (h : Entry j) : j.interoperable = true := by
  cases h with
  | null | str => rfl
  | int h => exact decide_eq_true h
  | strings values =>
    show Json.interoperableItems (values.map Json.str) = true
    induction values with
    | nil => rfl
    | cons value values ih => exact ih

theorem Entry.hooked {hook : Hook Decimal} {j : Json} (h : Entry j) : hooked hook (ofJson id j) = .ok (ofJson id j) := by
  cases h with
  | null | int | str => rfl
  | strings values =>
    have hitems : ∀ values : List String, hookedItems hook (ofItems id (values.map Json.str)) =
        .ok (ofItems id (values.map Json.str)) := by
      intro values
      induction values with
      | nil => rfl
      | cons value values ih =>
        rw [List.map_cons, ofItems, hookedItems, ih]
        rfl
    rw [Alerts.strings, ofJson, Requests.hooked, hitems]
    rfl

theorem plainFields_document {fields : List (String × Json)} (hkeys : ∀ field ∈ fields, field.1 ∈ filterKeys)
    (h : ∀ field ∈ fields, Entry field.2) : Json.plainFields fields = true := by
  have hascii : ∀ key ∈ filterKeys, key.toList.all (fun c => decide (c.toNat < 128)) = true := by decide +kernel
  induction fields with
  | nil => rfl
  | cons field fields ih =>
    obtain ⟨hkey, hkeys⟩ := List.forall_mem_cons.mp hkeys
    obtain ⟨hentry, hentries⟩ := List.forall_mem_cons.mp h
    rw [Json.plainFields, Json.plainField, hascii _ hkey, hentry.plain, ih hkeys hentries]
    rfl

theorem interoperableFields_document {fields : List (String × Json)} (h : ∀ field ∈ fields, Entry field.2) :
    Json.interoperableFields fields = true := by
  induction fields with
  | nil => rfl
  | cons field fields ih =>
    obtain ⟨hentry, hentries⟩ := List.forall_mem_cons.mp h
    rw [Json.interoperableFields, Json.interoperableField, hentry.interoperable, ih hentries]
    rfl

theorem hookedFields_document {hook : Hook Decimal} {fields : List (String × Json)}
    (h : ∀ field ∈ fields, Entry field.2) : hookedFields hook (ofFields id fields) = .ok (ofFields id fields) := by
  induction fields with
  | nil => rfl
  | cons field fields ih =>
    obtain ⟨hentry, hentries⟩ := List.forall_mem_cons.mp h
    rw [ofFields, ofField, hookedFields, hookedField, hentry.hooked, ih hentries]
    rfl

theorem plainLibrary_canonical {fields : List (String × Json)} (h : Document fields) :
    plainCanonical (.obj (ofFields id fields)) = .ok (Json.utf8 (Json.dumps (.obj fields))) := by
  have hjson : toJson (.obj (ofFields id fields)) = some (.obj fields) := toJson_ofJson (.obj fields)
  have hplain : (Json.obj fields).plain = true := plainFields_document h.known h.entries
  have hinteroperable : (Json.obj fields).interoperable = true := interoperableFields_document h.entries
  unfold plainCanonical
  rw [hjson]
  dsimp only
  rw [hplain, hinteroperable]
  rfl

theorem plainLibrary_loads {fields : List (String × Json)} (h : Document fields) :
    plainLoads closedObject (Json.utf8 (Json.dumps (.obj fields))) = .ok (.obj (ofFields id (inOrder fields))) := by
  have hordered := h.perm inOrder_perm.symm
  have hread : (Json.ofUtf8 (Json.utf8 (Json.dumps (.obj fields)))).bind Json.loads = some (.obj (inOrder fields)) := by
    rw [Json.ofUtf8_utf8, Option.bind_some, Json.loads_dumps, h.sorted]
  have hkeys : ((ofFields id (inOrder fields)).map Prod.fst).Nodup := by
    have htexts := hordered.distinct.map fun _ _ => text_inj
    rw [ofFields_eq_map, List.map_map]
    rwa [List.map_map] at htexts
  have hclosed : closedObject (ofFields id (inOrder fields)) = some (ofFields id (inOrder fields)) := if_pos hkeys
  unfold plainLoads
  rw [hread]
  dsimp only
  rw [ofJson, hooked, hookedFields_document hordered.entries]
  dsimp only [Except.bind]
  rw [hclosed]

theorem plainTime_reads {d : Datetime} (h : d.utcoffset = some 0) :
    plainTime (text (String.ofList (timeText d))) = some d := by
  rw [plainTime, asString_text]
  exact utcClock.reads d h

theorem plainLibrary_lawful : Lawful plainLibrary where
  canonical_document _ h := plainLibrary_canonical h
  loads_document _ h := by
    unfold plainLibrary
    dsimp only
    exact plainLibrary_loads h
  reads d h := by
    unfold plainLibrary
    dsimp only
    exact plainTime_reads h
  space_blank := rfl
  fold_blank := rfl
  fold_ne c := by
    show (if 65 ≤ c ∧ c ≤ 90 then [c + 32] else [c]) ≠ []
    split <;> exact List.cons_ne_nil _ _
  fold_fold c := by
    have hfold : ∀ d, plainLibrary.fold d = if 65 ≤ d ∧ d ≤ 90 then [d + 32] else [d] := fun _ => rfl
    rw [hfold c]
    split
    · rw [List.flatMap_singleton, hfold, if_neg (by omega)]
    · rename_i hsmall
      rw [List.flatMap_singleton, hfold, if_neg hsmall]
  fold_solid c h := by
    have hsolid := of_decide_eq_false h
    intro d hd
    have hfold : d ∈ if 65 ≤ c ∧ c ≤ 90 then [c + 32] else [c] := hd
    refine decide_eq_false ?_
    split at hfold
    · obtain rfl := List.mem_singleton.mp hfold
      omega
    · obtain rfl := List.mem_singleton.mp hfold
      exact hsolid
  word_valid c h := by
    have hrange := of_decide_eq_true h
    exact isValidChar_ascii (by omega)
  word_ascii c _ h := of_decide_eq_true h

/-- Names of 250 characters, in order. -/
def longName (i : Nat) : String := String.ofList (Char.ofNat (65 + i) :: List.replicate 249 'a')

/-- A filter that fits where only its connections are written. -/
theorem fifty_bounded : 1 ≤ 50 ∧ 50 ≤ 100 := by decide

def crowded : AlertListFilter :=
  { AlertListFilter.ofView .active 50 fifty_bounded with connectionId := (List.range 24).map longName }

def crowdedFields : List (String × Json) := [("connection_id", strings crowded.connectionId)]

theorem toList_longName (i : Nat) : (longName i).toList = Char.ofNat (65 + i) :: List.replicate 249 'a' :=
  String.toList_ofList

theorem longName_safe : ∀ i < 24, safeFilterValue (text (longName i)) = some (longName i) := by
  intro i hi
  have hfirst : ∀ i < 24, isSafeFilterChar (Char.ofNat (65 + i)).toNat = true := by decide +kernel
  have hlength : (text (longName i)).length = 250 := by
    rw [text, List.length_map, toList_longName, List.length_cons, List.length_replicate]
  have hchars : (text (longName i)).all isSafeFilterChar = true := by
    rw [text, toList_longName, List.all_eq_true]
    intro c hc
    obtain ⟨d, hd, rfl⟩ := List.mem_map.mp hc
    obtain rfl | hd := List.mem_cons.mp hd
    · exact hfirst i hi
    · obtain ⟨-, rfl⟩ := List.mem_replicate.mp hd
      decide
  rw [safeFilterValue, if_pos ⟨by omega, by omega, hchars⟩, asString_text]

theorem longName_lt : ∀ i < 24, ∀ j < 24, i < j → longName i < longName j := by
  intro i hi j hj hlt
  have hchar : ∀ i < 24, ∀ j < 24, i < j → Char.ofNat (65 + i) < Char.ofNat (65 + j) := by decide +kernel
  rw [String.lt_iff, toList_longName, toList_longName]
  exact List.cons_lt_cons_iff.mpr (.inl (hchar i hi j hj hlt))

theorem crowded_listed : Listed safeFilterValue id crowded.connectionId := by
  have hlt : crowded.connectionId.Pairwise (· < ·) := by
    refine List.pairwise_map.mpr (List.pairwise_lt_range.imp_of_mem fun hi hj hlt => ?_)
    exact longName_lt _ (List.mem_range.mp hi) _ (List.mem_range.mp hj) hlt
  refine ⟨by decide, hlt.imp fun h => String.not_lt.mp (String.lt_asymm h), ?_, fun name hname => ?_,
    fun name hname hempty => ?_⟩
  · rw [List.map_id]
    have hne : ∀ a b : String, a < b → a ≠ b := by
      rintro a b h rfl
      exact String.lt_irrefl a h
    exact List.nodup_iff_pairwise_ne.mpr (hlt.imp fun h => hne _ _ h)
  · obtain ⟨i, hi, rfl⟩ := List.mem_map.mp hname
    exact longName_safe i (List.mem_range.mp hi)
  · obtain ⟨i, -, rfl⟩ := List.mem_map.mp hname
    have hlist := congrArg String.toList hempty
    rw [id_eq, toList_longName] at hlist
    cases hlist

theorem crowdedFields_document : Document crowdedFields where
  distinct := List.nodup_singleton _
  known field hfield := by
    obtain rfl := List.mem_singleton.mp hfield
    decide
  entries field hfield := by
    obtain rfl := List.mem_singleton.mp hfield
    exact .strings _

theorem listSize_crowded : listSize crowded.connectionId = 6073 := by
  have hlengths : crowded.connectionId.map (fun value => value.toList.length + 3) = List.replicate 24 253 := by
    refine List.eq_replicate_iff.mpr ⟨by decide, fun n hn => ?_⟩
    obtain ⟨name, hname, rfl⟩ := List.mem_map.mp hn
    obtain ⟨i, -, rfl⟩ := List.mem_map.mp hname
    rw [toList_longName, List.length_cons, List.length_replicate]
  have hne : crowded.connectionId.isEmpty = false := by decide
  rw [listSize, hne, hlengths]
  decide

theorem size_connections (f : AlertListFilter) : 253 + listSize f.connectionId ≤ size f := by
  unfold size
  omega

theorem length_crowdedFields : (Json.utf8 (Json.dumps (.obj crowdedFields))).length = 6091 := by
  have hkey : Json.weight (Json.quote "connection_id") = 15 := by decide
  have hcolon : (':').utf8Size = 1 := by decide
  rw [crowdedFields_document.length_utf8 (List.cons_ne_nil _ _), crowdedFields, List.map_singleton,
    List.sum_singleton, Json.fieldText, Json.weight_append, Json.weight_cons, hkey, hcolon, weight_free crowded_listed,
    listSize_crowded]

/-- Some connections, and every other field by default. -/
theorem readFilter_connections {lib : Library} {values : List String} (h : Listed safeFilterValue id values) :
    readFilter lib (ofFields lib.double [("connection_id", strings values)]) =
      .ok { AlertListFilter.ofView .active 50 (by decide) with connectionId := values } := by
  have hget : ∀ default, get lib (ofFields lib.double [("connection_id", strings values)]) "connection_id" default =
      ofJson lib.double (strings values) :=
    fun default => get_document (by simp) List.mem_cons_self default
  have habsent : ∀ key, key ≠ "connection_id" → ∀ default,
      get lib (ofFields lib.double [("connection_id", strings values)]) key default = default :=
    fun key hne default => get_absent (fun hmem => hne (List.mem_singleton.mp hmem)) default
  unfold readFilter freeStrings closedWords
  rw [hget, habsent "schema_version" (by decide), habsent "view" (by decide), habsent "episode_state" (by decide),
    habsent "source_provider" (by decide), habsent "department" (by decide), habsent "target_key" (by decide),
    habsent "severity" (by decide), habsent "policy_key" (by decide), habsent "mode" (by decide),
    habsent "provider_state" (by decide), habsent "disposition" (by decide), habsent "incident_link" (by decide),
    habsent "source_time_from" (by decide), habsent "source_time_to" (by decide), habsent "query" (by decide),
    habsent "limit" (by decide)]
  refine Checks.bind_ok.mpr ⟨(), rfl, ?_⟩
  refine Checks.bind_ok.mpr ⟨.active, member_label (labelled_view .active), ?_⟩
  refine Checks.bind_ok.mpr ⟨.any, member_label (labelled_link .any), ?_⟩
  refine Checks.bind_ok.mpr ⟨⟨50, by decide⟩, limitOf_limit (by decide), ?_⟩
  refine Checks.bind_ok.mpr ⟨none, rfl, ?_⟩
  refine Checks.bind_ok.mpr ⟨none, rfl, ?_⟩
  refine Checks.bind_ok.mpr ⟨none, rfl, ?_⟩
  refine Checks.bind_ok.mpr ⟨(), rfl, ?_⟩
  refine Checks.bind_ok.mpr ⟨[], rfl, ?_⟩
  refine Checks.bind_ok.mpr ⟨[], rfl, ?_⟩
  exact Checks.bind_ok.mpr ⟨values, closedStrings_free h, rfl⟩

theorem crowded_accepted :
    fromEncoded plainLibrary (some (b64EncodeText (Json.utf8 (Json.dumps (.obj crowdedFields))))) = .ok crowded := by
  have hlength : (Json.utf8 (Json.dumps (.obj crowdedFields))).length ≤ 6144 := by
    rw [length_crowdedFields]
    decide
  have hordered : inOrder crowdedFields = crowdedFields := rfl
  rw [fromEncoded_document plainLibrary_lawful crowdedFields_document (List.cons_ne_nil _ _) hlength, hordered,
    crowdedFields, readFilter_connections crowded_listed, crowded]

end Example

/-- A filter that leaves most fields out is refused once it is encoded with all of them. -/
theorem crowded_refused : ¬∀ lib, Lawful lib → ∀ s f, fromEncoded lib (some s) = .ok f →
    (∃ t, encoded lib f = .ok t ∧ fromEncoded lib (some t) = .ok f) ∧
      ∀ s' f', fromEncoded lib (some s') = .ok f' → Distinguished lib f f' →
        (digest lib f = digest lib f' ↔ f = f') := by
  intro h
  have hvalid := fromEncoded_ok plainLibrary_lawful crowded_accepted
  have hshort := (fromEncoded_encoded plainLibrary_lawful hvalid).mp (h _ plainLibrary_lawful _ _ crowded_accepted).1
  have hlarge := (size_connections crowded).trans hshort
  rw [listSize_crowded] at hlarge
  exact absurd hlarge (by decide)

/-- `{}` and `{"limit":25}` -/
theorem small_filters_canonical : ∃ f f', fromEncoded plainLibrary (some (text "e30")) = .ok f ∧
    fromEncoded plainLibrary (some (text "eyJsaW1pdCI6MjV9")) = .ok f' ∧
      ((∃ t, encoded plainLibrary f = .ok t ∧ fromEncoded plainLibrary (some t) = .ok f) ↔ size f ≤ 6144) ∧
        (digest plainLibrary f = digest plainLibrary f' ↔ f = f') := by
  have hread : ∀ s, raised (fromEncoded plainLibrary (some s)) = none →
      ∃ f, fromEncoded plainLibrary (some s) = .ok f := by
    intro s hnone
    cases hresult : fromEncoded plainLibrary (some s) with
    | ok f => exact ⟨f, rfl⟩
    | error e =>
      rw [hresult] at hnone
      cases hnone
  obtain ⟨f, hf⟩ := hread (text "e30") (by decide +kernel)
  obtain ⟨f', hf'⟩ := hread (text "eyJsaW1pdCI6MjV9") (by decide +kernel)
  have hsha : Distinguished plainLibrary f f' := fun x x' _ _ heq => List.map_injective_iff.mpr (fun _ _ => UInt8.toNat_inj.mp) heq
  obtain ⟨hencoded, hdigest⟩ := filters_canonical_iff plainLibrary_lawful hf
  exact ⟨f, f', hf, hf', hencoded, hdigest _ f' hf' hsha⟩

end Solvan.Alerts.Requests

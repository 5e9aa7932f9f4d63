import Mathlib.Data.List.Sort
import Solvan.Base.Machine
import Solvan.Base.Table

/-! The events of a scope in the order of their sequence, the transactions that
record them, and the brief that is read from them. -/
namespace Solvan.Liaison

abbrev RecordKey := String × String

inductive AuthorityStatus where
  | observed | modelProposed | confirmed | reconciled | verified
deriving DecidableEq, Repr

inductive Classification where
  | publicClass | internal | confidential | restricted
deriving DecidableEq, Repr

/-- `_classification_rank` -/
def Classification.rank : Classification → Nat
  | .publicClass => 0
  | .internal => 1
  | .confidential => 2
  | .restricted => 3

/-- What is to be recorded of one event. -/
structure NewEvent where
  record : RecordKey
  eventKey : String
  phrase : String
  authorityStatus : AuthorityStatus
  reference : Option String
  occurredAt : Int
deriving DecidableEq, Repr

/-- A row of `liaison_scope_events`. -/
structure ScopeEventRow extends NewEvent where
  scopeSequence : Int
deriving DecidableEq, Repr

/-- What `UNIQUE` holds apart. -/
def NewEvent.key (e : NewEvent) : RecordKey × String := (e.record, e.eventKey)

/-- A row of `liaison_record_directory`. -/
structure DirectoryRow where
  record : RecordKey
  serviceKey : Option String
  classification : Classification
deriving DecidableEq, Repr

/-- A row of `liaison_record_edges`. -/
structure EdgeRow where
  parent : RecordKey
  child : RecordKey
  relation : String
deriving DecidableEq, Repr

/-- What is committed. -/
structure ScopeTables where
  nextSequence : Int
  events : List ScopeEventRow
  directory : List DirectoryRow
  edges : List EdgeRow
deriving DecidableEq

/-- Where a transaction is in `record_event`. -/
inductive RecordStage where
  | idle
  | selected (event : NewEvent)
  | allocated (event : NewEvent) (sequence : Int)
deriving DecidableEq

/-- An open transaction with what it has written. It holds the lock on the row of
`scope_event_sequences` once it has a `sequence`. -/
structure Writer where
  id : Nat
  sequence : Option Int
  stage : RecordStage
  events : List ScopeEventRow
  directory : List DirectoryRow
deriving DecidableEq

structure ScopeLog where
  tables : ScopeTables
  writers : List Writer
deriving DecidableEq

/-- `INSERT … ON CONFLICT … DO UPDATE` on the directory. -/
def upsert (row : DirectoryRow) (directory : List DirectoryRow) : List DirectoryRow :=
  if directory.any (fun d => d.record == row.record) then
    Table.update (fun d => d.record == row.record) (fun _ => row) directory
  else directory ++ [row]

/-- `sync_directory` -/
def syncDirectory (tables : ScopeTables) (rows : List DirectoryRow) : ScopeTables :=
  { tables with directory := rows.foldl (fun directory row => upsert row directory) tables.directory }

def ScopeTables.addressable (tables : ScopeTables) (record : RecordKey) : Bool :=
  tables.directory.any (fun d => d.record == record)

/-- `sync_edges`, which leaves out an edge whose ends are not both addressable. -/
def syncEdges (tables : ScopeTables) (rows : List EdgeRow) : ScopeTables :=
  { tables with
    edges := rows.foldl (fun edges row =>
      if tables.addressable row.parent && tables.addressable row.child && !edges.contains row then
        edges ++ [row]
      else edges) tables.edges }

/-- The statements of the transactions that fill the tables. -/
inductive LogMove where
  | begin (id : Nat)
  | select (id : Nat) (event : NewEvent)
  | allocate (id : Nat)
  | insert (id : Nat)
  | upsertDirectory (id : Nat) (row : DirectoryRow)
  | commit (id : Nat)
  | rollback (id : Nat)
  | syncDirectory (rows : List DirectoryRow)
  | syncEdges (rows : List EdgeRow)

/-- What a transaction sees: what is committed, and what it has written itself. -/
def Writer.records (w : Writer) (tables : ScopeTables) (event : NewEvent) : Bool :=
  (tables.events ++ w.events).any (fun e => e.toNewEvent.key == event.key)

def ScopeLog.setWriter (log : ScopeLog) (w : Writer) : ScopeLog :=
  { log with writers := Table.update (fun w' => w'.id == w.id) (fun _ => w) log.writers }

def ScopeLog.dropWriter (log : ScopeLog) (id : Nat) : ScopeLog :=
  { log with writers := log.writers.filter (fun w => w.id != id) }

/-- What is committed once a transaction is. -/
def Writer.commit (w : Writer) (tables : ScopeTables) : ScopeTables :=
  { tables with
    nextSequence := w.sequence.getD tables.nextSequence
    events := tables.events ++ w.events
    directory := w.directory.foldl (fun directory row => upsert row directory) tables.directory }

/-- One statement. A row lock that another transaction holds is waited for. -/
def ScopeLog.next (log : ScopeLog) : LogMove → Option ScopeLog
  | .begin id =>
    if log.writers.any (fun w => w.id == id) then none
    else some { log with writers := log.writers ++ [⟨id, none, .idle, [], []⟩] }
  | .select id event => do
    let w ← Table.find Writer.id id log.writers
    if w.stage ≠ .idle then none
    else if w.records log.tables event then some log
    else some (log.setWriter { w with stage := .selected event })
  | .allocate id => do
    let w ← Table.find Writer.id id log.writers
    match w.stage with
    | .selected event =>
      if log.writers.any (fun other => other.id != id && other.sequence.isSome) then none
      else
        let sequence := w.sequence.getD log.tables.nextSequence
        some (log.setWriter
          { w with
            sequence := some (sequence + 1)
            stage := .allocated event sequence })
    | _ => none
  | .insert id => do
    let w ← Table.find Writer.id id log.writers
    match w.stage with
    | .allocated event sequence =>
      if !(log.tables.directory ++ w.directory).any (fun d => d.record == event.record) then none
      else if w.records log.tables event then some (log.setWriter { w with stage := .idle })
      else
        some (log.setWriter
          { w with
            stage := .idle
            events := w.events ++ [{ event with scopeSequence := sequence }] })
    | _ => none
  | .upsertDirectory id row => do
    let w ← Table.find Writer.id id log.writers
    if w.stage ≠ .idle then none
    else some (log.setWriter { w with directory := w.directory ++ [row] })
  | .commit id => do
    let w ← Table.find Writer.id id log.writers
    if w.stage ≠ .idle then none
    else some { log.dropWriter id with tables := w.commit log.tables }
  | .rollback id => some (log.dropWriter id)
  | .syncDirectory rows => some { log with tables := Liaison.syncDirectory log.tables rows }
  | .syncEdges rows => some { log with tables := Liaison.syncEdges log.tables rows }

def ScopeLog.empty : ScopeLog := ⟨⟨1, [], [], []⟩, []⟩

/-- An anchor as `Anchor` validates it. -/
inductive Anchor where
  | record (record : RecordKey)
  | serviceWindow (serviceKey : String) (windowStart windowEnd : Int)
  | scope
deriving DecidableEq, Repr

structure Cursor where
  scopeSequence : Int
  policyEpoch : Int
deriving DecidableEq, Repr

structure Delta where
  sequence : Int
  record : RecordKey
  phrase : String
  authorityStatus : AuthorityStatus
  classification : Classification
  reference : Option String
  occurredAt : Int
deriving DecidableEq, Repr

structure CatchUp where
  deltas : List Delta
  cursor : Cursor
  remaining : Nat
  policyChanged : Bool
deriving DecidableEq, Repr

/-- `CATCHUP_MAX_DELTAS` -/
def catchupMaxDeltas : Nat := 50

/-- `_entity_filter` -/
def ScopeTables.entityFilter (tables : ScopeTables) (e : ScopeEventRow) : Anchor → Bool
  | .record anchor =>
    e.record == anchor || tables.edges.any (fun g =>
      g.parent == anchor && g.child == e.record || g.child == anchor && g.parent == e.record)
  | .serviceWindow serviceKey windowStart windowEnd =>
    tables.directory.any (fun d => d.record == e.record && d.serviceKey == some serviceKey) &&
      decide (windowStart ≤ e.occurredAt) && decide (e.occurredAt < windowEnd)
  | .scope => true

/-- The directory row an event is joined with, if the rows attach it to the anchor. -/
def ScopeTables.joined (tables : ScopeTables) (anchor : Anchor) (e : ScopeEventRow) :
    Option DirectoryRow :=
  if tables.entityFilter e anchor then Table.find DirectoryRow.record e.record tables.directory
  else none

def ScopeEventRow.delta (e : ScopeEventRow) (d : DirectoryRow) : Delta where
  sequence := e.scopeSequence
  record := e.record
  phrase := e.phrase
  authorityStatus := e.authorityStatus
  classification := d.classification
  reference := e.reference
  occurredAt := e.occurredAt

/-- The rows of the query, in the order of their sequence. -/
def ScopeTables.rows (tables : ScopeTables) (anchor : Anchor) (since : Int) :
    List (ScopeEventRow × DirectoryRow) :=
  ((tables.events.filter (fun e => decide (since < e.scopeSequence))).filterMap (fun e =>
    (tables.joined anchor e).map (fun d => (e, d)))).insertionSort
      (fun a b => a.1.scopeSequence ≤ b.1.scopeSequence)

/-- What the loop of `catch_up` carries along. -/
structure BriefPage where
  deltas : List Delta
  highWater : Int
  remaining : Nat

/-- One row of the loop. -/
def BriefPage.row (authorizedRecords : List RecordKey) (limit : Nat) (page : BriefPage)
    (row : ScopeEventRow × DirectoryRow) : BriefPage :=
  let page := { page with highWater := max page.highWater row.1.scopeSequence }
  if !authorizedRecords.contains row.1.record then page
  else if limit ≤ page.deltas.length then { page with remaining := page.remaining + 1 }
  else { page with deltas := page.deltas ++ [row.1.delta row.2] }

/-- `catch_up` -/
def catchUp (tables : ScopeTables) (anchor : Anchor) (cursor : Cursor)
    (authorizedRecords : List RecordKey) (policyEpoch : Int) (limit : Nat) : CatchUp :=
  if cursor.policyEpoch ≠ policyEpoch then
    { deltas := []
      cursor := ⟨cursor.scopeSequence, policyEpoch⟩
      remaining := 0
      policyChanged := true }
  else
    let page := (tables.rows anchor cursor.scopeSequence).foldl
      (BriefPage.row authorizedRecords limit) ⟨[], cursor.scopeSequence, 0⟩
    let highWater :=
      if page.remaining = 0 then page.highWater
      else (page.deltas.getLast?.map Delta.sequence).getD cursor.scopeSequence
    { deltas := page.deltas
      cursor := ⟨highWater, policyEpoch⟩
      remaining := page.remaining
      policyChanged := false }

end Solvan.Liaison

import GfrGuard.Lib.Table
import GfrGuard.Protocol

/-!
# The index database

The three tables the daemon and the recovery tool share: the events, the preimages of an
event (`protected_files`) and the files created during it (`created_files`). Text columns
hold C strings. Every statement is modelled on the rows it touches; the statements succeed.
A row of `protected_files` is unique for its event and path, an event for its id.
-/

namespace GfrGuard

/-! ## Rows -/

/-- A row of `events`, `struct rguard_event_record`. -/
structure EventRow where
  id : Nat
  eventId : CStr
  sessionKey : CStr
  username : CStr
  clientIp : CStr
  pname : CStr
  sourceType : Int
  startedAt : CStr
  endedAt : Option CStr
  filesProtected : Int
  filesAffected : Int
  peakRiskScore : Int
  actionTaken : CStr
  status : CStr
deriving DecidableEq

/-- A row of `protected_files`, `struct rguard_protected_file`. -/
structure ProtectedFile where
  id : Nat
  eventId : CStr
  originalPath : CStr
  backupPath : CStr
  shareName : CStr
  username : CStr
  clientIp : CStr
  inode : UInt64
  mtime : Int
  fileSize : UInt64
  fileUid : UInt32
  fileGid : UInt32
  fileMode : UInt32
  opType : UInt8
  protectedAt : CStr
  restoreStatus : CStr
  restoredAt : Option CStr
deriving DecidableEq

/-- A row of `created_files`. -/
structure CreatedFile where
  id : Nat
  eventId : CStr
  filePath : CStr
  shareName : CStr
  username : CStr
  clientIp : CStr
  createdAt : CStr
deriving DecidableEq

/-- The database: the tables, and the row ids handed out so far. -/
structure Db where
  events : List EventRow
  protectedFiles : List ProtectedFile
  createdFiles : List CreatedFile
  eventSeq : Nat
  protectedSeq : Nat
  createdSeq : Nat

/-- A database after `db_open` created its tables. -/
def Db.empty : Db := ⟨[], [], [], 0, 0, 0⟩

/-- The unique key of `protected_files`. -/
def ProtectedFile.key (pf : ProtectedFile) : CStr × CStr := (pf.eventId, pf.originalPath)

namespace Db

/-- An event has a row. -/
def hasEvent (db : Db) (eventId : CStr) : Bool := db.events.any (·.eventId = eventId)

/-- A preimage of a path is recorded under an event. -/
def hasProtected (db : Db) (eventId path : CStr) : Bool :=
  db.protectedFiles.any (·.key = (eventId, path))

theorem hasProtected_iff {db : Db} {eventId path : CStr} :
    db.hasProtected eventId path = true ↔
      ∃ pf ∈ db.protectedFiles, pf.key = (eventId, path) := by
  simp [hasProtected]

/-! ## Events -/

/-- The event columns with a default: `db_insert_event` and `db_upsert_event` bind it for an
empty string. -/
def orDefault (s deflt : CStr) : CStr := if s = [] then deflt else s

/-- The row an event record is inserted as. -/
def eventRow (db : Db) (ev : EventRow) : EventRow :=
  { ev with
    id := db.eventSeq + 1
    -- an empty string is bound as NULL
    endedAt := ev.endedAt.filter (· ≠ [])
    actionTaken := orDefault ev.actionTaken (lit "none")
    status := orDefault ev.status (lit "active") }

/-- `db_insert_event`: nothing happens when the event has a row. -/
def insertEvent (db : Db) (ev : EventRow) : Db :=
  if db.hasEvent ev.eventId then db
  else { db with events := db.events ++ [db.eventRow ev], eventSeq := db.eventSeq + 1 }

/-- The conflict clause of `db_upsert_event`. -/
def mergeEvent (old new : EventRow) : EventRow :=
  { new with
    id := old.id
    sourceType := if new.sourceType = 0 then old.sourceType else new.sourceType
    endedAt := new.endedAt.or old.endedAt
    filesProtected := max old.filesProtected new.filesProtected
    filesAffected := max old.filesAffected new.filesAffected
    peakRiskScore := max old.peakRiskScore new.peakRiskScore }

/-- `db_upsert_event`: insert, or merge into the row of the event. An empty id is refused. -/
def upsertEvent (db : Db) (ev : EventRow) : Db :=
  if ev.eventId = [] then db
  else if db.hasEvent ev.eventId then
    { db with events := db.events.map fun old =>
        if old.eventId = ev.eventId then mergeEvent old (db.eventRow ev) else old }
  else { db with events := db.events ++ [db.eventRow ev], eventSeq := db.eventSeq + 1 }

/-- The SET clause of `db_update_event` on one row. -/
def updateRow (filesProtected filesAffected peak : Int)
    (action status endedAt : Option CStr) (ev : EventRow) : EventRow :=
  { ev with
    filesProtected := max ev.filesProtected filesProtected
    filesAffected := max ev.filesAffected filesAffected
    peakRiskScore := max ev.peakRiskScore peak
    actionTaken := (action.filter (· ≠ [])).getD ev.actionTaken
    status := (status.filter (· ≠ [])).getD ev.status
    endedAt := (endedAt.filter (· ≠ [])).or ev.endedAt }

/-- `db_update_event`: no row, no effect. -/
def updateEvent (db : Db) (eventId : CStr) (filesProtected filesAffected peak : Int)
    (action status endedAt : Option CStr) : Db :=
  { db with events := db.events.map fun ev =>
      if ev.eventId = eventId then
        updateRow filesProtected filesAffected peak action status endedAt ev
      else ev }

/-- `db_get_max_daily_seq`: the largest number after `evt-<date>-` over the events of the
day, 0 when there is none. `LIKE` compares letters without case. -/
def maxDailySeq (db : Db) (date : CStr) : Int :=
  let stem := lit "evt-" ++ date
  let ofDay := db.events.filter fun ev =>
    ((stem ++ [dash]).map toLower).isPrefixOf (ev.eventId.map toLower)
  match ofDay.map fun ev => atoi (ev.eventId.drop (stem.length + 1)) with
  | [] => 0
  | n :: ns => ns.foldl max n

/-! ## Preimages and created files -/

/-- `db_insert_protected_file`: ignored when the event already has a row for the path. -/
def insertProtectedFile (db : Db) (pf : ProtectedFile) : Db :=
  { db with
    protectedFiles := UniqueTable.insertOrIgnore ProtectedFile.key
      { pf with id := db.protectedSeq + 1 } db.protectedFiles
    protectedSeq :=
      if db.hasProtected pf.eventId pf.originalPath then db.protectedSeq else db.protectedSeq + 1 }

/-- `db_insert_created_file`. -/
def insertCreatedFile (db : Db) (cf : CreatedFile) : Db :=
  { db with
    createdFiles := db.createdFiles ++ [{ cf with id := db.createdSeq + 1 }]
    createdSeq := db.createdSeq + 1 }

/-- `db_update_restore_status`. -/
def updateRestoreStatus (db : Db) (id : Nat) (status restoredAt : CStr) : Db :=
  { db with protectedFiles := db.protectedFiles.map fun pf =>
      if pf.id = id then { pf with restoreStatus := status, restoredAt := some restoredAt }
      else pf }

/-- The rows `db_query_by_event` hands to its callback. -/
def queryByEvent (db : Db) (eventId : CStr) : List ProtectedFile :=
  db.protectedFiles.filter (·.eventId = eventId)

/-- The rows `db_query_created_by_event` hands to its callback. -/
def queryCreatedByEvent (db : Db) (eventId : CStr) : List CreatedFile :=
  db.createdFiles.filter (·.eventId = eventId)

/-! ## Tables a statement leaves alone -/

@[simp] theorem insertEvent_protectedFiles (db : Db) (ev : EventRow) :
    (db.insertEvent ev).protectedFiles = db.protectedFiles := by
  unfold insertEvent; split <;> rfl

@[simp] theorem insertEvent_createdFiles (db : Db) (ev : EventRow) :
    (db.insertEvent ev).createdFiles = db.createdFiles := by
  unfold insertEvent; split <;> rfl

@[simp] theorem upsertEvent_protectedFiles (db : Db) (ev : EventRow) :
    (db.upsertEvent ev).protectedFiles = db.protectedFiles := by
  unfold upsertEvent; split_ifs <;> rfl

@[simp] theorem upsertEvent_createdFiles (db : Db) (ev : EventRow) :
    (db.upsertEvent ev).createdFiles = db.createdFiles := by
  unfold upsertEvent; split_ifs <;> rfl

/-- A preimage insertion appends at most one row. -/
theorem insertProtectedFile_isPrefix (db : Db) (pf : ProtectedFile) :
    db.protectedFiles <+: (db.insertProtectedFile pf).protectedFiles := by
  show _ <+: UniqueTable.insertOrIgnore _ _ _
  unfold UniqueTable.insertOrIgnore
  split
  · exact List.prefix_refl _
  · exact List.prefix_append _ _

/-- After a preimage insertion the event has a row for the path. -/
theorem hasProtected_insertProtectedFile (db : Db) (pf : ProtectedFile) :
    (db.insertProtectedFile pf).hasProtected pf.eventId pf.originalPath = true :=
  hasProtected_iff.2 (UniqueTable.exists_key_insertOrIgnore ProtectedFile.key
    { pf with id := db.protectedSeq + 1 } db.protectedFiles)

/-! ## Events keep their rows -/

theorem hasEvent_updateEvent (db : Db) (eventId : CStr) (p a k : Int)
    (action status endedAt : Option CStr) (id : CStr) :
    (db.updateEvent eventId p a k action status endedAt).hasEvent id = db.hasEvent id := by
  simp only [hasEvent, updateEvent, List.any_map]
  congr 1
  funext ev
  simp only [Function.comp_apply]
  split <;> rfl

theorem hasEvent_insertEvent (db : Db) (ev : EventRow) (id : CStr) :
    (db.insertEvent ev).hasEvent id = (db.hasEvent id || ev.eventId = id) := by
  unfold insertEvent
  split
  · next h =>
    by_cases hid : ev.eventId = id
    · subst hid; simp [h]
    · simp [hid]
  · simp [hasEvent, eventRow]

theorem hasEvent_upsertEvent (db : Db) (ev : EventRow) (hne : ev.eventId ≠ []) (id : CStr) :
    (db.upsertEvent ev).hasEvent id = (db.hasEvent id || ev.eventId = id) := by
  unfold upsertEvent
  rw [if_neg hne]
  split
  · next h =>
    have hmap : ∀ old : EventRow,
        (if old.eventId = ev.eventId then mergeEvent old (db.eventRow ev) else old).eventId =
          old.eventId := fun old => by
      split
      · next hold => exact hold.symm
      · rfl
    have hsame : List.any (db.events.map fun old =>
        if old.eventId = ev.eventId then mergeEvent old (db.eventRow ev) else old)
        (·.eventId = id) = db.hasEvent id := by
      rw [List.any_map, hasEvent]
      congr 1
      funext old
      simp only [Function.comp_apply, hmap]
    show List.any _ _ = _
    rw [hsame]
    by_cases hid : ev.eventId = id
    · subst hid; simp [h]
    · simp [hid]
  · simp [hasEvent, eventRow]

@[simp] theorem hasEvent_insertProtectedFile (db : Db) (pf : ProtectedFile) (id : CStr) :
    (db.insertProtectedFile pf).hasEvent id = db.hasEvent id := rfl

@[simp] theorem hasEvent_insertCreatedFile (db : Db) (cf : CreatedFile) (id : CStr) :
    (db.insertCreatedFile cf).hasEvent id = db.hasEvent id := rfl

end Db

end GfrGuard

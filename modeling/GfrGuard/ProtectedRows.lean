import GfrGuard.Db

/-!
# Protected files in the database and back

A record is bound to the sixteen places of an `INSERT`, and read back by position from the columns of
a `SELECT`. The lists are written apart, so the model keeps them as the source has them: the columns
the insertion names, what is bound to them, the columns selected, and the decoder. The selection
leaves `op_type` out, so a record comes back as it was exactly when it has none (`round_trips_iff`).
-/

namespace GfrGuard

/-- The columns of `protected_files`. -/
inductive PfColumn where
  | id
  | eventId
  | originalPath
  | backupPath
  | shareName
  | username
  | clientIp
  | inode
  | mtime
  | fileSize
  | fileUid
  | fileGid
  | fileMode
  | opType
  | protectedAt
  | restoreStatus
  | restoredAt
deriving DecidableEq

/-- What a column holds. -/
inductive SqlValue where
  | null
  | integer (n : Int64)
  | text (s : CStr)
deriving DecidableEq

/-- `struct rguard_protected_file`. -/
@[ext] structure PfRecord where
  id : Int64
  eventId : CBuf 64
  originalPath : CBuf pathMax
  backupPath : CBuf pathMax
  shareName : CBuf 64
  username : CBuf 64
  clientIp : CBuf 48
  inode : Int64
  mtime : Int64
  fileSize : Int64
  fileUid : Int32
  fileGid : Int32
  fileMode : Int32
  opType : Int32
  protectedAt : CBuf 40
  restoreStatus : CBuf 16
  restoredAt : CBuf 40
deriving DecidableEq

/-- A row, by column. -/
abbrev PfRow := PfColumn → SqlValue

/-! ## The insertion -/

/-- The columns the insertion names. -/
def insertColumns : List PfColumn :=
  [.eventId, .originalPath, .backupPath, .shareName, .username, .clientIp, .inode, .mtime, .fileSize, .fileUid,
    .fileGid, .fileMode, .opType, .protectedAt, .restoreStatus, .restoredAt]

/-- What is bound, from the first place on. -/
def bindProtectedFile (pf : PfRecord) : List SqlValue :=
  [.text pf.eventId.str, .text pf.originalPath.str, .text pf.backupPath.str, .text pf.shareName.str,
    .text pf.username.str, .text pf.clientIp.str, .integer pf.inode, .integer pf.mtime, .integer pf.fileSize,
    .integer pf.fileUid.toInt64, .integer pf.fileGid.toInt64, .integer pf.fileMode.toInt64,
    .integer pf.opType.toInt64, .text pf.protectedAt.str,
    .text (if pf.restoreStatus.str = [] then lit "pending" else pf.restoreStatus.str),
    if pf.restoredAt.str = [] then .null else .text pf.restoredAt.str]

/-- The `DEFAULT` of a column that is not bound. -/
def PfColumn.default : PfColumn → SqlValue
  | .opType => .integer 0
  | .restoreStatus => .text (lit "pending")
  | _ => .null

/-- The row of an insertion. -/
def insertedRow (id : Int64) (pf : PfRecord) : PfRow := fun column =>
  if column = .id then .integer id
  else (((insertColumns.zip (bindProtectedFile pf)).find? (·.1 = column)).map Prod.snd).getD column.default

/-- `UNIQUE(event_id, original_path)`. -/
def PfRow.key (row : PfRow) : SqlValue × SqlValue := (row .eventId, row .originalPath)

/-- The key of a row was in a record. -/
def PfRow.KeyFits (row : PfRow) : Prop :=
  ∃ pf : PfRecord, row.key = (.text pf.eventId.str, .text pf.originalPath.str)

/-- The table: its rows, and the last id. -/
structure PfTable where
  rows : List PfRow
  seq : Int64
  keysFit : ∀ row ∈ rows, row.KeyFits

theorem key_insertedRow (id : Int64) (pf : PfRecord) :
    PfRow.key (insertedRow id pf) = (.text pf.eventId.str, .text pf.originalPath.str) := rfl

theorem PfTable.keysFit_insert (t : PfTable) (id : Int64) (pf : PfRecord) :
    ∀ row ∈ UniqueTable.insertOrIgnore PfRow.key (insertedRow id pf) t.rows, row.KeyFits := by
  intro row hrow
  unfold UniqueTable.insertOrIgnore at hrow
  split at hrow
  · exact t.keysFit row hrow
  · rcases List.mem_append.1 hrow with hrow | hrow
    · exact t.keysFit row hrow
    · exact ⟨pf, by rw [List.mem_singleton.1 hrow, key_insertedRow]⟩

/-- `db_insert_protected_file`, when the statement runs. -/
def dbInsertProtectedFile (t : PfTable) (pf : PfRecord) : PfTable where
  rows := UniqueTable.insertOrIgnore PfRow.key (insertedRow (t.seq + 1) pf) t.rows
  seq := if t.rows.any (PfRow.key · = PfRow.key (insertedRow (t.seq + 1) pf)) then t.seq else t.seq + 1
  keysFit := t.keysFit_insert (t.seq + 1) pf

/-! ## The queries -/

/-- `COALESCE(value, '')`. -/
def SqlValue.orEmpty : SqlValue → SqlValue
  | .null => .text []
  | value => value

/-- `PF_SELECT_COLS`. -/
def pfSelectCols (row : PfRow) : List SqlValue :=
  [row .id, row .eventId, row .originalPath, row .backupPath, row .shareName, row .username, row .clientIp,
    row .inode, row .mtime, row .fileSize, row .fileUid, row .fileGid, row .fileMode, row .protectedAt,
    row .restoreStatus, (row .restoredAt).orEmpty]

/-- `sqlite3_column_text`, of a column that holds text or nothing. -/
def columnText (st : List SqlValue) (i : Nat) : Option CStr :=
  match st[i]? with
  | some (.text s) => some s
  | _ => none

/-- `sqlite3_column_int64`, of a column that holds an integer or nothing. -/
def columnInt64 (st : List SqlValue) (i : Nat) : Int64 :=
  match st[i]? with
  | some (.integer n) => n
  | _ => 0

/-- `sqlite3_column_int`. -/
def columnInt (st : List SqlValue) (i : Nat) : Int32 := (columnInt64 st i).toInt32

/-- `SCOPY`, into a zeroed field. -/
def scopy (n : Nat) [NeZero n] (st : List SqlValue) (i : Nat) : CBuf n :=
  match columnText st i with
  | none => .empty n
  | some s => .ofStr n s

/-- `row_to_pf`. -/
def rowToPf (st : List SqlValue) : PfRecord where
  id := columnInt64 st 0
  eventId := scopy 64 st 1
  originalPath := scopy pathMax st 2
  backupPath := scopy pathMax st 3
  shareName := scopy 64 st 4
  username := scopy 64 st 5
  clientIp := scopy 48 st 6
  inode := columnInt64 st 7
  mtime := columnInt64 st 8
  fileSize := columnInt64 st 9
  fileUid := columnInt st 10
  fileGid := columnInt st 11
  fileMode := columnInt st 12
  -- only zeroed
  opType := 0
  protectedAt := scopy 40 st 13
  restoreStatus := scopy 16 st 14
  restoredAt := scopy 40 st 15

/-- The records `db_query_by_event` hands to a callback that takes them all. -/
def dbQueryByEvent (t : PfTable) (eventId : CStr) : List PfRecord :=
  (t.rows.filter (· .eventId = .text eventId)).map fun row => rowToPf (pfSelectCols row)

/-- The records `db_query_by_path` hands to a callback that takes them all. -/
def dbQueryByPath (t : PfTable) (path : CStr) : List PfRecord :=
  (t.rows.filter (· .originalPath = .text path)).map fun row => rowToPf (pfSelectCols row)

section
variable {t : PfTable} {pf : PfRecord} {id : Int64} {row : PfRow}

/-- The event has a row for the path. -/
def PfTable.Taken (t : PfTable) (pf : PfRecord) : Prop :=
  ∃ row ∈ t.rows, PfRow.key row = (.text pf.eventId.str, .text pf.originalPath.str)

/-- A new record comes back once from either query, and a known one changes nothing. -/
structure PfRoundTrips (t : PfTable) (pf : PfRecord) : Prop where
  kept : t.Taken pf → (dbInsertProtectedFile t pf).rows = t.rows
  back : pf.restoreStatus.str ≠ [] → ¬ t.Taken pf → ∃ id,
    (dbQueryByEvent (dbInsertProtectedFile t pf) pf.eventId.str).filter (·.originalPath = pf.originalPath) =
      [{ pf with id := id }] ∧
    (dbQueryByPath (dbInsertProtectedFile t pf) pf.originalPath.str).filter (·.eventId = pf.eventId) =
      [{ pf with id := id }]

/-! ## A row and its record -/

theorem scopy_of_text {n : Nat} [NeZero n] {st : List SqlValue} {i : Nat} {b : CBuf n}
    (h : st[i]? = some (.text b.str)) : scopy n st i = b := by
  unfold scopy columnText
  rw [h]
  exact CBuf.ofStr_str b

theorem scopy_restoredAt (id : Int64) : scopy 40 (pfSelectCols (insertedRow id pf)) 15 = pf.restoredAt := by
  have hcolumn : (pfSelectCols (insertedRow id pf))[15]? =
      some (SqlValue.orEmpty (if pf.restoredAt.str = [] then .null else .text pf.restoredAt.str)) := rfl
  refine scopy_of_text (hcolumn.trans ?_)
  split
  · next hempty => rw [hempty]; rfl
  · rfl

theorem scopy_restoreStatus (id : Int64) (hstatus : pf.restoreStatus.str ≠ []) :
    scopy 16 (pfSelectCols (insertedRow id pf)) 14 = pf.restoreStatus := by
  have hcolumn : (pfSelectCols (insertedRow id pf))[14]? =
      some (.text (if pf.restoreStatus.str = [] then lit "pending" else pf.restoreStatus.str)) := rfl
  rw [if_neg hstatus] at hcolumn
  exact scopy_of_text hcolumn

/-- What comes back of a row: all of the record, but `op_type`. -/
theorem rowToPf_insertedRow (id : Int64) (hstatus : pf.restoreStatus.str ≠ []) :
    rowToPf (pfSelectCols (insertedRow id pf)) = { pf with id := id, opType := 0 } := by
  have htext : ∀ {n : Nat} [NeZero n] (i : Nat) (b : CBuf n),
      (pfSelectCols (insertedRow id pf))[i]? = some (.text b.str) →
        scopy n (pfSelectCols (insertedRow id pf)) i = b := fun i b h => scopy_of_text h
  apply PfRecord.ext
  case id | inode | mtime | fileSize | opType => rfl
  case eventId => exact htext 1 pf.eventId rfl
  case originalPath => exact htext 2 pf.originalPath rfl
  case backupPath => exact htext 3 pf.backupPath rfl
  case shareName => exact htext 4 pf.shareName rfl
  case username => exact htext 5 pf.username rfl
  case clientIp => exact htext 6 pf.clientIp rfl
  case protectedAt => exact htext 13 pf.protectedAt rfl
  case fileUid | fileGid | fileMode => exact Int32.toInt32_toInt64 _
  case restoreStatus => exact scopy_restoreStatus id hstatus
  case restoredAt => exact scopy_restoredAt id

/-! ## The queries after an insertion -/

theorem rows_insert_of_taken (h : t.Taken pf) : (dbInsertProtectedFile t pf).rows = t.rows :=
  UniqueTable.insertOrIgnore_of_taken h

theorem rows_insert_of_free (h : ¬ t.Taken pf) :
    (dbInsertProtectedFile t pf).rows = t.rows ++ [insertedRow (t.seq + 1) pf] :=
  UniqueTable.insertOrIgnore_of_free fun row hrow hkey => h ⟨row, hrow, hkey⟩

/-- A delivered record names the event and the path of its row. -/
theorem rowToPf_key (h : row.KeyFits) :
    row.key = (.text (rowToPf (pfSelectCols row)).eventId.str, .text (rowToPf (pfSelectCols row)).originalPath.str) := by
  obtain ⟨pf, hkey⟩ := h
  obtain ⟨hevent, hpath⟩ := Prod.mk.inj hkey
  have hevent' : (rowToPf (pfSelectCols row)).eventId = pf.eventId :=
    scopy_of_text (congrArg some hevent : (pfSelectCols row)[1]? = _)
  have hpath' : (rowToPf (pfSelectCols row)).originalPath = pf.originalPath :=
    scopy_of_text (congrArg some hpath : (pfSelectCols row)[2]? = _)
  rw [hevent', hpath', hkey]

/-- Of a table without the key, no record with it is delivered. -/
theorem not_delivered_of_free (h : ¬ t.Taken pf) (hrow : row ∈ t.rows) :
    ¬ ((rowToPf (pfSelectCols row)).eventId = pf.eventId ∧
      (rowToPf (pfSelectCols row)).originalPath = pf.originalPath) := by
  rintro ⟨hevent, hpath⟩
  have hkey := rowToPf_key (t.keysFit row hrow)
  rw [hevent, hpath] at hkey
  exact h ⟨row, hrow, hkey⟩

theorem queryByEvent_of_free (h : ¬ t.Taken pf) :
    (dbQueryByEvent t pf.eventId.str).filter (·.originalPath = pf.originalPath) = [] := by
  rw [List.filter_eq_nil_iff]
  intro found hfound hpath
  obtain ⟨row, hrow, rfl⟩ := List.mem_map.1 hfound
  rw [List.mem_filter, decide_eq_true_eq] at hrow
  have hkey := rowToPf_key (t.keysFit row hrow.1)
  have hevent := (Prod.mk.inj hkey).1.symm.trans hrow.2
  exact not_delivered_of_free h hrow.1 ⟨CBuf.ext (SqlValue.text.inj hevent), of_decide_eq_true hpath⟩

theorem queryByPath_of_free (h : ¬ t.Taken pf) :
    (dbQueryByPath t pf.originalPath.str).filter (·.eventId = pf.eventId) = [] := by
  rw [List.filter_eq_nil_iff]
  intro found hfound hevent
  obtain ⟨row, hrow, rfl⟩ := List.mem_map.1 hfound
  rw [List.mem_filter, decide_eq_true_eq] at hrow
  have hkey := rowToPf_key (t.keysFit row hrow.1)
  have hpath := (Prod.mk.inj hkey).2.symm.trans hrow.2
  exact not_delivered_of_free h hrow.1 ⟨of_decide_eq_true hevent, CBuf.ext (SqlValue.text.inj hpath)⟩

/-- The two queries deliver a new record once, without its `op_type`. -/
theorem queries_insert (h : ¬ t.Taken pf) (hstatus : pf.restoreStatus.str ≠ []) :
    (dbQueryByEvent (dbInsertProtectedFile t pf) pf.eventId.str).filter (·.originalPath = pf.originalPath) =
      [{ pf with id := t.seq + 1, opType := 0 }] ∧
    (dbQueryByPath (dbInsertProtectedFile t pf) pf.originalPath.str).filter (·.eventId = pf.eventId) =
      [{ pf with id := t.seq + 1, opType := 0 }] := by
  have hback := rowToPf_insertedRow (t.seq + 1) hstatus
  have hevent : insertedRow (t.seq + 1) pf .eventId = .text pf.eventId.str := rfl
  have hpath : insertedRow (t.seq + 1) pf .originalPath = .text pf.originalPath.str := rfl
  constructor
  · unfold dbQueryByEvent
    rw [rows_insert_of_free h, List.filter_append, List.map_append, List.filter_append]
    exact (congrArg (· ++ _) (queryByEvent_of_free h)).trans (by simp [hevent, hback])
  · unfold dbQueryByPath
    rw [rows_insert_of_free h, List.filter_append, List.map_append, List.filter_append]
    exact (congrArg (· ++ _) (queryByPath_of_free h)).trans (by simp [hpath, hback])

/-- A record makes the round trip exactly when it has no `op_type`, is already known, or has no
status of its own. -/
theorem round_trips_iff (t : PfTable) (pf : PfRecord) :
    PfRoundTrips t pf ↔ (pf.restoreStatus.str ≠ [] → ¬ t.Taken pf → pf.opType = 0) := by
  constructor
  · intro h hstatus hfree
    obtain ⟨id, hevent, -⟩ := h.back hstatus hfree
    rw [(queries_insert hfree hstatus).1, List.singleton_inj] at hevent
    exact (congrArg PfRecord.opType hevent).symm
  · refine fun h => ⟨rows_insert_of_taken, fun hstatus hfree => ⟨t.seq + 1, ?_⟩⟩
    have hback := queries_insert hfree hstatus
    rw [← h hstatus hfree] at hback
    exact hback

end

/-- A renamed file. -/
def renamedRecord : PfRecord where
  id := 0
  eventId := .ofStr 64 (lit "evt-rt")
  originalPath := .ofStr pathMax (lit "/share/docs/report.docx")
  backupPath := .ofStr pathMax (lit "/tmp/b")
  shareName := .ofStr 64 (lit "s")
  username := .ofStr 64 (lit "u")
  clientIp := .ofStr 48 (lit "1.1.1.1")
  inode := 1234567
  mtime := 1752000000
  fileSize := 987654
  fileUid := 1000
  fileGid := 1001
  fileMode := 33184
  opType := 3
  protectedAt := .ofStr 40 (lit "2026-07-19 10:00:00")
  restoreStatus := .ofStr 16 (lit "pending")
  restoredAt := .empty 40

def emptyPfTable : PfTable where
  rows := []
  seq := 0
  keysFit := List.forall_mem_nil _

/-- Its `op_type` does not come back. -/
theorem op_type_lost : ¬ PfRoundTrips emptyPfTable renamedRecord := by
  intro h
  have hfree : ¬ emptyPfTable.Taken renamedRecord := fun ⟨row, hrow, _⟩ => List.not_mem_nil hrow
  obtain ⟨id, hback, -⟩ := h.back (by decide) hfree
  rw [(queries_insert hfree (by decide)).1, List.singleton_inj] at hback
  have hop : (0 : Int32) = 3 := congrArg PfRecord.opType hback
  exact absurd hop (by decide)

end GfrGuard

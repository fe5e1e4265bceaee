import Mathlib.Data.Int.Order.Basic
import GfrGuard.Lib.Runs
import GfrGuard.Db

/-!
# The events table

Three statements write it: an insertion that ignores an event with a row, an upsert that merges into
the row, and an update of the row. Each is a change of the rows of one event (`EventCall.events_run`).
Whatever sequence of them runs, the statistics of an event do not go back
(`event_statistics_never_regress`).
-/

namespace GfrGuard

/-- A call that writes the events table. -/
inductive EventCall where
  /-- `db_insert_event`. -/
  | insert (ev : EventRow)
  /-- `db_upsert_event`. -/
  | upsert (ev : EventRow)
  /-- `db_update_event`. -/
  | update (eventId : CStr) (filesProtected filesAffected peak : Int)
      (action status endedAt : Option CStr)

namespace EventCall

/-- The event it is about. -/
def eventId : EventCall → CStr
  | insert ev | upsert ev => ev.eventId
  | update eventId .. => eventId

/-- The database after it. -/
def run (db : Db) : EventCall → Db
  | insert ev => db.insertEvent ev
  | upsert ev => db.upsertEvent ev
  | update eventId filesProtected filesAffected peak action status endedAt =>
    db.updateEvent eventId filesProtected filesAffected peak action status endedAt

/-- What it makes of the row of the event. -/
def rewrite (db : Db) : EventCall → EventRow → EventRow
  | insert _ => id
  | upsert ev => fun old => if ev.eventId = [] then old else Db.mergeEvent old (db.eventRow ev)
  | update _ filesProtected filesAffected peak action status endedAt =>
    Db.updateRow filesProtected filesAffected peak action status endedAt

/-- The row it adds where the event has none. -/
def newRow (db : Db) : EventCall → Option EventRow
  | insert ev => some (db.eventRow ev)
  | upsert ev => if ev.eventId = [] then none else some (db.eventRow ev)
  | update .. => none

end EventCall

/-- The rows of an event. -/
def Db.rowsOf (db : Db) (eventId : CStr) : List EventRow :=
  UniqueTable.rowsOf EventRow.eventId eventId db.events

/-- The statistics of a row do not go back. -/
structure EventRow.Statistics (old new : EventRow) : Prop where
  filesProtected : old.filesProtected ≤ new.filesProtected
  filesAffected : old.filesAffected ≤ new.filesAffected
  peakRiskScore : old.peakRiskScore ≤ new.peakRiskScore
  sourceType : old.sourceType ≠ 0 → new.sourceType ≠ 0
  endedAt : old.endedAt.isSome → new.endedAt.isSome

/-- What a sequence of calls leaves of the events. -/
structure EventsKept (calls : List EventCall) (db db' : Db) : Prop where
  /-- An event with a row keeps it, and its statistics do not go back. -/
  statistics : ∀ eventId, db.rowsOf eventId ≠ [] →
    List.Forall₂ EventRow.Statistics (db.rowsOf eventId) (db'.rowsOf eventId)
  /-- No event gets a second row. -/
  single : ∀ eventId, (db'.rowsOf eventId).length ≤ max 1 (db.rowsOf eventId).length
  /-- The events no call is about are left as they were. -/
  others : ∀ eventId, (∀ c ∈ calls, c.eventId ≠ eventId) → db'.rowsOf eventId = db.rowsOf eventId

section
variable {db : Db} {c : EventCall} {old : EventRow} {id : CStr}

/-! ## One call -/

theorem EventCall.eventId_rewrite (h : old.eventId = c.eventId) :
    (c.rewrite db old).eventId = c.eventId := by
  cases c with
  | insert ev => exact h
  | upsert ev =>
    unfold EventCall.rewrite
    dsimp only
    split
    · exact h
    · rfl
  | update => exact h

theorem EventCall.eventId_newRow : ∀ new ∈ c.newRow db, new.eventId = c.eventId := by
  intro new hnew
  cases c with
  | insert ev =>
    cases hnew
    rfl
  | upsert ev =>
    unfold EventCall.newRow at hnew
    dsimp only at hnew
    split at hnew
    · cases hnew
    · cases hnew
      rfl
  | update => cases hnew

/-- Every call is a change of the rows of its event. -/
theorem EventCall.events_run (c : EventCall) (db : Db) : (c.run db).events =
    UniqueTable.change EventRow.eventId c.eventId (c.rewrite db) (c.newRow db) db.events := by
  have hsame (id : CStr) : (db.events.map fun r => if r.eventId = id then r else r) = db.events := by
    simp
  cases c with
  | insert ev =>
    show (db.insertEvent ev).events = UniqueTable.change _ ev.eventId (fun r => r) _ _
    unfold Db.insertEvent
    cases htaken : db.hasEvent ev.eventId with
    | true =>
      rw [UniqueTable.change_of_taken (.inl htaken), hsame]
      rfl
    | false => rw [UniqueTable.change_of_free htaken]; rfl
  | upsert ev =>
    show (db.upsertEvent ev).events = UniqueTable.change _ ev.eventId _ _ _
    unfold Db.upsertEvent EventCall.rewrite EventCall.newRow
    dsimp only
    by_cases hnil : ev.eventId = []
    · simp only [if_pos hnil]
      rw [UniqueTable.change_of_taken (.inr rfl), hsame]
    · simp only [if_neg hnil]
      cases htaken : db.hasEvent ev.eventId with
      | true => rw [UniqueTable.change_of_taken (.inl htaken)]; rfl
      | false => rw [UniqueTable.change_of_free htaken]; rfl
  | update => exact (UniqueTable.change_of_taken (.inr rfl)).symm

/-- No call takes a statistic back. -/
theorem EventCall.statistics_rewrite (c : EventCall) (db : Db) (old : EventRow) :
    old.Statistics (c.rewrite db old) := by
  cases c with
  | insert ev => exact ⟨le_rfl, le_rfl, le_rfl, fun h => h, fun h => h⟩
  | upsert ev =>
    unfold EventCall.rewrite
    dsimp only
    split
    · exact ⟨le_rfl, le_rfl, le_rfl, fun h => h, fun h => h⟩
    · refine ⟨le_max_left _ _, le_max_left _ _, le_max_left _ _, fun h => ?_, fun h => ?_⟩
      · show (if ev.sourceType = 0 then old.sourceType else ev.sourceType) ≠ 0
        split
        · exact h
        · assumption
      · show ((ev.endedAt.filter (· ≠ [])).or old.endedAt).isSome
        rw [Option.isSome_or, h, Bool.or_true]
  | update _ _ _ _ _ _ endedAt =>
    refine ⟨le_max_left _ _, le_max_left _ _, le_max_left _ _, fun h => h, fun h => ?_⟩
    show ((endedAt.filter (· ≠ [])).or old.endedAt).isSome
    rw [Option.isSome_or, h, Bool.or_true]

theorem EventRow.Statistics.refl (r : EventRow) : r.Statistics r :=
  ⟨le_rfl, le_rfl, le_rfl, fun h => h, fun h => h⟩

theorem EventRow.Statistics.trans (a b c : EventRow) (h : a.Statistics b) (h' : b.Statistics c) :
    a.Statistics c :=
  ⟨h.filesProtected.trans h'.filesProtected, h.filesAffected.trans h'.filesAffected,
    h.peakRiskScore.trans h'.peakRiskScore, fun hs => h'.sourceType (h.sourceType hs),
    fun he => h'.endedAt (h.endedAt he)⟩

/-- After a call the rows of every event have evolved exactly when it rewrites its own so. -/
theorem EventCall.evolves_run_iff {R : EventRow → EventRow → Prop} (hR : ∀ r, R r r) :
    (∀ id, UniqueTable.Evolves EventRow.eventId R id db.events (c.run db).events) ↔
      ∀ r ∈ db.rowsOf c.eventId, R r (c.rewrite db r) := by
  rw [c.events_run]
  exact UniqueTable.evolves_change_iff hR (fun _ => EventCall.eventId_rewrite)
    EventCall.eventId_newRow

/-- A call leaves the rows of the other events. -/
theorem EventCall.rowsOf_run_of_ne (h : c.eventId ≠ id) : (c.run db).rowsOf id = db.rowsOf id := by
  unfold Db.rowsOf
  have hrows : UniqueTable.rowsOf EventRow.eventId id (UniqueTable.change EventRow.eventId c.eventId
      (c.rewrite db) (c.newRow db) db.events) = _ :=
    UniqueTable.rowsOf_change (fun _ => EventCall.eventId_rewrite) EventCall.eventId_newRow
  rw [c.events_run, hrows, if_neg (Ne.symm h)]

/-! ## Sequences of calls -/

/-- Each event's rows evolve over a sequence of calls. -/
theorem evolves_calls (db : Db) (calls : List EventCall) (id : CStr) :
    UniqueTable.Evolves EventRow.eventId EventRow.Statistics id db.events
      (Runs.run EventCall.run db calls).events :=
  Runs.run_invariant (fun db' : Db =>
      UniqueTable.Evolves EventRow.eventId EventRow.Statistics id db.events db'.events)
    (fun db' c h => h.trans EventRow.Statistics.trans
      ((EventCall.evolves_run_iff EventRow.Statistics.refl).2
        (fun r _ => c.statistics_rewrite db' r) id))
    (.refl EventRow.Statistics.refl id db.events) calls

theorem rowsOf_calls_of_ne {calls : List EventCall} (h : ∀ c ∈ calls, c.eventId ≠ id) :
    (Runs.run EventCall.run db calls).rowsOf id = db.rowsOf id := by
  induction calls generalizing db with
  | nil => rfl
  | cons c calls ih =>
    rw [Runs.run_cons, ih fun c hc => h c (List.mem_cons_of_mem _ hc)]
    exact EventCall.rowsOf_run_of_ne (h c List.mem_cons_self)

/-- In every sequence of calls, on whatever database, the statistics of the events with a row do
not go back, no event gets a second row, and the events no call is about stay as they were. -/
theorem event_statistics_never_regress (db : Db) (calls : List EventCall) :
    EventsKept calls db (Runs.run EventCall.run db calls) where
  statistics id := (evolves_calls db calls id).grows
  single id := (evolves_calls db calls id).single
  others _ h := rowsOf_calls_of_ne h

end

end GfrGuard

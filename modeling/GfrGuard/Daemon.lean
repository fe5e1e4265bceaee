import GfrGuard.Blocker
import GfrGuard.Db

/-!
# The daemon's state and its helpers

`Daemon` holds what `process_msg` works on: the database, the session table, the policy, the
counter behind event ids and the blocked file. `CallEnv` is what a call observes outside
it: the clock (read once), the time zone, the answers of the content scans and the outcomes
of the file operations. `journal` is a ghost field: the database writes and restore
triggers the latest call made on behalf of an event, each with whether the event had a row
then (`EventUse`). Log lines are left out.
-/

namespace GfrGuard

/-! ## Time -/

/-- `struct tm`, with the month from 0 and the year from 1900. -/
structure Tm where
  year : Nat
  yday : Nat
  mon : Nat
  mday : Nat
  hour : Nat
  min : Nat
  sec : Nat
deriving DecidableEq

/-- `strftime(_, "%Y%m%d")`. -/
def Tm.dateText (tm : Tm) : CStr :=
  decPad 4 (tm.year + 1900) ++ decPad 2 (tm.mon + 1) ++ decPad 2 tm.mday

/-- `iso8601_now`, `"%Y-%m-%dT%H:%M:%S"`. -/
def Tm.iso8601 (tm : Tm) : CStr :=
  decPad 4 (tm.year + 1900) ++ dash :: decPad 2 (tm.mon + 1) ++ dash :: decPad 2 tm.mday ++
    lit "T" ++ decPad 2 tm.hour ++ colon :: decPad 2 tm.min ++ colon :: decPad 2 tm.sec

/-! ## Calls -/

/-- What one `process_msg` call observes. -/
structure CallEnv where
  /-- `time(NULL)`. -/
  now : Int
  /-- `localtime_r`. -/
  localtime : Int → Tm
  /-- The entropy scan of a path is over the policy's threshold. -/
  entropySuspicious : CStr → Bool
  /-- YARA rules are loaded. -/
  yaraActive : Bool
  /-- The YARA scan of a path matches a rule. -/
  yaraMatches : CStr → Bool
  /-- `blocker_execute` can lock and read the blocked file. -/
  readOk : Bool
  /-- `blocker_execute` can replace the blocked file. -/
  writeOk : Bool
  /-- `blocker_sync_blacklist` can lock and replace the blocked file. -/
  syncOk : Bool

/-- The current time as text. -/
def CallEnv.iso8601 (env : CallEnv) : CStr := (env.localtime env.now).iso8601

/-- The ways a call uses an event id. -/
inductive UseKind where
  | protectedFile
  | updateEvent
  | createdFile
  | blockUpdate
  | restoreTrigger
deriving DecidableEq

/-- One use of an event id, and whether the event had a row at that moment. -/
structure EventUse where
  kind : UseKind
  eventId : CStr
  known : Bool
deriving DecidableEq

/-- The use is of a real event. -/
def EventUse.good (u : EventUse) : Bool := u.eventId ≠ [] && u.known

/-- The state `process_msg` works on. -/
structure Daemon where
  db : Db
  table : SessionTable
  policy : Policy
  dailySeq : Int
  dayAnchor : Int
  blocked : Option CStr
  journal : List EventUse

namespace Daemon

/-- The daemon after start: empty table and database, the blocked file rebuilt. -/
def init (p : Policy) : Daemon where
  db := .empty
  table := sessionTableInit
  policy := p
  dailySeq := 0
  dayAnchor := 0
  blocked := some (syncContent p.blacklist)
  journal := []

/-- The session in a slot. -/
def session (d : Daemon) (i : Fin sessionBuckets) : SessionState := d.table.buckets i

/-- Write a slot. -/
def setSession (d : Daemon) (i : Fin sessionBuckets) (s : SessionState) : Daemon :=
  { d with table := d.table.set i s }

/-- Append to the journal of the call. -/
def note (d : Daemon) (kind : UseKind) (eventId : CStr) : Daemon :=
  { d with journal := d.journal ++ [⟨kind, eventId, d.db.hasEvent eventId⟩] }

end Daemon

/-! ## Event ids -/

/-- `%0wd` of an `int`. -/
def decPadInt (w : Nat) (n : Int) : CStr :=
  if n < 0 then dash :: decPad (w - 1) n.natAbs else decPad w n.natAbs

/-- The day of the anchor is not the day of `now`. -/
def dayChanged (env : CallEnv) (anchor : Int) : Bool :=
  (env.localtime anchor).year ≠ (env.localtime env.now).year ||
    (env.localtime anchor).yday ≠ (env.localtime env.now).yday

/-- `make_event_id`: the next number of the day, seeded from the database when the day
changed. -/
def makeEventId (env : CallEnv) (d : Daemon) : CBuf 32 × Daemon :=
  let date := (env.localtime env.now).dateText
  let changed := dayChanged env d.dayAnchor
  let seq := (if changed then d.db.maxDailySeq date else d.dailySeq) + 1
  (.ofStr 32 (lit "evt-" ++ date ++ dash :: decPadInt 3 seq),
   { d with dailySeq := seq, dayAnchor := if changed then env.now else d.dayAnchor })

/-- An event id is never empty. -/
theorem makeEventId_ne_nil (env : CallEnv) (d : Daemon) : (makeEventId env d).1.str ≠ [] := by
  have : ((makeEventId env d).1).str = snprintf 32
      (lit "evt-" ++ (env.localtime env.now).dateText ++ dash :: _) := rfl
  rw [this]
  simp [snprintf, lit]

/-- The form of an event id: a fixed head, then digits and dashes. -/
def IsEventId (id : CStr) : Prop :=
  ∃ tail, id = lit "evt-" ++ tail ∧ (∀ b ∈ tail, isDigit b = true ∨ b = dash) ∧ id.length < 32

theorem isEventId_makeEventId (env : CallEnv) (d : Daemon) : IsEventId (makeEventId env d).1.str := by
  obtain ⟨date, seq, hdate, hid⟩ : ∃ date seq, date = (env.localtime env.now).dateText ∧
      (makeEventId env d).1.str = snprintf 32 (lit "evt-" ++ (date ++ dash :: decPadInt 3 seq)) :=
    ⟨_, (if dayChanged env d.dayAnchor then d.db.maxDailySeq (env.localtime env.now).dateText
      else d.dailySeq) + 1, rfl, by simp [makeEventId]⟩
  have hdigits : ∀ b ∈ date ++ dash :: decPadInt 3 seq, isDigit b = true ∨ b = dash := by
    intro b hb
    rcases List.mem_append.1 hb with hb | hb
    · rw [hdate] at hb
      unfold Tm.dateText at hb
      rcases List.mem_append.1 hb with hb | hb
      · rcases List.mem_append.1 hb with hb | hb <;> exact .inl (isDigit_of_mem_decPad hb)
      · exact .inl (isDigit_of_mem_decPad hb)
    · rcases List.mem_cons.1 hb with hb | hb
      · exact .inr hb
      · unfold decPadInt at hb
        split at hb
        · rcases List.mem_cons.1 hb with hb | hb
          · exact .inr hb
          · exact .inl (isDigit_of_mem_decPad hb)
        · exact .inl (isDigit_of_mem_decPad hb)
  refine ⟨(date ++ dash :: decPadInt 3 seq).take 27, ?_, fun b hb => hdigits b (List.mem_of_mem_take hb), ?_⟩
  · rw [hid, snprintf, List.take_append, List.take_of_length_le (by decide)]
    rfl
  · exact (makeEventId env d).1.fits

/-! ## Blocking -/

/-- `blocker_execute`: whether it succeeded, and the daemon after it. Closing the share's
connections has no effect on this state. -/
def blockerExecute (env : CallEnv) (clientIp eventId status : CStr) (d : Daemon) :
    Bool × Daemon :=
  match blockerAppend d.blocked clientIp env.readOk env.writeOk with
  | none => (false, d)
  | some content =>
    let d := { d with blocked := content }
    if eventId = [] then (true, d)
    else
      let d := d.note .blockUpdate eventId
      let blkStatus := if status = [] then lit "blocked" else status
      let db := d.db.updateEvent eventId 0 0 0 (some (lit "blocked")) (some blkStatus)
        (some env.iso8601)
      (true, { d with db := db })

/-- The record of an event for a message. -/
def eventRecord (env : CallEnv) (msg : EventMsg) (eventId action status pname : CStr) :
    EventRow where
  id := 0
  eventId := eventId
  sessionKey := msg.sessionKey.str
  username := msg.username.str
  clientIp := msg.clientIp.str
  pname := pname
  -- a legacy sender leaves the source 0; it counts as SMB
  sourceType := (if msg.sourceType = 0 then sourceSmb else msg.sourceType).toNat
  startedAt := env.iso8601
  endedAt := none
  filesProtected := 0
  filesAffected := 0
  peakRiskScore := 0
  actionTaken := action
  status := status

/-- The address that goes to the blocked file: only SMB and FTP have a real one. -/
def blockIp (msg : EventMsg) : CStr :=
  if msg.sourceType = sourceSmb ∨ msg.sourceType = sourceFtp then msg.clientIp.str else []

end GfrGuard

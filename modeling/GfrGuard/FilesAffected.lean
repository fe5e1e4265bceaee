import GfrGuard.EventFresh

/-!
# The files an event affected

A session counts the messages it accepts, and every accepted message writes the count to the row of
the session's event, where the larger value stays. The event ends with the long window and the count
goes on, so the next event of the session starts with the messages of those before it. The ledger of
a run holds what the daemon does not: which events a message began and with which count, and which
messages were accepted under which event. Where ids are new, no event has more files than messages
exactly when every event that is counted started from zero (`files_affected_iff`).
-/

namespace GfrGuard

/-! ## Values -/

/-- No row of the event has a larger value. -/
def Db.FilesBelow (db : Db) (eventId : CStr) (n : Int) : Prop :=
  ∀ ev ∈ db.events, ev.eventId = eventId → ev.filesAffected ≤ n

/-- The values of the events are the same, but for rows below 0. -/
def Db.SameFiles (db db' : Db) : Prop :=
  ∀ eventId n, 0 ≤ n → (db'.FilesBelow eventId n ↔ db.FilesBelow eventId n)

instance (db : Db) (eventId : CStr) (n : Int) : Decidable (db.FilesBelow eventId n) :=
  inferInstanceAs (Decidable (∀ ev ∈ db.events, ev.eventId = eventId → ev.filesAffected ≤ n))

/-! ## Messages -/

/-- The slot of an accepted message and the table with it. -/
def acceptedIn (env : CallEnv) (msg : EventMsg) (d : Daemon) : Option (Fin sessionBuckets × SessionTable) :=
  if msg.msgType ≠ msgVfsBlocked ∧ gate d.policy msg = .accept then
    sessionFindOrCreate d.table msg.sessionKey env.now
  else none

/-- An event whose row was created for a file event: the session, and the messages it had counted by
then. -/
structure BegunEvent where
  eventId : CStr
  sessionKey : CBuf 128
  counted : UInt64

/-- The event whose row a message creates; the notification of a denied session is no file event. -/
def begunBy (env : CallEnv) (msg : EventMsg) (d : Daemon) : List BegunEvent :=
  match sessionFindOrCreate d.table msg.sessionKey env.now with
  | none => []
  | some (i, t) =>
    let id := (makeEventId env d).1.str
    if makesId env msg d && msg.msgType ≠ msgVfsBlocked && !d.db.hasEvent id then
      [⟨id, msg.sessionKey, (t.buckets i).totalEvents⟩]
    else []

/-- The event and the session an accepted message counts for. -/
def countedBy (env : CallEnv) (msg : EventMsg) (d : Daemon) : List (CStr × CBuf 128) :=
  match acceptedIn env msg d with
  | none => []
  | some (i, t) => [((recordEventId env d (t.buckets i)).str, msg.sessionKey)]

/-- The event whose row gets the count of an accepted message. -/
def updatedBy (env : CallEnv) (msg : EventMsg) (d : Daemon) : Option CStr :=
  match acceptedIn env msg d with
  | none => none
  | some (i, t) =>
    if longWindowRolls env msg i { d with table := t } then none
    else some (recordEventId env d (t.buckets i)).str

/-! ## Runs -/

/-- The daemon, the events begun for file events, and the event and session of every accepted
message. -/
structure Ledger where
  state : FreshState
  begun : List BegunEvent
  accepted : List (CStr × CBuf 128)

/-- A daemon just started. -/
def Ledger.start (p : LoadedPolicy) (db : Db) (clock : LocalClock) : Ledger :=
  ⟨⟨Daemon.start p db, clock⟩, [], []⟩

/-- One event. -/
def ledgerStep (l : Ledger) (e : FreshEvent) : Ledger :=
  match e with
  | .daemon (.message env msg) =>
    let env := { env with localtime := l.state.clock.localtime }
    ⟨freshStep l.state e, l.begun ++ begunBy env msg l.state.daemon,
      l.accepted ++ countedBy env msg l.state.daemon⟩
  | _ => { l with state := freshStep l.state e }

/-- No event has more files than messages that were accepted for its session while it was the
session's event. -/
def Ledger.Bounded (l : Ledger) : Prop :=
  ∀ b ∈ l.begun, l.state.daemon.db.FilesBelow b.eventId (l.accepted.count (b.eventId, b.sessionKey))

instance (l : Ledger) : Decidable l.Bounded :=
  inferInstanceAs (Decidable (∀ b ∈ l.begun, l.state.daemon.db.FilesBelow b.eventId
    (l.accepted.count (b.eventId, b.sessionKey))))

/-- The session had counted nothing before the event, or so much that the count is bound as a
negative number. -/
def BegunEvent.FromZero (b : BegunEvent) : Prop := b.counted = 0 ∨ 2 ^ 63 - 1 ≤ b.counted.toNat

/-- An event whose row gets a count started from zero. -/
def CountsFromZero (l : Ledger) (e : FreshEvent) : Prop :=
  ∀ env msg, e = .daemon (.message env msg) →
    ∀ id ∈ updatedBy { env with localtime := l.state.clock.localtime } msg l.state.daemon,
      ∀ b ∈ (ledgerStep l e).begun, b.eventId = id → b.FromZero

/-- The session has counted for its event what was accepted for it, on top of what it had counted
before; and what was written to the row started from zero. -/
structure BegunEvent.Counted (b : BegunEvent) (accepted : List (CStr × CBuf 128)) (key : CBuf 128)
    (s : SessionState) : Prop where
  session : b.sessionKey = key
  total : s.totalEvents = b.counted + UInt64.ofNat (accepted.count (b.eventId, key))
  fromZero : b.FromZero ∨ accepted.count (b.eventId, key) = 0

/-- The events of the ledger have rows, and every session has counted for its event what the ledger
says. -/
structure Ledger.Inv (l : Ledger) : Prop where
  daemon : l.state.daemon.Inv
  begun : ∀ b ∈ l.begun, b.eventId ≠ [] ∧ l.state.daemon.db.hasEvent b.eventId = true
  accepted : ∀ a ∈ l.accepted, l.state.daemon.db.hasEvent a.1 = true
  sessions : ∀ key s, l.state.daemon.sessionOf key = some s →
    ∀ b ∈ l.begun, b.eventId = s.currentEventId.str → b.Counted l.accepted key s

section
variable {env : CallEnv} {msg : EventMsg} {d d' : Daemon} {db db' db'' : Db} {ev : EventRow} {id : CStr}
  {n : Int} {i : Fin sessionBuckets} {t : SessionTable} {l : Ledger} {e : FreshEvent} {key : CBuf 128}
  {b : BegunEvent} {now : Int}

/-! ## Statements -/

theorem Db.SameFiles.refl (db : Db) : db.SameFiles db := fun _ _ _ => Iff.rfl

theorem Db.SameFiles.trans (h : db.SameFiles db') (h' : db'.SameFiles db'') : db.SameFiles db'' :=
  fun id n hn => (h' id n hn).trans (h id n hn)

theorem Db.SameFiles.of_events (h : db'.events = db.events) : db.SameFiles db' := by
  intro id n _
  unfold Db.FilesBelow
  rw [h]

/-- A new row of an event with no files. -/
theorem Db.sameFiles_append (ev : EventRow) (hev : ev.filesAffected = 0) (h : db'.events = db.events ++ [ev]) :
    db.SameFiles db' := by
  intro id n hn
  unfold Db.FilesBelow
  rw [h]
  constructor
  · intro hall r hr
    exact hall r (List.mem_append_left _ hr)
  · intro hall r hr hid
    rcases List.mem_append.1 hr with hr | hr
    · exact hall r hr hid
    · rw [List.mem_singleton.1 hr, hev]
      exact hn

theorem Db.sameFiles_insertEvent (db : Db) (hev : ev.filesAffected = 0) : db.SameFiles (db.insertEvent ev) := by
  unfold Db.insertEvent
  split
  · exact .refl db
  · exact Db.sameFiles_append (db.eventRow ev) hev rfl

/-- The values after a statement that takes the larger of an event's value and another. -/
theorem Db.filesBelow_max {f : EventRow → EventRow} {a : Int}
    (hid : ∀ r, r.eventId = id → (f r).eventId = id)
    (hfiles : ∀ r, r.eventId = id → (f r).filesAffected = max r.filesAffected a)
    (h : db'.events = db.events.map fun r => if r.eventId = id then f r else r) (eventId : CStr) :
    db'.FilesBelow eventId n ↔
      db.FilesBelow eventId n ∧ (eventId = id → db.hasEvent id = true → a ≤ n) := by
  unfold Db.FilesBelow
  rw [h]
  constructor
  · intro hall
    refine ⟨fun r hr hrid => ?_, ?_⟩
    · have hmem := hall _ (List.mem_map_of_mem hr)
      split at hmem
      · next hrow =>
        have hmax := hmem ((hid r hrow).trans (hrow.symm.trans hrid))
        rw [hfiles r hrow] at hmax
        exact (le_max_left _ _).trans hmax
      · exact hmem hrid
    · rintro rfl hhas
      obtain ⟨r, hr, hrow⟩ := List.any_eq_true.1 hhas
      have hrow : r.eventId = eventId := of_decide_eq_true hrow
      have hmem := hall _ (List.mem_map_of_mem hr)
      rw [if_pos hrow, hfiles r hrow] at hmem
      exact (le_max_right _ _).trans (hmem (hid r hrow))
  · rintro ⟨hall, ha⟩ r' hr' hrid
    obtain ⟨r, hr, rfl⟩ := List.mem_map.1 hr'
    split at hrid
    · next hrow =>
      rw [if_pos hrow, hfiles r hrow]
      have heq : eventId = id := hrid.symm.trans (hid r hrow)
      refine max_le (hall r hr (hrow.trans heq.symm)) (ha heq ?_)
      exact List.any_eq_true.2 ⟨r, hr, decide_eq_true hrow⟩
    · next hrow =>
      rw [if_neg hrow]
      exact hall r hr hrid

theorem Db.sameFiles_upsertEvent (db : Db) (hev : ev.filesAffected = 0) : db.SameFiles (db.upsertEvent ev) := by
  unfold Db.upsertEvent
  split
  · exact .refl db
  · split
    · intro eventId n hn
      refine (Db.filesBelow_max (f := fun old => Db.mergeEvent old (db.eventRow ev)) (a := 0)
        (fun r _ => rfl) (fun r _ => ?_) rfl eventId).trans (and_iff_left fun _ _ => hn)
      show max r.filesAffected ev.filesAffected = _
      rw [hev]
    · exact Db.sameFiles_append (db.eventRow ev) hev rfl

theorem Db.filesBelow_updateEvent (db : Db) (id : CStr) (p a k : Int) (action status endedAt : Option CStr)
    (eventId : CStr) : (db.updateEvent id p a k action status endedAt).FilesBelow eventId n ↔
      db.FilesBelow eventId n ∧ (eventId = id → db.hasEvent id = true → a ≤ n) :=
  Db.filesBelow_max (f := Db.updateRow p a k action status endedAt) (fun _ h => h) (fun _ _ => rfl) rfl eventId

theorem Db.sameFiles_updateEvent (db : Db) (id : CStr) (p k : Int) (action status endedAt : Option CStr) :
    db.SameFiles (db.updateEvent id p 0 k action status endedAt) :=
  fun eventId _ hn => (db.filesBelow_updateEvent id p 0 k action status endedAt eventId).trans
    (and_iff_left fun _ _ => hn)

/-! ## Stages -/

theorem ensureEvent_sameFiles (env : CallEnv) (msg : EventMsg) (i : Fin sessionBuckets) (d : Daemon) :
    d.db.SameFiles (ensureEvent env msg i d).db := by
  unfold ensureEvent
  split
  · dsimp only
    rw [(ensureId_frame env i d).1]
    exact Db.sameFiles_insertEvent d.db rfl
  · exact .refl d.db

theorem ensureBlockedEvent_sameFiles (env : CallEnv) (msg : EventMsg) (i : Fin sessionBuckets) (d : Daemon) :
    d.db.SameFiles (ensureBlockedEvent env msg i d).db := by
  unfold ensureBlockedEvent
  split
  · dsimp only
    rw [(ensureId_frame env i d).1]
    exact Db.sameFiles_upsertEvent d.db rfl
  · exact .refl d.db

theorem blockerExecute_sameFiles (env : CallEnv) (ip eventId status : CStr) (d : Daemon) :
    d.db.SameFiles (blockerExecute env ip eventId status d).2.db := by
  unfold blockerExecute
  split
  · exact .refl d.db
  · dsimp only
    split
    · exact .refl d.db
    · exact Db.sameFiles_updateEvent d.db eventId 0 0 _ _ _

theorem blockIfCritical_sameFiles (env : CallEnv) (msg : EventMsg) (i : Fin sessionBuckets) (d : Daemon) :
    d.db.SameFiles (blockIfCritical env msg i d).db := by
  unfold blockIfCritical
  split
  · have hexec := blockerExecute_sameFiles env (blockIp msg) (d.session i).currentEventId.str
      (lit "blocked_ransom") d
    generalize blockerExecute env (blockIp msg) (d.session i).currentEventId.str
      (lit "blocked_ransom") d = result at hexec ⊢
    obtain ⟨ok, d'⟩ := result
    cases ok <;> exact hexec
  · exact .refl d.db

theorem blacklistBlock_sameFiles (env : CallEnv) (msg : EventMsg) (d : Daemon) :
    d.db.SameFiles (blacklistBlock env msg d).db := by
  unfold blacklistBlock
  split
  · exact .refl d.db
  · next i t _ =>
    dsimp only
    split
    · exact .refl d.db
    · have hens := ensureBlockedEvent_sameFiles env msg i { d with table := t }
      generalize ensureBlockedEvent env msg i { d with table := t } = d₁ at hens ⊢
      have hexec := blockerExecute_sameFiles env (blockIp msg) (d₁.session i).currentEventId.str
        (blacklistStatus d₁.policy msg) d₁
      generalize blockerExecute env (blockIp msg) (d₁.session i).currentEventId.str
        (blacklistStatus d₁.policy msg) d₁ = result at hexec ⊢
      obtain ⟨ok, d'⟩ := result
      cases ok <;> exact hens.trans hexec

theorem vfsBlocked_sameFiles (env : CallEnv) (msg : EventMsg) (d : Daemon) :
    d.db.SameFiles (vfsBlocked env msg d).db := by
  unfold vfsBlocked
  split
  · exact .refl d.db
  · next i t _ =>
    dsimp only
    have hdb : (ensureId env i { d with table := t }).db = d.db := (ensureId_frame env i _).1
    split
    · rw [hdb]
      exact .refl d.db
    · dsimp only
      rw [hdb]
      exact Db.sameFiles_upsertEvent d.db rfl

/-! ## Sessions -/

theorem sessionUpdate_totalEvents (s : SessionState) (opType : UInt8) (flags : UInt16) (hash : UInt64) :
    (sessionUpdate s opType flags hash).totalEvents = s.totalEvents + 1 := by
  have hcount : (countOp s opType flags).totalEvents = s.totalEvents := by
    unfold countOp
    split_ifs <;> rfl
  have hdir : (dirAdd (countContent (countOp s opType flags) flags) hash).totalEvents = s.totalEvents := by
    rw [← hcount]
    unfold dirAdd
    split_ifs <;> rfl
  rw [← hdir]
  rfl

theorem sessionCheckWindow_totalEvents (s : SessionState) (now short long : Int) :
    (sessionCheckWindow s now short long).totalEvents = s.totalEvents := by
  rw [sessionCheckWindow_eq]
  cases s.shortExpired now short <;> cases s.longExpired now long <;> rfl

/-- The score counts the message, whatever it does to the event. -/
theorem scoreSession_totalEvents (env : CallEnv) (p : Policy) (msg : EventMsg) (s : SessionState) :
    (scoreSession env p msg s).totalEvents = s.totalEvents + 1 := by
  have hcount := sessionUpdate_totalEvents (sessionCheckWindow s env.now (p.windows msg.sourceType).1
    (p.windows msg.sourceType).2) msg.opType (analysisFlags env p msg s) (dirHash msg.filePath.str)
  rw [sessionCheckWindow_totalEvents] at hcount
  rw [← hcount]
  unfold scoreSession
  dsimp only
  split <;> rfl

/-- An accepted message writes its session's count to the row of the session's event, unless the
long window has taken the event away. -/
theorem settleMsg_filesBelow (env : CallEnv) (msg : EventMsg) (i : Fin sessionBuckets) (d : Daemon)
    (hknown : (ensureEvent env msg i d).db.hasEvent (ensuredId env msg i d).str = true) (hid : id ≠ [])
    (hn : 0 ≤ n) : (settleMsg env msg i d).db.FilesBelow id n ↔
      d.db.FilesBelow id n ∧ (longWindowRolls env msg i d = false → id = (ensuredId env msg i d).str →
        ((d.session i).totalEvents + 1).toInt64.toInt ≤ n) := by
  have hrecord : (recordMsg env msg i d).db.events = (ensureEvent env msg i d).db.events := by
    unfold recordMsg recordProtectedFile
    split
    · split <;> rfl
    · rfl
  have hsettle : (settleMsg env msg i d).db.events = (updateTotals i (scoreMsg env msg i d)).db.events := by
    unfold settleMsg recordCreatedFile
    split <;> rfl
  have htotal : ((scoreMsg env msg i d).session i).totalEvents = (d.session i).totalEvents + 1 := by
    show ((Daemon.setSession _ i _).session i).totalEvents = _
    rw [session_setSession, scoreSession_totalEvents, recordMsg_session]
  have hbefore : (scoreMsg env msg i d).db.FilesBelow id n ↔ d.db.FilesBelow id n :=
    ((ensureEvent_sameFiles env msg i d).trans (Db.SameFiles.of_events hrecord)) id n hn
  have hhas : (scoreMsg env msg i d).db.hasEvent (ensuredId env msg i d).str = true := by
    rw [← hknown]
    exact congrArg (·.any (·.eventId = (ensuredId env msg i d).str)) hrecord
  have hupdate : (updateTotals i (scoreMsg env msg i d)).db.FilesBelow id n ↔ _ :=
    Db.filesBelow_updateEvent (scoreMsg env msg i d).db _ _ _ _ _ _ _ id
  rw [(Db.SameFiles.of_events hsettle) id n hn, hupdate, hbefore, htotal, scoreMsg_currentEventId]
  refine and_congr_right fun _ => ?_
  cases hroll : longWindowRolls env msg i d with
  | true => exact iff_of_true (fun h => absurd h hid) (fun h => by cases h)
  | false =>
    constructor
    · intro h _ heq
      exact h heq hhas
    · intro h heq _
      exact h rfl heq

theorem ensureBlockedEvent_currentEventId (env : CallEnv) (msg : EventMsg) (i : Fin sessionBuckets)
    (d : Daemon) : ((ensureBlockedEvent env msg i d).session i).currentEventId =
      recordEventId env d (d.session i) := by
  unfold ensureBlockedEvent
  split
  · exact ensureId_currentEventId env i d
  · next h => exact (if_neg h).symm

/-- A blacklist block leaves the session with its event, or with the one made for it. -/
theorem blacklistBlock_currentEventId
    (hfind : sessionFindOrCreate d.table msg.sessionKey env.now = some (i, t)) :
    ((blacklistBlock env msg d).session i).currentEventId =
      if (t.buckets i).isBlocked then (t.buckets i).currentEventId
      else recordEventId env d (t.buckets i) := by
  have hid : ((ensureBlockedEvent env msg i { d with table := t }).session i).currentEventId =
      recordEventId env d (t.buckets i) := ensureBlockedEvent_currentEventId env msg i { d with table := t }
  unfold blacklistBlock
  rw [hfind]
  dsimp only
  generalize ensureBlockedEvent env msg i { d with table := t } = d₁ at hid ⊢
  change ((if (t.buckets i).isBlocked = true then { d with table := t } else _).session i).currentEventId = _
  split
  · rfl
  · rw [← hid]
    have htable := blockerExecute_table env (blockIp msg) (d₁.session i).currentEventId.str
      (blacklistStatus d₁.policy msg) d₁
    generalize blockerExecute env (blockIp msg) (d₁.session i).currentEventId.str
      (blacklistStatus d₁.policy msg) d₁ = result at htable ⊢
    obtain ⟨ok, d₂⟩ := result
    have hsess : d₂.session i = d₁.session i := by
      simp only [Daemon.session]
      rw [show d₂.table = d₁.table from htable]
    rw [← hsess]
    cases ok with
    | true =>
      dsimp only
      rw [session_setSession]
    | false =>
      dsimp only
      rw [session_setSession]

/-! ## A message -/

/-- What a message means for the ledger: nothing; or it leaves the count of its session, which keeps
its event or gets one made for it; or it is accepted. -/
inductive FilesSpec (env : CallEnv) (msg : EventMsg) (d : Daemon) (d' : Daemon) : Prop
  | idle (hdaemon : d' = { d with journal := [] }) (hbegun : begunBy env msg d = [])
      (haccept : acceptedIn env msg d = none)
  | denied (i : Fin sessionBuckets) (t : SessionTable)
      (hfind : sessionFindOrCreate d.table msg.sessionKey env.now = some (i, t))
      (hstage : Stage i { d with table := t, journal := [] } d') (haccept : acceptedIn env msg d = none)
      (htotal : (d'.session i).totalEvents = (t.buckets i).totalEvents)
      (hid : (d'.session i).currentEventId =
        if makesId env msg d then (makeEventId env d).1 else (t.buckets i).currentEventId)
      (hfiles : d.db.SameFiles d'.db)
  | accepted (i : Fin sessionBuckets) (t : SessionTable)
      (hfind : sessionFindOrCreate d.table msg.sessionKey env.now = some (i, t))
      (hstage : Stage i { d with table := t, journal := [] } d')
      (haccept : acceptedIn env msg d = some (i, t))
      (hmakes : makesId env msg d = (t.buckets i).newEvent)
      (htotal : (d'.session i).totalEvents = (t.buckets i).totalEvents + 1)
      (hid : (d'.session i).currentEventId =
        if longWindowRolls env msg i { d with table := t } then .empty 32
        else recordEventId env d (t.buckets i))
      (hknown : d'.db.hasEvent (recordEventId env d (t.buckets i)).str = true)
      (hfiles : ∀ id n, id ≠ [] → 0 ≤ n → (d'.db.FilesBelow id n ↔ d.db.FilesBelow id n ∧
        (longWindowRolls env msg i { d with table := t } = false →
          id = (recordEventId env d (t.buckets i)).str →
            ((t.buckets i).totalEvents + 1).toInt64.toInt ≤ n)))

/-- An accepted message, from the slot of its session on. -/
theorem acceptSession_files (hinv : d.Inv)
    (hfind : sessionFindOrCreate d.table msg.sessionKey env.now = some (i, t))
    (htype : msg.msgType ≠ msgVfsBlocked) (hgate : gate d.policy msg = .accept) :
    FilesSpec env msg d (acceptSession env msg i { d with table := t, journal := [] }) := by
  have hrecord : ensuredId env msg i { d with table := t, journal := [] } =
      recordEventId env d (t.buckets i) := ensuredId_eq env msg i _
  have hknown : (ensureEvent env msg i { d with table := t, journal := [] }).db.hasEvent
      (ensuredId env msg i { d with table := t, journal := [] }).str = true :=
    (ensureEvent_ensured env msg i _).known'
      ((sessionFindOrCreate_spec hfind).eventsKnown hinv.known i)
  have hnoted := acceptSession_noted env msg i { d with table := t, journal := [] }
  refine .accepted i t hfind (acceptSession_stage env msg i _) ?_ ?_ ?_ ?_ ?_ fun id n hid hn => ?_
  · unfold acceptedIn
    rw [if_pos ⟨htype, hgate⟩]
    exact hfind
  · rw [makesId_of_found hfind, hgate, decide_eq_false htype]
    exact Bool.and_true _
  · have hbare : ((acceptSession env msg i { d with table := t, journal := [] }).session i).totalEvents =
        (acceptState env d.policy msg (executes env msg d) (t.buckets i)).totalEvents :=
      (congrArg SessionState.totalEvents (acceptSession_bare env msg i { d with table := t, journal := [] }) :)
    rw [hbare, ← scoreSession_totalEvents env d.policy msg]
    unfold acceptState
    dsimp only
    split <;> rfl
  · rw [hnoted.eventId, scoreMsg_currentEventId, hrecord]
    rfl
  · rw [hnoted.hasEvent, ← hrecord]
    exact ((recordProtectedFile_noted env msg i _).hasEvent _).trans hknown
  · have hsettle := settleMsg_filesBelow env msg i { d with table := t, journal := [] } hknown hid hn
    rw [hrecord] at hsettle
    exact ((blockIfCritical_sameFiles env msg i _) id n hn).trans hsettle

/-- Every message meets the specification. -/
theorem processMsg_files (env : CallEnv) (msg : EventMsg) (hinv : d.Inv) : FilesSpec env msg d (processMsg env msg d) := by
  have haccept_of : msg.msgType = msgVfsBlocked ∨ gate d.policy msg ≠ .accept → acceptedIn env msg d = none :=
    fun h => if_neg fun hboth => h.elim hboth.1 fun hgate => hgate hboth.2
  cases hfind : sessionFindOrCreate d.table msg.sessionKey env.now with
  | none =>
    have hbegun : begunBy env msg d = [] := by
      unfold begunBy
      rw [hfind]
    have haccept : acceptedIn env msg d = none := by
      unfold acceptedIn
      rw [hfind, ite_self]
    refine .idle ?_ hbegun haccept
    unfold processMsg vfsBlocked blacklistBlock acceptMsg
    dsimp only
    rw [hfind]
    split
    · rfl
    · split <;> rfl
  | some found =>
    obtain ⟨i, t⟩ := found
    have hmakes := makesId_of_found hfind
    unfold processMsg
    dsimp only
    by_cases htype : msg.msgType = msgVfsBlocked
    · rw [if_pos htype]
      rw [decide_eq_true htype, Bool.true_or, Bool.and_true] at hmakes
      have hsame := vfsBlocked_sameFiles env msg { d with journal := [] }
      unfold vfsBlocked at hsame ⊢
      rw [hfind] at hsame ⊢
      dsimp only at hsame ⊢
      rw [if_neg (ensureId_ne_nil env i _)] at hsame ⊢
      obtain ⟨-, -, -, -, hsession⟩ := ensureId_frame env i { d with table := t, journal := [] }
      refine .denied i t hfind (vfsBlocked_stage env msg i _) (haccept_of (.inl htype)) ?_ ?_ hsame
      · exact (congrArg SessionState.totalEvents hsession :)
      · refine (ensureId_currentEventId env i { d with table := t, journal := [] }).trans ?_
        rw [hmakes]
        exact if_congr decide_eq_true_iff.symm rfl rfl
    · rw [if_neg htype]
      rw [decide_eq_false htype, Bool.false_or] at hmakes
      cases hgate : gate d.policy msg with
      | blacklistBlock =>
        rw [hgate] at hmakes
        have hbare := blacklistBlock_bare (d := { d with journal := [] }) hfind
        have hid := blacklistBlock_currentEventId (d := { d with journal := [] }) hfind
        refine .denied i t hfind (blacklistBlock_stage (d := { d with journal := [] }) hfind)
          (haccept_of (.inr (by rw [hgate]; exact Gate.noConfusion))) ?_ ?_ (blacklistBlock_sameFiles env msg _)
        · exact (congrArg SessionState.totalEvents hbare :)
        · refine hid.trans ?_
          rw [hmakes]
          cases (t.buckets i).isBlocked with
          | true =>
            rw [if_pos rfl, Bool.not_true, Bool.and_false]
            rfl
          | false =>
            rw [if_neg Bool.false_ne_true, Bool.not_false, Bool.and_true]
            exact if_congr decide_eq_true_iff.symm rfl rfl
      | accept =>
        show FilesSpec env msg d (acceptMsg env msg { d with journal := [] })
        unfold acceptMsg
        rw [hfind]
        exact acceptSession_files hinv hfind htype hgate
      | protectionOff | extFilterSkip | exceptionBypass | whitelistBypass =>
        rw [hgate, Bool.and_false] at hmakes
        refine .idle rfl ?_ (haccept_of (.inr (by rw [hgate]; exact Gate.noConfusion)))
        unfold begunBy
        rw [hfind, hmakes]
        rfl

/-! ## Counts -/

/-- A count as it is bound. -/
theorem toInt64_toInt (c : UInt64) :
    c.toInt64.toInt = if c.toNat < 2 ^ 63 then (c.toNat : Int) else c.toNat - 2 ^ 64 := by
  show c.toBitVec.toInt = _
  rw [BitVec.toInt_eq_toNat_cond]
  simp only [UInt64.toNat_toBitVec]
  split <;> split <;> omega

/-- A count that started from zero is bound as no more than its messages. -/
theorem BegunEvent.FromZero.bound_le (h : b.FromZero) {k : Nat} (hk : 0 < k) :
    (b.counted + UInt64.ofNat k).toInt64.toInt ≤ k := by
  have hlt := b.counted.toNat_lt
  have hb : b.counted.toNat = 0 ∨ 2 ^ 63 - 1 ≤ b.counted.toNat := h.imp_left fun h => by rw [h]; rfl
  rw [toInt64_toInt, UInt64.toNat_add, UInt64.toNat_ofNat']
  split <;> omega

/-- One that did not is bound as more than one after the first. -/
theorem BegunEvent.one_lt_bound (h : ¬ b.FromZero) : 1 < (b.counted + 1).toInt64.toInt := by
  have hne : b.counted.toNat ≠ 0 := fun h0 => h (.inl (UInt64.toNat_inj.1 h0))
  have hlt : b.counted.toNat < 2 ^ 63 - 1 := Nat.lt_of_not_le fun hle => h (.inr hle)
  have hone : UInt64.toNat 1 = 1 := rfl
  rw [toInt64_toInt, UInt64.toNat_add, hone]
  split <;> omega

/-! ## The ledger -/

theorem begunBy_of_found (hfind : sessionFindOrCreate d.table msg.sessionKey env.now = some (i, t)) :
    begunBy env msg d =
      if makesId env msg d && msg.msgType ≠ msgVfsBlocked && !d.db.hasEvent (makeEventId env d).1.str then
        [⟨(makeEventId env d).1.str, msg.sessionKey, (t.buckets i).totalEvents⟩]
      else [] := by
  unfold begunBy
  rw [hfind]

/-- A message begins the event whose id it makes, and that has no row. -/
theorem mem_begunBy (hfind : sessionFindOrCreate d.table msg.sessionKey env.now = some (i, t))
    (hb : b ∈ begunBy env msg d) : makesId env msg d = true ∧
      d.db.hasEvent (makeEventId env d).1.str = false ∧
        b = ⟨(makeEventId env d).1.str, msg.sessionKey, (t.buckets i).totalEvents⟩ := by
  rw [begunBy_of_found hfind] at hb
  split at hb
  · next h =>
    rw [Bool.and_eq_true, Bool.and_eq_true, Bool.not_eq_true'] at h
    exact ⟨h.1.1, h.2, List.mem_singleton.1 hb⟩
  · cases hb

theorem Ledger.inv_start (p : LoadedPolicy) (db : Db) (clock : LocalClock) : (Ledger.start p db clock).Inv where
  daemon := Daemon.inv_start p db
  begun _ hb := absurd hb List.not_mem_nil
  accepted _ ha := absurd ha List.not_mem_nil
  sessions _ _ _ _ hb := absurd hb List.not_mem_nil

namespace Ledger.Inv

/-- The ledger knows nothing of an event without a row. -/
theorem not_begun (h : l.Inv) (hfree : l.state.daemon.db.hasEvent id = false) :
    (∀ b ∈ l.begun, b.eventId ≠ id) ∧ ∀ key, l.accepted.count (id, key) = 0 := by
  constructor
  · rintro b hb rfl
    exact absurd ((h.begun b hb).2.symm.trans hfree) Bool.noConfusion
  · intro key
    refine List.count_eq_zero.2 fun hmem => ?_
    exact absurd ((h.accepted _ hmem).symm.trans hfree) Bool.noConfusion

/-- The session that a lookup finds has counted what the ledger says; one it creates has no event. -/
theorem found (h : l.Inv) (hfind : FindOrCreateSpec l.state.daemon.table key now i t) :
    ∀ b ∈ l.begun, b.eventId = (t.buckets i).currentEventId.str → b.Counted l.accepted key (t.buckets i) := by
  intro b hb hid
  rw [hfind.visited] at hid ⊢
  cases hsession : l.state.daemon.sessionOf key with
  | none =>
    rw [hsession] at hid
    exact absurd hid (h.begun b hb).1
  | some s =>
    rw [hsession] at hid
    obtain ⟨hkey, htotal, hzero⟩ := h.sessions key s hsession b hb hid
    exact ⟨hkey, htotal, hzero⟩

/-- The event a message makes an id for has been counted for by nobody. -/
theorem made (h : l.Inv) (hfind : sessionFindOrCreate l.state.daemon.table msg.sessionKey env.now = some (i, t))
    (hfree : l.state.daemon.db.hasEvent (makeEventId env l.state.daemon).1.str = false) :
    ∀ b ∈ l.begun ++ begunBy env msg l.state.daemon, b.eventId = (makeEventId env l.state.daemon).1.str →
      b.Counted l.accepted msg.sessionKey (t.buckets i) := by
  intro b hb hid
  obtain ⟨hold, hnone⟩ := h.not_begun hfree
  rcases List.mem_append.1 hb with hb | hb
  · exact absurd hid (hold b hb)
  · obtain ⟨-, -, rfl⟩ := mem_begunBy hfind hb
    refine ⟨rfl, ?_, .inr (hnone _)⟩
    rw [hnone]
    exact (UInt64.add_zero _).symm

/-- The event of an accepted message, after it was ensured. -/
theorem recorded (h : l.Inv) (hfind : sessionFindOrCreate l.state.daemon.table msg.sessionKey env.now = some (i, t))
    (hmakes : makesId env msg l.state.daemon = (t.buckets i).newEvent)
    (hfree : makesId env msg l.state.daemon = true →
      l.state.daemon.db.hasEvent (makeEventId env l.state.daemon).1.str = false) :
    ∀ b ∈ l.begun ++ begunBy env msg l.state.daemon,
      b.eventId = (recordEventId env l.state.daemon (t.buckets i)).str →
        b.Counted l.accepted msg.sessionKey (t.buckets i) := by
  intro b hb hid
  unfold recordEventId at hid
  split at hid
  · next hnew => exact h.made hfind (hfree (hmakes.trans (decide_eq_true hnew))) b hb hid
  · next hold =>
    have hnot : makesId env msg l.state.daemon = false := hmakes.trans (decide_eq_false hold)
    rcases List.mem_append.1 hb with hb | hb
    · exact h.found (sessionFindOrCreate_spec hfind) b hb hid
    · rw [hnot] at hmakes
      exact absurd ((mem_begunBy hfind hb).1.symm.trans hnot) Bool.noConfusion

/-- Work on the session of one key keeps the invariant if the session has counted what the ledger
says afterwards. -/
theorem worked (h : l.Inv) {nb : List BegunEvent} {na : List (CStr × CBuf 128)}
    (hfind : FindOrCreateSpec l.state.daemon.table key now i t)
    (hstage : Stage i { l.state.daemon with table := t, journal := [] } d') (hinv : d'.Inv)
    (hbegun : ∀ b ∈ nb, b.eventId ≠ [] ∧ l.state.daemon.db.hasEvent b.eventId = false ∧
      d'.db.hasEvent b.eventId = true)
    (haccepted : ∀ a ∈ na, a.2 = key ∧ d'.db.hasEvent a.1 = true)
    (hslot : ∀ b ∈ l.begun ++ nb, b.eventId = (d'.session i).currentEventId.str →
      b.Counted (l.accepted ++ na) key (d'.session i)) :
    Inv ⟨{ l.state with daemon := d' }, l.begun ++ nb, l.accepted ++ na⟩ where
  daemon := hinv
  begun b hb := by
    rcases List.mem_append.1 hb with hb | hb
    · exact ⟨(h.begun b hb).1, hstage.events _ (h.begun b hb).2⟩
    · exact ⟨(hbegun b hb).1, (hbegun b hb).2.2⟩
  accepted a ha := by
    rcases List.mem_append.1 ha with ha | ha
    · exact hstage.events _ (h.accepted a ha)
    · exact (haccepted a ha).2
  sessions k s hs b hb hid := by
    have hs : d'.sessionOf k = some s := hs
    by_cases hkey : k = key
    · subst hkey
      rw [Daemon.sessionOf_eq_some hinv.placed (hfind.keyAt_stage hstage)] at hs
      cases hs
      exact hslot b hb hid
    · have hold : l.state.daemon.sessionOf k = some s := by
        rcases hfind.sessionOf_of_ne h.daemon.placed hinv.placed hstage hkey with hsame | ⟨-, hgone⟩
        · rw [← hsame]
          exact hs
        · rw [hgone] at hs
          cases hs
      have hcount : (l.accepted ++ na).count (b.eventId, k) = l.accepted.count (b.eventId, k) := by
        have hnone : na.count (b.eventId, k) = 0 :=
          List.count_eq_zero.2 fun hmem => hkey (haccepted _ hmem).1
        rw [List.count_append, hnone, Nat.add_zero]
      rcases List.mem_append.1 hb with hb | hb
      · obtain ⟨hk, htotal, hzero⟩ := h.sessions k s hold b hb hid
        rw [← hcount] at htotal hzero
        exact ⟨hk, htotal, hzero⟩
      · -- the event of another session has a row
        obtain ⟨hne, hfree, -⟩ := hbegun b hb
        obtain ⟨j, -, rfl⟩ := Daemon.keyAt_of_sessionOf hold
        rw [hid] at hne hfree
        exact absurd ((h.daemon.known j hne).symm.trans hfree) Bool.noConfusion

/-- The events begun before a message and by it, before the message. -/
theorem bounded_begun (hbounded : l.Bounded)
    (hfind : sessionFindOrCreate l.state.daemon.table msg.sessionKey env.now = some (i, t)) :
    ∀ b ∈ l.begun ++ begunBy env msg l.state.daemon,
      l.state.daemon.db.FilesBelow b.eventId (l.accepted.count (b.eventId, b.sessionKey)) := by
  intro b hb
  rcases List.mem_append.1 hb with hb | hb
  · exact hbounded b hb
  · obtain ⟨-, hrow, rfl⟩ := mem_begunBy hfind hb
    intro ev hev hid
    have hhas : l.state.daemon.db.hasEvent (makeEventId env l.state.daemon).1.str = true :=
      List.any_eq_true.2 ⟨ev, hev, decide_eq_true hid⟩
    exact absurd (hhas.symm.trans hrow) Bool.noConfusion

/-- A message keeps the invariant, when the event whose row it writes to started from zero. -/
theorem message (h : l.Inv)
    (hfree : makesId env msg l.state.daemon = true →
      l.state.daemon.db.hasEvent (makeEventId env l.state.daemon).1.str = false)
    (hzero : ∀ id ∈ updatedBy env msg l.state.daemon,
      ∀ b ∈ l.begun ++ begunBy env msg l.state.daemon, b.eventId = id → b.FromZero) :
    Inv ⟨{ l.state with daemon := processMsg env msg l.state.daemon },
      l.begun ++ begunBy env msg l.state.daemon, l.accepted ++ countedBy env msg l.state.daemon⟩ := by
  have hinv : (processMsg env msg l.state.daemon).Inv := h.daemon.step (.message env msg)
  have hspec := processMsg_files env msg h.daemon
  unfold updatedBy countedBy at *
  generalize processMsg env msg l.state.daemon = d' at hinv hspec ⊢
  cases hspec with
  | idle hdaemon hbegun haccept =>
    rw [hbegun, haccept, List.append_nil, List.append_nil, hdaemon]
    exact ⟨hdaemon ▸ hinv, h.begun, h.accepted, h.sessions⟩
  | denied i t hfind hstage haccept htotal hid hfiles =>
    rw [haccept]
    refine h.worked (sessionFindOrCreate_spec hfind) hstage hinv (fun b hb => ?_)
      (fun a ha => absurd ha List.not_mem_nil) fun b hb hevent => ?_
    · obtain ⟨hmakes, hrow, rfl⟩ := mem_begunBy hfind hb
      rw [if_pos hmakes] at hid
      have hne := makeEventId_ne_nil env l.state.daemon
      rw [← hid] at hne ⊢
      exact ⟨hne, hid ▸ hrow, hinv.known i hne⟩
    · have hcounted : b.Counted l.accepted msg.sessionKey (t.buckets i) := by
        rw [hid] at hevent
        split at hevent
        · next hmakes => exact h.made hfind (hfree hmakes) b hb hevent
        · next hmakes =>
          rcases List.mem_append.1 hb with hb | hb
          · exact h.found (sessionFindOrCreate_spec hfind) b hb hevent
          · exact absurd (mem_begunBy hfind hb).1 hmakes
      rw [List.append_nil]
      exact ⟨hcounted.session, htotal.trans hcounted.total, hcounted.fromZero⟩
  | accepted i t hfind hstage haccept hmakes htotal hid hknown hfiles =>
    rw [haccept] at hzero ⊢
    dsimp only at hzero ⊢
    refine h.worked (sessionFindOrCreate_spec hfind) hstage hinv (fun b hb => ?_) (fun a ha => ?_)
      fun b hb hevent => ?_
    · obtain ⟨hmade, hrow, rfl⟩ := mem_begunBy hfind hb
      have hrecord : recordEventId env l.state.daemon (t.buckets i) = (makeEventId env l.state.daemon).1 :=
        if_pos (of_decide_eq_true (hmakes.symm.trans hmade))
      rw [hrecord] at hknown
      exact ⟨makeEventId_ne_nil env l.state.daemon, hrow, hknown⟩
    · rw [List.mem_singleton.1 ha]
      exact ⟨rfl, hknown⟩
    · rw [hid] at hevent
      split at hevent
      · -- the long window has taken the event away
        rcases List.mem_append.1 hb with hb | hb
        · exact absurd hevent (h.begun b hb).1
        · obtain ⟨-, -, rfl⟩ := mem_begunBy hfind hb
          exact absurd hevent (makeEventId_ne_nil env l.state.daemon)
      · next hroll =>
        rw [if_neg hroll] at hzero
        obtain ⟨hsession, hbefore, -⟩ := h.recorded hfind hmakes hfree b hb hevent
        have hcount : (l.accepted ++ [((recordEventId env l.state.daemon (t.buckets i)).str, msg.sessionKey)]).count
            (b.eventId, msg.sessionKey) = l.accepted.count (b.eventId, msg.sessionKey) + 1 := by
          rw [hevent, List.count_append, List.count_singleton_self]
        refine ⟨hsession, ?_, .inl (hzero _ rfl b hb hevent)⟩
        rw [htotal, hbefore, hcount, UInt64.ofNat_add, UInt64.add_assoc]
        rfl

/-- No event has more files than messages after a message exactly when the event whose row it writes
to started from zero, if it was so before. -/
theorem message_bounded_iff (h : l.Inv)
    (hfree : makesId env msg l.state.daemon = true →
      l.state.daemon.db.hasEvent (makeEventId env l.state.daemon).1.str = false) (hbounded : l.Bounded) :
    (∀ id ∈ updatedBy env msg l.state.daemon,
      ∀ b ∈ l.begun ++ begunBy env msg l.state.daemon, b.eventId = id → b.FromZero) ↔
    Bounded ⟨{ l.state with daemon := processMsg env msg l.state.daemon },
      l.begun ++ begunBy env msg l.state.daemon, l.accepted ++ countedBy env msg l.state.daemon⟩ := by
  have hspec := processMsg_files env msg h.daemon
  unfold updatedBy countedBy Bounded at *
  generalize processMsg env msg l.state.daemon = d' at hspec ⊢
  cases hspec with
  | idle hdaemon hbegun haccept =>
    rw [hbegun, haccept, List.append_nil, List.append_nil, hdaemon]
    exact iff_of_true (fun _ hid => by cases hid) hbounded
  | denied i t hfind hstage haccept htotal hid hfiles =>
    rw [haccept, List.append_nil]
    refine iff_of_true (fun _ hid => by cases hid) fun b hb => ?_
    exact (hfiles _ _ (Int.natCast_nonneg _)).2 (bounded_begun hbounded hfind b hb)
  | accepted i t hfind hstage haccept hmakes htotal hid hknown hfiles =>
    rw [haccept]
    dsimp only
    have hne (b : BegunEvent) (hb : b ∈ l.begun ++ begunBy env msg l.state.daemon) : b.eventId ≠ [] := by
      rcases List.mem_append.1 hb with hb | hb
      · exact (h.begun b hb).1
      · obtain ⟨-, -, rfl⟩ := mem_begunBy hfind hb
        exact makeEventId_ne_nil env l.state.daemon
    have hcount (b : BegunEvent) (heq : b.eventId = (recordEventId env l.state.daemon (t.buckets i)).str)
        (hsession : b.sessionKey = msg.sessionKey) :
        (l.accepted ++ [((recordEventId env l.state.daemon (t.buckets i)).str, msg.sessionKey)]).count
          (b.eventId, b.sessionKey) = l.accepted.count (b.eventId, msg.sessionKey) + 1 := by
      rw [heq, hsession, List.count_append, List.count_singleton_self]
    constructor
    · intro hzero b hb
      refine (hfiles _ _ (hne b hb) (Int.natCast_nonneg _)).2 ⟨?_, fun hroll heq => ?_⟩
      · intro ev hev hid
        refine (bounded_begun hbounded hfind b hb ev hev hid).trans (Int.ofNat_le.2 ?_)
        rw [List.count_append]
        exact Nat.le_add_right _ _
      · obtain ⟨hsession, htotal, -⟩ := h.recorded hfind hmakes hfree b hb heq
        rw [hroll, if_neg Bool.false_ne_true] at hzero
        have hle := (hzero _ rfl b hb heq).bound_le
          (Nat.succ_pos (l.accepted.count (b.eventId, msg.sessionKey)))
        rw [Nat.succ_eq_add_one, UInt64.ofNat_add, ← UInt64.add_assoc] at hle
        rw [hcount b heq hsession, htotal]
        exact hle
    · intro hall id hid b hb heq
      split at hid
      · cases hid
      · next hroll =>
        cases hid
        obtain ⟨hsession, htotal, hfirst⟩ := h.recorded hfind hmakes hfree b hb heq
        refine Classical.byContradiction fun hnot => ?_
        -- the first message that is accepted under the event already writes too much
        have hnone := hfirst.resolve_left hnot
        have hwritten := ((hfiles _ _ (hne b hb) (Int.natCast_nonneg _)).1 (hall b hb)).2
          (Bool.eq_false_iff.2 hroll) heq
        rw [hcount b heq hsession, htotal, hnone] at hwritten
        have hmany := BegunEvent.one_lt_bound hnot
        have hbase : b.counted + UInt64.ofNat 0 + 1 = b.counted + 1 := by
          rw [show UInt64.ofNat 0 = 0 from rfl, UInt64.add_zero]
        rw [hbase] at hwritten
        omega

end Ledger.Inv

/-! ## Runs -/

/-- Whoever looks a session up leaves the ledger as it is. -/
theorem Ledger.Inv.lookup (h : l.Inv) (key : CBuf 128) (now : Int) :
    Ledger.Inv { l with state.daemon := daemonStep l.state.daemon (.lookup key now) } := by
  have hinv : (daemonStep l.state.daemon (.lookup key now)).Inv := h.daemon.step (.lookup key now)
  unfold daemonStep at hinv ⊢
  dsimp only at hinv ⊢
  split at hinv
  · exact ⟨hinv, h.begun, h.accepted, h.sessions⟩
  · next i t hfind =>
    have hspec := sessionFindOrCreate_spec hfind
    have hworked := h.worked hspec (Stage.refl i _) hinv
      (fun b (hb : b ∈ ([] : List BegunEvent)) => absurd hb List.not_mem_nil)
      (fun a (ha : a ∈ ([] : List (CStr × CBuf 128))) => absurd ha List.not_mem_nil) fun b hb hid => by
        rw [List.append_nil] at hb ⊢
        exact h.found hspec b hb hid
    rw [List.append_nil, List.append_nil] at hworked
    exact hworked

/-- Every event keeps the invariant, when ids are new and counts start from zero. -/
theorem Ledger.Inv.step (h : l.Inv) (hfresh : FreshId l.state e) (hzero : CountsFromZero l e) :
    (ledgerStep l e).Inv := by
  cases e with
  | restart p clock =>
    refine ⟨Daemon.inv_start p _, h.begun, h.accepted, fun key s hs => ?_⟩
    obtain ⟨i, hkey, -⟩ := Daemon.keyAt_of_sessionOf hs
    cases hkey
  | daemon e =>
    cases e with
    | message env msg => exact h.message (hfresh _ rfl _ _ rfl) (hzero env msg rfl)
    | lookup key now => exact h.lookup key now
    | reload np syncOk =>
      have hinv := h.daemon.step (.reload np syncOk)
      cases np with
      | none => exact ⟨hinv, h.begun, h.accepted, h.sessions⟩
      | some np => exact ⟨hinv, h.begun, h.accepted, h.sessions⟩

/-- Every event keeps the values below the messages exactly when counts start from zero. -/
theorem Ledger.Inv.countsFromZero_iff (h : l.Inv) (hfresh : FreshId l.state e) (hbounded : l.Bounded) :
    CountsFromZero l e ↔ (ledgerStep l e).Bounded := by
  cases e with
  | restart p clock => exact iff_of_true (fun env msg he => by cases he) hbounded
  | daemon e =>
    cases e with
    | message env msg =>
      have hstep := h.message_bounded_iff (hfresh _ rfl _ _ rfl) hbounded
      refine Iff.trans ⟨fun hzero => hzero env msg rfl, ?_⟩ hstep
      rintro hzero env' msg' ⟨⟩
      exact hzero
    | lookup key now =>
      refine iff_of_true (fun env msg he => by cases he) ?_
      have hdb : (daemonStep l.state.daemon (.lookup key now)).db = l.state.daemon.db := by
        unfold daemonStep
        dsimp only
        split <;> rfl
      intro b hb
      have hbelow := hbounded b hb
      rw [← hdb] at hbelow
      exact hbelow
    | reload np syncOk =>
      refine iff_of_true (fun env msg he => by cases he) ?_
      cases np <;> exact hbounded

/-- In a run whose event ids are new, no event ever has more files than messages that were accepted
for its session while it was the session's event, exactly when every event whose row gets a count
started from zero. -/
theorem files_affected_iff (p : LoadedPolicy) (db : Db) (clock : LocalClock) (es : List FreshEvent)
    (hfresh : Runs.AllSteps ledgerStep (fun l e => FreshId l.state e) (Ledger.start p db clock) es) :
    Runs.AllSteps ledgerStep CountsFromZero (Ledger.start p db clock) es ↔
      ∀ pre, pre <+: es → (Runs.run ledgerStep (Ledger.start p db clock) pre).Bounded :=
  Runs.allSteps_iff_states_of_allSteps Ledger.Inv Ledger.Bounded (fun _ _ h hfresh hzero => h.step hfresh hzero)
    (fun _ _ h hfresh hbounded => h.countsFromZero_iff hfresh hbounded) (Ledger.inv_start p db clock)
    (fun _ hb => absurd hb List.not_mem_nil) hfresh

end

/-- Alice writes three times: the second message finds the long window over, the third begins a new
event. -/
def longLived : List FreshEvent :=
  [.daemon (.message (sampleEnv 0) (sampleWrite "a.txt")),
    .daemon (.message (sampleEnv 40) (sampleWrite "b.txt")),
    .daemon (.message (sampleEnv 41) (sampleWrite "c.txt"))]

/-- All ids of the three messages are new. -/
theorem files_affected_long_lived :
    Runs.AllSteps ledgerStep CountsFromZero (Ledger.start .default .empty sampleClock) longLived ↔
      ∀ pre, pre <+: longLived →
        (Runs.run ledgerStep (Ledger.start .default .empty sampleClock) pre).Bounded := by
  refine files_affected_iff .default .empty sampleClock longLived
    ⟨fun e he env msg hmsg _ => ?_, fun e he env msg hmsg _ => ?_, fun e he env msg hmsg _ => ?_, trivial⟩
  · cases he
    cases hmsg
    decide
  · cases he
    cases hmsg
    decide
  · cases he
    cases hmsg
    decide

/-- The second event has one message and three files. -/
theorem files_affected_over_messages :
    ¬ ∀ (p : LoadedPolicy) (db : Db) (clock : LocalClock) (es : List FreshEvent),
      (Runs.run ledgerStep (Ledger.start p db clock) es).Bounded := by
  intro h
  exact absurd (h .default .empty sampleClock longLived) (by decide)

end GfrGuard

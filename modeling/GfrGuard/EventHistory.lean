import GfrGuard.EventTable
import GfrGuard.Verdicts
import GfrGuard.Recover

/-!
# The history of an event

An event starts once, is blocked for one reason and then resolved. The table has one row for all of
that, and every message that denies or blocks a session, and every restore, writes its status over
what is there; the upsert of a denial writes the start over too. `eventWrite` is the one write a
message makes, `KeepsHistory` that it finds the row at a place it may go on from, and the histories
of a run are append-only exactly when all its writes do (`event_history_iff`).
-/

namespace GfrGuard

/-! ## What a history is about -/

/-- The start and the status of an event. -/
structure EventMark where
  eventId : CStr
  startedAt : CStr
  status : CStr
deriving DecidableEq

/-- The mark of a row. -/
def EventRow.mark (ev : EventRow) : EventMark := ⟨ev.eventId, ev.startedAt, ev.status⟩

/-- The marks of the events. -/
def Db.marks (db : Db) : List EventMark := db.events.map EventRow.mark

/-- The place of a status: active, blocked for some reason, resolved. -/
def statusRank (status : CStr) : Nat :=
  if status = lit "active" then 0 else if status = lit "resolved" then 2 else 1

/-- The start is the same, and the status has stayed or moved forward. -/
structure EventMark.Continues (m m' : EventMark) : Prop where
  startedAt : m'.startedAt = m.startedAt
  status : m'.status = m.status ∨ statusRank m.status < statusRank m'.status

/-- The row of each event has kept its start and the order of its statuses, and has stayed the only
one. -/
def HistoryKept (db db' : Db) : Prop :=
  ∀ eventId, UniqueTable.Evolves EventMark.eventId EventMark.Continues eventId db.marks db'.marks

/-! ## Writes -/

/-- What is written about an event: over the row, and for one without a row. -/
structure EventWrite where
  eventId : CStr
  startedAt : Option CStr
  status : Option CStr
  new : Option EventMark

/-- What a write makes of the row. -/
def EventWrite.rewrite (w : EventWrite) (m : EventMark) : EventMark :=
  { m with startedAt := w.startedAt.getD m.startedAt, status := w.status.getD m.status }

/-- The marks after a write. -/
def applyWrite (w : Option EventWrite) (marks : List EventMark) : List EventMark :=
  match w with
  | none => marks
  | some w => UniqueTable.change EventMark.eventId w.eventId w.rewrite w.new marks

/-- The write of a row whose start and status are those of the message. -/
def EventWrite.started (eventId startedAt status : CStr) : EventWrite :=
  ⟨eventId, some startedAt, some status, some ⟨eventId, startedAt, status⟩⟩

/-- The write of a status. -/
def EventWrite.marked (eventId status : CStr) : EventWrite := ⟨eventId, none, some status, none⟩

/-- What an accepted message writes: the row of a new event, and the status of a block. -/
def acceptWrite (eventId startedAt : CStr) (new blocks : Bool) : EventWrite where
  eventId := eventId
  startedAt := none
  status := if blocks then some (lit "blocked_ransom") else none
  new := if new then
      some ⟨eventId, startedAt, if blocks then lit "blocked_ransom" else lit "active"⟩
    else none

/-- The session has no event yet. -/
def SessionState.newEvent (s : SessionState) : Bool := s.currentEventId.str = []

/-- What a message writes about the event of its session. -/
def eventWrite (env : CallEnv) (msg : EventMsg) (d : Daemon) : Option EventWrite :=
  match sessionFindOrCreate d.table msg.sessionKey env.now with
  | none => none
  | some (i, t) =>
    let s := t.buckets i
    let id := (recordEventId env d s).str
    if msg.msgType = msgVfsBlocked then some (.started id env.iso8601 (lit "blocked_ip"))
    else
      match gate d.policy msg with
      | .blacklistBlock =>
        if s.isBlocked then none
        else if s.newEvent then some (.started id env.iso8601 (blacklistStatus d.policy msg))
        else if executes env msg d then some (.marked id (blacklistStatus d.policy msg))
        else none
      | .accept => some (acceptWrite id env.iso8601 s.newEvent
          (autoAdds env msg d && !longWindowRolls env msg i { d with table := t }))
      | _ => none

section
variable {env : CallEnv} {msg : EventMsg} {d : Daemon} {db : Db} {i : Fin sessionBuckets}
  {t : SessionTable} {m a b c : EventMark} {w : EventWrite} {id status : CStr}

theorem EventMark.Continues.refl (m : EventMark) : m.Continues m := ⟨rfl, .inl rfl⟩

theorem EventMark.Continues.trans (a b c : EventMark) (h : a.Continues b) (h' : b.Continues c) :
    a.Continues c := by
  refine ⟨h'.startedAt.trans h.startedAt, ?_⟩
  rcases h.status with heq | hlt
  · rw [← heq]
    exact h'.status
  · rcases h'.status with heq' | hlt'
    · rw [heq']
      exact .inr hlt
    · exact .inr (hlt.trans hlt')

/-! ## The statements -/

theorem marks_insertEvent (db : Db) (ev : EventRow) : (db.insertEvent ev).marks =
    applyWrite (some ⟨ev.eventId, none, none, some (db.eventRow ev).mark⟩) db.marks := by
  unfold Db.marks
  rw [show db.insertEvent ev = (EventCall.insert ev).run db from rfl, EventCall.events_run]
  exact UniqueTable.map_change (fun _ => rfl) fun _ _ => rfl

theorem marks_upsertEvent (db : Db) {ev : EventRow} (hne : ev.eventId ≠ []) :
    (db.upsertEvent ev).marks =
      applyWrite (some (.started ev.eventId ev.startedAt (db.eventRow ev).status)) db.marks := by
  unfold Db.marks
  rw [show db.upsertEvent ev = (EventCall.upsert ev).run db from rfl, EventCall.events_run]
  have hnew : (EventCall.upsert ev).newRow db = some (db.eventRow ev) := if_neg hne
  rw [hnew]
  refine UniqueTable.map_change (fun _ => rfl) fun r hr => ?_
  have hrewrite : (EventCall.upsert ev).rewrite db r = Db.mergeEvent r (db.eventRow ev) := if_neg hne
  rw [hrewrite]
  show EventRow.mark (Db.mergeEvent r (db.eventRow ev)) = ⟨r.eventId, _, _⟩
  rw [hr]
  rfl

theorem marks_updateEvent (db : Db) (eventId : CStr) (p a k : Int)
    (action endedAt : Option CStr) (hne : status ≠ []) :
    (db.updateEvent eventId p a k action (some status) endedAt).marks =
      applyWrite (some (.marked eventId status)) db.marks := by
  unfold Db.marks
  rw [show db.updateEvent eventId p a k action (some status) endedAt =
    (EventCall.update eventId p a k action (some status) endedAt).run db from rfl,
    EventCall.events_run]
  refine UniqueTable.map_change (fun _ => rfl) fun r _ => ?_
  have hstatus : (Option.filter (· ≠ []) (some status)).getD r.status = status := by
    simp [Option.filter, hne]
  exact congrArg (EventMark.mk r.eventId r.startedAt) hstatus

theorem marks_updateTotals (i : Fin sessionBuckets) (d : Daemon) :
    (updateTotals i d).db.marks = d.db.marks := by
  show List.map _ (List.map _ d.db.events) = _
  rw [List.map_map]
  refine List.map_congr_left fun r _ => ?_
  simp only [Function.comp_apply]
  split <;> rfl

/-- A write that says nothing. -/
theorem applyWrite_nothing (id : CStr) (marks : List EventMark) :
    applyWrite (some ⟨id, none, none, none⟩) marks = marks :=
  (UniqueTable.change_of_taken (.inr rfl)).trans
    ((List.map_congr_left fun _ _ => ite_self _).trans (List.map_id marks))

/-- A status written after another write about the same event. -/
theorem applyWrite_marked (w : EventWrite) (hnew : ∀ m ∈ w.new, m.eventId = w.eventId)
    (status : CStr) (marks : List EventMark) :
    applyWrite (some (.marked w.eventId status)) (applyWrite (some w) marks) =
      applyWrite (some { w with
        status := some status
        new := w.new.map fun m => { m with status := status } }) marks :=
  UniqueTable.change_change (fun _ h => h) hnew

/-! ## Messages -/

theorem ensureId_currentEventId (env : CallEnv) (i : Fin sessionBuckets) (d : Daemon) :
    ((ensureId env i d).session i).currentEventId = recordEventId env d (d.session i) := by
  unfold recordEventId ensureId
  split
  · rw [session_setSession]
  · rfl

theorem recordEventId_ne_nil (env : CallEnv) (d : Daemon) (s : SessionState) :
    (recordEventId env d s).str ≠ [] := by
  unfold recordEventId
  split
  · exact makeEventId_ne_nil env d
  · assumption

theorem blacklistStatus_ne_nil (p : Policy) (msg : EventMsg) : blacklistStatus p msg ≠ [] := by
  unfold blacklistStatus
  split <;> exact List.cons_ne_nil _ _

/-- `blocker_execute` marks the event when it succeeds. -/
theorem blockerExecute_marks (env : CallEnv) (ip : CStr) (d : Daemon) (hid : id ≠ [])
    (hstatus : status ≠ []) : (blockerExecute env ip id status d).2.db.marks =
      if (blockerAppend d.blocked ip env.readOk env.writeOk).isSome then
        applyWrite (some (.marked id status)) d.db.marks
      else d.db.marks := by
  unfold blockerExecute
  split
  · next h => rw [h]; rfl
  · next content h =>
    dsimp only
    rw [h, if_neg hid, if_neg hstatus]
    exact marks_updateEvent d.db id 0 0 0 _ _ hstatus

/-- The upsert of a message's event. -/
theorem marks_upsertRecord (env : CallEnv) (msg : EventMsg) (db : Db) (action pname : CStr)
    (hid : id ≠ []) (hstatus : status ≠ []) :
    (db.upsertEvent (eventRecord env msg id action status pname)).marks =
      applyWrite (some (.started id env.iso8601 status)) db.marks := by
  have hbound : Db.orDefault status (lit "active") = status := if_neg hstatus
  rw [marks_upsertEvent _ hid]
  show applyWrite (some (.started _ _ (Db.orDefault status _))) _ = _
  rw [hbound]
  rfl

theorem vfsBlocked_marks (hfind : sessionFindOrCreate d.table msg.sessionKey env.now = some (i, t)) :
    (vfsBlocked env msg d).db.marks =
      applyWrite (some (.started (recordEventId env d (t.buckets i)).str env.iso8601
        (lit "blocked_ip"))) d.db.marks := by
  have hid : ((ensureId env i { d with table := t }).session i).currentEventId =
      recordEventId env d (t.buckets i) := ensureId_currentEventId env i { d with table := t }
  have hne := ensureId_ne_nil env i { d with table := t }
  have hdb : (ensureId env i { d with table := t }).db = d.db := (ensureId_frame env i _).1
  unfold vfsBlocked
  rw [hfind]
  dsimp only
  generalize ensureId env i { d with table := t } = d₁ at *
  rw [if_neg hne, ← hid, ← hdb]
  exact marks_upsertRecord env msg d₁.db (lit "blocked") [] hne (List.cons_ne_nil _ _)

/-- The event of a blacklisted session after it was ensured. -/
theorem ensureBlockedEvent_marks (env : CallEnv) (msg : EventMsg) (i : Fin sessionBuckets)
    (d : Daemon) : (ensureBlockedEvent env msg i d).db.marks =
      if (d.session i).newEvent then
        applyWrite (some (.started (recordEventId env d (d.session i)).str env.iso8601
          (blacklistStatus d.policy msg))) d.db.marks
      else d.db.marks := by
  unfold ensureBlockedEvent SessionState.newEvent
  by_cases hnew : (d.session i).currentEventId.str = []
  · rw [if_pos hnew, if_pos (decide_eq_true hnew)]
    obtain ⟨hdb, hpolicy, -⟩ := ensureId_frame env i d
    dsimp only
    rw [marks_upsertRecord env msg _ _ _ (ensureId_ne_nil env i d) (blacklistStatus_ne_nil _ _),
      ensureId_currentEventId, hpolicy, hdb]
  · rw [if_neg hnew, if_neg (by simpa using hnew)]

/-- A blacklisted session's event is upserted when it is new, else marked when the block
succeeds. -/
theorem blacklistBlock_marks
    (hfind : sessionFindOrCreate d.table msg.sessionKey env.now = some (i, t)) :
    (blacklistBlock env msg d).db.marks =
      applyWrite (if (t.buckets i).isBlocked then none
        else if (t.buckets i).newEvent then
          some (.started (recordEventId env d (t.buckets i)).str env.iso8601
            (blacklistStatus d.policy msg))
        else if executes env msg d then
          some (.marked (recordEventId env d (t.buckets i)).str (blacklistStatus d.policy msg))
        else none) d.db.marks := by
  have hens := ensureBlockedEvent_ensured env msg i { d with table := t }
  have hmarks : (ensureBlockedEvent env msg i { d with table := t }).db.marks =
      if (t.buckets i).newEvent then
        applyWrite (some (.started (recordEventId env d (t.buckets i)).str env.iso8601
          (blacklistStatus d.policy msg))) d.db.marks
      else d.db.marks := ensureBlockedEvent_marks env msg i { d with table := t }
  have hid : ((ensureBlockedEvent env msg i { d with table := t }).session i).currentEventId =
      recordEventId env d (t.buckets i) := by
    unfold ensureBlockedEvent
    split
    · exact ensureId_currentEventId env i { d with table := t }
    · next h => exact (if_neg h).symm
  have hblocked : (ensureBlockedEvent env msg i { d with table := t }).blocked = d.blocked :=
    hens.blocked
  have hpolicy : (ensureBlockedEvent env msg i { d with table := t }).policy = d.policy :=
    hens.policy
  have hne := hens.ne_nil
  unfold blacklistBlock
  rw [hfind]
  dsimp only
  generalize ensureBlockedEvent env msg i { d with table := t } = d₁ at *
  clear hens
  change (if (t.buckets i).isBlocked = true then { d with table := t } else _).db.marks = _
  split
  · rfl
  · have hexec := blockerExecute_marks env (blockIp msg) d₁ hne
      (blacklistStatus_ne_nil d.policy msg)
    rw [hid, hblocked, hmarks] at hexec
    rw [hid, hpolicy]
    generalize blockerExecute env (blockIp msg) _ _ _ = result at hexec ⊢
    obtain ⟨ok, d₂⟩ := result
    -- neither answer changes the database
    refine Eq.trans (b := d₂.db.marks) (by cases ok <;> rfl) (hexec.trans ?_)
    show (if executes env msg d then _ else _) = _
    by_cases hnew : (t.buckets i).newEvent = true
    · -- the status of the upsert is written again
      rw [if_pos hnew, if_pos hnew]
      split
      · exact applyWrite_marked (.started _ _ _) (by rintro m ⟨⟩; rfl) _ _
      · rfl
    · rw [if_neg hnew, if_neg hnew]
      split <;> rfl

/-- The event of an accepted message after it was ensured. -/
theorem ensureEvent_marks (env : CallEnv) (msg : EventMsg) (i : Fin sessionBuckets) (d : Daemon) :
    (ensureEvent env msg i d).db.marks =
      applyWrite (some (acceptWrite (recordEventId env d (d.session i)).str env.iso8601
        (d.session i).newEvent false)) d.db.marks := by
  unfold ensureEvent SessionState.newEvent
  by_cases hnew : (d.session i).currentEventId.str = []
  · rw [if_pos hnew, decide_eq_true hnew]
    dsimp only
    rw [marks_insertEvent, ← ensureId_currentEventId, (ensureId_frame env i d).1]
    rfl
  · rw [if_neg hnew, decide_eq_false hnew]
    exact (applyWrite_nothing _ _).symm

theorem settleMsg_marks (env : CallEnv) (msg : EventMsg) (i : Fin sessionBuckets) (d : Daemon) :
    (settleMsg env msg i d).db.marks = (ensureEvent env msg i d).db.marks := by
  have hcreated : (settleMsg env msg i d).db.marks =
      (updateTotals i (scoreMsg env msg i d)).db.marks := by
    unfold settleMsg recordCreatedFile
    split <;> rfl
  have hrecord : (recordMsg env msg i d).db.marks = (ensureEvent env msg i d).db.marks := by
    unfold recordMsg recordProtectedFile
    split
    · split <;> rfl
    · rfl
  rw [hcreated, marks_updateTotals]
  exact hrecord

/-- The block stage marks the event of a critical session when the block succeeds, unless the
session has no event any more. -/
theorem blockIfCritical_marks (env : CallEnv) (msg : EventMsg) (i : Fin sessionBuckets)
    (d : Daemon) : (blockIfCritical env msg i d).db.marks =
      if (d.session i).riskLevel = .critical ∧ (d.session i).isBlocked = false ∧
          executes env msg d = true ∧ (d.session i).currentEventId.str ≠ [] then
        applyWrite (some (.marked (d.session i).currentEventId.str (lit "blocked_ransom"))) d.db.marks
      else d.db.marks := by
  unfold blockIfCritical
  by_cases hcrit : (d.session i).riskLevel = .critical ∧ (d.session i).isBlocked = false
  · rw [if_pos hcrit]
    have hfst := blockerExecute_fst env (blockIp msg) (d.session i).currentEventId.str
      (lit "blocked_ransom") d
    have hmarks : (blockerExecute env (blockIp msg) (d.session i).currentEventId.str
        (lit "blocked_ransom") d).2.db.marks =
        if executes env msg d = true ∧ (d.session i).currentEventId.str ≠ [] then
          applyWrite (some (.marked (d.session i).currentEventId.str (lit "blocked_ransom")))
            d.db.marks
        else d.db.marks := by
      by_cases hid : (d.session i).currentEventId.str = []
      · rw [if_neg fun h => h.2 hid]
        unfold blockerExecute
        split
        · rfl
        · rw [if_pos hid]
      · have hstatus : lit "blocked_ransom" ≠ [] := List.cons_ne_nil _ _
        rw [blockerExecute_marks env (blockIp msg) d hid hstatus]
        exact if_congr (and_iff_left hid).symm rfl rfl
    generalize blockerExecute env (blockIp msg) (d.session i).currentEventId.str
      (lit "blocked_ransom") d = result at hfst hmarks ⊢
    obtain ⟨ok, d'⟩ := result
    rw [if_congr (and_iff_right hcrit.1) rfl rfl, if_congr (and_iff_right hcrit.2) rfl rfl, ← hmarks]
    cases ok <;> rfl
  · rw [if_neg hcrit, if_neg fun h => hcrit ⟨h.1, h.2.1⟩]

/-- Whether an accepted message blocks its session for the score. -/
theorem autoAdds_of_accept (htype : msg.msgType ≠ msgVfsBlocked) (hgate : gate d.policy msg = .accept)
    (hfind : sessionFindOrCreate d.table msg.sessionKey env.now = some (i, t)) :
    autoAdds env msg d = true ↔
      ((settleMsg env msg i { d with table := t, journal := [] }).session i).riskLevel = .critical ∧
        ((settleMsg env msg i { d with table := t, journal := [] }).session i).isBlocked = false ∧
          executes env msg d = true := by
  have hcall : executeCall env msg d =
      if ((settleMsg env msg i { d with table := t, journal := [] }).session i).riskLevel =
          .critical ∧
        ((settleMsg env msg i { d with table := t, journal := [] }).session i).isBlocked = false then
        some ⟨.critical, i, settleMsg env msg i { d with table := t, journal := [] }⟩
      else none := by
    unfold executeCall criticalCall
    dsimp only
    rw [if_neg htype, hgate]
    dsimp only
    rw [hfind]
  unfold autoAdds
  split at hcall
  · next hcrit =>
    have hok := executeCall_ok hcall
    rw [hcall]
    rw [Option.any_some, hok]
    simp [hcrit]
  · next hcrit =>
    rw [hcall]
    simpa using fun h h' => absurd ⟨h, h'⟩ hcrit

/-- An accepted message writes the row of a new event, and the status of a block. -/
theorem acceptMsg_marks (htype : msg.msgType ≠ msgVfsBlocked) (hgate : gate d.policy msg = .accept)
    (hfind : sessionFindOrCreate d.table msg.sessionKey env.now = some (i, t)) :
    (acceptMsg env msg { d with journal := [] }).db.marks =
      applyWrite (some (acceptWrite (recordEventId env d (t.buckets i)).str env.iso8601
        (t.buckets i).newEvent
        (autoAdds env msg d && !longWindowRolls env msg i { d with table := t }))) d.db.marks := by
  have hauto := autoAdds_of_accept htype hgate hfind
  have hsettle := settleMsg_marks env msg i { d with table := t, journal := [] }
  have hens : (ensureEvent env msg i { d with table := t, journal := [] }).db.marks =
      applyWrite (some (acceptWrite (recordEventId env d (t.buckets i)).str env.iso8601
        (t.buckets i).newEvent false)) d.db.marks := ensureEvent_marks env msg i _
  have hblocked : (settleMsg env msg i { d with table := t, journal := [] }).blocked = d.blocked :=
    (settleMsg_frame env msg i _).1
  have hid : ((settleMsg env msg i { d with table := t, journal := [] }).session i).currentEventId =
      if longWindowRolls env msg i { d with table := t } then .empty 32
      else recordEventId env d (t.buckets i) := by
    rw [(settleMsg_noted env msg i _).eventId, scoreMsg_currentEventId, ensuredId_eq]
    rfl
  unfold acceptMsg
  rw [hfind]
  show (blockIfCritical env msg i (settleMsg env msg i _)).db.marks = _
  rw [blockIfCritical_marks]
  generalize settleMsg env msg i { d with table := t, journal := [] } = d₁ at *
  have hexec : executes env msg d₁ = executes env msg d := by
    unfold executes
    rw [hblocked]
  rw [hsettle, hens, hexec, hid]
  cases hroll : longWindowRolls env msg i { d with table := t } with
  | true =>
    rw [if_neg fun h => h.2.2.2 rfl, Bool.not_true, Bool.and_false]
  | false =>
    rw [Bool.not_false, Bool.and_true]
    have hne := recordEventId_ne_nil env d (t.buckets i)
    by_cases hadds : autoAdds env msg d = true
    · obtain ⟨hlevel, hflag, hok⟩ := hauto.1 hadds
      rw [if_pos ⟨hlevel, hflag, hok, hne⟩, hadds]
      refine (applyWrite_marked (acceptWrite _ _ _ false) ?_ _ _).trans ?_
      · unfold acceptWrite
        dsimp only
        split
        · rintro m ⟨⟩
          rfl
        · rintro m ⟨⟩
      · unfold acceptWrite
        cases (t.buckets i).newEvent <;> rfl
    · rw [if_neg fun h => hadds (hauto.2 ⟨h.1, h.2.1, h.2.2.1⟩), Bool.eq_false_iff.2 hadds]

/-- A message makes its write. -/
theorem processMsg_marks (env : CallEnv) (msg : EventMsg) (d : Daemon) :
    (processMsg env msg d).db.marks = applyWrite (eventWrite env msg d) d.db.marks := by
  cases hfind : sessionFindOrCreate d.table msg.sessionKey env.now with
  | none =>
    unfold processMsg vfsBlocked blacklistBlock acceptMsg eventWrite
    dsimp only
    rw [hfind]
    split
    · rfl
    · split <;> rfl
  | some found =>
    obtain ⟨i, t⟩ := found
    unfold processMsg eventWrite
    rw [hfind]
    dsimp only
    split
    · exact vfsBlocked_marks (d := { d with journal := [] }) hfind
    · next htype =>
      cases hgate : gate d.policy msg with
      | blacklistBlock => exact blacklistBlock_marks (d := { d with journal := [] }) hfind
      | accept => exact acceptMsg_marks htype hgate hfind
      | protectionOff | extFilterSkip | exceptionBypass | whitelistBypass => rfl

/-! ## Restores -/

/-- The row an accepted message adds is of its event. -/
theorem acceptWrite_new (id startedAt : CStr) (new blocks : Bool) :
    ∀ m ∈ (acceptWrite id startedAt new blocks).new, m.eventId = id := by
  cases new with
  | true =>
    rintro m ⟨⟩
    rfl
  | false => rintro m ⟨⟩

/-- The row a message adds is of its event. -/
theorem eventWrite_new (hw : eventWrite env msg d = some w) : ∀ m ∈ w.new, m.eventId = w.eventId := by
  unfold eventWrite at hw
  split at hw
  · cases hw
  · dsimp only at hw
    split at hw
    · cases hw
      rintro m ⟨⟩
      rfl
    · split at hw
      · split at hw
        · cases hw
        · split at hw
          · cases hw
            rintro m ⟨⟩
            rfl
          · split at hw
            · cases hw
              rintro m ⟨⟩
            · cases hw
      · cases hw
        exact acceptWrite_new _ _ _ _
      · cases hw

theorem HistoryKept.refl (db : Db) : HistoryKept db db :=
  fun id => .refl EventMark.Continues.refl id _

theorem HistoryKept.trans {db db' db'' : Db} (h : HistoryKept db db') (h' : HistoryKept db' db'') :
    HistoryKept db db'' :=
  fun id => (h id).trans EventMark.Continues.trans (h' id)

end

end GfrGuard

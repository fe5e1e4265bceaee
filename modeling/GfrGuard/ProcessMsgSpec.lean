import GfrGuard.ProcessMsg

/-!
# What a message can do

`Stage i d d'` is what every stage of `process_msg` guarantees about the slot `i` it works
on: other sessions are untouched, the session stays whose it is, of the policy only the
blacklist changes, events keep their rows and preimage rows are only appended. `processMsg_spec` puts it together: a message leaves the
tables alone, or works on the one slot its session was found or created in. `Noted` is the
same for the stages after the event is ensured, with the uses of the event they journal.
-/

namespace GfrGuard

/-! ## The stage relation -/

/-- What every stage working on slot `i` guarantees. -/
structure Stage (i : Fin sessionBuckets) (d d' : Daemon) : Prop where
  frame : ∀ j, j ≠ i → d'.session j = d.session j
  key : (d'.session i).sessionKey = (d.session i).sessionKey
  inUse : (d'.session i).inUse = (d.session i).inUse
  policy : { d'.policy with blacklist := d.policy.blacklist } = d.policy
  events : ∀ id, d.db.hasEvent id = true → d'.db.hasEvent id = true
  rows : d.db.protectedFiles <+: d'.db.protectedFiles

section
variable {i : Fin sessionBuckets} {d d' d'' : Daemon} {env : CallEnv} {msg : EventMsg}

theorem Stage.refl (i : Fin sessionBuckets) (d : Daemon) : Stage i d d :=
  ⟨fun _ _ => rfl, rfl, rfl, rfl, fun _ h => h, List.prefix_refl _⟩

theorem Stage.trans (h : Stage i d d') (h' : Stage i d' d'') : Stage i d d'' where
  frame j hj := (h'.frame j hj).trans (h.frame j hj)
  key := h'.key.trans h.key
  inUse := h'.inUse.trans h.inUse
  policy := (congrArg (fun p => { p with blacklist := d.policy.blacklist }) h'.policy).trans h.policy
  events id hid := h'.events id (h.events id hid)
  rows := h.rows.trans h'.rows

/-- A recorded preimage stays recorded. -/
theorem Stage.hasProtected (h : Stage i d d') {id path : CStr}
    (hp : d.db.hasProtected id path = true) : d'.db.hasProtected id path = true := by
  obtain ⟨pf, hpf, hkey⟩ := Db.hasProtected_iff.1 hp
  exact Db.hasProtected_iff.2 ⟨pf, h.rows.subset hpf, hkey⟩

@[simp] theorem session_setSession (d : Daemon) (i : Fin sessionBuckets) (s : SessionState) :
    (d.setSession i s).session i = s := SessionTable.set_self d.table i s

theorem session_setSession_of_ne {j : Fin sessionBuckets} (h : j ≠ i) (s : SessionState) :
    (d.setSession i s).session j = d.session j := SessionTable.set_of_ne h

@[simp] theorem session_note (d : Daemon) (kind : UseKind) (id : CStr)
    (j : Fin sessionBuckets) : (d.note kind id).session j = d.session j := rfl

/-- Writing the slot of a session without changing whose it is. -/
theorem stage_setSession {s : SessionState} (hkey : s.sessionKey = (d.session i).sessionKey)
    (huse : s.inUse = (d.session i).inUse) : Stage i d (d.setSession i s) where
  frame _ hj := session_setSession_of_ne hj s
  key := by rw [session_setSession, hkey]
  inUse := by rw [session_setSession, huse]
  policy := rfl
  events _ h := h
  rows := List.prefix_refl _

/-- Rewriting the database by a statement that keeps event rows and appends preimages. -/
theorem stage_db {db : Db} (hevents : ∀ id, d.db.hasEvent id = true → db.hasEvent id = true)
    (hrows : d.db.protectedFiles <+: db.protectedFiles) : Stage i d { d with db := db } :=
  ⟨fun _ _ => rfl, rfl, rfl, rfl, hevents, hrows⟩

/-! ## Event ids -/

theorem ensureId_of_ne_nil (h : (d.session i).currentEventId.str ≠ []) :
    ensureId env i d = d := if_neg h

/-- After `ensureId` the session has an event id. -/
theorem ensureId_ne_nil (env : CallEnv) (i : Fin sessionBuckets) (d : Daemon) :
    ((ensureId env i d).session i).currentEventId.str ≠ [] := by
  by_cases h : (d.session i).currentEventId.str = []
  · rw [ensureId, if_pos h, session_setSession]
    exact makeEventId_ne_nil env d
  · rwa [ensureId_of_ne_nil h]

/-- What `ensureId` leaves alone. -/
theorem ensureId_frame (env : CallEnv) (i : Fin sessionBuckets) (d : Daemon) :
    (ensureId env i d).db = d.db ∧ (ensureId env i d).policy = d.policy ∧
      (ensureId env i d).blocked = d.blocked ∧ (ensureId env i d).journal = d.journal ∧
      (ensureId env i d).session i =
        { d.session i with currentEventId := ((ensureId env i d).session i).currentEventId } := by
  by_cases h : (d.session i).currentEventId.str = []
  · rw [ensureId, if_pos h, session_setSession]
    exact ⟨rfl, rfl, rfl, rfl, rfl⟩
  · rw [ensureId_of_ne_nil h]
    exact ⟨rfl, rfl, rfl, rfl, rfl⟩

theorem ensureId_isBlocked (env : CallEnv) (i : Fin sessionBuckets) (d : Daemon) :
    ((ensureId env i d).session i).isBlocked = (d.session i).isBlocked := by
  rw [(ensureId_frame env i d).2.2.2.2]

theorem ensureId_stage (env : CallEnv) (i : Fin sessionBuckets) (d : Daemon) :
    Stage i d (ensureId env i d) := by
  by_cases h : (d.session i).currentEventId.str = []
  · rw [ensureId, if_pos h]
    have hmade : Stage i d (makeEventId env d).2 :=
      ⟨fun _ _ => rfl, rfl, rfl, rfl, fun _ h => h, List.prefix_refl _⟩
    exact hmade.trans (stage_setSession
      (s := { (makeEventId env d).2.session i with currentEventId := (makeEventId env d).1 })
      rfl rfl)
  · rw [ensureId_of_ne_nil h]
    exact Stage.refl i d

/-- The stages that give a session an event: the id exists, its row exists if it did for
the id the session already had, and nothing but the id changes in the session. -/
structure EventEnsured (i : Fin sessionBuckets) (d d' : Daemon) : Prop where
  stage : Stage i d d'
  ne_nil : (d'.session i).currentEventId.str ≠ []
  keeps : (d.session i).currentEventId.str ≠ [] → d' = d
  known : (d.session i).currentEventId.str = [] →
    d'.db.hasEvent (d'.session i).currentEventId.str = true
  session : d'.session i =
    { d.session i with currentEventId := (d'.session i).currentEventId }
  rows : d'.db.protectedFiles = d.db.protectedFiles
  created : d'.db.createdFiles = d.db.createdFiles
  policy : d'.policy = d.policy
  blocked : d'.blocked = d.blocked
  journal : d'.journal = d.journal

/-- Making the id and writing the row of the event ensures it. -/
private theorem eventEnsured_of_row {db : Db}
    (h : (d.session i).currentEventId.str = [])
    (hevents : ∀ id, d.db.hasEvent id = true → db.hasEvent id = true)
    (hknown : db.hasEvent ((ensureId env i d).session i).currentEventId.str = true)
    (hrows : db.protectedFiles = d.db.protectedFiles)
    (hcreated : db.createdFiles = d.db.createdFiles) :
    EventEnsured i d { ensureId env i d with db := db } := by
  obtain ⟨hdb, hpolicy, hblocked, hjournal, hsession⟩ := ensureId_frame env i d
  refine ⟨?_, ensureId_ne_nil env i d, absurd h, fun _ => hknown, hsession, hrows, hcreated,
    hpolicy, hblocked, hjournal⟩
  refine (ensureId_stage env i d).trans (stage_db (fun id hid => hevents id ?_) ?_)
  · rwa [hdb] at hid
  · rw [hrows, hdb]

theorem ensureEvent_ensured (env : CallEnv) (msg : EventMsg) (i : Fin sessionBuckets)
    (d : Daemon) : EventEnsured i d (ensureEvent env msg i d) := by
  by_cases h : (d.session i).currentEventId.str = []
  · rw [ensureEvent, if_pos h]
    have hdb := (ensureId_frame env i d).1
    refine eventEnsured_of_row h (fun id hid => ?_) ?_ ?_ ?_
    · rw [Db.hasEvent_insertEvent, hdb, hid, Bool.true_or]
    · rw [Db.hasEvent_insertEvent]
      simp [eventRecord]
    · rw [Db.insertEvent_protectedFiles, hdb]
    · rw [Db.insertEvent_createdFiles, hdb]
  · rw [ensureEvent, if_neg h]
    exact ⟨Stage.refl i d, h, fun _ => rfl, fun h' => absurd h' h, rfl, rfl, rfl, rfl, rfl, rfl⟩

theorem ensureBlockedEvent_ensured (env : CallEnv) (msg : EventMsg) (i : Fin sessionBuckets)
    (d : Daemon) : EventEnsured i d (ensureBlockedEvent env msg i d) := by
  by_cases h : (d.session i).currentEventId.str = []
  · rw [ensureBlockedEvent, if_pos h]
    have hdb := (ensureId_frame env i d).1
    refine eventEnsured_of_row h (fun id hid => ?_) ?_ ?_ ?_
    · rw [Db.hasEvent_upsertEvent _ _ (ensureId_ne_nil env i d), hdb, hid, Bool.true_or]
    · rw [Db.hasEvent_upsertEvent _ _ (ensureId_ne_nil env i d)]
      simp [eventRecord]
    · rw [Db.upsertEvent_protectedFiles, hdb]
    · rw [Db.upsertEvent_createdFiles, hdb]
  · rw [ensureBlockedEvent, if_neg h]
    exact ⟨Stage.refl i d, h, fun _ => rfl, fun h' => absurd h' h, rfl, rfl, rfl, rfl, rfl, rfl⟩

/-! ## Stages that use the event -/

/-- What a stage after the event is ensured guarantees: it keeps the session's event and
which events have rows, and every use it journals is of that event. -/
structure Noted (i : Fin sessionBuckets) (d d' : Daemon) : Prop extends Stage i d d' where
  eventId : (d'.session i).currentEventId = (d.session i).currentEventId
  hasEvent : ∀ id, d'.db.hasEvent id = d.db.hasEvent id
  journal : ∃ uses, d'.journal = d.journal ++ uses ∧
    ∀ u ∈ uses, u.eventId = (d.session i).currentEventId.str ∧
      u.known = d.db.hasEvent (d.session i).currentEventId.str

theorem Noted.refl (i : Fin sessionBuckets) (d : Daemon) : Noted i d d :=
  ⟨Stage.refl i d, rfl, fun _ => rfl, [], by simp, by simp⟩

theorem Noted.trans (h : Noted i d d') (h' : Noted i d' d'') : Noted i d d'' := by
  obtain ⟨uses, hj, hu⟩ := h.journal
  obtain ⟨uses', hj', hu'⟩ := h'.journal
  refine ⟨h.toStage.trans h'.toStage, h'.eventId.trans h.eventId,
    fun id => (h'.hasEvent id).trans (h.hasEvent id), uses ++ uses', ?_, fun u hmem => ?_⟩
  · rw [hj', hj, List.append_assoc]
  · rcases List.mem_append.1 hmem with hmem | hmem
    · exact hu u hmem
    · have := hu' u hmem
      rwa [h.eventId, h.hasEvent] at this

/-- Journalling a use of the session's own event. -/
theorem noted_note (kind : UseKind) (i : Fin sessionBuckets) (d : Daemon) :
    Noted i d (d.note kind (d.session i).currentEventId.str) :=
  ⟨⟨fun _ _ => rfl, rfl, rfl, rfl, fun _ h => h, List.prefix_refl _⟩, rfl, fun _ => rfl,
    [⟨kind, (d.session i).currentEventId.str, d.db.hasEvent (d.session i).currentEventId.str⟩],
    rfl, by simp⟩

/-- Rewriting the database by a statement that neither adds nor removes events. -/
theorem noted_db {db : Db} (hevents : ∀ id, db.hasEvent id = d.db.hasEvent id)
    (hrows : d.db.protectedFiles <+: db.protectedFiles) : Noted i d { d with db := db } :=
  ⟨stage_db (fun id h => by rw [hevents, h]) hrows, rfl, hevents, [], by simp, by simp⟩

/-- Writing the slot without changing whose session it is or its event. -/
theorem noted_setSession {s : SessionState} (hkey : s.sessionKey = (d.session i).sessionKey)
    (huse : s.inUse = (d.session i).inUse)
    (hid : s.currentEventId = (d.session i).currentEventId) : Noted i d (d.setSession i s) :=
  ⟨stage_setSession hkey huse, by rw [session_setSession, hid], fun _ => rfl, [], by
    simp [Daemon.setSession], by simp⟩

theorem recordProtectedFile_noted (env : CallEnv) (msg : EventMsg) (i : Fin sessionBuckets)
    (d : Daemon) : Noted i d (recordProtectedFile env msg i d) := by
  unfold recordProtectedFile
  split
  · split
    · exact Noted.refl i d
    · exact (noted_note .protectedFile i d).trans
        (noted_db (fun _ => rfl) (Db.insertProtectedFile_isPrefix _ _))
  · exact Noted.refl i d

theorem updateTotals_noted (i : Fin sessionBuckets) (d : Daemon) :
    Noted i d (updateTotals i d) :=
  (noted_note .updateEvent i d).trans
    (noted_db (fun id => Db.hasEvent_updateEvent _ _ _ _ _ _ _ _ id) (List.prefix_refl _))

theorem recordCreatedFile_noted (env : CallEnv) (msg : EventMsg) (i : Fin sessionBuckets)
    (d : Daemon) : Noted i d (recordCreatedFile env msg i d) := by
  unfold recordCreatedFile
  split
  · exact (noted_note .createdFile i d).trans (noted_db (fun _ => rfl) (List.prefix_refl _))
  · exact Noted.refl i d

/-! ## Blocking -/

/-- What `blocker_execute` does: fail and change nothing, or put the address on the blocked
file and update the event. -/
inductive ExecuteSpec (i : Fin sessionBuckets) (env : CallEnv) (ip : CStr) (d : Daemon) :
    Bool × Daemon → Prop
  | failed (happend : blockerAppend d.blocked ip env.readOk env.writeOk = none) :
      ExecuteSpec i env ip d (false, d)
  | done (content : Option CStr) (d' : Daemon)
      (happend : blockerAppend d.blocked ip env.readOk env.writeOk = some content)
      (hnoted : Noted i d d') (hblocked : d'.blocked = content) (htable : d'.table = d.table)
      (hpolicy : d'.policy = d.policy) (hrows : d'.db.protectedFiles = d.db.protectedFiles)
      (hcreated : d'.db.createdFiles = d.db.createdFiles) :
      ExecuteSpec i env ip d (true, d')

/-- `blocker_execute` for the event of a session meets its specification. -/
theorem blockerExecute_spec (env : CallEnv) (ip status : CStr) (i : Fin sessionBuckets)
    (d : Daemon) :
    ExecuteSpec i env ip d
      (blockerExecute env ip (d.session i).currentEventId.str status d) := by
  unfold blockerExecute
  split
  · next happend => exact .failed happend
  · next content happend =>
    have hcontent : Noted i d { d with blocked := content } :=
      ⟨⟨fun _ _ => rfl, rfl, rfl, rfl, fun _ h => h, List.prefix_refl _⟩, rfl, fun _ => rfl,
        [], by simp, by simp⟩
    dsimp only
    split
    · exact .done content _ happend hcontent rfl rfl rfl rfl rfl
    · refine .done content _ happend ?_ rfl rfl rfl rfl rfl
      exact hcontent.trans ((noted_note .blockUpdate i _).trans
        (noted_db (fun id => Db.hasEvent_updateEvent _ _ _ _ _ _ _ _ id) (List.prefix_refl _)))

/-- What the block stage does: nothing, or block the session, put its address on the
runtime blacklist, rebuild the blocked file and trigger the restore of its event. -/
inductive BlockSpec (env : CallEnv) (msg : EventMsg) (i : Fin sessionBuckets) (d : Daemon) :
    Daemon → Prop
  | skipped : BlockSpec env msg i d d
  | blocked (d' : Daemon)
      (hcritical : (d.session i).riskLevel = .critical)
      (hnew : (d.session i).isBlocked = false)
      (hnoted : Noted i d d')
      (htrigger : (⟨.restoreTrigger, (d.session i).currentEventId.str,
        d.db.hasEvent (d.session i).currentEventId.str⟩ : EventUse) ∈ d'.journal)
      (hsession : d'.session i = { d.session i with isBlocked := true })
      (hpolicy : d'.policy = { d.policy with
        blacklist := blacklistAutoAdd d.policy.blacklist msg.clientIp })
      (hblocked : ∃ content, blockerAppend d.blocked (blockIp msg) env.readOk env.writeOk =
        some content ∧ d'.blocked = blockerSyncBlacklist content d'.policy.blacklist env.syncOk)
      (hrows : d'.db.protectedFiles = d.db.protectedFiles)
      (hcreated : d'.db.createdFiles = d.db.createdFiles) :
      BlockSpec env msg i d d'

/-- The block stage meets its specification. -/
theorem blockIfCritical_spec (env : CallEnv) (msg : EventMsg) (i : Fin sessionBuckets)
    (d : Daemon) : BlockSpec env msg i d (blockIfCritical env msg i d) := by
  unfold blockIfCritical
  split
  · next hcrit =>
    have hexec := blockerExecute_spec env (blockIp msg) (lit "blocked_ransom") i d
    generalize blockerExecute env (blockIp msg) (d.session i).currentEventId.str
      (lit "blocked_ransom") d = result at hexec
    cases hexec with
    | failed => exact .skipped
    | done content d' happend hnoted hblocked htable hpolicy hrows hcreated =>
      have hsess : d'.session i = d.session i := by
        simp only [Daemon.session, htable]
      -- the flag, the lists and the rebuild keep the event; the trigger uses it
      have hset : Noted i d' (d'.setSession i { d'.session i with isBlocked := true }) :=
        noted_setSession rfl rfl rfl
      have hauto : Noted i (d'.setSession i { d'.session i with isBlocked := true })
          (autoBlacklist env msg (d'.setSession i { d'.session i with isBlocked := true })) :=
        ⟨⟨fun _ _ => rfl, rfl, rfl, rfl, fun _ h => h, List.prefix_refl _⟩, rfl, fun _ => rfl,
          [], by simp [autoBlacklist], by simp⟩
      have hall := hnoted.trans (hset.trans (hauto.trans (noted_note .restoreTrigger i _)))
      refine .blocked _ hcrit.1 hcrit.2 hall ?_ ?_ ?_ ⟨content, happend, ?_⟩ hrows hcreated
      · have hev : d'.db.hasEvent (d.session i).currentEventId.str =
            d.db.hasEvent (d.session i).currentEventId.str := hnoted.hasEvent _
        rw [← hev, ← hsess]
        simp [Daemon.note, autoBlacklist, Daemon.session, Daemon.setSession]
      · rw [← hsess]
        simp [Daemon.note, autoBlacklist, Daemon.session, Daemon.setSession]
      · simp [Daemon.note, autoBlacklist, Daemon.setSession, hpolicy]
      · simp [Daemon.note, autoBlacklist, Daemon.setSession, hblocked]
  · exact .skipped

theorem BlockSpec.noted (h : BlockSpec env msg i d d') : Noted i d d' := by
  cases h with
  | skipped => exact Noted.refl i d
  | blocked _ _ _ hnoted => exact hnoted

/-! ## An accepted message -/

/-- The session after scoring is the same one, unblocked exactly when it was. -/
theorem scoreSession_sameSession (env : CallEnv) (p : Policy) (msg : EventMsg)
    (s : SessionState) : s.SameSession (scoreSession env p msg s) := by
  unfold scoreSession
  dsimp only
  split
  · exact (sessionCheckWindow_sameSession ..).trans (sessionUpdate_sameSession ..)
  · exact ((sessionCheckWindow_sameSession ..).trans (sessionUpdate_sameSession ..)).trans
      (scorerCalculate_sameSession ..)

/-- Scoring loses the event exactly when the long window has run out. -/
theorem scoreSession_currentEventId (env : CallEnv) (p : Policy) (msg : EventMsg)
    (s : SessionState) :
    (scoreSession env p msg s).currentEventId =
      if s.longExpired env.now (p.windows msg.sourceType).2 then .empty 32
      else s.currentEventId := by
  rw [← sessionCheckWindow_currentEventId s env.now (p.windows msg.sourceType).1]
  unfold scoreSession
  dsimp only
  split
  · rw [sessionUpdate_currentEventId]
  · rw [scorerCalculate_currentEventId, sessionUpdate_currentEventId]

/-- The event and the preimage row of a message are recorded before the windows move. -/
theorem recordMsg_stage (env : CallEnv) (msg : EventMsg) (i : Fin sessionBuckets) (d : Daemon) :
    Stage i d (recordMsg env msg i d) :=
  (ensureEvent_ensured env msg i d).stage.trans (recordProtectedFile_noted env msg i _).toStage

theorem scoreMsg_stage (env : CallEnv) (msg : EventMsg) (i : Fin sessionBuckets) (d : Daemon) :
    Stage i d (scoreMsg env msg i d) :=
  have h := scoreSession_sameSession env (recordMsg env msg i d).policy msg
    ((recordMsg env msg i d).session i)
  (recordMsg_stage env msg i d).trans (stage_setSession h.key h.inUse)

/-- From the score on, every use is of the event the score left. -/
theorem settleMsg_noted (env : CallEnv) (msg : EventMsg) (i : Fin sessionBuckets) (d : Daemon) :
    Noted i (scoreMsg env msg i d) (settleMsg env msg i d) :=
  (updateTotals_noted i _).trans (recordCreatedFile_noted env msg i _)

theorem acceptSession_noted (env : CallEnv) (msg : EventMsg) (i : Fin sessionBuckets)
    (d : Daemon) : Noted i (scoreMsg env msg i d) (acceptSession env msg i d) :=
  (settleMsg_noted env msg i d).trans (blockIfCritical_spec env msg i _).noted

theorem acceptSession_stage (env : CallEnv) (msg : EventMsg) (i : Fin sessionBuckets)
    (d : Daemon) : Stage i d (acceptSession env msg i d) :=
  (scoreMsg_stage env msg i d).trans (acceptSession_noted env msg i d).toStage

/-- The long window of the session in slot `i` has run out when the message comes. -/
def longWindowRolls (env : CallEnv) (msg : EventMsg) (i : Fin sessionBuckets) (d : Daemon) :
    Bool :=
  (d.session i).longExpired env.now (d.policy.windows msg.sourceType).2

/-- The event a message is recorded under: the session's own, or the one just made. -/
def ensuredId (env : CallEnv) (msg : EventMsg) (i : Fin sessionBuckets) (d : Daemon) :
    CBuf 32 :=
  ((ensureEvent env msg i d).session i).currentEventId

/-- Recording a message's preimage keeps the session. -/
theorem recordMsg_session (env : CallEnv) (msg : EventMsg) (i : Fin sessionBuckets)
    (d : Daemon) : (recordMsg env msg i d).session i =
      { d.session i with currentEventId := ensuredId env msg i d } := by
  have hrec : (recordMsg env msg i d).session i = (ensureEvent env msg i d).session i := by
    unfold recordMsg recordProtectedFile
    split
    · split <;> rfl
    · rfl
  rw [hrec]
  exact (ensureEvent_ensured env msg i d).session

theorem recordMsg_policy (env : CallEnv) (msg : EventMsg) (i : Fin sessionBuckets)
    (d : Daemon) : (recordMsg env msg i d).policy = d.policy := by
  rw [← (ensureEvent_ensured env msg i d).policy]
  unfold recordMsg recordProtectedFile
  split
  · split <;> rfl
  · rfl

/-- The event of the session after the score: lost when the long window rolls, else the one
the message is recorded under. -/
theorem scoreMsg_currentEventId (env : CallEnv) (msg : EventMsg) (i : Fin sessionBuckets)
    (d : Daemon) : ((scoreMsg env msg i d).session i).currentEventId =
      if longWindowRolls env msg i d then .empty 32 else ensuredId env msg i d := by
  show ((Daemon.setSession _ i _).session i).currentEventId = _
  rw [session_setSession, scoreSession_currentEventId, recordMsg_session, recordMsg_policy]
  rfl

/-- An accepted message that reports a preimage whose path fits has a row under the event it
is recorded under. -/
theorem acceptSession_hasProtected (hreports : msg.reportsBackup = true) {path : CStr}
    (hpath : recordBackupPath d.policy.storePath.str msg = some path) :
    (acceptSession env msg i d).db.hasProtected (ensuredId env msg i d).str
      msg.filePath.str = true := by
  have hens := ensureEvent_ensured env msg i d
  have hrec : (recordMsg env msg i d).db.hasProtected (ensuredId env msg i d).str
      msg.filePath.str = true := by
    unfold recordMsg recordProtectedFile
    rw [if_pos hreports, hens.policy, hpath]
    exact Db.hasProtected_insertProtectedFile _ _
  have hscore : (scoreMsg env msg i d).db = (recordMsg env msg i d).db := rfl
  rw [← hscore] at hrec
  exact (acceptSession_noted env msg i d).toStage.hasProtected hrec

/-- Every use an accepted message journals is of the event it is recorded under, up to the
preimage row, and of the event the score left, from there on. -/
theorem acceptSession_journal (env : CallEnv) (msg : EventMsg) (i : Fin sessionBuckets)
    (d : Daemon) : ∃ before after,
      (acceptSession env msg i d).journal = d.journal ++ before ++ after ∧ after ≠ [] ∧
      (∀ u ∈ before, u.eventId = (ensuredId env msg i d).str ∧
        u.known = (ensureEvent env msg i d).db.hasEvent (ensuredId env msg i d).str) ∧
      (∀ u ∈ after,
        u.eventId = ((scoreMsg env msg i d).session i).currentEventId.str ∧
        u.known = (ensureEvent env msg i d).db.hasEvent
          ((scoreMsg env msg i d).session i).currentEventId.str) := by
  have hens := ensureEvent_ensured env msg i d
  have hrec := recordProtectedFile_noted env msg i (ensureEvent env msg i d)
  obtain ⟨before, hbefore, hb⟩ := hrec.journal
  have hevents : ∀ id, (scoreMsg env msg i d).db.hasEvent id =
      (ensureEvent env msg i d).db.hasEvent id := hrec.hasEvent
  -- the totals are always written, so there is a use after the score
  obtain ⟨total, htotals, htotal⟩ : ∃ u : EventUse,
      (updateTotals i (scoreMsg env msg i d)).journal = (scoreMsg env msg i d).journal ++ [u] ∧
        u.eventId = ((scoreMsg env msg i d).session i).currentEventId.str ∧
        u.known = (scoreMsg env msg i d).db.hasEvent
          ((scoreMsg env msg i d).session i).currentEventId.str := ⟨_, rfl, rfl, rfl⟩
  have hrest : Noted i (updateTotals i (scoreMsg env msg i d)) (acceptSession env msg i d) :=
    (recordCreatedFile_noted env msg i _).trans (blockIfCritical_spec env msg i _).noted
  obtain ⟨after, hafter, ha⟩ := hrest.journal
  refine ⟨before, total :: after, ?_, List.cons_ne_nil _ _, hb, fun u hu => ?_⟩
  · rw [hafter, htotals]
    show (recordMsg env msg i d).journal ++ _ ++ _ = _
    rw [recordMsg, hbefore, hens.journal, List.append_assoc, List.singleton_append]
  · rw [← hevents]
    rcases List.mem_cons.1 hu with rfl | hu
    · exact htotal
    · have := ha u hu
      rwa [(updateTotals_noted i _).eventId, (updateTotals_noted i _).hasEvent] at this

/-! ## A whole message -/

/-- The message is accepted and finds the long window of the session in slot `i` run out. -/
def RollsLong (env : CallEnv) (msg : EventMsg) (i : Fin sessionBuckets) (d : Daemon) : Prop :=
  msg.msgType ≠ msgVfsBlocked ∧ gate d.policy msg = .accept ∧ longWindowRolls env msg i d = true

/-- A branch keeps the event of its session, and uses no other. -/
structure EventKept (i : Fin sessionBuckets) (d d' : Daemon) : Prop where
  keeps : (d.session i).currentEventId.str ≠ [] →
    (d'.session i).currentEventId = (d.session i).currentEventId
  uses : ∀ u ∈ d'.journal, u ∈ d.journal ∨ u.eventId = (d'.session i).currentEventId.str

/-- What a branch does to the blocked file and to the block flag of its session: nothing,
append the address for a session not blocked before, or append it, list it and rebuild the
file, with a restore triggered. -/
inductive BlockEffect (env : CallEnv) (msg : EventMsg) (i : Fin sessionBuckets) (d : Daemon)
    (d' : Daemon) : Prop
  | none (hblocked : d'.blocked = d.blocked)
      (hflag : (d'.session i).isBlocked = (d.session i).isBlocked)
  | append (happend : blockerAppend d.blocked (blockIp msg) env.readOk env.writeOk =
      some d'.blocked) (hflag : (d'.session i).isBlocked = true)
  | rebuild (content : Option CStr)
      (happend : blockerAppend d.blocked (blockIp msg) env.readOk env.writeOk = some content)
      (hlist : d'.policy.blacklist = blacklistAutoAdd d.policy.blacklist msg.clientIp)
      (hsync : d'.blocked = blockerSyncBlacklist content d'.policy.blacklist env.syncOk)
      (htrigger : ∃ u ∈ d'.journal, u.kind = .restoreTrigger)
      (hflag : (d'.session i).isBlocked = true)

/-- What a message does to the daemon: nothing but a fresh journal, or the work of one
branch on the slot its session was found or created in. Only a rolling long window takes
the event away. -/
inductive MsgSpec (env : CallEnv) (msg : EventMsg) (d : Daemon) : Daemon → Prop
  | idle : MsgSpec env msg d { d with journal := [] }
  | worked (i : Fin sessionBuckets) (t : SessionTable) (d' : Daemon)
      (hfind : FindOrCreateSpec d.table msg.sessionKey env.now i t)
      (hstage : Stage i { d with table := t, journal := [] } d')
      (hkept : ¬ RollsLong env msg i { d with table := t, journal := [] } →
        EventKept i { d with table := t, journal := [] } d')
      (heffect : BlockEffect env msg i { d with table := t, journal := [] } d') :
      MsgSpec env msg d d'

theorem ensureId_kept (env : CallEnv) (i : Fin sessionBuckets) (d : Daemon) :
    EventKept i d (ensureId env i d) where
  keeps h := by rw [ensureId_of_ne_nil h]
  uses u hu := .inl (by rwa [(ensureId_frame env i d).2.2.2.1] at hu)

/-- An accepted message keeps the event of its session while the long window runs. -/
theorem acceptSession_kept (hroll : longWindowRolls env msg i d = false) :
    EventKept i d (acceptSession env msg i d) := by
  have hid : ((acceptSession env msg i d).session i).currentEventId = ensuredId env msg i d := by
    rw [(acceptSession_noted env msg i d).eventId, scoreMsg_currentEventId, hroll]
    rfl
  refine ⟨fun hne => ?_, fun u hu => ?_⟩
  · rw [hid, ensuredId, (ensureEvent_ensured env msg i d).keeps hne]
  · obtain ⟨before, after, hj, -, hb, ha⟩ := acceptSession_journal env msg i d
    rw [scoreMsg_currentEventId, hroll] at ha
    rw [hj, List.append_assoc, List.mem_append, List.mem_append] at hu
    rw [hid]
    rcases hu with hu | hu | hu
    · exact .inl hu
    · exact .inr (hb u hu).1
    · exact .inr (ha u hu).1

theorem vfsBlocked_stage (env : CallEnv) (msg : EventMsg) (i : Fin sessionBuckets) (d : Daemon) :
    Stage i d { ensureId env i d with
      db := (ensureId env i d).db.upsertEvent (eventRecord env msg
        ((ensureId env i d).session i).currentEventId.str (lit "blocked")
        (lit "blocked_ip") []) } :=
  (ensureId_stage env i d).trans (stage_db (fun id hid => by
    rw [Db.hasEvent_upsertEvent _ _ (ensureId_ne_nil env i d), hid, Bool.true_or])
    (by rw [Db.upsertEvent_protectedFiles]))

theorem blacklistBlock_stage {t : SessionTable}
    (hfind : sessionFindOrCreate d.table msg.sessionKey env.now = some (i, t)) :
    Stage i { d with table := t } (blacklistBlock env msg d) := by
  unfold blacklistBlock
  rw [hfind]
  dsimp only
  split
  · exact Stage.refl i _
  · have hens := ensureBlockedEvent_ensured env msg i { d with table := t }
    have hexec := blockerExecute_spec env (blockIp msg)
      (blacklistStatus (ensureBlockedEvent env msg i { d with table := t }).policy msg) i
      (ensureBlockedEvent env msg i { d with table := t })
    generalize blockerExecute env (blockIp msg) _ _ _ = result at hexec
    cases hexec with
    | failed => exact hens.stage.trans (stage_setSession rfl rfl)
    | done content d' _ hnoted =>
      exact hens.stage.trans (hnoted.toStage.trans (stage_setSession rfl rfl))

/-- Up to the block an accepted message touches neither the blocked file nor the lists. -/
theorem settleMsg_frame (env : CallEnv) (msg : EventMsg) (i : Fin sessionBuckets) (d : Daemon) :
    (settleMsg env msg i d).blocked = d.blocked ∧ (settleMsg env msg i d).policy = d.policy ∧
      ((settleMsg env msg i d).session i).isBlocked = (d.session i).isBlocked := by
  have hsettle : (settleMsg env msg i d).blocked = (scoreMsg env msg i d).blocked ∧
      (settleMsg env msg i d).policy = (scoreMsg env msg i d).policy ∧
      (settleMsg env msg i d).session i = (scoreMsg env msg i d).session i := by
    unfold settleMsg recordCreatedFile
    split <;> exact ⟨rfl, rfl, rfl⟩
  have hrecord : (recordMsg env msg i d).blocked = d.blocked := by
    rw [← (ensureEvent_ensured env msg i d).blocked]
    unfold recordMsg recordProtectedFile
    split
    · split <;> rfl
    · rfl
  refine ⟨hsettle.1.trans hrecord, hsettle.2.1.trans (recordMsg_policy env msg i d), ?_⟩
  rw [hsettle.2.2]
  show ((Daemon.setSession _ i _).session i).isBlocked = _
  rw [session_setSession, (scoreSession_sameSession ..).blocked, recordMsg_session]

theorem acceptSession_effect (env : CallEnv) (msg : EventMsg) (i : Fin sessionBuckets)
    (d : Daemon) : BlockEffect env msg i d (acceptSession env msg i d) := by
  obtain ⟨hblocked, hpolicy, hflag⟩ := settleMsg_frame env msg i d
  have hspec := blockIfCritical_spec env msg i (settleMsg env msg i d)
  show BlockEffect env msg i d (blockIfCritical env msg i (settleMsg env msg i d))
  generalize blockIfCritical env msg i (settleMsg env msg i d) = d' at hspec
  cases hspec with
  | skipped => exact .none hblocked hflag
  | blocked _ _ _ _ htrigger hsession hlist hfile =>
    obtain ⟨content, happend, hsync⟩ := hfile
    rw [hblocked] at happend
    refine .rebuild content happend ?_ hsync ⟨_, htrigger, rfl⟩ (by rw [hsession])
    rw [hlist, hpolicy]

theorem blacklistBlock_effect {t : SessionTable}
    (hfind : sessionFindOrCreate d.table msg.sessionKey env.now = some (i, t)) :
    BlockEffect env msg i { d with table := t } (blacklistBlock env msg d) := by
  unfold blacklistBlock
  rw [hfind]
  dsimp only
  split
  · exact .none rfl rfl
  · next hnew =>
    have hens := ensureBlockedEvent_ensured env msg i { d with table := t }
    have hexec := blockerExecute_spec env (blockIp msg)
      (blacklistStatus (ensureBlockedEvent env msg i { d with table := t }).policy msg) i
      (ensureBlockedEvent env msg i { d with table := t })
    generalize blockerExecute env (blockIp msg) _ _ _ = result at hexec
    cases hexec with
    | failed =>
      refine .none hens.blocked ?_
      rw [session_setSession]
      exact (Bool.eq_false_iff.2 hnew).symm
    | done content d' happend _ hblocked =>
      refine .append ?_ (by rw [session_setSession])
      rw [hens.blocked] at happend
      exact happend.trans (congrArg some hblocked.symm)

/-- A blacklist block keeps the event of its session. -/
theorem blacklistBlock_kept {t : SessionTable}
    (hfind : sessionFindOrCreate d.table msg.sessionKey env.now = some (i, t)) :
    EventKept i { d with table := t } (blacklistBlock env msg d) := by
  unfold blacklistBlock
  rw [hfind]
  dsimp only
  split
  · exact ⟨fun _ => rfl, fun u hu => .inl hu⟩
  · have hens := ensureBlockedEvent_ensured env msg i { d with table := t }
    have hexec := blockerExecute_spec env (blockIp msg)
      (blacklistStatus (ensureBlockedEvent env msg i { d with table := t }).policy msg) i
      (ensureBlockedEvent env msg i { d with table := t })
    generalize blockerExecute env (blockIp msg) _ _ _ = result at hexec
    cases hexec with
    | failed =>
      refine ⟨fun hne => ?_, fun u hu => .inl ?_⟩
      · rw [session_setSession, hens.keeps hne]
      · simpa [Daemon.setSession, hens.journal] using hu
    | done content d' _ hnoted =>
      obtain ⟨uses, hj, hu⟩ := hnoted.journal
      refine ⟨fun hne => ?_, fun u hmem => ?_⟩
      · rw [session_setSession, hnoted.eventId, hens.keeps hne]
      · have hmem' : u ∈ d'.journal := hmem
        rw [hj, hens.journal] at hmem'
        rw [session_setSession, hnoted.eventId]
        exact (List.mem_append.1 hmem').imp_right fun h => (hu u h).1

/-- A message meets its specification. -/
theorem processMsg_spec (env : CallEnv) (msg : EventMsg) (d : Daemon) :
    MsgSpec env msg d (processMsg env msg d) := by
  unfold processMsg
  dsimp only
  split
  · unfold vfsBlocked
    split
    · exact .idle
    · next i t hfind =>
      rw [if_neg (ensureId_ne_nil env i _)]
      exact .worked i t _ (sessionFindOrCreate_spec hfind) (vfsBlocked_stage env msg i _)
        (fun _ => ⟨(ensureId_kept env i _).keeps, (ensureId_kept env i _).uses⟩)
        (.none (ensureId_frame env i _).2.2.1 (ensureId_isBlocked env i _))
  · next htype =>
    split
    · cases hfind : sessionFindOrCreate d.table msg.sessionKey env.now with
      | none => rw [blacklistBlock, hfind]; exact .idle
      | some found =>
        obtain ⟨i, t⟩ := found
        exact .worked i t _ (sessionFindOrCreate_spec hfind)
          (blacklistBlock_stage (d := { d with journal := [] }) hfind)
          (fun _ => blacklistBlock_kept (d := { d with journal := [] }) hfind)
          (blacklistBlock_effect (d := { d with journal := [] }) hfind)
    · next hgate =>
      unfold acceptMsg
      split
      · exact .idle
      · next i t hfind =>
        refine .worked i t _ (sessionFindOrCreate_spec hfind) (acceptSession_stage env msg i _)
          (fun hroll => acceptSession_kept ?_) (acceptSession_effect env msg i _)
        exact Bool.eq_false_iff.2 fun h => hroll ⟨htype, hgate, h⟩
    · exact .idle

end

end GfrGuard

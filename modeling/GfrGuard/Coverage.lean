import GfrGuard.EventIds

/-!
# What an automatic restore covers

A block as `blocked_ransom` triggers the restore of the session's current event. The
preimages a message reported are among the restored ones when their rows are under that
event, which fails as soon as the long window rolls in between: it gives the session a new
event while the short window, and with it the score, still counts the message.
`Tracked` is the invariant that carries a message's row to the block.
-/

namespace GfrGuard

/-- The session key a step works for, when it is a message. -/
def DaemonEvent.key? : DaemonEvent → Option (CBuf 128)
  | .message _ msg => some msg.sessionKey
  | _ => none

/-- A session of the key is in the table. -/
def HasSession (d : Daemon) (key : CBuf 128) : Prop := ∃ i, d.table.keyAt i = some key

/-- A message reports a preimage and passes the gates. -/
structure AcceptsBackup (d : Daemon) (msg : EventMsg) : Prop where
  type : msg.msgType ≠ msgVfsBlocked
  gate : gate d.policy msg = .accept
  reports : msg.reportsBackup = true

/-- The backup path `process_msg` derives from a message fits its buffer. -/
def BackupPathFits (d : Daemon) (msg : EventMsg) : Prop :=
  (recordBackupPath d.policy.storePath.str msg).isSome = true

/-- A step blocks the session of a key as `blocked_ransom` and triggers the restore of an
event. -/
def TriggersRestore (d : Daemon) (e : DaemonEvent) (key : CBuf 128) (eventId : CStr) : Prop :=
  e.key? = some key ∧
    ∃ u ∈ (daemonStep d e).journal, u.kind = .restoreTrigger ∧ u.eventId = eventId

instance (d : Daemon) (e : DaemonEvent) (key : CBuf 128) (eventId : CStr) :
    Decidable (TriggersRestore d e key eventId) := inferInstanceAs (Decidable (_ ∧ _))

instance (d : Daemon) (msg : EventMsg) : Decidable (BackupPathFits d msg) :=
  inferInstanceAs (Decidable (_ = _))

/-- The time is not before the current short window of a session. -/
def SinceShortWindow (d : Daemon) (key : CBuf 128) (now : Int) : Prop :=
  ∃ i, d.table.keyAt i = some key ∧ (d.session i).windowStart10s ≤ now

/-- A step is an accepted message of the key on which the session's long window has run
out. -/
def ClosesLongWindowOf (key : CBuf 128) (d : Daemon) (e : DaemonEvent) : Prop :=
  e.key? = some key ∧ ClosesLongWindow d e

/-- While a session of the key is in the table, its event has the row of a path. -/
def Tracked (key : CBuf 128) (path : CStr) (d : Daemon) : Prop :=
  ∀ i, d.table.keyAt i = some key → (d.session i).currentEventId.str ≠ [] ∧
    d.db.hasProtected (d.session i).currentEventId.str path = true

section
variable {i : Fin sessionBuckets} {d d' : Daemon} {t : SessionTable} {key key' : CBuf 128}
  {now : Int} {path : CStr} {env : CallEnv} {msg : EventMsg} {e : DaemonEvent}

/-! ## The invariant -/

/-- The slot of a lookup holds the key after the stage that works on it. -/
theorem FindOrCreateSpec.keyAt_stage (hfind : FindOrCreateSpec d.table key now i t)
    (hstage : Stage i { d with table := t, journal := [] } d') :
    d'.table.keyAt i = some key :=
  SessionTable.keyAt_eq_some_iff.2
    ⟨hstage.inUse.trans hfind.slot.1, hstage.key.trans hfind.slot.2⟩

/-- A slot a lookup and its stage do not work on is as before. -/
theorem FindOrCreateSpec.session_stage (hfind : FindOrCreateSpec d.table key now i t)
    (hstage : Stage i { d with table := t, journal := [] } d') {j : Fin sessionBuckets}
    (hj : j ≠ i) : d'.session j = d.session j :=
  (hstage.frame j hj).trans (hfind.frame hj)

/-- A session in the table is found, never created again. -/
theorem FindOrCreateSpec.found_of_hasSession (hinv : d.Inv)
    (hfind : FindOrCreateSpec d.table key now i t) (hs : HasSession d key) :
    d.table.keyAt i = some key ∧ t.buckets i = (d.table.buckets i).touch now := by
  cases hfind with
  | found _ hkey hset => exact ⟨hkey, by rw [hset, SessionTable.set_self]⟩
  | created hsearch _ _ =>
    obtain ⟨j, hj⟩ := hs
    have hhit := OpenAddressing.Placed.search_eq_hit hinv.placed hj
    rw [← SessionTable.search] at hhit
    rcases hsearch with h | h <;> rw [h] at hhit <;> cases hhit

/-- Work on a slot keeps a row tracked, when it keeps the event of a session of the key. -/
theorem Tracked.of_stage (ht : Tracked key path d) (hinv : d.Inv) (hs : HasSession d key)
    (hfind : FindOrCreateSpec d.table key' now i t)
    (hstage : Stage i { d with table := t, journal := [] } d')
    (hkeeps : key' = key → (t.buckets i).currentEventId.str ≠ [] →
      (d'.session i).currentEventId = (t.buckets i).currentEventId) :
    Tracked key path d' := by
  intro j hj
  have hrow : ∀ {id}, d.db.hasProtected id path = true → d'.db.hasProtected id path = true :=
    fun h => hstage.hasProtected h
  by_cases hji : j = i
  · -- the key was there before, so the lookup found it
    subst hji
    have hkey : key' = key := Option.some.inj ((hfind.keyAt_stage hstage).symm.trans hj)
    subst hkey
    obtain ⟨hslot, htouch⟩ := hfind.found_of_hasSession hinv hs
    obtain ⟨hne, hhas⟩ := ht j hslot
    have hid : (t.buckets j).currentEventId = (d.session j).currentEventId := by
      rw [htouch]; rfl
    rw [hkeeps rfl (by rwa [hid]), hid]
    exact ⟨hne, hrow hhas⟩
  · have hold : d.table.keyAt j = some key := by
      have hframe := hfind.session_stage hstage hji
      simp only [Daemon.session] at hframe
      rwa [SessionTable.keyAt, hframe] at hj
    rw [hfind.session_stage hstage hji]
    exact ⟨(ht j hold).1, hrow (ht j hold).2⟩

/-- A long window that does not run out on a step does not roll in it. -/
theorem FindOrCreateSpec.not_rollsLong (hinv : d.Inv)
    (hfind : FindOrCreateSpec d.table msg.sessionKey env.now i t)
    (hopen : ¬ ClosesLongWindow d (.message env msg)) :
    ¬ RollsLong env msg i { d with table := t, journal := [] } := fun ⟨htype, hgate, hroll⟩ =>
  hopen ⟨htype, hgate, (hfind.longWindowRolls_iff hinv).1 hroll⟩

/-- Every step keeps a row tracked while the session stays and its long window runs. -/
theorem Tracked.step (ht : Tracked key path d) (hinv : d.Inv) (hs : HasSession d key)
    (hopen : ¬ ClosesLongWindowOf key d e) : Tracked key path (daemonStep d e) := by
  cases e with
  | message env msg =>
    have hspec := processMsg_spec env msg d
    show Tracked key path (processMsg env msg d)
    generalize processMsg env msg d = d' at hspec
    cases hspec with
    | idle => exact ht
    | worked i t d' hfind hstage hkept _ =>
      refine ht.of_stage hinv hs hfind hstage fun hkey => ?_
      have hclose : ¬ ClosesLongWindow d (.message env msg) := fun h =>
        hopen ⟨congrArg some hkey, h⟩
      exact (hkept (hfind.not_rollsLong hinv hclose)).keeps
  | lookup k now =>
    simp only [daemonStep]
    split
    · exact ht
    · next i t hfind =>
      exact ht.of_stage hinv hs (sessionFindOrCreate_spec hfind) (Stage.refl i _) fun _ _ => rfl
  | reload np syncOk =>
    cases np <;> exact ht

/-- An accepted message that reports a preimage starts the tracking of its row. -/
theorem AcceptsBackup.tracked (h : AcceptsBackup d msg) (hinv : d.Inv)
    (hfits : BackupPathFits d msg) (hopen : ¬ ClosesLongWindow d (.message env msg)) :
    Tracked msg.sessionKey msg.filePath.str (daemonStep d (.message env msg)) := by
  have hnext := hinv.step (.message env msg)
  obtain ⟨path, hpath⟩ := Option.isSome_iff_exists.1 hfits
  revert hnext
  simp only [daemonStep, processMsg, if_neg h.type, h.gate, acceptMsg]
  split
  · next hnone =>
    intro _ i hi
    rw [hinv.placed.sessionFindOrCreate (i := i) hi] at hnone
    cases hnone
  · next i t hfind =>
    intro hnext j hj
    have hspec := sessionFindOrCreate_spec hfind
    have hstage := acceptSession_stage env msg i { d with table := t, journal := [] }
    have hji : j = i :=
      OpenAddressing.Placed.unique hnext.placed hj (hspec.keyAt_stage hstage)
    subst hji
    have hroll : longWindowRolls env msg j { d with table := t, journal := [] } = false :=
      Bool.eq_false_iff.2 fun hr => hspec.not_rollsLong hinv hopen ⟨h.type, h.gate, hr⟩
    have hid := (acceptSession_noted env msg j { d with table := t, journal := [] }).eventId
    rw [scoreMsg_currentEventId, hroll] at hid
    rw [hid]
    exact ⟨(ensureEvent_ensured env msg j _).ne_nil, acceptSession_hasProtected h.reports hpath⟩

/-- The event whose restore a block triggers is the one of the blocked session. -/
theorem TriggersRestore.eventId {eventId : CStr} (h : TriggersRestore d e key eventId)
    (hinv : d.Inv) (hopen : ¬ ClosesLongWindowOf key d e) :
    ∃ i, (daemonStep d e).table.keyAt i = some key ∧
      ((daemonStep d e).session i).currentEventId.str = eventId := by
  obtain ⟨hkey, u, hu, -, rfl⟩ := h
  cases e with
  | message env msg =>
    have hmsg : msg.sessionKey = key := Option.some.inj hkey
    subst hmsg
    have hspec := processMsg_spec env msg d
    simp only [daemonStep] at hu ⊢
    generalize processMsg env msg d = d' at hspec hu
    cases hspec with
    | idle => simp at hu
    | worked i t d' hfind hstage hkept _ =>
      have hkept := hkept (hfind.not_rollsLong hinv fun h => hopen ⟨rfl, h⟩)
      refine ⟨i, hfind.keyAt_stage hstage, ?_⟩
      rcases hkept.uses u hu with hnil | hid
      · simp at hnil
      · exact hid.symm
  | lookup k now => cases hkey
  | reload np syncOk => cases hkey

end

/-! ## Runs -/

/-- In a run that blocks a session and triggers the restore of its event, every accepted
message of the session that reported a preimage whose backup path fits has its row under
that event, provided that from the message to the block the session stays in the table and
its long window does not run out. -/
theorem restore_covers (p : LoadedPolicy) (db : Db) (pre mid rest : List DaemonEvent)
    (env : CallEnv) (msg : EventMsg) (last : DaemonEvent) (eventId : CStr)
    (hsplit : .message env msg :: rest = mid ++ [last])
    (haccept : AcceptsBackup (daemonRun p db pre) msg)
    (hfits : BackupPathFits (daemonRun p db pre) msg)
    (hopen : Runs.AllSteps daemonStep (fun d e => ¬ ClosesLongWindowOf msg.sessionKey d e)
      (daemonRun p db pre) (.message env msg :: rest))
    (hstays : Runs.AllSteps daemonStep (fun d _ => HasSession d msg.sessionKey)
      (daemonStep (daemonRun p db pre) (.message env msg)) rest)
    (htrigger : TriggersRestore (daemonRun p db (pre ++ mid)) last msg.sessionKey eventId) :
    (daemonRun p db (pre ++ .message env msg :: rest)).db.hasProtected eventId
      msg.filePath.str = true := by
  have hinv := daemonRun_inv p db pre
  have hclose : ¬ ClosesLongWindow (daemonRun p db pre) (.message env msg) := fun h =>
    hopen.1 ⟨rfl, h⟩
  -- the row is tracked from the message to the end
  have htracked := Runs.run_invariant_of_allSteps
    (fun d => d.Inv ∧ Tracked msg.sessionKey msg.filePath.str d)
    (fun _ e ⟨hi, ht⟩ ⟨hs, ho⟩ => ⟨hi.step e, ht.step hi hs ho⟩)
    ⟨hinv.step _, haccept.tracked hinv hfits hclose⟩ (Runs.allSteps_and.2 ⟨hstays, hopen.2⟩)
  have hrun : daemonRun p db (pre ++ .message env msg :: rest) =
      Runs.run daemonStep (daemonStep (daemonRun p db pre) (.message env msg)) rest := by
    rw [daemonRun, Runs.run_append]
    rfl
  rw [← hrun] at htracked
  have hlast : daemonRun p db (pre ++ .message env msg :: rest) =
      daemonStep (daemonRun p db (pre ++ mid)) last := by
    rw [hsplit, ← List.append_assoc, daemonRun, Runs.run_append]
    rfl
  -- the last step uses the event of the session, whose row is tracked
  have hopenLast : ¬ ClosesLongWindowOf msg.sessionKey (daemonRun p db (pre ++ mid)) last := by
    rw [hsplit, Runs.allSteps_append] at hopen
    rw [daemonRun, Runs.run_append]
    exact hopen.2.1
  obtain ⟨i, hi, hid⟩ := htrigger.eventId (daemonRun_inv p db (pre ++ mid)) hopenLast
  rw [← hlast] at hi hid
  rw [← hid]
  exact (htracked.2 i hi).2

/-- A write and a second later a critical rename: the write is restored. -/
theorem restore_covers_sample :
    (daemonRun strictPolicy .empty ([] ++ [.message (sampleEnv 1) (sampleWrite "a.doc"),
      .message (sampleEnv 2) sampleRename])).db.hasProtected (lit "evt-20260101-001")
      (lit "/mnt/home/a.doc") = true := by
  have hgood : Runs.AllSteps daemonStep UsesGood (Daemon.start strictPolicy .empty)
      [.message (sampleEnv 1) (sampleWrite "a.doc"), .message (sampleEnv 2) sampleRename] := by
    decide
  have hopen := ((Daemon.inv_start strictPolicy .empty).allSteps_usesGood_iff _).1 hgood
  refine restore_covers strictPolicy .empty [] [.message (sampleEnv 1) (sampleWrite "a.doc")]
    [.message (sampleEnv 2) sampleRename] (sampleEnv 1) (sampleWrite "a.doc")
    (.message (sampleEnv 2) sampleRename) (lit "evt-20260101-001") rfl
    ⟨by decide, by decide, by decide⟩ (by decide)
    ⟨fun h => hopen.1 h.2, fun h => hopen.2.1 h.2, trivial⟩ ⟨?_, trivial⟩ (by decide)
  exact ⟨SessionTable.probe (sampleWrite "a.doc").sessionKey 0, by decide⟩

/-- The long window rolls on the third write, the short one does not: the block two seconds
later restores an event that has no row for it. -/
theorem restore_not_always_covers :
    ¬ ∀ (p : LoadedPolicy) (db : Db) (pre mid rest : List DaemonEvent) (env : CallEnv)
      (msg : EventMsg) (last : DaemonEvent) (eventId : CStr),
      Clocked (pre ++ .message env msg :: rest) → .message env msg :: rest = mid ++ [last] →
      AcceptsBackup (daemonRun p db pre) msg → BackupPathFits (daemonRun p db pre) msg →
      TriggersRestore (daemonRun p db (pre ++ mid)) last msg.sessionKey eventId →
      SinceShortWindow (daemonRun p db (pre ++ .message env msg :: rest)) msg.sessionKey
        env.now →
      (daemonRun p db (pre ++ .message env msg :: rest)).db.hasProtected eventId
        msg.filePath.str = true := by
  intro h
  have hcovered := h strictPolicy .empty
    [.message (sampleEnv 1) (sampleWrite "a.doc"), .message (sampleEnv 25) (sampleWrite "b.doc")]
    [.message (sampleEnv 31) (sampleWrite "c.doc")] [.message (sampleEnv 32) sampleRename]
    (sampleEnv 31) (sampleWrite "c.doc") (.message (sampleEnv 32) sampleRename)
    (lit "evt-20260101-002") (by decide) rfl ⟨by decide, by decide, by decide⟩
    (by decide) (by decide)
    ⟨SessionTable.probe (sampleWrite "a.doc").sessionKey 0, by decide⟩
  revert hcovered
  decide

end GfrGuard

import GfrGuard.Lib.Runs
import GfrGuard.PreimageRow

/-!
# The rows of an event

What stands in the database under an event after messages that are all recorded under it:
a preimage row for every path reported as backed up, a created row for every path reported
as new, and no other (`RowsFor`).
-/

namespace GfrGuard

/-- The message reports a file as created. -/
def EventMsg.reportsNewFile (msg : EventMsg) : Bool :=
  hasFlag msg.flags flagNewFile && msg.filePath.str ≠ []

/-- A message is recorded under an event: it passes the gates, its session has a slot, the
event is the session's or the one made for it, and the long window does not take it away. -/
structure Carries (eventId : CStr) (env : CallEnv) (msg : EventMsg) (d : Daemon) : Prop where
  notDenied : msg.msgType ≠ msgVfsBlocked
  accepted : gate d.policy msg = .accept
  slot : ∃ i t, sessionFindOrCreate d.table msg.sessionKey env.now = some (i, t) ∧
    (recordEventId env d (t.buckets i)).str = eventId ∧
    longWindowRolls env msg i { d with table := t } = false

instance (eventId : CStr) (env : CallEnv) (msg : EventMsg) (d : Daemon) :
    Decidable (Carries eventId env msg d) :=
  match hfind : sessionFindOrCreate d.table msg.sessionKey env.now with
  | none => .isFalse fun h => by
    obtain ⟨i, t, hslot, -⟩ := h.slot
    rw [hfind] at hslot
    cases hslot
  | some (i, t) =>
    decidable_of_iff (msg.msgType ≠ msgVfsBlocked ∧ gate d.policy msg = .accept ∧
      (recordEventId env d (t.buckets i)).str = eventId ∧
      longWindowRolls env msg i { d with table := t } = false)
      ⟨fun h => ⟨h.1, h.2.1, i, t, hfind, h.2.2⟩, fun h => by
        obtain ⟨i', t', hslot, hrest⟩ := h.slot
        rw [hfind] at hslot
        cases hslot
        exact ⟨h.notDenied, h.accepted, hrest⟩⟩

/-- The rows of an event are those its messages call for. -/
structure RowsFor (eventId store : CStr) (msgs : List EventMsg) (db : Db) : Prop where
  preimage : ∀ pf ∈ db.queryByEvent eventId, ∃ msg ∈ msgs, msg.reportsBackup = true ∧
    recordBackupPath store msg = some pf.backupPath ∧ pf.originalPath = msg.filePath.str ∧
    pf.restoreStatus = lit "pending"
  reported : ∀ msg ∈ msgs, msg.reportsBackup = true → (recordBackupPath store msg).isSome →
    ∃ pf ∈ db.queryByEvent eventId, pf.originalPath = msg.filePath.str
  created : ∀ cf ∈ db.queryCreatedByEvent eventId, ∃ msg ∈ msgs, msg.reportsNewFile = true ∧
    cf.filePath = msg.filePath.str
  made : ∀ msg ∈ msgs, msg.reportsNewFile = true →
    ∃ cf ∈ db.queryCreatedByEvent eventId, cf.filePath = msg.filePath.str

section
variable {eventId store : CStr} {env : CallEnv} {msg : EventMsg} {d : Daemon} {db : Db}
  {msgs : List EventMsg} {i : Fin sessionBuckets}

theorem mem_queryByEvent_iff {pf : ProtectedFile} :
    pf ∈ db.queryByEvent eventId ↔ pf ∈ db.protectedFiles ∧ pf.eventId = eventId := by
  simp [Db.queryByEvent]

theorem mem_queryCreatedByEvent_iff {cf : CreatedFile} :
    cf ∈ db.queryCreatedByEvent eventId ↔ cf ∈ db.createdFiles ∧ cf.eventId = eventId := by
  simp [Db.queryCreatedByEvent]

/-- An event without rows has those of no message. -/
theorem rowsFor_nil (hrows : db.queryByEvent eventId = [])
    (hcreated : db.queryCreatedByEvent eventId = []) : RowsFor eventId store [] db := by
  refine ⟨fun pf hpf => ?_, by simp, fun cf hcf => ?_, by simp⟩
  · rw [hrows] at hpf; cases hpf
  · rw [hcreated] at hcf; cases hcf

/-- The created rows after an accepted message: one more when it reports a creation. -/
theorem acceptSession_createdFiles (env : CallEnv) (msg : EventMsg) (i : Fin sessionBuckets)
    (d : Daemon) : (acceptSession env msg i d).db.createdFiles =
      if msg.reportsNewFile then
        d.db.createdFiles ++ [{ createdRow env msg
          ((scoreMsg env msg i d).session i).currentEventId.str with
            id := (updateTotals i (scoreMsg env msg i d)).db.createdSeq + 1 }]
      else d.db.createdFiles := by
  have hrecord : (scoreMsg env msg i d).db.createdFiles = d.db.createdFiles := by
    show (recordMsg env msg i d).db.createdFiles = _
    rw [← (ensureEvent_ensured env msg i d).created]
    unfold recordMsg recordProtectedFile
    split
    · split <;> rfl
    · rfl
  have hsettle : (settleMsg env msg i d).db.createdFiles =
      if msg.reportsNewFile then
        d.db.createdFiles ++ [{ createdRow env msg
          ((scoreMsg env msg i d).session i).currentEventId.str with
            id := (updateTotals i (scoreMsg env msg i d)).db.createdSeq + 1 }]
      else d.db.createdFiles := by
    rw [← hrecord]
    unfold settleMsg recordCreatedFile EventMsg.reportsNewFile
    by_cases hnew : hasFlag msg.flags flagNewFile ∧ msg.filePath.str ≠ []
    · rw [if_pos hnew, if_pos (by simpa using hnew)]
      rfl
    · rw [if_neg hnew, if_neg (by simpa using hnew)]
      rfl
  have hspec := blockIfCritical_spec env msg i (settleMsg env msg i d)
  rw [← hsettle]
  show (blockIfCritical env msg i (settleMsg env msg i d)).db.createdFiles = _
  generalize blockIfCritical env msg i (settleMsg env msg i d) = d' at hspec
  cases hspec with
  | skipped => rfl
  | blocked _ _ _ _ _ _ _ _ _ hcreated => exact hcreated

/-- A message recorded under an event is an accepted one. -/
theorem Carries.accepted_eq (h : Carries eventId env msg d) :
    ∃ i d', processMsg env msg d = acceptSession env msg i d' ∧ d'.db = d.db ∧
      d'.policy = d.policy ∧ (ensuredId env msg i d').str = eventId ∧
      longWindowRolls env msg i d' = false := by
  obtain ⟨i, t, hfind, hid, hroll⟩ := h.slot
  refine ⟨i, { d with table := t, journal := [] }, ?_, rfl, rfl, ?_, hroll⟩
  · unfold processMsg
    dsimp only
    rw [if_neg h.notDenied, h.accepted]
    simp only [acceptMsg, hfind]
  · rw [ensuredId_eq]
    exact hid

/-- One message more. -/
theorem RowsFor.step (hrows : RowsFor eventId store msgs d.db) (h : Carries eventId env msg d)
    (hstore : d.policy.storePath.str = store) :
    RowsFor eventId store (msgs ++ [msg]) (processMsg env msg d).db ∧
      (processMsg env msg d).policy.storePath.str = store := by
  obtain ⟨i, d', heq, hdb, hpolicy, hid, hroll⟩ := h.accepted_eq
  rw [heq]
  have hpaths := recordMsg_protectedFiles env msg i d'
  rw [← acceptSession_protectedFiles, hdb, hpolicy, hstore, hid] at hpaths
  have hmade := acceptSession_createdFiles env msg i d'
  rw [scoreMsg_currentEventId, hroll, if_neg Bool.false_ne_true, hdb, hid] at hmade
  have hkept := (acceptSession_stage env msg i d').rows
  rw [hdb] at hkept
  refine ⟨⟨fun pf hpf => ?_, fun m hm hreports hfits => ?_, fun cf hcf => ?_,
    fun m hm hnew => ?_⟩, ?_⟩
  · obtain ⟨hmem, hevent⟩ := mem_queryByEvent_iff.1 hpf
    have hold : pf ∈ d.db.protectedFiles → ∃ m ∈ msgs ++ [msg], m.reportsBackup = true ∧
        recordBackupPath store m = some pf.backupPath ∧ pf.originalPath = m.filePath.str ∧
        pf.restoreStatus = lit "pending" := fun hmem => by
      obtain ⟨m, hm, hrest⟩ := hrows.preimage pf (mem_queryByEvent_iff.2 ⟨hmem, hevent⟩)
      exact ⟨m, List.mem_append_left _ hm, hrest⟩
    rw [hpaths] at hmem
    split at hmem
    · next path hpath =>
      split at hmem
      · next hcond =>
        rcases List.mem_append.1 hmem with hmem | hmem
        · exact hold hmem
        · rw [List.mem_singleton.1 hmem]
          exact ⟨msg, by simp, hcond.1, hpath, rfl, rfl⟩
      · exact hold hmem
    · exact hold hmem
  · rcases List.mem_append.1 hm with hm | hm
    · obtain ⟨pf, hpf, hfile⟩ := hrows.reported m hm hreports hfits
      obtain ⟨hmem, hevent⟩ := mem_queryByEvent_iff.1 hpf
      exact ⟨pf, mem_queryByEvent_iff.2 ⟨hkept.subset hmem, hevent⟩, hfile⟩
    · rw [List.mem_singleton.1 hm] at hreports hfits ⊢
      obtain ⟨path, hpath⟩ := Option.isSome_iff_exists.1 hfits
      have hpath' : recordBackupPath d'.policy.storePath.str msg = some path := by
        rw [hpolicy, hstore]
        exact hpath
      have hhas : (acceptSession env msg i d').db.hasProtected eventId msg.filePath.str = true :=
        hid ▸ acceptSession_hasProtected hreports hpath'
      obtain ⟨pf, hpf, hkey⟩ := Db.hasProtected_iff.1 hhas
      rw [ProtectedFile.key, Prod.mk.injEq] at hkey
      exact ⟨pf, mem_queryByEvent_iff.2 ⟨hpf, hkey.1⟩, hkey.2⟩
  · obtain ⟨hmem, hevent⟩ := mem_queryCreatedByEvent_iff.1 hcf
    have hold : cf ∈ d.db.createdFiles → ∃ m ∈ msgs ++ [msg], m.reportsNewFile = true ∧
        cf.filePath = m.filePath.str := fun hmem => by
      obtain ⟨m, hm, hrest⟩ := hrows.created cf (mem_queryCreatedByEvent_iff.2 ⟨hmem, hevent⟩)
      exact ⟨m, List.mem_append_left _ hm, hrest⟩
    rw [hmade] at hmem
    split at hmem
    · next hnew =>
      rcases List.mem_append.1 hmem with hmem | hmem
      · exact hold hmem
      · rw [List.mem_singleton.1 hmem]
        exact ⟨msg, by simp, hnew, rfl⟩
    · exact hold hmem
  · rcases List.mem_append.1 hm with hm | hm
    · obtain ⟨cf, hcf, hfile⟩ := hrows.made m hm hnew
      obtain ⟨hmem, hevent⟩ := mem_queryCreatedByEvent_iff.1 hcf
      refine ⟨cf, mem_queryCreatedByEvent_iff.2 ⟨?_, hevent⟩, hfile⟩
      rw [hmade]
      split
      · exact List.mem_append_left _ hmem
      · exact hmem
    · rw [List.mem_singleton.1 hm] at hnew ⊢
      rw [hnew, if_pos rfl] at hmade
      have hmem := List.mem_append_right d.db.createdFiles (List.mem_singleton_self
        { createdRow env msg eventId with
          id := (updateTotals i (scoreMsg env msg i d')).db.createdSeq + 1 })
      rw [← hmade] at hmem
      exact ⟨_, mem_queryCreatedByEvent_iff.2 ⟨hmem, rfl⟩, rfl⟩
  · rw [← hstore, ← hpolicy]
    exact congrArg (·.storePath.str) (acceptSession_stage env msg i d').policy

/-- Process a list of messages, each with what its call observes. -/
def deliver (d : Daemon) (m : CallEnv × EventMsg) : Daemon := processMsg m.1 m.2 d

/-- All messages of an event without rows. -/
theorem RowsFor.run (hrows : RowsFor eventId store msgs d.db)
    (hstore : d.policy.storePath.str = store) (ms : List (CallEnv × EventMsg))
    (h : Runs.AllSteps deliver (fun d m => Carries eventId m.1 m.2 d) d ms) :
    RowsFor eventId store (msgs ++ ms.map Prod.snd) (Runs.run deliver d ms).db := by
  induction ms generalizing d msgs with
  | nil => simpa using hrows
  | cons m ms ih =>
    obtain ⟨hrows', hstore'⟩ := hrows.step h.1 hstore
    have := ih hrows' hstore' h.2
    rwa [List.append_assoc] at this

end

end GfrGuard

import GfrGuard.ProcessMsgSpec

/-!
# The row of a preimage

When a message leaves a row in `protected_files`, and what the row says. `RecordsRow` is the
condition on the message and the daemon before it (`processMsg_protectedFiles`), and
`backupRel_eq_iff` says which share-relative path the daemon recovers from an absolute one:
the search for `/<share>/` may stop at a directory above the share.
-/

namespace GfrGuard

/-! ## The path the daemon recovers -/

/-- What the daemon searches for in a path. -/
def shareNeedle (share : CStr) : CStr := slash :: share ++ [slash]

/-- The recovered path: what follows the first needle, else what follows a leading
`<share>/`, else the path itself. -/
theorem backupRel_eq_iff (share path rel : CStr) :
    backupRel share path = rel ↔
      (∃ pre, path = pre ++ shareNeedle share ++ rel ∧
        ¬ shareNeedle share <:+: pre ++ slash :: share) ∨
      (¬ shareNeedle share <:+: path ∧ path = share ++ slash :: rel) ∨
      (¬ shareNeedle share <:+: path ∧ ¬ share ++ [slash] <+: path ∧ path = rel) := by
  have hprefix : (share <+: path ∧ path[share.length]? = some slash) ↔
      share ++ [slash] <+: path := by
    constructor
    · rintro ⟨⟨rest, rfl⟩, hat⟩
      cases rest with
      | nil => simp at hat
      | cons c rest =>
        obtain rfl : c = slash := by simpa using hat
        exact ⟨rest, by simp⟩
    · rintro ⟨rest, rfl⟩
      exact ⟨⟨slash :: rest, by simp⟩, by simp⟩
  unfold backupRel strstr
  cases hsearch : ListSearch.firstAt (slash :: share ++ [slash]) path with
  | some pos =>
    obtain ⟨pre, hpath, ⟨rest, hpos⟩, -⟩ := ListSearch.firstAt_eq_some_iff.1 hsearch
    subst hpos
    have hinfix : shareNeedle share <:+: path := ⟨pre, rest, by rw [hpath, shareNeedle]; simp⟩
    have hfirst : ∀ {pre' rest' : CStr}, path = pre' ++ shareNeedle share ++ rest' →
        (¬ shareNeedle share <:+: pre' ++ slash :: share ↔ rest = rest') := fun {pre' rest'} hp => by
      rw [shareNeedle, List.append_assoc] at hp
      rw [shareNeedle, ← ListSearch.firstAt_append_iff (r := rest'), ← hp, hsearch]
      simp
    constructor
    · intro hrel
      obtain rfl : rest = rel := by rw [← hrel]; simp
      have hpath' : path = pre ++ shareNeedle share ++ rest := by
        rw [hpath, shareNeedle]
        simp only [List.append_assoc]
      exact .inl ⟨pre, hpath', (hfirst hpath').2 rfl⟩
    · rintro (⟨pre', hp, hnot⟩ | ⟨hnot, -⟩ | ⟨hnot, -⟩)
      · rw [← (hfirst hp).1 hnot]
        simp
      · exact absurd hinfix hnot
      · exact absurd hinfix hnot
  | none =>
    have hnot : ¬ shareNeedle share <:+: path := ListSearch.firstAt_eq_none_iff.1 hsearch
    dsimp only
    rw [if_congr hprefix rfl rfl]
    have hno : ∀ pre, path ≠ pre ++ shareNeedle share ++ rel := fun pre hp => hnot ⟨pre, rel, hp.symm⟩
    split
    · next hlead =>
      obtain ⟨rest, rfl⟩ := hlead
      have hdrop : (share ++ [slash] ++ rest).drop (share.length + 1) = rest := by simp
      rw [hdrop]
      constructor
      · rintro rfl
        exact .inr (.inl ⟨hnot, by simp⟩)
      · rintro (⟨pre, hp, -⟩ | ⟨-, hp⟩ | ⟨-, hlead, -⟩)
        · exact absurd hp (hno pre)
        · simpa using hp
        · exact absurd ⟨rest, rfl⟩ hlead
    · next hlead =>
      constructor
      · rintro rfl
        exact .inr (.inr ⟨hnot, hlead, rfl⟩)
      · rintro (⟨pre, hp, -⟩ | ⟨-, hp⟩ | ⟨-, -, hp⟩)
        · exact absurd hp (hno pre)
        · exact absurd ⟨rel, by rw [hp]; simp⟩ hlead
        · exact hp

/-! ## When there is a row -/

/-- The event a message is recorded under: the session's own, else a new one. -/
def recordEventId (env : CallEnv) (d : Daemon) (s : SessionState) : CBuf 32 :=
  if s.currentEventId.str = [] then (makeEventId env d).1 else s.currentEventId

/-- The message reports a preimage, is accepted, has a slot for its session, its backup path
fits and the event has no row for its path yet. -/
structure RecordsRow (env : CallEnv) (msg : EventMsg) (d : Daemon) : Prop where
  notDenied : msg.msgType ≠ msgVfsBlocked
  accepted : gate d.policy msg = .accept
  reports : msg.reportsBackup = true
  fits : (recordBackupPath d.policy.storePath.str msg).isSome
  slot : ∃ i t, sessionFindOrCreate d.table msg.sessionKey env.now = some (i, t) ∧
    d.db.hasProtected (recordEventId env d (t.buckets i)).str msg.filePath.str = false

section
variable {i : Fin sessionBuckets} {d d' : Daemon} {env : CallEnv} {msg : EventMsg}

theorem ensuredId_eq (env : CallEnv) (msg : EventMsg) (i : Fin sessionBuckets) (d : Daemon) :
    ensuredId env msg i d = recordEventId env d (d.session i) := by
  unfold ensuredId recordEventId ensureEvent
  split
  · next h =>
    show ((ensureId env i d).session i).currentEventId = _
    rw [ensureId, if_pos h, session_setSession]
  · rfl

/-- After the record of its preimage a message leaves the preimage rows alone. -/
theorem acceptSession_protectedFiles (env : CallEnv) (msg : EventMsg) (i : Fin sessionBuckets)
    (d : Daemon) : (acceptSession env msg i d).db.protectedFiles =
      (recordMsg env msg i d).db.protectedFiles := by
  have hsettle : (settleMsg env msg i d).db.protectedFiles =
      (recordMsg env msg i d).db.protectedFiles := by
    unfold settleMsg recordCreatedFile
    split <;> rfl
  have hspec := blockIfCritical_spec env msg i (settleMsg env msg i d)
  rw [← hsettle]
  show (blockIfCritical env msg i (settleMsg env msg i d)).db.protectedFiles = _
  generalize blockIfCritical env msg i (settleMsg env msg i d) = d' at hspec
  cases hspec with
  | skipped => rfl
  | blocked _ _ _ _ _ _ _ _ hrows => exact hrows

/-- The rows after the record of a preimage: the event gets one for the path unless it has
one. -/
theorem recordMsg_protectedFiles (env : CallEnv) (msg : EventMsg) (i : Fin sessionBuckets)
    (d : Daemon) : (recordMsg env msg i d).db.protectedFiles =
      match recordBackupPath d.policy.storePath.str msg with
      | some path =>
        if msg.reportsBackup ∧
            d.db.hasProtected (ensuredId env msg i d).str msg.filePath.str = false then
          d.db.protectedFiles ++ [{ protectedRow env msg (ensuredId env msg i d).str path with
            id := (ensureEvent env msg i d).db.protectedSeq + 1 }]
        else d.db.protectedFiles
      | none => d.db.protectedFiles := by
  have hens := ensureEvent_ensured env msg i d
  unfold recordMsg recordProtectedFile
  rw [hens.policy]
  by_cases hreports : msg.reportsBackup = true
  · cases hpath : recordBackupPath d.policy.storePath.str msg with
    | none => simp [hreports, hens.rows]
    | some path =>
      rw [if_pos hreports]
      show UniqueTable.insertOrIgnore _ _ _ = _
      have hrows : (((ensureEvent env msg i d).note .protectedFile
          ((ensureEvent env msg i d).session i).currentEventId.str).db.protectedFiles) =
          d.db.protectedFiles := hens.rows
      rw [hrows]
      by_cases hnew : d.db.hasProtected (ensuredId env msg i d).str msg.filePath.str = false
      · rw [UniqueTable.insertOrIgnore_of_free]
        · simp only [hreports, hnew, and_self, if_true]
          rfl
        · intro r hr hkey
          have : d.db.hasProtected (ensuredId env msg i d).str msg.filePath.str = true :=
            Db.hasProtected_iff.2 ⟨r, hr, hkey⟩
          rw [hnew] at this
          cases this
      · rw [UniqueTable.insertOrIgnore_of_taken]
        · exact (if_neg fun h => hnew h.2).symm
        · obtain ⟨r, hr, hkey⟩ := Db.hasProtected_iff.1 (Bool.of_not_eq_false hnew)
          exact ⟨r, hr, hkey⟩
  · rw [if_neg hreports, hens.rows]
    cases recordBackupPath d.policy.storePath.str msg with
    | none => rfl
    | some path => simp [hreports]

/-- The rows of a slot's message that is not accepted do not change. -/
theorem blacklistBlock_protectedFiles (env : CallEnv) (msg : EventMsg) (d : Daemon) :
    (blacklistBlock env msg d).db.protectedFiles = d.db.protectedFiles := by
  unfold blacklistBlock
  split
  · rfl
  · next i t _ =>
    dsimp only
    split
    · rfl
    · have hens := ensureBlockedEvent_ensured env msg i { d with table := t }
      have hexec := blockerExecute_spec env (blockIp msg)
        (blacklistStatus (ensureBlockedEvent env msg i { d with table := t }).policy msg) i
        (ensureBlockedEvent env msg i { d with table := t })
      generalize blockerExecute env (blockIp msg) _ _ _ = result at hexec
      cases hexec with
      | failed => exact hens.rows
      | done content d' _ _ _ _ _ hrows => exact hrows.trans hens.rows

/-- A message that records a row appends it; any other leaves the rows alone. -/
theorem processMsg_protectedFiles (env : CallEnv) (msg : EventMsg) (d : Daemon) :
    (¬ RecordsRow env msg d ∧ (processMsg env msg d).db.protectedFiles = d.db.protectedFiles) ∨
    RecordsRow env msg d ∧ ∃ path row, recordBackupPath d.policy.storePath.str msg = some path ∧
      (processMsg env msg d).db.protectedFiles = d.db.protectedFiles ++ [row] ∧
      row.backupPath = path ∧ row.originalPath = msg.filePath.str := by
  unfold processMsg
  dsimp only
  split
  · next htype =>
    refine .inl ⟨fun h => h.notDenied htype, ?_⟩
    unfold vfsBlocked
    split
    · rfl
    · next i t _ =>
      rw [if_neg (ensureId_ne_nil env i _)]
      show (Db.upsertEvent _ _).protectedFiles = _
      rw [Db.upsertEvent_protectedFiles, (ensureId_frame env i _).1]
  · next htype =>
    split
    · next hgate =>
      refine .inl ⟨fun h => ?_, blacklistBlock_protectedFiles env msg _⟩
      have := h.accepted.symm.trans hgate
      cases this
    · next hgate =>
      unfold acceptMsg
      split
      · next hslot =>
        refine .inl ⟨fun h => ?_, rfl⟩
        obtain ⟨i, t, hfind, -⟩ := h.slot
        cases hslot.symm.trans hfind
      · next i t hfind =>
        rw [acceptSession_protectedFiles, recordMsg_protectedFiles, ensuredId_eq]
        dsimp only
        split
        · next path hpath =>
          have hid : recordEventId env { d with table := t, journal := [] }
              (({ d with table := t, journal := [] } : Daemon).session i) =
              recordEventId env d (t.buckets i) := rfl
          rw [hid]
          split
          · next h =>
            exact .inr ⟨⟨htype, hgate, h.1, by rw [hpath]; rfl, i, t, hfind, h.2⟩, path, _,
              hpath, rfl, rfl, rfl⟩
          · next h =>
            refine .inl ⟨fun hr => h ⟨hr.reports, ?_⟩, rfl⟩
            obtain ⟨i', t', hfind', hnew⟩ := hr.slot
            cases hfind.symm.trans hfind'
            exact hnew
        · next hpath =>
          refine .inl ⟨fun h => ?_, rfl⟩
          have := h.fits
          rw [hpath] at this
          cases this
    · next hother =>
      exact .inl ⟨fun h => hother h.accepted, rfl⟩

end

end GfrGuard

import GfrGuard.Run

/-!
# The event ids the daemon uses

`process_msg` ensures the event of a session once, at the top, and `session_check_window`
clears it in the middle of the same call when the long window has run out. From there on
the call updates an event that is not there. `daemonStep_usesGood_iff` says for one step
that this is the only way to use a bad id, `eventUses_good_iff` for whole runs.
-/

namespace GfrGuard

/-- Every use of an event id that a step journals is of a non-empty id with a row. -/
def UsesGood (d : Daemon) (e : DaemonEvent) : Prop :=
  ∀ u ∈ (daemonStep d e).journal, u.good = true

instance (d : Daemon) (e : DaemonEvent) : Decidable (UsesGood d e) :=
  inferInstanceAs (Decidable (∀ u ∈ (daemonStep d e).journal, u.good = true))

/-- The step is an accepted message of a session whose long window has run out. -/
def ClosesLongWindow (d : Daemon) : DaemonEvent → Prop
  | .message env msg =>
    msg.msgType ≠ msgVfsBlocked ∧ gate d.policy msg = .accept ∧
      ∃ i, d.table.keyAt i = some msg.sessionKey ∧ longWindowRolls env msg i d = true
  | _ => False

theorem EventUse.good_iff {u : EventUse} : u.good = true ↔ u.eventId ≠ [] ∧ u.known = true := by
  simp [EventUse.good]

/-- A policy `config_load` accepts has no empty long window. -/
theorem Policy.windows_long_pos {p : Policy} (h : p.numericValid = true) (sourceType : UInt8) :
    0 < (p.windows sourceType).2 := by
  simp only [Policy.numericValid, Bool.and_eq_true, decide_eq_true_eq] at h
  unfold Policy.windows
  dsimp only
  split
  · next hcloud => exact hcloud.2
  · exact h.1.1.2

section
variable {i : Fin sessionBuckets} {d : Daemon} {t : SessionTable} {env : CallEnv}
  {msg : EventMsg}

/-! ## Accepted messages -/

/-- An accepted message uses good ids only, unless the long window of its session rolls:
then it updates the event with the empty id. -/
theorem acceptSession_usesGood_iff (hknown : EventsKnown d) (hjournal : d.journal = []) :
    (∀ u ∈ (acceptSession env msg i d).journal, u.good = true) ↔
      longWindowRolls env msg i d = false := by
  have hens := ensureEvent_ensured env msg i d
  have hne : (ensuredId env msg i d).str ≠ [] := hens.ne_nil
  have hrow : (ensureEvent env msg i d).db.hasEvent (ensuredId env msg i d).str = true :=
    hens.known' (hknown i)
  obtain ⟨before, after, hj, hafter, hb, ha⟩ := acceptSession_journal env msg i d
  rw [hj, hjournal, List.nil_append]
  rw [scoreMsg_currentEventId] at ha
  cases hroll : longWindowRolls env msg i d with
  | true =>
    refine iff_of_false (fun hall => ?_) (by simp)
    obtain ⟨u, rest, rfl⟩ := List.exists_cons_of_ne_nil hafter
    have hu := (ha u List.mem_cons_self).1
    rw [if_pos hroll] at hu
    have hgood := hall u (List.mem_append_right _ List.mem_cons_self)
    exact (EventUse.good_iff.1 hgood).1 hu
  | false =>
    rw [hroll] at ha
    refine iff_of_true (fun u hu => EventUse.good_iff.2 ?_) rfl
    have hu' : u.eventId = (ensuredId env msg i d).str ∧
        u.known = (ensureEvent env msg i d).db.hasEvent (ensuredId env msg i d).str := by
      rcases List.mem_append.1 hu with hu | hu
      · exact hb u hu
      · exact ha u hu
    rw [hu'.1, hu'.2]
    exact ⟨hne, hrow⟩

/-- Finding the session of a key leaves its long window alone, and a session just created
has all of its window left. -/
theorem FindOrCreateSpec.longWindowRolls_iff (hinv : d.Inv)
    (hfind : FindOrCreateSpec d.table msg.sessionKey env.now i t) :
    longWindowRolls env msg i { d with table := t, journal := [] } = true ↔
      ∃ j, d.table.keyAt j = some msg.sessionKey ∧ longWindowRolls env msg j d = true := by
  cases hfind with
  | found hsearch hkey hset =>
    have hsame : longWindowRolls env msg i { d with table := t, journal := [] } =
        longWindowRolls env msg i d := by
      simp only [longWindowRolls, Daemon.session, hset, SessionTable.set_self]
      rfl
    rw [hsame]
    refine ⟨fun h => ⟨i, hkey, h⟩, fun hrolls => ?_⟩
    obtain ⟨j, hj, hroll⟩ := hrolls
    have hji : i = j := by
      have := OpenAddressing.Placed.search_eq_hit hinv.placed hj
      rw [SessionTable.search] at hsearch
      rw [hsearch] at this
      exact OpenAddressing.Found.hit.inj this
    rwa [hji]
  | created hsearch _ hset =>
    have hlong := Policy.windows_long_pos hinv.valid msg.sourceType
    refine iff_of_false ?_ ?_
    · simp only [longWindowRolls, Daemon.session, hset, SessionTable.set_self,
        SessionState.longExpired, SessionState.longStart, SessionState.fresh,
        SessionState.zero]
      simpa using hlong
    · rintro ⟨j, hj, -⟩
      have := OpenAddressing.Placed.search_eq_hit hinv.placed hj
      rw [← SessionTable.search] at this
      rcases hsearch with hs | hs <;> rw [hs] at this <;> cases this

/-- The same for a message from its session's lookup on. -/
theorem acceptMsg_usesGood_iff (hinv : d.Inv) :
    (∀ u ∈ (acceptMsg env msg { d with journal := [] }).journal, u.good = true) ↔
      ¬ ∃ j, d.table.keyAt j = some msg.sessionKey ∧ longWindowRolls env msg j d = true := by
  unfold acceptMsg
  dsimp only
  split
  · next hnone =>
    refine iff_of_true (by simp) ?_
    rintro ⟨j, hj, -⟩
    rw [hinv.placed.sessionFindOrCreate hj] at hnone
    cases hnone
  · next i t hfind =>
    have hspec := sessionFindOrCreate_spec hfind
    rw [acceptSession_usesGood_iff (hspec.eventsKnown hinv.known) rfl,
      ← hspec.longWindowRolls_iff hinv, Bool.not_eq_true]

/-! ## Other messages -/

/-- A blacklist block uses only the event it made sure of. -/
theorem blacklistBlock_usesGood (hknown : EventsKnown d) (hjournal : d.journal = []) :
    ∀ u ∈ (blacklistBlock env msg d).journal, u.good = true := by
  unfold blacklistBlock
  split
  · simp [hjournal]
  · next i t hfind =>
    have hk : EventsKnown { d with table := t } :=
      (sessionFindOrCreate_spec hfind).eventsKnown hknown
    dsimp only
    split
    · simp [hjournal]
    · have hens := ensureBlockedEvent_ensured env msg i { d with table := t }
      have hrow := hens.known' (hk i)
      have hexec := blockerExecute_spec env (blockIp msg)
        (blacklistStatus (ensureBlockedEvent env msg i { d with table := t }).policy msg) i
        (ensureBlockedEvent env msg i { d with table := t })
      have hempty : (ensureBlockedEvent env msg i { d with table := t }).journal = [] :=
        hens.journal.trans hjournal
      generalize blockerExecute env (blockIp msg) _ _ _ = result at hexec
      cases hexec with
      | failed => simp [Daemon.setSession, hempty]
      | done content d' _ hnoted =>
        obtain ⟨uses, hj, hu⟩ := hnoted.journal
        intro u hmem
        have hmem' : u ∈ uses := by
          have : u ∈ d'.journal := hmem
          rwa [hj, hempty, List.nil_append] at this
        obtain ⟨hid, hkn⟩ := hu u hmem'
        exact EventUse.good_iff.2 ⟨by rw [hid]; exact hens.ne_nil, by rw [hkn]; exact hrow⟩

/-! ## Steps and runs -/

/-- A denied session's message updates no event through the journal. -/
theorem vfsBlocked_journal : (vfsBlocked env msg d).journal = d.journal := by
  unfold vfsBlocked
  split
  · rfl
  · next i t hfind =>
    rw [if_neg (ensureId_ne_nil env i _)]
    exact (ensureId_frame env i { d with table := t }).2.2.2.1

/-- One step uses good ids exactly when it is not an accepted message on which the long
window of its session runs out. -/
theorem daemonStep_usesGood_iff (hinv : d.Inv) (e : DaemonEvent) :
    UsesGood d e ↔ ¬ ClosesLongWindow d e := by
  cases e with
  | message env msg =>
    simp only [UsesGood, daemonStep, processMsg, ClosesLongWindow]
    by_cases htype : msg.msgType = msgVfsBlocked
    · rw [if_pos htype]
      refine iff_of_true ?_ fun h => h.1 htype
      simp [vfsBlocked_journal]
    · rw [if_neg htype]
      cases hgate : gate d.policy msg with
      | accept => simpa [htype] using acceptMsg_usesGood_iff hinv
      | blacklistBlock =>
        refine iff_of_true ?_ (by simp)
        exact blacklistBlock_usesGood (d := { d with journal := [] }) hinv.known rfl
      | protectionOff => exact iff_of_true (by simp) (by simp)
      | extFilterSkip => exact iff_of_true (by simp) (by simp)
      | exceptionBypass => exact iff_of_true (by simp) (by simp)
      | whitelistBypass => exact iff_of_true (by simp) (by simp)
  | lookup key now =>
    refine iff_of_true ?_ not_false
    simp only [UsesGood, daemonStep]
    split <;> simp
  | reload np syncOk => exact iff_of_true (by simp [UsesGood, daemonStep]) not_false

/-- The same for all steps of a run. -/
theorem Daemon.Inv.allSteps_usesGood_iff (hinv : d.Inv) (es : List DaemonEvent) :
    Runs.AllSteps daemonStep UsesGood d es ↔
      Runs.AllSteps daemonStep (fun d e => ¬ ClosesLongWindow d e) d es :=
  Runs.allSteps_congr Daemon.Inv (fun _ e h => h.step e) hinv fun _ e h => daemonStep_usesGood_iff h e

end

/-- In a run from any policy and database, every event id used is non-empty and has a row
exactly when no step is an accepted message on which the long window of its session runs
out. -/
theorem eventUses_good_iff (p : LoadedPolicy) (db : Db) (es : List DaemonEvent) :
    Runs.AllSteps daemonStep UsesGood (Daemon.start p db) es ↔
      Runs.AllSteps daemonStep (fun d e => ¬ ClosesLongWindow d e) (Daemon.start p db) es :=
  (Daemon.inv_start p db).allSteps_usesGood_iff es

/-- Two writes of one session 30 seconds apart: the second one rolls the long window of the
default policy and updates the event with the empty id. -/
theorem eventUses_not_always_good :
    ¬ ∀ (p : LoadedPolicy) (db : Db) (es : List DaemonEvent), Clocked es →
      Runs.AllSteps daemonStep UsesGood (Daemon.start p db) es := by
  intro h
  have hrun := h .default .empty
    [.message (sampleEnv 1) (sampleWrite "a.doc"), .message (sampleEnv 31) (sampleWrite "b.doc")]
    (by decide)
  revert hrun
  decide

end GfrGuard

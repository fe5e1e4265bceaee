import GfrGuard.Lib.Runs
import GfrGuard.ProcessMsgSpec

/-!
# Runs of the daemon

The daemon handles messages, looks sessions up for the fanotify channels and reloads its
policy. `Daemon.Inv` is what holds in every state it can reach: every session is findable
from its key, every event id a session carries has a row, and the policy passes the checks
of `config_load`.
-/

namespace GfrGuard

/-- A policy `config_load` accepts: its numbers pass the checks, and the runtime blacklist
of a policy just loaded is empty. -/
structure LoadedPolicy where
  policy : Policy
  valid : policy.numericValid = true
  noAuto : policy.blacklist.autoIps.entries = []

/-- The default policy, loaded. -/
def LoadedPolicy.default : LoadedPolicy := ⟨.default, Policy.default_numericValid, rfl⟩

/-- What the daemon's main loop reacts to. -/
inductive DaemonEvent where
  /-- A message for `process_msg`. -/
  | message (env : CallEnv) (msg : EventMsg)
  /-- The lookup `fanotify_submit_event` and the cloud block make after a message. -/
  | lookup (key : CBuf 128) (now : Int)
  /-- A reload on SIGHUP; nothing when the policy file is refused. -/
  | reload (np : Option LoadedPolicy) (syncOk : Bool)

/-- The clock reading of an event. -/
def DaemonEvent.now? : DaemonEvent → Option Int
  | .message env _ => some env.now
  | .lookup _ now => some now
  | .reload _ _ => none

/-- The clock of a run never goes back. -/
def Clocked (es : List DaemonEvent) : Prop := (es.filterMap DaemonEvent.now?).Pairwise (· ≤ ·)

instance (es : List DaemonEvent) : Decidable (Clocked es) :=
  inferInstanceAs (Decidable (List.Pairwise _ _))

/-- `daemon_reload`, on the state `process_msg` works on. -/
def daemonReload (np : Option LoadedPolicy) (syncOk : Bool) (d : Daemon) : Daemon :=
  match np with
  | none => d
  | some np =>
    { d with
      policy := np.policy
      blocked := blockerSyncBlacklist d.blocked np.policy.blacklist syncOk }

/-- One event of the main loop. -/
def daemonStep (d : Daemon) : DaemonEvent → Daemon
  | .message env msg => processMsg env msg d
  | .lookup key now =>
    match sessionFindOrCreate d.table key now with
    | none => { d with journal := [] }
    | some (_, t) => { d with table := t, journal := [] }
  | .reload np syncOk => { daemonReload np syncOk d with journal := [] }

/-- The daemon started with a policy and a database, which may hold earlier events. -/
def Daemon.start (p : LoadedPolicy) (db : Db) : Daemon := { Daemon.init p.policy with db := db }

/-- The daemon after it handled a run of events. -/
def daemonRun (p : LoadedPolicy) (db : Db) (es : List DaemonEvent) : Daemon :=
  Runs.run daemonStep (Daemon.start p db) es

/-! ## A sample setting -/

/-- A call at `t` seconds after the start of 2026, every file operation succeeding. -/
def sampleEnv (t : Int) : CallEnv where
  now := 1767225600 + t
  localtime s := if s < 1767225600 then ⟨70, 0, 0, 1, 0, 0, 0⟩ else ⟨126, 0, 0, 1, 0, 0, 0⟩
  entropySuspicious _ := false
  yaraActive := false
  yaraMatches _ := false
  readOk := true
  writeOk := true
  syncOk := true

/-- A message of user `alice` on the share `home`. -/
def sampleMsg : EventMsg :=
  { EventMsg.zero with
    msgType := msgFileEvent
    sourceType := sourceSmb
    username := .ofStr 64 (lit "alice")
    clientIp := .ofStr 48 (lit "10.0.0.5")
    shareName := .ofStr 64 (lit "home") }

/-- A write to a file of the share that was backed up first. -/
def sampleWrite (name : String) : EventMsg :=
  { sampleMsg with
    opType := opWrite
    flags := flagRisky ||| flagBackedUp
    filePath := .ofStr 4096 (lit "/mnt/home/" ++ lit name) }

/-- The default policy with renames scored so high that one makes a session critical. -/
def strictPolicy : LoadedPolicy where
  policy := { Policy.default with scoring := { Policy.default.scoring with
    weights := { Policy.default.scoring.weights with renameW := 80 } } }
  valid := by decide
  noAuto := rfl

/-- A rename on the share. -/
def sampleRename : EventMsg :=
  { sampleMsg with
    opType := opRename
    filePath := .ofStr 4096 (lit "/mnt/home/a.doc")
    newName := .ofStr 256 (lit "b.doc") }

/-! ## Invariants -/

/-- Every event id a session carries has a row. -/
def EventsKnown (d : Daemon) : Prop :=
  ∀ j, (d.session j).currentEventId.str ≠ [] →
    d.db.hasEvent (d.session j).currentEventId.str = true

/-- What holds in every state the daemon reaches. -/
structure Daemon.Inv (d : Daemon) : Prop where
  placed : d.table.WellPlaced
  known : EventsKnown d
  valid : d.policy.numericValid = true

section
variable {i : Fin sessionBuckets} {d d' : Daemon} {env : CallEnv} {msg : EventMsg}

/-- A fresh daemon satisfies the invariant, whatever the database holds. -/
theorem Daemon.inv_start (p : LoadedPolicy) (db : Db) : (Daemon.start p db).Inv :=
  ⟨SessionTable.wellPlaced_init, fun _ h => absurd rfl h, p.valid⟩

/-- A stage keeps every key findable. -/
theorem Stage.wellPlaced (h : Stage i d d') (hw : d.table.WellPlaced) :
    d'.table.WellPlaced := by
  have hkeys : d'.table.keyAt = d.table.keyAt := by
    funext j
    by_cases hj : j = i
    · subst hj
      exact congrArg₂ (fun (u : Bool) k => if u then some k else none) h.inUse h.key
    · have := h.frame j hj
      simp only [Daemon.session] at this
      simp only [SessionTable.keyAt, this]
  unfold SessionTable.WellPlaced
  rw [hkeys]
  exact hw

/-- A stage keeps the numbers of the policy. -/
theorem Stage.numericValid (h : Stage i d d') :
    d'.policy.numericValid = d.policy.numericValid := by
  show { d'.policy with blacklist := d.policy.blacklist }.numericValid = _
  rw [h.policy]

/-- A stage that leaves its own session's event known keeps all events known. -/
theorem Stage.eventsKnown (h : Stage i d d') (hk : EventsKnown d)
    (hi : (d'.session i).currentEventId.str ≠ [] →
      d'.db.hasEvent (d'.session i).currentEventId.str = true) : EventsKnown d' := by
  intro j hj
  by_cases hji : j = i
  · subst hji; exact hi hj
  · rw [h.frame j hji] at hj ⊢
    exact h.events _ (hk j hj)

/-- A lookup keeps the events of the sessions known: a new session has none. -/
theorem FindOrCreateSpec.eventsKnown {key : CBuf 128} {now : Int} {t : SessionTable}
    (h : FindOrCreateSpec d.table key now i t) (hk : EventsKnown d) :
    EventsKnown { d with table := t, journal := [] } := by
  intro j hj
  by_cases hji : j = i
  · subst hji
    cases h with
    | found _ _ hset =>
      have hs : t.buckets j = (d.table.buckets j).touch now := by rw [hset]; simp
      simp only [Daemon.session, hs, SessionState.touch] at hj ⊢
      exact hk j hj
    | created _ _ hset =>
      have hs : t.buckets j = .fresh key now := by rw [hset]; simp
      exact absurd (by simp [Daemon.session, hs, SessionState.fresh, SessionState.zero]) hj
  · have hs : t.buckets j = d.table.buckets j := h.frame hji
    simp only [Daemon.session, hs] at hj ⊢
    exact hk j hj

/-- The event a session has been given is known. -/
theorem EventEnsured.known' (h : EventEnsured i d d')
    (hk : (d.session i).currentEventId.str ≠ [] →
      d.db.hasEvent (d.session i).currentEventId.str = true) :
    d'.db.hasEvent (d'.session i).currentEventId.str = true := by
  by_cases hid : (d.session i).currentEventId.str = []
  · exact h.known hid
  · rw [h.keeps hid]; exact hk hid

/-- An accepted message leaves its session's event known, when the session still has one. -/
theorem acceptSession_known (hk : EventsKnown d)
    (hne : ((acceptSession env msg i d).session i).currentEventId.str ≠ []) :
    (acceptSession env msg i d).db.hasEvent
      ((acceptSession env msg i d).session i).currentEventId.str = true := by
  have hnoted := acceptSession_noted env msg i d
  rw [hnoted.eventId] at hne ⊢
  rw [hnoted.hasEvent]
  rw [scoreMsg_currentEventId] at hne ⊢
  split at hne
  · exact absurd rfl hne
  · next hroll =>
    rw [if_neg hroll]
    have hrec := recordProtectedFile_noted env msg i (ensureEvent env msg i d)
    show (recordMsg env msg i d).db.hasEvent _ = true
    rw [recordMsg, hrec.hasEvent]
    exact (ensureEvent_ensured env msg i d).known' (hk i)

/-- A blacklist block leaves its session's event known. -/
theorem blacklistBlock_known {t : SessionTable}
    (hfind : sessionFindOrCreate d.table msg.sessionKey env.now = some (i, t))
    (hk : EventsKnown { d with table := t })
    (hne : ((blacklistBlock env msg d).session i).currentEventId.str ≠ []) :
    (blacklistBlock env msg d).db.hasEvent
      ((blacklistBlock env msg d).session i).currentEventId.str = true := by
  revert hne
  unfold blacklistBlock
  rw [hfind]
  dsimp only
  split
  · exact hk i
  · intro _
    have hens := ensureBlockedEvent_ensured env msg i { d with table := t }
    have hknown := hens.known' (hk i)
    have hexec := blockerExecute_spec env (blockIp msg)
      (blacklistStatus (ensureBlockedEvent env msg i { d with table := t }).policy msg) i
      (ensureBlockedEvent env msg i { d with table := t })
    generalize blockerExecute env (blockIp msg) _ _ _ = result at hexec
    cases hexec with
    | failed => simpa [Daemon.setSession, Daemon.session] using hknown
    | done content d' _ hnoted =>
      have := hnoted.hasEvent
        ((ensureBlockedEvent env msg i { d with table := t }).session i).currentEventId.str
      rw [← this, ← hnoted.eventId] at hknown
      simpa [Daemon.setSession, Daemon.session] using hknown

/-- A message keeps the events of the sessions known. -/
theorem processMsg_eventsKnown (hk : EventsKnown d) : EventsKnown (processMsg env msg d) := by
  have hk' : EventsKnown { d with journal := [] } := hk
  unfold processMsg
  dsimp only
  split
  · unfold vfsBlocked
    split
    · exact hk'
    · next i t hfind =>
      rw [if_neg (ensureId_ne_nil env i _)]
      refine (vfsBlocked_stage env msg i _).eventsKnown
        ((sessionFindOrCreate_spec hfind).eventsKnown hk) fun _ => ?_
      show Db.hasEvent (Db.upsertEvent _ _) _ = true
      rw [Db.hasEvent_upsertEvent _ _ (ensureId_ne_nil env i _)]
      simp [eventRecord, Daemon.session]
  · split
    · cases hfind : sessionFindOrCreate d.table msg.sessionKey env.now with
      | none => rw [blacklistBlock, hfind]; exact hk'
      | some found =>
        obtain ⟨i, t⟩ := found
        have hkt := (sessionFindOrCreate_spec hfind).eventsKnown hk
        exact (blacklistBlock_stage (d := { d with journal := [] }) hfind).eventsKnown hkt
          (blacklistBlock_known (d := { d with journal := [] }) hfind hkt)
    · unfold acceptMsg
      split
      · exact hk'
      · next i t hfind =>
        have hkt := (sessionFindOrCreate_spec hfind).eventsKnown hk
        exact (acceptSession_stage env msg i _).eventsKnown hkt (acceptSession_known hkt)
    · exact hk'

/-- Every event of the main loop keeps the invariant. -/
theorem Daemon.Inv.step (h : d.Inv) (e : DaemonEvent) : (daemonStep d e).Inv := by
  cases e with
  | message env msg =>
    have hspec := processMsg_spec env msg d
    have hknown : EventsKnown (processMsg env msg d) := processMsg_eventsKnown h.known
    show (processMsg env msg d).Inv
    generalize processMsg env msg d = d' at hspec hknown
    cases hspec with
    | idle => exact ⟨h.placed, hknown, h.valid⟩
    | worked i t d' hfind hstage _ _ =>
      exact ⟨hstage.wellPlaced (hfind.wellPlaced h.placed), hknown,
        hstage.numericValid.trans h.valid⟩
  | lookup key now =>
    simp only [daemonStep]
    split
    · exact ⟨h.placed, h.known, h.valid⟩
    · next i t hfind =>
      have hspec := sessionFindOrCreate_spec hfind
      exact ⟨hspec.wellPlaced h.placed, hspec.eventsKnown h.known, h.valid⟩
  | reload np syncOk =>
    cases np with
    | none => exact ⟨h.placed, h.known, h.valid⟩
    | some np => exact ⟨h.placed, h.known, np.valid⟩

/-- Every reachable daemon satisfies the invariant. -/
theorem daemonRun_inv (p : LoadedPolicy) (db : Db) (es : List DaemonEvent) :
    (daemonRun p db es).Inv :=
  Runs.run_invariant Daemon.Inv (fun _ e h => h.step e) (Daemon.inv_start p db) es

end

end GfrGuard

import GfrGuard.DenyAgreement
import GfrGuard.TableRuns

/-!
# Notification events

A notification event of a watched tree goes to `process_msg` at once, on the main thread, and
then the session is looked up again to learn whether to call the channel's block action. The
second lookup does not ask what became of the message: it makes, evicts or touches a session
for a message that was dropped at a gate, and the block flag it finds there is acted on. Only
an event whose lookup changes nothing goes unnoticed (`gated_notify_inert_iff`).
-/

namespace GfrGuard

/-! ## Events -/

/-- `FAN_MODIFY`. -/
abbrev fanModify : UInt64 := 0x2
/-- `FAN_CLOSE_WRITE`. -/
abbrev fanCloseWrite : UInt64 := 0x8
/-- `FAN_CREATE`. -/
abbrev fanCreate : UInt64 := 0x100
/-- `FAN_DELETE`. -/
abbrev fanDelete : UInt64 := 0x200
/-- `FAN_OPEN_PERM`. -/
abbrev fanOpenPerm : UInt64 := 0x10000
/-- `FAN_RENAME`. -/
abbrev fanRename : UInt64 := 0x10000000

/-- The operations a channel maps to messages. -/
abbrev fanNotifyOps : UInt64 := fanModify ||| fanCreate ||| fanCloseWrite ||| fanDelete ||| fanRename

/-- A `struct fanotify_event` that asks for no permission. -/
structure NotifyEvent extends FanotifyEvent where
  mask : UInt64
  /-- The destination of a rename, otherwise empty. -/
  newPath : CBuf pathMax
  newName : CBuf 256
  notPerm : mask &&& fanOpenPerm = 0

/-- What a notification event observes. -/
structure NotifyEnv where
  proc : ProcInfo
  /-- `stat` of a path. -/
  stat : CStr → Option StatBuf
  /-- `fanotify_gate_allow`: the session and file have not been reported in this window. -/
  gateAllow : Bool
  /-- What `process_msg` observes. -/
  call : CallEnv
  /-- `time(NULL)` in the lookup after it. -/
  lookupTime : Int

/-! ## The notification path -/

/-- The file whose metadata an event reports: of a rename the destination. -/
def NotifyEvent.statPath (ev : NotifyEvent) : CStr :=
  if ev.mask &&& fanRename ≠ 0 ∧ ev.newPath.str ≠ [] then ev.newPath.str else ev.path.str

/-- The message with the metadata of the file; of one that is gone they stay zero. -/
def withStat (st : Option StatBuf) (msg : EventMsg) : EventMsg :=
  match st with
  | some st =>
    { msg with
      inode := st.inode
      fileSize := st.size
      mtime := st.mtime
      fileUid := st.uid
      fileGid := st.gid
      fileMode := st.mode }
  | none => msg

/-- `fanotify_fill_notify_msg`: nothing for a write that was reported already, and for an event of
no operation or of several. -/
def fanotifyFillNotifyMsg (env : NotifyEnv) (ev : NotifyEvent) (msg : EventMsg) : Option EventMsg :=
  let op := ev.mask &&& fanNotifyOps
  let msg := withStat (env.stat ev.statPath) msg
  if op = fanModify then
    -- one risky write for each session and file in a scoring window
    if env.gateAllow then some { msg with opType := opWrite, flags := flagRisky } else none
  else if op = fanCreate then some { msg with opType := opOpen, flags := flagNewFile }
  else if op = fanDelete then some { msg with opType := opDelete, flags := 0 }
  else if op = fanRename then
    some { msg with opType := opRename, flags := 0, newName := ev.newName }
  else if op = fanCloseWrite then some { msg with opType := opClose, flags := 0 }
  else none

/-- The lookup after a message: whether the session is blocked, and the table it leaves. -/
def sessionBlocked (t : SessionTable) (skey : CBuf 128) (now : Int) : Bool × SessionTable :=
  match sessionFindOrCreate t skey now with
  | none => (false, t)
  | some (i, t) => ((t.buckets i).isBlocked, t)

/-- `fanotify_submit_event`: whether the session is blocked once the message is processed. -/
def fanotifySubmitEvent (env : NotifyEnv) (msg : EventMsg) (skey : CBuf 128) (d : Daemon) :
    Bool × Daemon :=
  let d := processMsg env.call msg d
  let (blocked, t) := sessionBlocked d.table skey env.lookupTime
  (blocked, { d with table := t })

/-- The message `fan_channel_handle` submits for a notification event, if it submits one. -/
def fanNotifyMsg (env : NotifyEnv) (ops : FanChannelOps) (ev : NotifyEvent) :
    Option (ChannelCtx × EventMsg) :=
  if ev.mask &&& fanNotifyOps = 0 then none
  else
    match ops.resolve env.proc ev.toFanotifyEvent with
    | none => none
    | some ctx =>
      let msg := ctx.identify (fanotifyBuildEventMsg ev.toFanotifyEvent ops.sourceType)
      (fanotifyFillNotifyMsg env ev msg).map (ctx, ·)

/-- `fan_channel_handle` of a notification event: whether the channel's block action is called. -/
def fanChannelNotify (env : NotifyEnv) (ops : FanChannelOps) (ev : NotifyEvent) (d : Daemon) :
    Bool × Daemon :=
  match fanNotifyMsg env ops ev with
  | none => (false, d)
  | some (ctx, msg) => fanotifySubmitEvent env msg ctx.sessionKey d

/-! ## Gated events -/

/-- `process_msg` drops the message at a gate. -/
def Gated (p : Policy) (msg : EventMsg) : Prop :=
  msg.msgType ≠ msgVfsBlocked ∧ gate p msg ≠ .blacklistBlock ∧ gate p msg ≠ .accept

instance (p : Policy) (msg : EventMsg) : Decidable (Gated p msg) :=
  inferInstanceAs (Decidable (_ ∧ _))

/-- If the channel submits a message for the event, it is dropped at a gate. -/
def GatedEvent (env : NotifyEnv) (ops : FanChannelOps) (ev : NotifyEvent) (p : Policy) : Prop :=
  ∀ ctx msg, fanNotifyMsg env ops ev = some (ctx, msg) → Gated p msg

/-- A lookup of the key finds a session that is not blocked and was last seen at that very second,
or finds neither the session nor room for it. -/
def SessionTable.Unmoved (t : SessionTable) (key : CBuf 128) (now : Int) : Prop :=
  (∃ i, t.search key = .hit i ∧ (t.buckets i).isBlocked = false ∧ (t.buckets i).lastSeen = now) ∨
    (t.search key = .full ∧ t.oldest = none)

/-- The event changes nothing in the table, and the channel's block action is not called. -/
def Inert (env : NotifyEnv) (ops : FanChannelOps) (ev : NotifyEvent) (d : Daemon) : Prop :=
  (fanChannelNotify env ops ev d).2.table = d.table ∧ (fanChannelNotify env ops ev d).1 = false

section
variable {t : SessionTable} {key : CBuf 128} {i : Fin sessionBuckets} {s : SessionState} {now : Int}
  {env : NotifyEnv} {ops : FanChannelOps} {ev : NotifyEvent} {d : Daemon} {ctx : ChannelCtx}
  {msg msg' : EventMsg} {p : Policy}

/-- Writing a slot changes nothing when it writes what was there. -/
theorem SessionTable.set_eq_self_iff : t.set i s = t ↔ s = t.buckets i := by
  constructor
  · intro h
    rw [← congrFun (congrArg buckets h) i, set_self]
  · rintro rfl
    exact congrArg (SessionTable.mk · t.count) (Function.update_eq_self i t.buckets)

theorem SessionState.touch_eq_self_iff : s.touch now = s ↔ s.lastSeen = now :=
  ⟨fun h => (congrArg lastSeen h).symm, fun h => by subst h; rfl⟩

/-- A search that finds no room passed the sessions of other keys only. -/
theorem SessionTable.sessionKey_of_full (h : t.search key = .full) (i : Fin sessionBuckets) :
    (t.buckets i).sessionKey ≠ key := by
  have hspec := search_spec t key
  rw [h] at hspec
  cases hspec with
  | full hpass =>
    obtain ⟨p, hp, rfl⟩ := probe_cover key i
    exact fun hkey => (hpass p hp).2 (keyAt_eq_some_iff.2 ⟨inUse_of_full h _, hkey⟩)

/-- When the lookup after a message changes nothing and finds no block. -/
theorem sessionBlocked_inert_iff :
    (sessionBlocked t key now).2 = t ∧ (sessionBlocked t key now).1 = false ↔ t.Unmoved key now := by
  unfold sessionBlocked sessionFindOrCreate SessionTable.Unmoved
  cases hsearch : t.search key with
  | hit i =>
    have hslot : ∀ j, (OpenAddressing.Found.hit i = .hit j) ↔ i = j := fun j => by simp
    simp only [SessionTable.set_eq_self_iff, SessionState.touch_eq_self_iff, SessionTable.set_self,
      hslot, exists_eq_left', reduceCtorEq, false_and, or_false]
    exact and_comm
  | hole i =>
    -- a session is added
    refine iff_of_false (fun h => ?_) (by simp)
    have hcount := congrArg SessionTable.count h.1
    exact absurd hcount (Nat.succ_ne_self t.count)
  | full =>
    cases hold : t.oldest with
    | none => simp
    | some i =>
      -- a session of another key gives way
      refine iff_of_false (fun h => ?_) (by simp)
      have hfresh := SessionTable.set_eq_self_iff.1 h.1
      exact SessionTable.sessionKey_of_full hsearch i (hfresh ▸ rfl)

/-- A message dropped at a gate leaves the table as it was. -/
theorem processMsg_of_gated (h : Gated d.policy msg) (call : CallEnv) :
    processMsg call msg d = { d with journal := [] } := by
  unfold processMsg
  dsimp only
  rw [if_neg h.1]
  have hgate := h.2
  split
  · next hg => exact absurd hg hgate.1
  · next hg => exact absurd hg hgate.2
  · rfl

/-- A gated event changes nothing exactly when no message is submitted for it or the lookup of its
session changes nothing and finds no block. -/
theorem gated_notify_inert_iff (env : NotifyEnv) (c : Channel) (ev : NotifyEvent) (d : Daemon)
    (hgated : GatedEvent env c.ops ev d.policy) :
    Inert env c.ops ev d ↔ ∀ ctx msg, fanNotifyMsg env c.ops ev = some (ctx, msg) →
      d.table.Unmoved ctx.sessionKey env.lookupTime := by
  unfold Inert fanChannelNotify
  cases hmsg : fanNotifyMsg env c.ops ev with
  | none => simp
  | some cm =>
    obtain ⟨ctx, msg⟩ := cm
    have hdrop := processMsg_of_gated (hgated ctx msg hmsg) env.call
    have hsubmit : (fanotifySubmitEvent env msg ctx.sessionKey d).2.table = d.table ∧
        (fanotifySubmitEvent env msg ctx.sessionKey d).1 = false ↔
          d.table.Unmoved ctx.sessionKey env.lookupTime := by
      unfold fanotifySubmitEvent
      rw [hdrop]
      exact sessionBlocked_inert_iff
    refine hsubmit.trans ⟨fun h ctx' msg' heq => ?_, fun h => h ctx msg rfl⟩
    cases heq
    exact h

end

/-! ## A pardoned session -/

/-- The default policy with alice whitelisted. -/
def pardonPolicy : Policy :=
  { Policy.default with whitelist := { Policy.default.whitelist with users := onlyAlice } }

/-- Alice creates a file over FTP. -/
def createEvent : NotifyEvent where
  toFanotifyEvent := sampleFanEvent "/srv/a"
  mask := fanCreate
  newPath := .empty pathMax
  newName := .empty 256
  notPerm := by decide

/-- The event in the second after the start. -/
def createEnv : NotifyEnv where
  proc := sampleFtpEnv.proc
  stat := fun _ => none
  gateAllow := true
  call := sampleEnv 1
  lookupTime := 1

/-- The message she is reported with. -/
def createMsg : EventMsg :=
  { aliceFtp.identify (fanotifyBuildEventMsg (sampleFanEvent "/srv/a") sourceFtp) with
    flags := flagNewFile }

/-- The daemon once it has blocked alice, and then been given the policy that whitelists her. -/
def pardonedDaemon : Daemon :=
  { processMsg (sampleEnv 1) createMsg (Daemon.init bannedPolicy) with policy := pardonPolicy }

theorem createEvent_msg :
    fanNotifyMsg createEnv Channel.ftp.ops createEvent = some (aliceFtp, createMsg) := rfl

theorem createEvent_gated : GatedEvent createEnv Channel.ftp.ops createEvent pardonPolicy := by
  intro ctx msg hmsg
  rw [createEvent_msg] at hmsg
  cases hmsg
  exact by decide

/-- In an empty table her event makes a session. -/
theorem gated_notify_inert_sample :
    ¬ Inert createEnv Channel.ftp.ops createEvent (Daemon.init pardonPolicy) := by
  rw [gated_notify_inert_iff createEnv .ftp createEvent (Daemon.init pardonPolicy) createEvent_gated]
  intro h
  rcases h aliceFtp createMsg createEvent_msg with ⟨i, hhit, -⟩ | ⟨hfull, -⟩
  · cases SessionTable.keyAt_of_hit hhit
  · cases SessionTable.inUse_of_full hfull 0

/-- The session she was blocked in is found, and the block action called. -/
theorem gated_notify_not_inert :
    ¬ ∀ (env : NotifyEnv) (c : Channel) (ev : NotifyEvent) (d : Daemon),
      GatedEvent env c.ops ev d.policy → Inert env c.ops ev d := by
  intro h
  have hcalled : (fanChannelNotify createEnv Channel.ftp.ops createEvent pardonedDaemon).1 = true := by
    decide
  rw [(h createEnv .ftp createEvent pardonedDaemon createEvent_gated).2] at hcalled
  cases hcalled

end GfrGuard

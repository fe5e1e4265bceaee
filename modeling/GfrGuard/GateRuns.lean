import GfrGuard.Fangate
import GfrGuard.Run

/-!
# The gate over runs

Two threads ask the gate. The permission thread puts what the gate lets through on a queue that may
be full, and the main thread takes it from there; a write notification goes to `process_msg` as soon
as the gate lets it through. The gate remembers what it let through, not what arrived. An event that
is refused has been reported within the window when no message is lost, none of the session and file
is still under way, and no other session and file has the same key (`refused_after_delivery`).
-/

namespace GfrGuard

/-- A notification of a write. -/
structure ModifyEvent extends NotifyEvent where
  isModify : mask &&& fanNotifyOps = fanModify

/-- The two threads with the gate and the queue between them. -/
structure FanSystem where
  daemon : Daemon
  fs : Fs
  gate : Fangate
  /-- `CLOCK_MONOTONIC`. -/
  clock : Int
  /-- What the permission thread has to queue. -/
  permHand : Option EventMsg
  /-- What the main thread has to submit, with its session. -/
  mainHand : Option (NotifyEnv × EventMsg × CBuf 128)
  queue : List EventMsg
  /-- The messages `process_msg` was called with, and when. -/
  delivered : List (Int × EventMsg)
  /-- The sessions and files the gate let through. -/
  sent : List (CBuf 128 × CBuf pathMax)

/-- A step of a thread, of the clock, or a reload of the policy. -/
inductive FanEvent where
  | perm (c : Channel) (env : FanEnv) (ev : FanotifyEvent)
  | permQueue (ok : Bool)
  | modify (c : Channel) (env : NotifyEnv) (ev : ModifyEvent)
  | submit
  | deliver (env : CallEnv)
  | tick (n : Nat)
  | reload (np : Option LoadedPolicy) (syncOk : Bool)

namespace FanSystem

/-- The call of the gate an event comes to, if its thread is free and the channel takes it. -/
def gateCall (s : FanSystem) : FanEvent → Option GateCall
  | .perm c env ev =>
    if s.permHand.isSome then none
    else (c.ops.resolve env.proc ev).map fun ctx => ⟨ctx.sessionKey, ev.path, c.ops.sourceType⟩
  | .modify c env ev =>
    if s.mainHand.isSome then none
    else (c.ops.resolve env.proc ev.toFanotifyEvent).map fun ctx =>
      ⟨ctx.sessionKey, ev.path, c.ops.sourceType⟩
  | _ => none

/-- The answer of the gate. -/
def answer (s : FanSystem) (call : GateCall) : Bool :=
  (fanotifyGateAllow s.gate call s.daemon.policy s.clock).1

/-- The system once the gate has answered. -/
def asked (s : FanSystem) (call : GateCall) : FanSystem :=
  { s with
    gate := (fanotifyGateAllow s.gate call s.daemon.policy s.clock).2
    sent := if s.answer call then (call.skey, call.path) :: s.sent else s.sent }

end FanSystem

/-- One step; a step of a thread that is not its next one changes nothing. -/
def fanStep (s : FanSystem) : FanEvent → FanSystem
  | .perm c env ev =>
    match s.gateCall (.perm c env ev) with
    | none => s
    | some call =>
      let r := fanChannelHandle { env with gateAllow := s.answer call } s.daemon.policy c.ops ev s.fs
      { s.asked call with fs := r.fs, permHand := r.queued }
  | .permQueue ok =>
    match s.permHand with
    | none => s
    | some m => { s with permHand := none, queue := if ok then s.queue ++ [m] else s.queue }
  | .modify c env ev =>
    match s.gateCall (.modify c env ev) with
    | none => s
    | some call =>
      { s.asked call with
        mainHand := (fanNotifyMsg { env with gateAllow := s.answer call } c.ops ev.toNotifyEvent).map
          fun r => (env, r.2, r.1.sessionKey) }
  | .submit =>
    match s.mainHand with
    | none => s
    | some (env, m, skey) =>
      { s with
        daemon := (fanotifySubmitEvent env m skey s.daemon).2
        mainHand := none
        delivered := (s.clock, m) :: s.delivered }
  | .deliver env =>
    match s.mainHand, s.queue with
    | none, m :: queue =>
      { s with
        daemon := processMsg env m s.daemon
        queue := queue
        delivered := (s.clock, m) :: s.delivered }
    | _, _ => s
  | .tick n => { s with clock := s.clock + n }
  | .reload np syncOk =>
    match s.permHand, s.mainHand with
    | none, none =>
      { s with
        daemon := daemonReload np syncOk s.daemon
        gate := if np.isSome then fangateInit else s.gate }
    | _, _ => s

/-- The system after start. -/
def FanSystem.start (d : Daemon) (fs : Fs) (now : Int) : FanSystem :=
  ⟨d, fs, fangateInit, now, none, none, [], [], []⟩

/-! ## What a refused event relies on -/

/-- The message reports a risky event of a session and a file. -/
def EventMsg.Reports (m : EventMsg) (skey : CBuf 128) (path : CBuf pathMax) : Prop :=
  m.sessionKey = skey ∧ m.filePath = path ∧ hasFlag m.flags flagRisky = true

/-- A report has been delivered at a time or later. -/
def FanSystem.Delivered (s : FanSystem) (skey : CBuf 128) (path : CBuf pathMax) (since : Int) : Prop :=
  ∃ r ∈ s.delivered, since ≤ r.1 ∧ r.1 ≤ s.clock ∧ r.2.Reports skey path

/-- The messages the gate let through that have not reached `process_msg`. -/
def FanSystem.underWay (s : FanSystem) : List EventMsg :=
  s.permHand.toList ++ (s.mainHand.map (·.2.1)).toList ++ s.queue

/-- A report is on its way. -/
def FanSystem.UnderWay (s : FanSystem) (skey : CBuf 128) (path : CBuf pathMax) : Prop :=
  ∃ m ∈ s.underWay, m.Reports skey path

/-- An event the gate refuses has been reported within the window. -/
def ReportedIfRefused (s : FanSystem) (e : FanEvent) : Prop :=
  ∀ call, s.gateCall e = some call → s.answer call = false →
    ∃ since, s.clock - since < call.window s.daemon.policy ∧ s.Delivered call.skey call.path since

/-- No message is lost, and where the gate refuses an event, no report of its session and file is
under way and no others it let through have their key. -/
structure NothingLost (s : FanSystem) (e : FanEvent) : Prop where
  queued : ∀ m, s.permHand = some m → e ≠ .permQueue false
  arrived : ∀ call, s.gateCall e = some call → s.answer call = false →
    ¬ s.UnderWay call.skey call.path
  distinct : ∀ call, s.gateCall e = some call → s.answer call = false → ∀ r ∈ s.sent,
    fangateKey r.1.str (fnv1a64 r.2.str) = call.key → r = (call.skey, call.path)

/-- What a slot of the gate remembers was let through, and is under way or was delivered since. -/
def FanSystem.Remembers (s : FanSystem) (e : GateEntry) : Prop :=
  ∃ r ∈ s.sent, fangateKey r.1.str (fnv1a64 r.2.str) = e.key ∧ e.lastSent ≤ s.clock ∧
    (s.UnderWay r.1 r.2 ∨ s.Delivered r.1 r.2 e.lastSent)

/-- Every slot in use remembers so. -/
def FanSystem.Inv (s : FanSystem) : Prop :=
  ∀ i, (s.gate.slots i).key ≠ 0 → s.Remembers (s.gate.slots i)

section
variable {s s' : FanSystem} {c : Channel} {ev : FanotifyEvent} {ctx : ChannelCtx}
  {call : GateCall} {e : GateEntry} {skey : CBuf 128} {path : CBuf pathMax} {since : Int}

/-! ## The messages -/

theorem hasFlag_risky : hasFlag flagRisky flagRisky = true := by decide

theorem withBackup_flags (ok : Bool) (st : Option StatBuf) (m : EventMsg) :
    (withBackup ok st m).flags = m.flags ||| (if ok then flagBackedUp else flagBackupFailed) := by
  cases ok <;> cases st <;> rfl

/-- A report of an open stays one with the outcome of the backup. -/
theorem withBackup_reports {m : EventMsg} (ok : Bool) (st : Option StatBuf) (hm : m.Reports skey path)
    (hflags : m.flags = flagRisky) : (withBackup ok st m).Reports skey path := by
  have hrisky : hasFlag (withBackup ok st m).flags flagRisky = true := by
    rw [withBackup_flags, hflags]
    cases ok <;> decide
  have hfields : (withBackup ok st m).sessionKey = m.sessionKey ∧
      (withBackup ok st m).filePath = m.filePath := by
    cases ok <;> cases st <;> exact ⟨rfl, rfl⟩
  exact ⟨hfields.1.trans hm.1, hfields.2.trans hm.2.1, hrisky⟩

/-- What the permission path queues: a report when the gate lets it through, nothing otherwise. -/
theorem fanChannelHandle_openReport (env : FanEnv) (hresolve : c.ops.resolve env.proc ev = some ctx)
    (p : Policy) (fs : Fs) :
    if env.gateAllow then
      ∃ m, (fanChannelHandle env p c.ops ev fs).queued = some m ∧ m.Reports ctx.sessionKey ev.path
    else (fanChannelHandle env p c.ops ev fs).queued = none := by
  have hreports : (ctx.identify (fanotifyBuildEventMsg ev c.ops.sourceType)).Reports ctx.sessionKey
      ev.path := ⟨rfl, rfl, hasFlag_risky⟩
  unfold fanChannelHandle
  rw [hresolve]
  dsimp only
  split
  · next hallow =>
    split
    · exact ⟨_, rfl, hreports⟩
    · exact ⟨_, rfl, withBackup_reports _ _ hreports rfl⟩
  · next hallow =>
    split
    · rfl
    · rfl

/-- What a write notification submits. -/
theorem fanNotifyMsg_modify (env : NotifyEnv) (ev : ModifyEvent)
    (hresolve : c.ops.resolve env.proc ev.toFanotifyEvent = some ctx) :
    if env.gateAllow then
      ∃ m, fanNotifyMsg env c.ops ev.toNotifyEvent = some (ctx, m) ∧ m.Reports ctx.sessionKey ev.path
    else fanNotifyMsg env c.ops ev.toNotifyEvent = none := by
  unfold fanNotifyMsg fanotifyFillNotifyMsg
  have hstat : ∀ st, (withStat st (ctx.identify (fanotifyBuildEventMsg ev.toFanotifyEvent
      c.ops.sourceType))).sessionKey = ctx.sessionKey ∧
      (withStat st (ctx.identify (fanotifyBuildEventMsg ev.toFanotifyEvent
        c.ops.sourceType))).filePath = ev.path := fun st => by cases st <;> exact ⟨rfl, rfl⟩
  rw [ev.isModify, hresolve, if_neg (show fanModify ≠ 0 by decide)]
  dsimp only
  rw [if_pos rfl]
  split
  · exact ⟨_, rfl, (hstat _).1, (hstat _).2, hasFlag_risky⟩
  · rfl

/-! ## What a step keeps -/

/-- What is remembered stays so while sessions and messages are added, time passes, and what is under
way stays so or arrives. -/
theorem FanSystem.Remembers.of_step (h : s.Remembers e) (hsent : s.sent ⊆ s'.sent)
    (hclock : s.clock ≤ s'.clock) (hdelivered : s.delivered ⊆ s'.delivered)
    (hway : ∀ m ∈ s.underWay, m ∈ s'.underWay ∨ (s'.clock, m) ∈ s'.delivered) : s'.Remembers e := by
  obtain ⟨r, hr, hkey, hsince, hstate⟩ := h
  refine ⟨r, hsent hr, hkey, hsince.trans hclock, ?_⟩
  rcases hstate with ⟨m, hm, hreports⟩ | ⟨d, hd, hfrom, hto, hreports⟩
  · rcases hway m hm with hm | hm
    · exact .inl ⟨m, hm, hreports⟩
    · exact .inr ⟨_, hm, hsince.trans hclock, le_rfl, hreports⟩
  · exact .inr ⟨d, hdelivered hd, hfrom, hto.trans hclock, hreports⟩

/-- An answer of the gate keeps the invariant when what it lets through is under way. -/
theorem FanSystem.Inv.asked (hs : s.Inv) (hgate : s'.gate = (s.asked call).gate)
    (hsent : s'.sent = (s.asked call).sent) (hclock : s'.clock = s.clock)
    (hdelivered : s'.delivered = s.delivered) (hway : s.underWay ⊆ s'.underWay)
    (hnew : s.answer call = true → s'.UnderWay call.skey call.path) : s'.Inv := by
  intro i hi
  have hslot : (s.asked call).gate.slots i = s.gate.slots i ∨
      s.answer call = true ∧ (s.asked call).gate.slots i = ⟨call.key, s.clock⟩ := fangateAllow_slots i
  rw [hgate] at hi ⊢
  rcases hslot with hold | ⟨hallow, hslot⟩
  · rw [hold] at hi ⊢
    refine (hs i hi).of_step ?_ hclock.ge (by rw [hdelivered]; exact List.Subset.refl _)
      fun m hm => .inl (hway hm)
    rw [hsent]
    unfold FanSystem.asked
    dsimp only
    split
    · exact List.subset_cons_self _ _
    · exact List.Subset.refl _
  · rw [hslot]
    refine ⟨(call.skey, call.path), ?_, rfl, hclock.ge, .inl (hnew hallow)⟩
    rw [hsent]
    unfold FanSystem.asked
    dsimp only
    rw [if_pos hallow]
    exact List.mem_cons_self

theorem FanSystem.Inv.perm (hs : s.Inv) (c : Channel) (env : FanEnv) (ev : FanotifyEvent) :
    (fanStep s (.perm c env ev)).Inv := by
  unfold fanStep
  dsimp only
  split
  · exact hs
  · next call hcall =>
    obtain ⟨hfree, hcall⟩ := Option.ite_none_left_eq_some.1 hcall
    obtain ⟨ctx, hresolve, rfl⟩ := Option.map_eq_some_iff.1 hcall
    have hfree : s.permHand = none := by simpa using hfree
    refine hs.asked rfl rfl rfl rfl ?_ fun hallow => ?_
    · simp only [underWay, hfree]
      intro m hm
      simp only [List.mem_append] at hm ⊢
      tauto
    · have hqueued := fanChannelHandle_openReport { env with gateAllow := true } hresolve
        s.daemon.policy s.fs
      rw [if_pos rfl] at hqueued
      obtain ⟨m, hm, hreports⟩ := hqueued
      refine ⟨m, ?_, hreports⟩
      rw [← hallow] at hm
      simp [underWay, hm]

theorem FanSystem.Inv.modify (hs : s.Inv) (c : Channel) (env : NotifyEnv) (ev : ModifyEvent) :
    (fanStep s (.modify c env ev)).Inv := by
  unfold fanStep
  dsimp only
  split
  · exact hs
  · next call hcall =>
    obtain ⟨hfree, hcall⟩ := Option.ite_none_left_eq_some.1 hcall
    obtain ⟨ctx, hresolve, rfl⟩ := Option.map_eq_some_iff.1 hcall
    have hfree : s.mainHand = none := by simpa using hfree
    refine hs.asked rfl rfl rfl rfl ?_ fun hallow => ?_
    · simp only [underWay, hfree]
      intro m hm
      simp only [List.mem_append] at hm ⊢
      tauto
    · have hmsg := fanNotifyMsg_modify { env with gateAllow := true } ev hresolve
      rw [if_pos rfl] at hmsg
      obtain ⟨m, hm, hreports⟩ := hmsg
      refine ⟨m, ?_, hreports⟩
      rw [← hallow] at hm
      simp [underWay, hm]

/-- A step that asks nothing of the gate keeps the invariant, when what was under way stays so or
arrives. -/
theorem FanSystem.Inv.of_step (hs : s.Inv) (hgate : s'.gate = s.gate) (hsent : s'.sent = s.sent)
    (hclock : s.clock ≤ s'.clock) (hdelivered : s.delivered ⊆ s'.delivered)
    (hway : ∀ m ∈ s.underWay, m ∈ s'.underWay ∨ (s'.clock, m) ∈ s'.delivered) : s'.Inv := by
  intro i hi
  rw [hgate] at hi ⊢
  exact (hs i hi).of_step (by rw [hsent]; exact List.Subset.refl _) hclock hdelivered hway

/-- Each step keeps the invariant, when it loses no message. -/
theorem FanSystem.Inv.step {e : FanEvent} (hs : s.Inv) (he : NothingLost s e) : (fanStep s e).Inv := by
  cases e with
  | perm c env ev => exact hs.perm c env ev
  | modify c env ev => exact hs.modify c env ev
  | permQueue ok =>
    unfold fanStep
    dsimp only
    split
    · exact hs
    · next m hm =>
      have hok : ok = true := by
        cases ok with
        | true => rfl
        | false => exact absurd rfl (he.queued m hm)
      refine hs.of_step rfl rfl le_rfl (List.Subset.refl _) fun m' hm' => .inl ?_
      simp only [underWay, hm, hok, List.mem_append, if_true] at hm' ⊢
      simp only [Option.toList_some, Option.toList_none] at hm' ⊢
      tauto
  | submit =>
    unfold fanStep
    dsimp only
    split
    · exact hs
    · next env m skey hm =>
      refine hs.of_step rfl rfl le_rfl (List.subset_cons_self _ _) fun m' hm' => ?_
      simp only [underWay, hm, Option.map_some, Option.toList_some, List.mem_append,
        Option.map_none, Option.toList_none, List.mem_cons, Prod.mk.injEq] at hm' ⊢
      tauto
  | deliver env =>
    unfold fanStep
    dsimp only
    split
    · next m queue hmain hqueue =>
      refine hs.of_step rfl rfl le_rfl (List.subset_cons_self _ _) fun m' hm' => ?_
      simp only [underWay, hqueue, List.mem_append, List.mem_cons, Prod.mk.injEq] at hm' ⊢
      tauto
    · exact hs
  | tick n =>
    exact hs.of_step rfl rfl (by simp only [fanStep]; omega) (List.Subset.refl _) fun m hm => .inl hm
  | reload np syncOk =>
    unfold fanStep
    dsimp only
    split
    · next hperm hmain =>
      cases np with
      | none => exact hs.of_step rfl rfl le_rfl (List.Subset.refl _) fun m hm => .inl hm
      | some np => exact fun i hi => absurd rfl hi
    · exact hs

theorem FanSystem.inv_start (d : Daemon) (fs : Fs) (now : Int) : (FanSystem.start d fs now).Inv :=
  fun _ hi => absurd rfl hi

/-- A refused event whose report is not under way, and whose key is its own, has been reported. -/
theorem FanSystem.Inv.reportedIfRefused {e : FanEvent} (hs : s.Inv) (he : NothingLost s e) :
    ReportedIfRefused s e := by
  intro call hcall hrefused
  obtain ⟨-, hkey, hwindow⟩ := fangateAllow_eq_false_iff.1 hrefused
  let i := fangateSlot call.key
  have hkey : (s.gate.slots i).key = call.key := hkey
  obtain ⟨r, hr, hrkey, -, hstate⟩ := hs i (by rw [hkey]; exact fangateKey_ne_zero _ _)
  obtain rfl := he.distinct call hcall hrefused r hr (hrkey.trans hkey)
  exact ⟨_, hwindow, hstate.resolve_left (he.arrived call hcall hrefused)⟩

/-- In a run that loses nothing every event the gate refuses has been reported within the window. -/
theorem refused_after_delivery (d : Daemon) (fs : Fs) (now : Int) (es : List FanEvent)
    (h : Runs.AllSteps fanStep NothingLost (FanSystem.start d fs now) es) :
    Runs.AllSteps fanStep ReportedIfRefused (FanSystem.start d fs now) es :=
  Runs.allSteps_imp FanSystem.Inv (fun _ _ hs he => hs.reportedIfRefused he)
    (fun _ _ hs he => hs.step he) (FanSystem.inv_start d fs now) h

end

/-! ## A full queue -/

/-- The open of a file by alice's FTP process. -/
def ftpOpen : FanEvent := .perm .ftp sampleFtpEnv (sampleFanEvent "/srv/a")

/-- The gate call it comes to. -/
def ftpCall : GateCall := ⟨aliceFtp.sessionKey, .ofStr pathMax (lit "/srv/a"), sourceFtp⟩

/-- The system after start. -/
def startedFan : FanSystem := .start (Daemon.init .default) .empty 100

/-- A step at which the gate refuses nothing. -/
theorem NothingLost.of_allowed {s : FanSystem} {e : FanEvent} (hqueue : e ≠ .permQueue false)
    (hallow : ∀ call, s.gateCall e = some call → s.answer call = true) : NothingLost s e where
  queued _ _ := hqueue
  arrived call hcall hrefused := by rw [hallow call hcall] at hrefused; cases hrefused
  distinct call hcall hrefused := by rw [hallow call hcall] at hrefused; cases hrefused

/-- A second open, refused once the first has been delivered. -/
theorem refused_after_delivery_sample : Runs.AllSteps fanStep ReportedIfRefused startedFan
    [ftpOpen, .permQueue true, .deliver (sampleEnv 1), ftpOpen] := by
  refine refused_after_delivery (Daemon.init .default) .empty 100 _ ⟨?_, ?_, ?_, ?_, trivial⟩
  · refine .of_allowed nofun fun call hcall => ?_
    cases (show some ftpCall = some call from hcall)
    decide
  · exact .of_allowed nofun nofun
  · exact .of_allowed nofun nofun
  · refine ⟨nofun, fun call hcall _ => ?_, fun call hcall _ r hr _ => ?_⟩
    · -- the queue is empty again
      rintro ⟨m, hm, -⟩
      cases hm
    · cases (show some ftpCall = some call from hcall)
      exact List.mem_singleton.1 hr

/-- A second open, refused though the queue had no room for the first. -/
theorem refused_without_delivery : ¬ ∀ (d : Daemon) (fs : Fs) (now : Int) (es : List FanEvent),
    Runs.AllSteps fanStep ReportedIfRefused (FanSystem.start d fs now) es := by
  intro h
  obtain ⟨-, -, hthird, -⟩ := h (Daemon.init .default) .empty 100 [ftpOpen, .permQueue false, ftpOpen]
  obtain ⟨since, -, r, hr, -⟩ := hthird ftpCall rfl (by decide)
  cases hr

end GfrGuard

import GfrGuard.DenyAgreement
import GfrGuard.Unblock

/-!
# Messages of a legacy sender

A sender that predates the field leaves the source 0, and the daemon counts it as SMB: in the gates,
in the record of the event and in the windows. The block looks at the field as it came, and for 0
has no address for the blocked file. `LegacyHarmless` says when that makes no difference, and a run
goes the same way with any of its legacy messages marked as SMB exactly when it does for each of
these (`legacy_as_smb_iff`).
-/

namespace GfrGuard

/-- The message with the source it counts as. -/
def EventMsg.asSmb (msg : EventMsg) : EventMsg :=
  { msg with sourceType := if msg.sourceType = 0 then sourceSmb else msg.sourceType }

/-- The event with its message so. -/
def DaemonEvent.asSmb : DaemonEvent → DaemonEvent
  | .message env msg => .message env msg.asSmb
  | e => e

/-- An event, and whether its message is to be marked as SMB. -/
structure MarkedEvent where
  event : DaemonEvent
  marked : Bool

/-- One event as it came. -/
def rawStep (d : Daemon) (e : MarkedEvent) : Daemon := daemonStep d e.event

/-- One event, its message marked as SMB if it is to be. -/
def asSmbStep (d : Daemon) (e : MarkedEvent) : Daemon :=
  daemonStep d (if e.marked then e.event.asSmb else e.event)

/-- What a run leaves: the sessions, the database, the lists and the blocked file. -/
def Daemon.outcome (d : Daemon) : SessionTable × Db × Blacklist × Option CStr :=
  (d.table, d.db, d.policy.blacklist, d.blocked)

/-- If the message is a legacy sender's and blocks a session with an address, the blocked file can be
read, and has the address or is rebuilt from the lists after it was added. -/
def LegacyHarmless (env : CallEnv) (msg : EventMsg) (d : Daemon) : Prop :=
  msg.sourceType = 0 → MeetsBlock env msg d → freeSession env msg d = true →
    validClientIp msg.clientIp.str = true →
      env.readOk = true ∧ (lineExists d.blocked msg.clientIp.str = true ∨
        gate d.policy msg = .accept ∧ env.writeOk = true ∧ env.syncOk = true)

/-- The marking of a message makes no difference. -/
def KeepsLegacy (d : Daemon) (e : MarkedEvent) : Prop :=
  e.marked = true → ∀ env msg, e.event = .message env msg → LegacyHarmless env msg d

/-- The daemon with an event marked as blocked. -/
def Daemon.markBlocked (env : CallEnv) (eventId status : CStr) (d : Daemon) : Daemon :=
  if eventId = [] then d
  else
    let d := d.note .blockUpdate eventId
    let blkStatus := if status = [] then lit "blocked" else status
    { d with
      db := d.db.updateEvent eventId 0 0 0 (some (lit "blocked")) (some blkStatus)
        (some env.iso8601) }

/-- The daemon after a call of `blocker_execute` that left the blocked file so. -/
def ExecuteCall.done (env : CallEnv) (msg : EventMsg) (content : Option CStr) (c : ExecuteCall) :
    Daemon :=
  let id := (c.daemon.session c.slot).currentEventId.str
  let d := { c.daemon.markBlocked env id (c.status msg) with blocked := content }
  let d := d.setSession c.slot { d.session c.slot with isBlocked := true }
  match c.cause with
  | .blacklisted => d
  | .critical =>
    let d := autoBlacklist env msg d
    d.note .restoreTrigger (d.session c.slot).currentEventId.str

section
variable {env : CallEnv} {msg : EventMsg} {d : Daemon} {c : ExecuteCall} {i : Fin sessionBuckets}
  {content : Option CStr}

/-! ## What reads the source as SMB -/

theorem EventMsg.asSmb_of_ne (h : msg.sourceType ≠ 0) : msg.asSmb = msg := by
  unfold EventMsg.asSmb
  rw [if_neg h]

theorem sourceEnabled_asSmb (p : Protection) (msg : EventMsg) :
    sourceEnabled p msg.asSmb.sourceType = sourceEnabled p msg.sourceType := by
  by_cases h : msg.sourceType = 0
  · unfold EventMsg.asSmb
    rw [if_pos h, h]
    rfl
  · rw [EventMsg.asSmb_of_ne h]

theorem gate_asSmb (p : Policy) (msg : EventMsg) : gate p msg.asSmb = gate p msg := by
  unfold gate
  rw [sourceEnabled_asSmb]
  rfl

theorem windows_asSmb (p : Policy) (msg : EventMsg) :
    p.windows msg.asSmb.sourceType = p.windows msg.sourceType := by
  by_cases h : msg.sourceType = 0
  · unfold EventMsg.asSmb
    rw [if_pos h, h]
    rfl
  · rw [EventMsg.asSmb_of_ne h]

theorem eventRecord_asSmb (env : CallEnv) (msg : EventMsg) (id action status pname : CStr) :
    eventRecord env msg.asSmb id action status pname = eventRecord env msg id action status pname := by
  by_cases h : msg.sourceType = 0
  · unfold eventRecord EventMsg.asSmb
    rw [if_pos h]
    rfl
  · rw [EventMsg.asSmb_of_ne h]

theorem ensureEvent_asSmb (env : CallEnv) (msg : EventMsg) (i : Fin sessionBuckets) (d : Daemon) :
    ensureEvent env msg.asSmb i d = ensureEvent env msg i d := by
  have hpname : (if msg.asSmb.sourceType = sourceHost then msg.asSmb.username.str else []) =
      if msg.sourceType = sourceHost then msg.username.str else [] := by
    by_cases h : msg.sourceType = 0
    · unfold EventMsg.asSmb
      rw [if_pos h, h]
      rfl
    · rw [EventMsg.asSmb_of_ne h]
  unfold ensureEvent
  simp only [hpname, eventRecord_asSmb]

theorem ensureBlockedEvent_asSmb (env : CallEnv) (msg : EventMsg) (i : Fin sessionBuckets)
    (d : Daemon) : ensureBlockedEvent env msg.asSmb i d = ensureBlockedEvent env msg i d := by
  unfold ensureBlockedEvent
  simp only [eventRecord_asSmb]
  rfl

theorem vfsBlocked_asSmb (env : CallEnv) (msg : EventMsg) (d : Daemon) :
    vfsBlocked env msg.asSmb d = vfsBlocked env msg d := by
  unfold vfsBlocked
  simp only [eventRecord_asSmb]
  rfl

theorem scoreSession_asSmb (env : CallEnv) (p : Policy) (msg : EventMsg) (s : SessionState) :
    scoreSession env p msg.asSmb s = scoreSession env p msg s := by
  unfold scoreSession
  rw [windows_asSmb]
  rfl

theorem settleMsg_asSmb (env : CallEnv) (msg : EventMsg) (i : Fin sessionBuckets) (d : Daemon) :
    settleMsg env msg.asSmb i d = settleMsg env msg i d := by
  have hrecord : recordMsg env msg.asSmb i d = recordMsg env msg i d := by
    unfold recordMsg
    rw [ensureEvent_asSmb]
    rfl
  have hscore : scoreMsg env msg.asSmb i d = scoreMsg env msg i d := by
    unfold scoreMsg
    rw [hrecord]
    simp only [scoreSession_asSmb]
  unfold settleMsg
  rw [hscore]
  rfl

/-- The decision to block is the same. -/
theorem executeCall_asSmb (env : CallEnv) (msg : EventMsg) (d : Daemon) :
    executeCall env msg.asSmb d = executeCall env msg d := by
  have hkey : msg.asSmb.sessionKey = msg.sessionKey := rfl
  have htype : msg.asSmb.msgType = msg.msgType := rfl
  unfold executeCall blacklistCall criticalCall
  simp only [gate_asSmb, hkey, htype, ensureBlockedEvent_asSmb, settleMsg_asSmb]

theorem quietMsg_asSmb (env : CallEnv) (msg : EventMsg) (d : Daemon) :
    quietMsg env msg.asSmb d = quietMsg env msg d := by
  have hkey : msg.asSmb.sessionKey = msg.sessionKey := rfl
  have htype : msg.asSmb.msgType = msg.msgType := rfl
  unfold quietMsg
  simp only [gate_asSmb, hkey, htype, vfsBlocked_asSmb, settleMsg_asSmb]

/-! ## What the block does with it -/

/-- `blocker_execute` is what becomes of the blocked file, and the mark on the event. -/
theorem blockerExecute_of_append {ip eventId status : CStr}
    (h : blockerAppend d.blocked ip env.readOk env.writeOk = some content) :
    blockerExecute env ip eventId status d =
      (true, { d.markBlocked env eventId status with blocked := content }) := by
  unfold blockerExecute Daemon.markBlocked
  rw [h]
  dsimp only
  split <;> rfl

theorem blockerExecute_of_none {ip eventId status : CStr}
    (h : blockerAppend d.blocked ip env.readOk env.writeOk = none) :
    blockerExecute env ip eventId status d = (false, d) := by
  unfold blockerExecute
  rw [h]

theorem markBlocked_policy (env : CallEnv) (eventId status : CStr) (d : Daemon) :
    (d.markBlocked env eventId status).policy = d.policy := by
  unfold Daemon.markBlocked
  split <;> rfl

/-- What follows a call that succeeds. -/
theorem ExecuteCall.finish_of_append (h : executeCall env msg d = some c)
    (happend : blockerAppend d.blocked (blockIp msg) env.readOk env.writeOk = some content) :
    c.finish env msg = c.done env msg content := by
  rw [← (executeCall_daemon h).2] at happend
  unfold ExecuteCall.finish ExecuteCall.result ExecuteCall.done
  rw [blockerExecute_of_append happend]
  cases c.cause <;> rfl

/-- A call that fails leaves its session not blocked, one that succeeds leaves it blocked. -/
theorem ExecuteCall.isBlocked_of_none (h : executeCall env msg d = some c)
    (happend : blockerAppend d.blocked (blockIp msg) env.readOk env.writeOk = none) :
    ((c.finish env msg).session c.slot).isBlocked = false := by
  have hfree : (c.daemon.session c.slot).isBlocked = false := by
    cases executeCall_spec h with
    | blacklisted i t _ _ _ hflag =>
      dsimp only
      rw [(ensureBlockedEvent_ensured env msg i { d with table := t, journal := [] }).session]
      exact hflag
    | critical i t _ _ _ hflag =>
      dsimp only
      rw [(settleMsg_frame env msg i { d with table := t, journal := [] }).2.2]
      exact hflag
  rw [← (executeCall_daemon h).2] at happend
  unfold ExecuteCall.finish ExecuteCall.result
  rw [blockerExecute_of_none happend]
  cases c.cause with
  | blacklisted =>
    dsimp only
    rw [session_setSession]
  | critical => exact hfree

theorem ExecuteCall.isBlocked_done (env : CallEnv) (msg : EventMsg) (content : Option CStr)
    (c : ExecuteCall) : ((c.done env msg content).session c.slot).isBlocked = true := by
  unfold ExecuteCall.done
  dsimp only
  cases c.cause with
  | blacklisted =>
    dsimp only
    rw [session_setSession]
  | critical =>
    dsimp only
    rw [session_note]
    show ((Daemon.setSession _ _ _).session _).isBlocked = true
    rw [session_setSession]

/-- The blocked file after a call that succeeds. -/
theorem ExecuteCall.blocked_done (env : CallEnv) (msg : EventMsg) (content : Option CStr)
    (c : ExecuteCall) : (c.done env msg content).blocked =
      match c.cause with
      | .blacklisted => content
      | .critical =>
        blockerSyncBlacklist content (blacklistAutoAdd c.daemon.policy.blacklist msg.clientIp)
          env.syncOk := by
  unfold ExecuteCall.done
  cases c.cause with
  | blacklisted => rfl
  | critical =>
    show blockerSyncBlacklist content (blacklistAutoAdd (Daemon.markBlocked ..).policy.blacklist
      msg.clientIp) env.syncOk = _
    rw [markBlocked_policy]

/-- A rebuild forgets what the file was. -/
theorem ExecuteCall.done_of_sync (hcause : c.cause = .critical) (hsync : env.syncOk = true)
    (content content' : Option CStr) : c.done env msg content = c.done env msg content' := by
  unfold ExecuteCall.done autoBlacklist blockerSyncBlacklist
  rw [hcause, hsync]
  rfl

theorem blockIp_of_legacy (h : msg.sourceType = 0) : blockIp msg = [] := by
  unfold blockIp
  rw [h]
  rfl

theorem blockIp_asSmb (h : msg.sourceType = 0) : blockIp msg.asSmb = msg.clientIp.str := by
  unfold blockIp EventMsg.asSmb
  rw [if_pos h]
  rfl

/-- What the call of a legacy message does. -/
theorem ExecuteCall.finish_of_legacy (hsrc : msg.sourceType = 0)
    (h : executeCall env msg d = some c) : c.finish env msg = c.done env msg d.blocked := by
  refine ExecuteCall.finish_of_append h ?_
  rw [blockIp_of_legacy hsrc]
  rfl

/-- With the message marked as SMB the call does the same, where the address has nothing to do. -/
theorem ExecuteCall.finish_asSmb (hsrc : msg.sourceType = 0) (h : executeCall env msg d = some c)
    (hharmless : validClientIp msg.clientIp.str = true → env.readOk = true ∧
      (lineExists d.blocked msg.clientIp.str = true ∨
        c.cause = .critical ∧ env.writeOk = true ∧ env.syncOk = true)) :
    c.finish env msg.asSmb = c.finish env msg := by
  have h' : executeCall env msg.asSmb d = some c := (executeCall_asSmb env msg d).trans h
  rw [ExecuteCall.finish_of_legacy hsrc h]
  have happend {content : Option CStr} (hcontent : blockerAppend d.blocked msg.clientIp.str env.readOk
      env.writeOk = some content) : c.finish env msg.asSmb = c.done env msg content := by
    rw [← blockIp_asSmb hsrc] at hcontent
    exact ExecuteCall.finish_of_append h' hcontent
  by_cases hip : validClientIp msg.clientIp.str = true
  · obtain ⟨hread, hline⟩ := hharmless hip
    cases hold : lineExists d.blocked msg.clientIp.str with
    | true => exact happend (blockerAppend_eq_some_iff.2 (.inl ⟨rfl, fun _ => ⟨hread, hold⟩⟩))
    | false =>
      obtain ⟨hcause, hwrite, hsync⟩ := hline.resolve_left (by simp [hold])
      rw [happend (blockerAppend_eq_some_iff.2 (.inr ⟨rfl, hip, hread, hold, hwrite⟩))]
      exact ExecuteCall.done_of_sync hcause hsync _ d.blocked
  · exact happend (blockerAppend_eq_some_iff.2 (.inl ⟨rfl, fun h => absurd h hip⟩))

/-- Where the outcome is the same, the address had nothing to do. -/
theorem ExecuteCall.harmless_of_outcome (hsrc : msg.sourceType = 0)
    (h : executeCall env msg d = some c)
    (hout : (c.finish env msg).outcome = (c.finish env msg.asSmb).outcome)
    (hip : validClientIp msg.clientIp.str = true) : env.readOk = true ∧
      (lineExists d.blocked msg.clientIp.str = true ∨
        c.cause = .critical ∧ env.writeOk = true ∧ env.syncOk = true) := by
  have h' : executeCall env msg.asSmb d = some c := (executeCall_asSmb env msg d).trans h
  have hflag : ((c.finish env msg.asSmb).session c.slot).isBlocked = true := by
    have htable : (c.finish env msg).table = (c.finish env msg.asSmb).table := congrArg Prod.fst hout
    rw [Daemon.session, ← htable, ExecuteCall.finish_of_legacy hsrc h]
    exact ExecuteCall.isBlocked_done env msg d.blocked c
  have hblocked : (c.finish env msg).blocked = (c.finish env msg.asSmb).blocked :=
    congrArg (fun o => o.2.2.2) hout
  cases hcontent : blockerAppend d.blocked msg.clientIp.str env.readOk env.writeOk with
  | none =>
    rw [← blockIp_asSmb hsrc] at hcontent
    rw [ExecuteCall.isBlocked_of_none h' hcontent] at hflag
    cases hflag
  | some content =>
    have hdone : c.finish env msg.asSmb = c.done env msg content := by
      rw [← blockIp_asSmb hsrc] at hcontent
      exact ExecuteCall.finish_of_append h' hcontent
    rw [ExecuteCall.finish_of_legacy hsrc h, hdone, ExecuteCall.blocked_done,
      ExecuteCall.blocked_done] at hblocked
    obtain ⟨rfl, hkept⟩ | ⟨rfl, -, hread, -, hwrite⟩ := blockerAppend_eq_some_iff.1 hcontent
    · exact ⟨(hkept hip).1, .inl (hkept hip).2⟩
    · have hgrown : d.blocked ≠ some (appendLine (d.blocked.getD []) msg.clientIp.str) := by
        intro heq
        have hlen := congrArg (fun o : Option CStr => (o.getD []).length) heq
        exact absurd hlen (length_lt_appendLine _ _).ne
      refine ⟨hread, .inr ?_⟩
      cases hcause : c.cause with
      | blacklisted =>
        rw [hcause] at hblocked
        exact absurd hblocked hgrown
      | critical =>
        rw [hcause] at hblocked
        cases hsync : env.syncOk with
        | true => exact ⟨rfl, hwrite, rfl⟩
        | false =>
          rw [hsync] at hblocked
          exact absurd hblocked hgrown

/-! ## Runs -/

/-- A message goes as it does marked as SMB where the block is harmless. -/
theorem processMsg_asSmb (hharmless : LegacyHarmless env msg d) :
    processMsg env msg d = processMsg env msg.asSmb d := by
  by_cases hsrc : msg.sourceType = 0
  · cases hcall : executeCall env msg d with
    | none =>
      rw [processMsg_of_quiet hcall,
        processMsg_of_quiet ((executeCall_asSmb env msg d).trans hcall), quietMsg_asSmb]
    | some c =>
      rw [processMsg_of_executeCall hcall,
        processMsg_of_executeCall ((executeCall_asSmb env msg d).trans hcall)]
      obtain ⟨hmeets, hfree⟩ := executeCall_isSome_iff.1 (hcall ▸ rfl : (executeCall env msg d).isSome)
      refine (ExecuteCall.finish_asSmb hsrc hcall fun hip => ?_).symm
      rw [executeCall_cause hcall]
      exact hharmless hsrc hmeets hfree hip
  · rw [EventMsg.asSmb_of_ne hsrc]

/-- Where a message and the same marked as SMB have the same outcome, the block was harmless. -/
theorem legacyHarmless_of_outcome
    (hout : (processMsg env msg d).outcome = (processMsg env msg.asSmb d).outcome) :
    LegacyHarmless env msg d := by
  intro hsrc hmeets hfree hip
  obtain ⟨c, hcall⟩ := Option.isSome_iff_exists.1 (executeCall_isSome_iff.2 ⟨hmeets, hfree⟩)
  rw [processMsg_of_executeCall hcall,
    processMsg_of_executeCall ((executeCall_asSmb env msg d).trans hcall)] at hout
  rw [← executeCall_cause hcall]
  exact ExecuteCall.harmless_of_outcome hsrc hcall hout hip

/-- A run and the same with any of its legacy messages marked as SMB have the same outcomes, up to
each of their events, exactly when each marked message is harmless where it comes. -/
theorem legacy_as_smb_iff (d : Daemon) (es : List MarkedEvent) :
    Runs.AllSteps rawStep KeepsLegacy d es ↔
      ∀ pre, pre <+: es →
        (Runs.run rawStep d pre).outcome = (Runs.run asSmbStep d pre).outcome := by
  refine Runs.allSteps_iff_lockstep Daemon.outcome (fun d e h => ?_) fun d e hout hmarked env msg he => ?_
  · obtain ⟨e, marked⟩ := e
    cases marked with
    | false => rfl
    | true =>
      cases e with
      | message env msg => exact processMsg_asSmb (h rfl env msg rfl)
      | lookup key now => rfl
      | reload np syncOk => rfl
  · unfold rawStep asSmbStep at hout
    rw [if_pos hmarked, he] at hout
    exact legacyHarmless_of_outcome hout

end

/-- A rename by a blacklisted user with a legacy sender. -/
def legacyBlock : List MarkedEvent :=
  [⟨.message (sampleEnv 0) { sampleRename with sourceType := 0 }, true⟩]

/-- The session is blocked, and its address on the blocked file only with the message marked. -/
theorem legacy_block_differs :
    ¬ ∀ pre, pre <+: legacyBlock →
      (Runs.run rawStep (Daemon.init bannedPolicy) pre).outcome =
        (Runs.run asSmbStep (Daemon.init bannedPolicy) pre).outcome := by
  intro h
  have hblocked := congrArg (fun o => o.2.2.2) (h legacyBlock List.prefix_rfl)
  exact absurd hblocked (by decide)

end GfrGuard

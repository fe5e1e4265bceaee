import GfrGuard.SessionView

/-!
# The blocks the daemon attempts

`executeCall` is the call of `blocker_execute` a message makes, if it makes one, with the
daemon as it is then; `Daemon.restores` are the restores it triggers. A call that succeeds
leaves the session blocked, and a blocked session makes no further call, so over a whole run
each key has at most one of either (`block_final_once`).
-/

namespace GfrGuard

/-- Why a block is attempted. -/
inductive BlockCause where
  | blacklisted
  | critical
deriving DecidableEq

/-- A call of `blocker_execute`. -/
structure ExecuteCall where
  cause : BlockCause
  slot : Fin sessionBuckets
  daemon : Daemon

/-- The call of the branch for a blacklisted session. -/
def blacklistCall (env : CallEnv) (msg : EventMsg) (d : Daemon) : Option ExecuteCall :=
  match sessionFindOrCreate d.table msg.sessionKey env.now with
  | none => none
  | some (i, t) =>
    let d := { d with table := t }
    if (d.session i).isBlocked then none
    else some ⟨.blacklisted, i, ensureBlockedEvent env msg i d⟩

/-- The call of the branch for an accepted message. -/
def criticalCall (env : CallEnv) (msg : EventMsg) (d : Daemon) : Option ExecuteCall :=
  match sessionFindOrCreate d.table msg.sessionKey env.now with
  | none => none
  | some (i, t) =>
    let d := settleMsg env msg i { d with table := t }
    if (d.session i).riskLevel = .critical ∧ (d.session i).isBlocked = false then
      some ⟨.critical, i, d⟩
    else none

/-- The call of `blocker_execute` a message makes. -/
def executeCall (env : CallEnv) (msg : EventMsg) (d : Daemon) : Option ExecuteCall :=
  let d := { d with journal := [] }
  if msg.msgType = msgVfsBlocked then none
  else
    match gate d.policy msg with
    | .blacklistBlock => blacklistCall env msg d
    | .accept => criticalCall env msg d
    | _ => none

/-- The daemon after a message that makes no call of `blocker_execute`. -/
def quietMsg (env : CallEnv) (msg : EventMsg) (d : Daemon) : Daemon :=
  let d := { d with journal := [] }
  if msg.msgType = msgVfsBlocked then vfsBlocked env msg d
  else
    match gate d.policy msg, sessionFindOrCreate d.table msg.sessionKey env.now with
    | .blacklistBlock, some (_, t) => { d with table := t }
    | .accept, some (i, t) => settleMsg env msg i { d with table := t }
    | _, _ => d

namespace ExecuteCall

/-- The status it is called with. -/
def status (msg : EventMsg) (c : ExecuteCall) : CStr :=
  match c.cause with
  | .blacklisted => blacklistStatus c.daemon.policy msg
  | .critical => lit "blocked_ransom"

/-- What it returns. -/
def result (env : CallEnv) (msg : EventMsg) (c : ExecuteCall) : Bool × Daemon :=
  blockerExecute env (blockIp msg) (c.daemon.session c.slot).currentEventId.str (c.status msg)
    c.daemon

/-- The call succeeds. -/
def ok (env : CallEnv) (msg : EventMsg) (c : ExecuteCall) : Bool := (c.result env msg).1

/-- What `process_msg` does after it. -/
def finish (env : CallEnv) (msg : EventMsg) (c : ExecuteCall) : Daemon :=
  let (ok, d) := c.result env msg
  match c.cause with
  | .blacklisted => d.setSession c.slot { d.session c.slot with isBlocked := ok }
  | .critical =>
    if ok then
      let d := d.setSession c.slot { d.session c.slot with isBlocked := true }
      let d := autoBlacklist env msg d
      d.note .restoreTrigger (d.session c.slot).currentEventId.str
    else d

end ExecuteCall

/-- The restores the latest call triggered, each of an event. -/
def Daemon.restores (d : Daemon) : List CStr :=
  (d.journal.filter (·.kind = .restoreTrigger)).map (·.eventId)

/-- The successful calls of `blocker_execute` an event makes for a key. -/
def executions (key : CBuf 128) (d : Daemon) : DaemonEvent → List ExecuteCall
  | .message env msg =>
    if msg.sessionKey = key then (executeCall env msg d).toList.filter (·.ok env msg) else []
  | _ => []

/-- The calls of `restore_trigger_auto` an event makes for a key. -/
def restoreTriggers (key : CBuf 128) (d : Daemon) : DaemonEvent → List CStr
  | .message env msg => if msg.sessionKey = key then (processMsg env msg d).restores else []
  | _ => []

section
variable {d d' : Daemon} {key : CBuf 128} {i : Fin sessionBuckets} {t : SessionTable}
  {env : CallEnv} {msg : EventMsg} {e : DaemonEvent} {c : ExecuteCall}

/-! ## The call is the one `process_msg` makes -/

/-- A message that makes a call goes on with what follows it. -/
theorem processMsg_of_executeCall (h : executeCall env msg d = some c) :
    processMsg env msg d = c.finish env msg := by
  unfold executeCall at h
  unfold processMsg
  dsimp only at h ⊢
  split at h
  · cases h
  · next htype =>
    rw [if_neg htype]
    revert h
    cases hgate : gate d.policy msg with
    | blacklistBlock =>
      intro h
      dsimp only [blacklistCall, blacklistBlock] at h ⊢
      cases hfind : sessionFindOrCreate d.table msg.sessionKey env.now with
      | none => rw [hfind] at h; cases h
      | some found =>
        obtain ⟨i, t⟩ := found
        simp only [hfind] at h ⊢
        split at h
        · cases h
        · next hflag =>
          cases h
          rw [if_neg hflag]
          unfold ExecuteCall.finish ExecuteCall.result
          dsimp only [ExecuteCall.status]
          generalize blockerExecute env (blockIp msg) _ _ _ = result
          obtain ⟨ok, d'⟩ := result
          cases ok <;> rfl
    | accept =>
      intro h
      dsimp only [criticalCall, acceptMsg] at h ⊢
      cases hfind : sessionFindOrCreate d.table msg.sessionKey env.now with
      | none => rw [hfind] at h; cases h
      | some found =>
        obtain ⟨i, t⟩ := found
        simp only [hfind] at h ⊢
        split at h
        · next hcrit =>
          cases h
          unfold acceptSession blockIfCritical
          rw [if_pos hcrit]
          unfold ExecuteCall.finish ExecuteCall.result
          dsimp only [ExecuteCall.status]
          generalize blockerExecute env (blockIp msg) _ _ _ = result
          obtain ⟨ok, d'⟩ := result
          cases ok <;> rfl
        · cases h
    | protectionOff | extFilterSkip | exceptionBypass | whitelistBypass => intro h; cases h

/-- A message that makes no call ends before the block. -/
theorem processMsg_of_quiet (h : executeCall env msg d = none) :
    processMsg env msg d = quietMsg env msg d := by
  unfold executeCall at h
  unfold processMsg quietMsg
  dsimp only at h ⊢
  split at h
  · next htype => rw [if_pos htype, if_pos htype]
  · next htype =>
    rw [if_neg htype, if_neg htype]
    revert h
    cases gate d.policy msg with
    | blacklistBlock =>
      intro h
      dsimp only [blacklistCall, blacklistBlock] at h ⊢
      cases hfind : sessionFindOrCreate d.table msg.sessionKey env.now with
      | none => rfl
      | some found =>
        obtain ⟨i, t⟩ := found
        simp only [hfind] at h ⊢
        split at h
        · next hflag => rw [if_pos hflag]
        · cases h
    | accept =>
      intro h
      dsimp only [criticalCall, acceptMsg] at h ⊢
      cases hfind : sessionFindOrCreate d.table msg.sessionKey env.now with
      | none => rfl
      | some found =>
        obtain ⟨i, t⟩ := found
        simp only [hfind] at h ⊢
        split at h
        · cases h
        · next hcrit =>
          unfold acceptSession blockIfCritical
          rw [if_neg hcrit]
    | protectionOff | extFilterSkip | exceptionBypass | whitelistBypass => intro _; rfl

/-- Up to the block a message triggers no restore. -/
theorem settleMsg_restores (env : CallEnv) (msg : EventMsg) (i : Fin sessionBuckets)
    (d : Daemon) : (settleMsg env msg i d).restores = d.restores := by
  have hens := (ensureEvent_ensured env msg i d).journal
  have hrecord : (recordMsg env msg i d).restores = d.restores := by
    unfold Daemon.restores
    rw [← hens]
    unfold recordMsg recordProtectedFile
    split
    · split
      · rfl
      · simp [Daemon.note]
    · rfl
  rw [← hrecord]
  unfold settleMsg recordCreatedFile Daemon.restores
  split <;> simp [updateTotals, Daemon.note, scoreMsg, Daemon.setSession]

theorem quietMsg_frame (env : CallEnv) (msg : EventMsg) (d : Daemon) :
    (quietMsg env msg d).policy = d.policy ∧ (quietMsg env msg d).blocked = d.blocked ∧
      (quietMsg env msg d).restores = [] := by
  unfold quietMsg
  dsimp only
  split
  · unfold vfsBlocked
    split
    · exact ⟨rfl, rfl, rfl⟩
    · next i t hfind =>
      dsimp only
      rw [if_neg (ensureId_ne_nil env i _)]
      obtain ⟨-, hpolicy, hblocked, hjournal, -⟩ :=
        ensureId_frame env i { d with table := t, journal := [] }
      refine ⟨hpolicy, hblocked, ?_⟩
      unfold Daemon.restores
      dsimp only
      rw [hjournal]
      rfl
  · split
    · exact ⟨rfl, rfl, rfl⟩
    · next i t _ _ =>
      obtain ⟨hblocked, hpolicy, -⟩ :=
        settleMsg_frame env msg i { d with table := t, journal := [] }
      exact ⟨hpolicy, hblocked, settleMsg_restores ..⟩
    · exact ⟨rfl, rfl, rfl⟩

theorem blockerExecute_restores (env : CallEnv) (ip eventId status : CStr) (d : Daemon) :
    (blockerExecute env ip eventId status d).2.restores = d.restores := by
  unfold blockerExecute Daemon.restores
  split
  · rfl
  · dsimp only
    split
    · rfl
    · simp [Daemon.note]

/-- The daemon a call is made in has triggered no restore, and has the blocked file as it
was. -/
theorem executeCall_daemon (h : executeCall env msg d = some c) :
    c.daemon.restores = [] ∧ c.daemon.blocked = d.blocked := by
  unfold executeCall at h
  dsimp only at h
  split at h
  · cases h
  · split at h
    · unfold blacklistCall at h
      dsimp only at h
      split at h
      · cases h
      · next i t hfind =>
        split at h
        · cases h
        · cases h
          have hens := ensureBlockedEvent_ensured env msg i { d with table := t, journal := [] }
          refine ⟨?_, hens.blocked⟩
          unfold Daemon.restores
          dsimp only
          rw [hens.journal]
          rfl
    · unfold criticalCall at h
      dsimp only at h
      split at h
      · cases h
      · next i t hfind =>
        split at h
        · cases h
          exact ⟨settleMsg_restores env msg i _, (settleMsg_frame env msg i _).1⟩
        · cases h
    · cases h

/-- A call succeeds when the address can be put on the blocked file. -/
theorem executeCall_ok (h : executeCall env msg d = some c) :
    c.ok env msg = executes env msg d := by
  unfold ExecuteCall.ok ExecuteCall.result executes
  rw [blockerExecute_fst, (executeCall_daemon h).2]

/-- What follows a call triggers a restore when the session was critical and the call
succeeded. -/
theorem ExecuteCall.finish_restores (h : c.daemon.restores = []) :
    (c.finish env msg).restores = if c.cause = .critical ∧ c.ok env msg then
      [(c.daemon.session c.slot).currentEventId.str] else [] := by
  have hrestores : (c.result env msg).2.restores = [] :=
    (blockerExecute_restores ..).trans h
  have htable : (c.result env msg).2.table = c.daemon.table := blockerExecute_table ..
  unfold ExecuteCall.ok ExecuteCall.finish
  generalize c.result env msg = result at hrestores htable
  obtain ⟨ok, d'⟩ := result
  have hid : d'.session c.slot = c.daemon.session c.slot := by
    rw [Daemon.session, Daemon.session, htable]
  dsimp only at hrestores ⊢
  rw [← hid]
  cases hcause : c.cause with
  | blacklisted => exact hrestores
  | critical =>
    cases ok with
    | false => exact hrestores
    | true =>
      unfold Daemon.restores at hrestores ⊢
      rw [List.map_eq_nil_iff] at hrestores
      simp [Daemon.note, autoBlacklist, Daemon.setSession, hrestores, Daemon.session]

/-- A restore is triggered by a call for a critical session that succeeds, and by nothing
else. -/
theorem processMsg_restores (env : CallEnv) (msg : EventMsg) (d : Daemon) :
    (processMsg env msg d).restores = match executeCall env msg d with
      | some c => if c.cause = .critical ∧ c.ok env msg then
          [(c.daemon.session c.slot).currentEventId.str] else []
      | none => [] := by
  cases h : executeCall env msg d with
  | some c =>
    rw [processMsg_of_executeCall h]
    exact ExecuteCall.finish_restores (executeCall_daemon h).1
  | none =>
    rw [processMsg_of_quiet h]
    exact (quietMsg_frame env msg d).2.2

/-! ## Calls and the block flag -/

/-- When a message makes a call: the session it finds is not blocked, and is blacklisted, or
critical after the score. -/
inductive CallSpec (env : CallEnv) (msg : EventMsg) (d : Daemon) : ExecuteCall → Prop
  | blacklisted (i : Fin sessionBuckets) (t : SessionTable)
      (hfind : sessionFindOrCreate d.table msg.sessionKey env.now = some (i, t))
      (htype : msg.msgType ≠ msgVfsBlocked) (hgate : gate d.policy msg = .blacklistBlock)
      (hflag : (t.buckets i).isBlocked = false) :
      CallSpec env msg d
        ⟨.blacklisted, i, ensureBlockedEvent env msg i { d with table := t, journal := [] }⟩
  | critical (i : Fin sessionBuckets) (t : SessionTable)
      (hfind : sessionFindOrCreate d.table msg.sessionKey env.now = some (i, t))
      (htype : msg.msgType ≠ msgVfsBlocked) (hgate : gate d.policy msg = .accept)
      (hflag : (t.buckets i).isBlocked = false)
      (hlevel : ((settleMsg env msg i { d with table := t, journal := [] }).session i).riskLevel =
        .critical) :
      CallSpec env msg d ⟨.critical, i, settleMsg env msg i { d with table := t, journal := [] }⟩

theorem executeCall_spec (h : executeCall env msg d = some c) : CallSpec env msg d c := by
  unfold executeCall at h
  dsimp only at h
  split at h
  · cases h
  · next htype =>
    split at h
    · next hgate =>
      unfold blacklistCall at h
      dsimp only at h
      split at h
      · cases h
      · next i t hfind =>
        split at h
        · cases h
        · next hflag =>
          cases h
          exact .blacklisted i t hfind htype hgate (Bool.eq_false_iff.2 hflag)
    · next hgate =>
      unfold criticalCall at h
      dsimp only at h
      split at h
      · cases h
      · next i t hfind =>
        split at h
        · next hcrit =>
          cases h
          refine .critical i t hfind htype hgate ?_ hcrit.1
          rw [(settleMsg_frame env msg i _).2.2] at hcrit
          exact hcrit.2
        · cases h
    · cases h

/-- A session that is in the table and blocked is found blocked. -/
theorem HasBlocked.found (h : HasBlocked d key) (hinv : d.Inv) {now : Int}
    (hfind : sessionFindOrCreate d.table key now = some (i, t)) :
    (t.buckets i).isBlocked = true := by
  obtain ⟨j, hj, hblocked⟩ := h
  obtain ⟨hi, htouch⟩ := (sessionFindOrCreate_spec hfind).found_of_hasSession hinv ⟨j, hj⟩
  obtain rfl : i = j := OpenAddressing.Placed.unique hinv.placed hi hj
  rw [htouch]
  exact hblocked

/-- A blocked session makes no call. -/
theorem HasBlocked.executeCall (h : HasBlocked d msg.sessionKey) (hinv : d.Inv) :
    executeCall env msg d = none := by
  cases hcall : GfrGuard.executeCall env msg d with
  | none => rfl
  | some c =>
    cases executeCall_spec hcall with
    | blacklisted i t hfind _ _ hflag => cases hflag.symm.trans (h.found hinv hfind)
    | critical i t hfind _ _ hflag => cases hflag.symm.trans (h.found hinv hfind)

/-- What a critical call sees of the session is the score of what was in view. -/
theorem CallSpec.scored (h : CallSpec env msg d c) (hcause : c.cause = .critical) :
    (c.daemon.session c.slot).bare =
      (scoreSession env d.policy msg (visit msg.sessionKey env.now (d.view msg.sessionKey))).bare := by
  cases h with
  | blacklisted => cases hcause
  | critical i t hfind _ _ _ _ =>
    rw [settleMsg_bare, ← (sessionFindOrCreate_spec hfind).visited_view]
    exact (scoreSession_withEvent ..).symm

/-- A call that succeeds leaves the session blocked. -/
theorem ExecuteCall.hasBlocked (h : executeCall env msg d = some c) (hinv : d.Inv)
    (hok : c.ok env msg = true) : HasBlocked (processMsg env msg d) msg.sessionKey := by
  have hexec : executes env msg d = true := (executeCall_ok h).symm.trans hok
  have hspec := executeCall_spec h
  have hscored := hspec.scored
  obtain ⟨s, hview, hs⟩ : ∃ s, (processMsg env msg d).view msg.sessionKey = some s ∧
      s.isBlocked = true := by
    cases hspec with
    | blacklisted i t hfind htype hgate _ =>
      rw [processMsg_view hinv (by rw [hfind]; rfl), hexec]
      unfold messageView
      rw [if_neg htype, hgate]
      exact ⟨_, rfl, Bool.or_true _⟩
    | critical i t hfind htype hgate _ hlevel =>
      rw [processMsg_view hinv (by rw [hfind]; rfl), hexec]
      have hlevel' : (scoreSession env d.policy msg
          (visit msg.sessionKey env.now (d.view msg.sessionKey))).riskLevel = .critical :=
        (congrArg SessionState.riskLevel (hscored rfl) :).symm.trans hlevel
      unfold messageView acceptState
      dsimp only
      rw [if_neg htype, hgate]
      dsimp only
      rw [if_pos hlevel']
      exact ⟨_, rfl, Bool.or_true _⟩
  obtain ⟨i, hi, rfl⟩ := Daemon.keyAt_of_view hview
  exact ⟨i, hi, hs⟩

/-! ## Runs -/

/-- A blocked session has no further call and no further restore. -/
theorem HasBlocked.quiet (h : HasBlocked d key) (hinv : d.Inv) (e : DaemonEvent) :
    executions key d e = [] ∧ restoreTriggers key d e = [] := by
  cases e with
  | message env msg =>
    simp only [executions, restoreTriggers]
    split
    · next hkey =>
      subst hkey
      rw [processMsg_restores, h.executeCall hinv]
      exact ⟨rfl, rfl⟩
    · exact ⟨rfl, rfl⟩
  | lookup k now => exact ⟨rfl, rfl⟩
  | reload np syncOk => exact ⟨rfl, rfl⟩

/-- What an event does for a key: no block, or one that succeeds and stays. -/
theorem executions_latch (hinv : d.Inv) (e : DaemonEvent) :
    executions key d e = [] ∧ restoreTriggers key d e = [] ∨
      (executions key d e).length = 1 ∧ (restoreTriggers key d e).length ≤ 1 ∧
        HasBlocked (daemonStep d e) key := by
  cases e with
  | message env msg =>
    simp only [executions, restoreTriggers, daemonStep]
    split
    · next hkey =>
      subst hkey
      rw [processMsg_restores]
      cases hcall : executeCall env msg d with
      | none => exact .inl ⟨rfl, rfl⟩
      | some c =>
        cases hok : c.ok env msg with
        | false =>
          refine .inl ⟨by simp [hok], ?_⟩
          dsimp only
          rw [hok, if_neg fun h => Bool.false_ne_true h.2]
        | true =>
          refine .inr ⟨by simp [hok], ?_, ExecuteCall.hasBlocked hcall hinv hok⟩
          dsimp only
          split
          · exact Nat.le_refl 1
          · exact Nat.zero_le 1
    · exact .inl ⟨rfl, rfl⟩
  | lookup k now => exact .inl ⟨rfl, rfl⟩
  | reload np syncOk => exact .inl ⟨rfl, rfl⟩

end

/-- In every run a blocked session stays blocked in its slot, and each key has at most one
call of `blocker_execute` that succeeds and at most one restore. -/
theorem block_final_once (p : LoadedPolicy) (db : Db) (es : List DaemonEvent)
    (key : CBuf 128) :
    (∀ pre post i, es = pre ++ post → BlockedAt (daemonRun p db pre) key i →
      BlockedAt (daemonRun p db es) key i) ∧
    (Runs.outputs daemonStep (executions key) (Daemon.start p db) es).length ≤ 1 ∧
    (Runs.outputs daemonStep (restoreTriggers key) (Daemon.start p db) es).length ≤ 1 := by
  have hinv := Daemon.inv_start p db
  refine ⟨fun pre post i hsplit h => ?_, ?_, ?_⟩
  · subst hsplit
    rw [daemonRun, Runs.run_append]
    exact Runs.run_invariant (BlockedAt · key i) (fun _ e hb => hb.step e) h post
  · refine Runs.length_outputs_le_one Daemon.Inv (HasBlocked · key) (fun _ e h => h.step e)
      (fun d e hi hb => ⟨hb.step e, (hb.quiet hi e).1⟩) (fun d e hi => ?_) hinv es
    rcases executions_latch hi e with ⟨hnil, -⟩ | ⟨hone, -, hb⟩
    · exact .inl hnil
    · exact .inr ⟨hone, hb⟩
  · refine Runs.length_outputs_le_one Daemon.Inv (HasBlocked · key) (fun _ e h => h.step e)
      (fun d e hi hb => ⟨hb.step e, (hb.quiet hi e).2⟩) (fun d e hi => ?_) hinv es
    rcases executions_latch hi e with ⟨-, hnil⟩ | ⟨-, hone, hb⟩
    · exact .inl hnil
    · rcases Nat.le_one_iff_eq_zero_or_eq_one.1 hone with hzero | hone
      · exact .inl (List.eq_nil_of_length_eq_zero hzero)
      · exact .inr ⟨hone, hb⟩

/-- A second critical rename of a blocked session changes neither list. -/
example : (Runs.outputs daemonStep (restoreTriggers sampleRename.sessionKey)
    (Daemon.start strictPolicy .empty)
    [.message (sampleEnv 1) sampleRename, .message (sampleEnv 2) sampleRename]).length = 1 := by
  decide

end GfrGuard

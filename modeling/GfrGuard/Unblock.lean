import GfrGuard.Verdicts

/-!
# Unblocking an address

`blocker_unblock` takes the lines of an address off the blocked file, and neither the lists nor
the sessions know of it. So the address comes back with the next rebuild from lists that still
have it, and a session that is marked blocked is not put back. `KeepsUnblock` says which events
avoid both, and a run keeps what an unblock promises exactly when all its events do
(`unblock_effective_iff`).
-/

namespace GfrGuard

/-- What happens to the daemon and the blocked file. -/
inductive AdminEvent where
  | daemon (e : DaemonEvent)
  | unblock (ip : CStr) (readOk writeOk : Bool)

/-- The session of the message is critical once the message is scored. -/
def criticalAfter (env : CallEnv) (msg : EventMsg) (d : Daemon) : Bool :=
  match sessionFindOrCreate d.table msg.sessionKey env.now with
  | none => false
  | some (i, t) =>
    ((settleMsg env msg i { d with table := t, journal := [] }).session i).riskLevel = .critical

example : criticalAfter (sampleEnv 0) sampleRename (Daemon.start strictPolicy .empty) = true := by decide

/-- The session of the message meets a blocking condition: it is blacklisted, or critical. -/
def MeetsBlock (env : CallEnv) (msg : EventMsg) (d : Daemon) : Prop :=
  msg.msgType ≠ msgVfsBlocked ∧ (gate d.policy msg = .blacklistBlock ∨
    gate d.policy msg = .accept ∧ criticalAfter env msg d = true)

instance (env : CallEnv) (msg : EventMsg) (d : Daemon) : Decidable (MeetsBlock env msg d) := by
  unfold MeetsBlock; infer_instance

/-- The session of the message has a slot and is not marked blocked. -/
def freeSession (env : CallEnv) (msg : EventMsg) (d : Daemon) : Bool :=
  match sessionFindOrCreate d.table msg.sessionKey env.now with
  | none => false
  | some (i, t) => !(t.buckets i).isBlocked

/-- `process_msg` decides a block for a session with the address. -/
def decidesBlock (ip : CStr) (d : Daemon) : DaemonEvent → Bool
  | .message env msg => msg.clientIp.str = ip && (executeCall env msg d).isSome
  | _ => false

/-- The daemon, and what was done about one address. -/
structure Watch where
  daemon : Daemon
  /-- It has been unblocked. -/
  unblocked : Bool
  /-- It has been unblocked, and no block was decided for it since. -/
  lifted : Bool

/-- One event. -/
def watchStep (ip : CStr) (w : Watch) : AdminEvent → Watch
  | .daemon e =>
    { w with
      daemon := daemonStep w.daemon e
      lifted := w.lifted && !decidesBlock ip w.daemon e }
  | .unblock ip' readOk writeOk =>
    let (rc, content) := blockerUnblock w.daemon.blocked ip' readOk writeOk
    { daemon := { w.daemon with blocked := content }
      unblocked := w.unblocked || (rc = 0 && ip' = ip)
      lifted := w.lifted || (rc = 0 && ip' = ip) }

/-- The daemon after its start. -/
def Watch.start (p : LoadedPolicy) (db : Db) : Watch := ⟨Daemon.start p db, false, false⟩

/-- The address is off the blocked file until a block is decided for it, and once it has been
unblocked it is on the file after each message of it that meets a blocking condition. -/
def UnblockHolds (ip : CStr) (w : Watch) (e : AdminEvent) : Prop :=
  let w' := watchStep ip w e
  (w'.lifted = true → ip ∉ blockedLines w'.daemon.blocked) ∧
    match e with
    | .daemon (.message env msg) =>
      w.unblocked = true → msg.clientIp.str = ip → MeetsBlock env msg w.daemon →
        ip ∈ blockedLines w'.daemon.blocked
    | _ => True

/-- An exact entry of the lists has the address on a line. -/
def ListsLine (bl : Blacklist) (ip : CStr) : Prop :=
  ∃ entry ∈ exactEntries bl, ip ∈ entry.splitOn newline

instance (bl : Blacklist) (ip : CStr) : Decidable (ListsLine bl ip) := by
  unfold ListsLine; infer_instance

/-- While the address is unblocked, the blocked file is rebuilt only from lists without it; and a
message of it that meets a blocking condition finds it on the file, or finds its session not
marked blocked and puts it there. -/
def KeepsUnblock (ip : CStr) (w : Watch) : AdminEvent → Prop
  | .daemon (.message env msg) =>
    (w.lifted = true → msg.clientIp.str ≠ ip → autoAdds env msg w.daemon = true →
      env.syncOk = true → ¬ ListsLine (blacklistAutoAdd w.daemon.policy.blacklist msg.clientIp) ip) ∧
    (w.unblocked = true → msg.clientIp.str = ip → MeetsBlock env msg w.daemon →
      ip ∈ blockedLines w.daemon.blocked ∨
        freeSession env msg w.daemon = true ∧ executes env msg w.daemon = true ∧
          (blockIp msg = ip ∨ gate w.daemon.policy msg = .accept ∧ env.syncOk = true))
  | .daemon (.reload (some np) true) => w.lifted = true → ¬ ListsLine np.policy.blacklist ip
  | _ => True

/-- The address is off the file while it is unblocked. -/
def Watch.Lifted (ip : CStr) (w : Watch) : Prop :=
  w.lifted = true → ip ∉ blockedLines w.daemon.blocked

section
variable {ip : CStr} {w : Watch} {env : CallEnv} {msg : EventMsg} {d : Daemon} {bl : Blacklist}
  {c : ExecuteCall}

/-! ## The call of a message -/

/-- A call is made for a message that meets a blocking condition, in a session not marked
blocked. -/
theorem executeCall_isSome_iff : (executeCall env msg d).isSome = true ↔
    MeetsBlock env msg d ∧ freeSession env msg d = true := by
  unfold executeCall MeetsBlock freeSession criticalAfter
  dsimp only
  split
  · next htype => simp [htype]
  · next htype =>
    cases hgate : gate d.policy msg with
    | blacklistBlock =>
      dsimp only [blacklistCall]
      cases hfind : sessionFindOrCreate d.table msg.sessionKey env.now with
      | none => simp
      | some found =>
        obtain ⟨i, t⟩ := found
        cases hflag : (t.buckets i).isBlocked <;> simp [Daemon.session, hflag, htype]
    | accept =>
      dsimp only [criticalCall]
      cases hfind : sessionFindOrCreate d.table msg.sessionKey env.now with
      | none => simp
      | some found =>
        obtain ⟨i, t⟩ := found
        have hflag : ((settleMsg env msg i { d with table := t, journal := [] }).session i).isBlocked =
            (t.buckets i).isBlocked := (settleMsg_frame env msg i _).2.2
        simp only [hflag]
        cases (t.buckets i).isBlocked <;> simp [htype]
    | protectionOff | extFilterSkip | exceptionBypass | whitelistBypass => simp

/-- A critical call is one of an accepted message. -/
theorem executeCall_cause (h : executeCall env msg d = some c) :
    c.cause = .critical ↔ gate d.policy msg = .accept := by
  cases executeCall_spec h with
  | blacklisted i t _ _ hgate => simp [hgate]
  | critical i t _ _ hgate => simp [hgate]

/-! ## Lines -/

theorem mem_blockedLines_sync_iff_listsLine (hip : ip ≠ []) (content : Option CStr) (ok : Bool) :
    ip ∈ blockedLines (blockerSyncBlacklist content bl ok) ↔
      if ok = true then ListsLine bl ip else ip ∈ blockedLines content := by
  cases ok with
  | true => exact mem_blockedLines_sync_iff hip
  | false => rfl

/-- An address that has been added is listed. -/
theorem listsLine_autoAdd (msg : EventMsg) (hip : validClientIp msg.clientIp.str = true) :
    ListsLine (blacklistAutoAdd bl msg.clientIp) msg.clientIp.str :=
  ⟨_, mem_exactEntries hip (mem_blacklistAutoAdd bl msg.clientIp hip), by
    rw [List.splitOn_eq_singleton (not_mem_of_validClientIp hip (by decide))]
    exact List.mem_singleton_self _⟩

theorem executes_of_append {content : Option CStr}
    (h : blockerAppend d.blocked (blockIp msg) env.readOk env.writeOk = some content) :
    executes env msg d = true := by
  unfold executes
  rw [h]
  rfl

/-- A message of another address leaves the line as it was, unless it rebuilds the file. -/
theorem processMsg_line_other (hip : ip ≠ []) (hne : msg.clientIp.str ≠ ip) :
    ip ∈ blockedLines (processMsg env msg d).blocked ↔
      if autoAdds env msg d = true ∧ env.syncOk = true then
        ListsLine (blacklistAutoAdd d.policy.blacklist msg.clientIp) ip
      else ip ∈ blockedLines d.blocked := by
  have hblock : ¬ (validClientIp (blockIp msg) = true ∧ ip = blockIp msg) := by
    rintro ⟨-, heq⟩
    unfold blockIp at heq
    split at heq
    · exact hne heq.symm
    · exact hip heq
  cases processMsg_effect env msg d with
  | kept hcall _ hblocked =>
    have hadds : autoAdds env msg d = false := by
      unfold autoAdds
      cases h : executeCall env msg d with
      | none => rfl
      | some c => simp [executeCall_ok h, hcall c h]
    rw [hblocked, hadds, if_neg fun h => Bool.false_ne_true h.1]
  | appended c hcall hcause happend _ =>
    have hadds : autoAdds env msg d = false := by simp [autoAdds, hcall, hcause]
    rw [hadds, if_neg fun h => Bool.false_ne_true h.1, mem_blockedLines_append_iff happend hip,
      or_iff_left hblock]
  | rebuilt c hcall hcause content happend hlist hblocked =>
    have hadds : autoAdds env msg d = true := by
      simp [autoAdds, hcall, hcause, executeCall_ok hcall, executes_of_append happend]
    rw [hblocked, mem_blockedLines_sync_iff_listsLine hip, hlist, hadds,
      mem_blockedLines_append_iff happend hip, or_iff_left hblock]
    simp

/-- A message of the address itself leaves it on the file if it was there, or by a call that
succeeds and is for a channel with real addresses, or a critical one that rebuilds the file. -/
theorem processMsg_line_own (hip : validClientIp msg.clientIp.str = true) :
    msg.clientIp.str ∈ blockedLines (processMsg env msg d).blocked ↔
      msg.clientIp.str ∈ blockedLines d.blocked ∨
        (executeCall env msg d).isSome = true ∧ executes env msg d = true ∧
          (blockIp msg = msg.clientIp.str ∨ gate d.policy msg = .accept ∧ env.syncOk = true) := by
  have hne := ne_nil_of_validClientIp hip
  have hblock : validClientIp (blockIp msg) = true ∧ msg.clientIp.str = blockIp msg ↔
      blockIp msg = msg.clientIp.str :=
    ⟨fun h => h.2.symm, fun h => ⟨h.symm ▸ hip, h.symm⟩⟩
  cases processMsg_effect env msg d with
  | kept hcall _ hblocked =>
    rw [hblocked, or_iff_left]
    rintro ⟨hsome, hexec, -⟩
    obtain ⟨c, hc⟩ := Option.isSome_iff_exists.1 hsome
    cases (hcall c hc).symm.trans hexec
  | appended c hcall hcause happend _ =>
    have hgate : ¬ gate d.policy msg = .accept := fun h => by
      rw [← executeCall_cause hcall, hcause] at h
      cases h
    rw [mem_blockedLines_append_iff happend hne, hblock]
    simp [hcall, hgate, executes_of_append happend]
  | rebuilt c hcall hcause content happend hlist hblocked =>
    have hgate : gate d.policy msg = .accept := (executeCall_cause hcall).1 hcause
    have hlisted : ListsLine (blacklistAutoAdd d.policy.blacklist msg.clientIp) msg.clientIp.str :=
      listsLine_autoAdd msg hip
    rw [hblocked, mem_blockedLines_sync_iff_listsLine hne, hlist,
      mem_blockedLines_append_iff happend hne, hblock]
    cases env.syncOk <;> simp [hcall, hgate, executes_of_append happend, hlisted]

/-! ## One event -/

theorem unblockHolds_message_iff (hip : validClientIp ip = true) (h : w.Lifted ip) :
    UnblockHolds ip w (.daemon (.message env msg)) ↔ KeepsUnblock ip w (.daemon (.message env msg)) := by
  have hne := ne_nil_of_validClientIp hip
  unfold UnblockHolds KeepsUnblock watchStep decidesBlock
  dsimp only [daemonStep]
  by_cases hown : msg.clientIp.str = ip
  · subst hown
    have hline : msg.clientIp.str ∈ blockedLines (processMsg env msg w.daemon).blocked ↔ _ :=
      processMsg_line_own hip
    rw [executeCall_isSome_iff] at hline
    have hlifted : (w.lifted && !(decide (msg.clientIp.str = msg.clientIp.str) &&
        (executeCall env msg w.daemon).isSome)) = true →
        msg.clientIp.str ∉ blockedLines (processMsg env msg w.daemon).blocked := by
      intro hl
      simp only [decide_true, Bool.true_and, Bool.and_eq_true, Bool.not_eq_true',
        Option.isSome_eq_false_iff, Option.isNone_iff_eq_none] at hl
      rw [(processMsg_of_noCall hl.2).2]
      exact h hl.1
    refine and_congr (iff_of_true hlifted fun _ hne => absurd rfl hne) ?_
    refine imp_congr_right fun _ => imp_congr_right fun _ => imp_congr_right fun hmeets => ?_
    rw [hline]
    simp [hmeets]
  · rw [processMsg_line_other hne hown]
    refine and_congr ?_ (iff_of_true (fun _ heq => absurd heq hown) fun _ heq => absurd heq hown)
    simp only [hown, decide_false, Bool.false_and, Bool.not_false, Bool.and_true]
    refine imp_congr_right fun hl => ?_
    split
    · next hsync => simp [hown, hsync.1, hsync.2]
    · next hsync =>
      exact iff_of_true (h hl) fun _ hadds hok => absurd ⟨hadds, hok⟩ hsync

/-- The condition on an event says exactly when it keeps what an unblock promises. -/
theorem unblockHolds_iff (hip : validClientIp ip = true) (h : w.Lifted ip) (e : AdminEvent) :
    UnblockHolds ip w e ↔ KeepsUnblock ip w e := by
  have hne := ne_nil_of_validClientIp hip
  cases e with
  | daemon e =>
    cases e with
    | message env msg => exact unblockHolds_message_iff hip h
    | lookup key now =>
      have hblocked : (daemonStep w.daemon (.lookup key now)).blocked = w.daemon.blocked := by
        simp only [daemonStep]
        split <;> rfl
      refine iff_of_true ⟨fun hl => ?_, trivial⟩ trivial
      show ip ∉ blockedLines (daemonStep w.daemon (.lookup key now)).blocked
      rw [hblocked]
      exact h (Bool.and_eq_true_iff.1 hl).1
    | reload np syncOk =>
      have hlifted : (watchStep ip w (.daemon (.reload np syncOk))).lifted = w.lifted :=
        Bool.and_true _
      cases np with
      | none => exact iff_of_true ⟨fun hl => h (hlifted ▸ hl), trivial⟩ trivial
      | some np =>
        cases syncOk with
        | false => exact iff_of_true ⟨fun hl => h (hlifted ▸ hl), trivial⟩ trivial
        | true =>
          unfold UnblockHolds
          dsimp only
          rw [hlifted, and_true]
          exact imp_congr_right fun _ => not_congr (mem_blockedLines_sync_iff hne)
  | unblock ip' readOk writeOk =>
    refine iff_of_true ⟨fun hl => ?_, trivial⟩ trivial
    unfold watchStep at hl ⊢
    dsimp only at hl ⊢
    by_cases hrc : (blockerUnblock w.daemon.blocked ip' readOk writeOk).1 = 0
    · have hlines := (blockedLines_blockerUnblock (Prod.ext hrc rfl)).2
      rw [hlines, List.mem_filter]
      rintro ⟨hmem, hkept⟩
      simp only [hrc, decide_true, Bool.true_and, Bool.or_eq_true, decide_eq_true_eq] at hl hkept
      exact hl.elim (fun hl => h hl hmem) fun heq => hkept heq.symm
    · rw [blockerUnblock_of_ne hrc]
      simp only [hrc, decide_false, Bool.false_and, Bool.or_false] at hl
      exact h hl

end

/-- In every run an unblocked address is off the blocked file until a block is decided for it,
and on it again once it meets a blocking condition, exactly when no rebuild is from lists that
have it and no such message finds its session marked blocked. -/
theorem unblock_effective_iff (p : LoadedPolicy) (db : Db) (es : List AdminEvent) (ip : CStr)
    (hip : validClientIp ip = true) :
    Runs.AllSteps (watchStep ip) (UnblockHolds ip) (Watch.start p db) es ↔
      Runs.AllSteps (watchStep ip) (KeepsUnblock ip) (Watch.start p db) es :=
  Runs.allSteps_congr_of_kept (Watch.Lifted ip) (fun _ e h => unblockHolds_iff hip h e)
    (fun _ _ _ h => h.1) fun h => absurd h Bool.false_ne_true

/-- A rename by bob from `10.0.0.6`. -/
def bobRename : EventMsg :=
  { sampleRename with username := .ofStr 64 (lit "bob"), clientIp := .ofStr 48 (lit "10.0.0.6") }

/-- Alice's session is blocked and her address unblocked. -/
def unblockRun : List AdminEvent :=
  [.daemon (.message (sampleEnv 1) sampleRename), .unblock (lit "10.0.0.5") true true]

/-- Until the next event the address is off the file. -/
theorem unblock_effective_sample :
    (Runs.run (watchStep (lit "10.0.0.5")) (Watch.start strictPolicy .empty) unblockRun).lifted = true ∧
      Runs.AllSteps (watchStep (lit "10.0.0.5")) (UnblockHolds (lit "10.0.0.5"))
        (Watch.start strictPolicy .empty) unblockRun :=
  ⟨by decide, (unblock_effective_iff strictPolicy .empty unblockRun (lit "10.0.0.5")
    (by decide)).2 ⟨⟨fun h => absurd h Bool.false_ne_true,
      fun h => absurd h Bool.false_ne_true⟩, trivial, trivial⟩⟩

/-- The next block, of bob's session, rebuilds the file from the lists, which still have the
address. -/
theorem unblock_not_effective :
    ¬ ∀ (p : LoadedPolicy) (db : Db) (es : List AdminEvent) (ip : CStr), validClientIp ip = true →
      Runs.AllSteps (watchStep ip) (UnblockHolds ip) (Watch.start p db) es := by
  intro h
  have hholds := h strictPolicy .empty
    (unblockRun ++ [.daemon (.message (sampleEnv 2) bobRename)]) (lit "10.0.0.5") (by decide)
  have hoff := hholds.2.2.1.1
  revert hoff
  decide

end GfrGuard

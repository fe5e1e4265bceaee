import GfrGuard.ChannelAgreement
import GfrGuard.Isolation

/-!
# What a channel denies

A channel denies an open for the lists alone; that the session is blocked is not looked at.
So a blocked session is denied as long as its identity is listed. `KeepsDeny` says which
events leave it so: the block of the session has to list its address, the block of another
one must not push that address off the runtime list, and a policy that is loaded has to list
it. A run denies the blocked session all along exactly when all its events do
(`blocked_session_denied_iff`).
-/

namespace GfrGuard

/-- The key of the session of a context. -/
def ChannelCtx.sessionKey (ctx : ChannelCtx) : CBuf 128 :=
  makeSessionKey ctx.username.str ctx.clientIp.str

/-- The identity of the context is blacklisted. -/
def Listed (ctx : ChannelCtx) (p : Policy) : Prop :=
  scorerIsBlacklisted p (some ctx.username.str) ctx.clientIp.str = true

instance (ctx : ChannelCtx) (p : Policy) : Decidable (Listed ctx p) := by
  unfold Listed; infer_instance

/-- The address would be added to the runtime list. -/
def NewAutoIp (bl : Blacklist) (ip : CStr) : Prop :=
  validClientIp ip = true ∧ ip ∉ bl.ips.strs ∧ ip ∉ bl.autoIps.strs

instance (bl : Blacklist) (ip : CStr) : Decidable (NewAutoIp bl ip) := by
  unfold NewAutoIp; infer_instance

/-- The list with room for one more entry: a full one less its oldest. -/
def makeRoom (l : StrList 64 48) : StrList 64 48 :=
  if l.entries.length < 64 then l
  else ⟨l.entries.tail, by
    have := l.count_le
    rw [List.length_tail]
    omega⟩

/-- The identity stays listed when the address of a blocked session goes on the list. -/
def ListedWith (ctx : ChannelCtx) (p : Policy) (ip : CBuf 48) : Prop :=
  if NewAutoIp p.blacklist ip.str then
    ip.str = ctx.clientIp.str ∨ Listed ctx (p.withAuto (makeRoom p.blacklist.autoIps))
  else Listed ctx p

instance (ctx : ChannelCtx) (p : Policy) (ip : CBuf 48) : Decidable (ListedWith ctx p ip) := by
  unfold ListedWith; infer_instance

/-- The message blocks its session because it is blacklisted. -/
def BlocksListed (env : CallEnv) (msg : EventMsg) (d : Daemon) : Prop :=
  (sessionFindOrCreate d.table msg.sessionKey env.now).isSome ∧ msg.msgType ≠ msgVfsBlocked ∧
    gate d.policy msg = .blacklistBlock ∧ executes env msg d = true

/-- The message blocks its session because it makes it critical. -/
def BlocksRansom (env : CallEnv) (msg : EventMsg) (d : Daemon) : Prop :=
  (sessionFindOrCreate d.table msg.sessionKey env.now).isSome ∧
    ransomBlocks env d.policy msg (executes env msg d) (d.view msg.sessionKey) = true

instance (env : CallEnv) (msg : EventMsg) (d : Daemon) : Decidable (BlocksRansom env msg d) := by
  unfold BlocksRansom; infer_instance

/-- After the event the session of the context, if it is blocked, has its identity listed. -/
def KeepsDeny (ctx : ChannelCtx) (d : Daemon) : DaemonEvent → Prop
  | .message env msg =>
    (msg.sessionKey = ctx.sessionKey → BlocksListed env msg d → Listed ctx d.policy) ∧
      (msg.sessionKey = ctx.sessionKey ∨ HasBlocked d ctx.sessionKey → BlocksRansom env msg d →
        ListedWith ctx d.policy msg.clientIp)
  | .lookup _ _ => True
  | .reload np _ => ∀ q, np = some q → HasBlocked d ctx.sessionKey → Listed ctx q.policy

/-- A blocked session of the context is denied. -/
def Denied (ctx : ChannelCtx) (d : Daemon) : Prop :=
  HasBlocked d ctx.sessionKey → Listed ctx d.policy

section
variable {d : Daemon} {ctx : ChannelCtx} {env : CallEnv} {msg : EventMsg} {key : CBuf 128}
  {p q : Policy} {ip : CBuf 48}

/-! ## The lists -/

theorem listed_congr (h : p.blacklist = q.blacklist) : Listed ctx p ↔ Listed ctx q := by
  unfold Listed scorerIsBlacklisted
  rw [h]

theorem pushAuto_strs (l : StrList 64 48) (ip : CBuf 48) :
    (pushAuto l ip).strs = (makeRoom l).strs ++ [ip.str] := by
  unfold pushAuto makeRoom StrList.strs
  split <;> simp

/-- What is listed once an address has been added. -/
theorem listed_auto_add (h : p.blacklist = blacklistAutoAdd q.blacklist ip) :
    Listed ctx p ↔ ListedWith ctx q ip := by
  by_cases hnew : NewAutoIp q.blacklist ip.str
  · have hadd : p.blacklist = (q.withAuto (pushAuto q.blacklist.autoIps ip)).blacklist := by
      unfold blacklistAutoAdd at h
      rw [if_neg (by simpa [NewAutoIp, not_or, and_assoc] using hnew)] at h
      exact h
    have hmatch : autoEntryMatches ctx.clientIp.str ip.str = true ↔
        ip.str = ctx.clientIp.str := by
      rw [autoEntryMatches_of_valid hnew.1, decide_eq_true_eq, eq_comm]
    unfold ListedWith
    rw [if_pos hnew, listed_congr hadd]
    unfold Listed scorerIsBlacklisted
    show (_ || _ || _ || ((pushAuto q.blacklist.autoIps ip).strs).any _) = true ↔ _ ∨
      (_ || _ || _ || ((makeRoom q.blacklist.autoIps).strs).any _) = true
    rw [pushAuto_strs, List.any_append, List.any_cons, List.any_nil, Bool.or_false,
      ← Bool.or_assoc, Bool.or_eq_true, hmatch, or_comm]
    rfl
  · have hsame : p.blacklist = q.blacklist := by
      unfold blacklistAutoAdd at h
      rw [if_pos (by simpa [NewAutoIp, Decidable.or_iff_not_not_and_not, and_assoc] using hnew)] at h
      exact h
    unfold ListedWith
    rw [if_neg hnew, listed_congr hsame]

/-! ## What blocks a session -/

theorem hasBlocked_iff_view (hinv : d.Inv) :
    HasBlocked d key ↔ ∃ s, d.view key = some s ∧ s.isBlocked = true := by
  constructor
  · rintro ⟨i, hi, hb⟩
    exact ⟨_, Daemon.view_eq_some hinv.placed hi, hb⟩
  · rintro ⟨s, hs, hb⟩
    exact HasBlocked.of_view hs hb

/-- A lookup blocks nobody. -/
theorem visit_isBlocked (hinv : d.Inv) (key : CBuf 128) (now : Int) :
    (visit key now (d.view key)).isBlocked = true ↔ HasBlocked d key := by
  rw [hasBlocked_iff_view hinv]
  cases d.view key with
  | none => simp [visit, SessionState.fresh, SessionState.zero]
  | some s => simp [visit, SessionState.touch]

theorem acceptState_isBlocked (env : CallEnv) (p : Policy) (msg : EventMsg) (ok : Bool)
    (s : SessionState) : (acceptState env p msg ok s).isBlocked =
      (s.isBlocked || decide ((scoreSession env p msg s).riskLevel = .critical) && ok) := by
  have hscore := (scoreSession_sameSession env p msg s).blocked
  unfold acceptState SessionState.blockOn
  dsimp only
  split
  · next hcrit => rw [hscore, decide_eq_true hcrit, Bool.true_and]
  · next hcrit => rw [hscore, decide_eq_false hcrit, Bool.false_and, Bool.or_false]

/-- A message blocks its session as blacklisted or as critical. -/
theorem processMsg_hasBlocked_iff (hinv : d.Inv) :
    HasBlocked (processMsg env msg d) msg.sessionKey ↔ HasBlocked d msg.sessionKey ∨
      BlocksListed env msg d ∨ BlocksRansom env msg d := by
  have hnext : (processMsg env msg d).Inv := hinv.step (.message env msg)
  cases hslot : (sessionFindOrCreate d.table msg.sessionKey env.now).isSome with
  | false =>
    have hlisted : ¬ BlocksListed env msg d := fun h => Bool.false_ne_true (hslot.symm.trans h.1)
    have hransom : ¬ BlocksRansom env msg d := fun h => Bool.false_ne_true (hslot.symm.trans h.1)
    have hview := processMsg_view_of_none (Option.not_isSome_iff_eq_none.1 (Bool.eq_false_iff.1 hslot)) msg.sessionKey
    rw [hasBlocked_iff_view hnext, hasBlocked_iff_view hinv, hview]
    simp only [hlisted, hransom, or_false]
  | true =>
    have hview := processMsg_view hinv hslot
    have hvisit := visit_isBlocked hinv msg.sessionKey env.now
    have hafter : ∀ s, (processMsg env msg d).view msg.sessionKey = some s →
        (HasBlocked (processMsg env msg d) msg.sessionKey ↔ s.isBlocked = true) := fun s hs => by
      rw [hasBlocked_iff_view hnext]
      simp only [hs, Option.some.injEq, exists_eq_left']
    rw [← hvisit]
    unfold BlocksListed BlocksRansom ransomBlocks
    unfold messageView at hview
    dsimp only at hview ⊢
    generalize visit msg.sessionKey env.now (d.view msg.sessionKey) = s at hview hvisit
    split at hview
    · next htype =>
      rw [hafter s hview]
      simp [htype]
    · next htype =>
      revert hview
      cases hgate : gate d.policy msg with
      | blacklistBlock =>
        intro hview
        rw [hafter _ hview]
        simp [SessionState.blockOn, hslot, htype]
      | accept =>
        intro hview
        rw [hafter _ hview, acceptState_isBlocked]
        cases s.isBlocked <;> simp [htype, hslot]
      | protectionOff | extFilterSkip | exceptionBypass | whitelistBypass =>
        intro hview
        rw [hvisit, hasBlocked_iff_view hnext, hasBlocked_iff_view hinv, hview]
        simp

/-- A message of another session blocks nobody else and frees nobody. -/
theorem processMsg_hasBlocked_of_ne (hinv : d.Inv) (hne : key ≠ msg.sessionKey) :
    HasBlocked (processMsg env msg d) key ↔ HasBlocked d key := by
  refine ⟨fun h => ?_, fun h => h.step (.message env msg)⟩
  obtain ⟨s, hs, hb⟩ := (hasBlocked_iff_view (hinv.step (.message env msg))).1 h
  rcases (processMsg_view_of_ne hinv hne :
    (processMsg env msg d).view key = d.view key ∨ _) with hsame | ⟨-, hgone⟩
  · exact (hasBlocked_iff_view hinv).2 ⟨s, hsame ▸ hs, hb⟩
  · cases hgone.symm.trans hs

/-! ## One event -/

/-- What a message leaves listed. -/
theorem processMsg_listed : Listed ctx (processMsg env msg d).policy ↔
    if BlocksRansom env msg d then ListedWith ctx d.policy msg.clientIp
    else Listed ctx d.policy := by
  cases hslot : sessionFindOrCreate d.table msg.sessionKey env.now with
  | none =>
    have hpolicy : (processMsg env msg d).policy = d.policy := by
      unfold processMsg vfsBlocked blacklistBlock acceptMsg
      dsimp only
      simp only [hslot]
      split
      · rfl
      · split <;> rfl
    rw [hpolicy, if_neg]
    rintro ⟨hsome, -⟩
    rw [hslot] at hsome
    cases hsome
  | some found =>
    have hsome : (sessionFindOrCreate d.table msg.sessionKey env.now).isSome := by rw [hslot]; rfl
    have hlist := processMsg_blacklist hsome
    by_cases hransom : BlocksRansom env msg d
    · rw [if_pos hransom.2] at hlist
      rw [if_pos hransom]
      exact listed_auto_add hlist
    · rw [if_neg fun h => hransom ⟨hsome, h⟩] at hlist
      rw [if_neg hransom]
      exact listed_congr hlist

/-- The condition on an event says exactly when it keeps the blocked session denied. -/
theorem keepsDeny_iff (hinv : d.Inv) (hdenied : Denied ctx d) (e : DaemonEvent) :
    KeepsDeny ctx d e ↔ Denied ctx (daemonStep d e) := by
  unfold Denied at hdenied
  cases e with
  | message env msg =>
    have hexcl : BlocksRansom env msg d → ¬ BlocksListed env msg d := fun hr hl => by
      have hgate := hr.2
      unfold ransomBlocks at hgate
      rw [hl.2.2.1] at hgate
      simp at hgate
    unfold KeepsDeny Denied
    simp only [daemonStep]
    rw [processMsg_listed]
    by_cases hransom : BlocksRansom env msg d
    · rw [if_pos hransom]
      by_cases hkey : msg.sessionKey = ctx.sessionKey
      · rw [← hkey, processMsg_hasBlocked_iff hinv]
        simp [hransom, hexcl hransom]
      · rw [processMsg_hasBlocked_of_ne hinv (Ne.symm hkey)]
        simp [hransom, hkey]
    · rw [if_neg hransom]
      by_cases hkey : msg.sessionKey = ctx.sessionKey
      · rw [← hkey] at hdenied ⊢
        rw [processMsg_hasBlocked_iff hinv]
        constructor
        · rintro ⟨hlisted, -⟩ (hb | hl | hr)
          · exact hdenied hb
          · exact hlisted rfl hl
          · exact absurd hr hransom
        · exact fun h => ⟨fun _ hl => h (.inr (.inl hl)), fun _ hr => absurd hr hransom⟩
      · rw [processMsg_hasBlocked_of_ne hinv (Ne.symm hkey)]
        exact iff_of_true ⟨fun hk => absurd hk hkey, fun _ hr => absurd hr hransom⟩ hdenied
  | lookup k now =>
    refine iff_of_true trivial fun h => ?_
    have hpolicy : (daemonStep d (.lookup k now)).policy = d.policy := by
      simp only [daemonStep]
      split <;> rfl
    rw [hpolicy]
    exact hdenied ((daemonStep_lookup_blocked ctx.sessionKey d k now).1 h)
  | reload np syncOk =>
    cases np with
    | none => exact iff_of_true (fun q hq => by cases hq) hdenied
    | some np => simp [KeepsDeny, Denied, daemonStep, daemonReload, HasBlocked, Daemon.session]

/-! ## The channel -/

/-- A channel denies what is listed. -/
theorem fanChannelHandle_deny_iff {env : FanEnv} {ops : FanChannelOps} {ev : FanotifyEvent}
    (h : ops.resolve env.proc ev = some ctx) (p : Policy) (fs : Fs) :
    (fanChannelHandle env p ops ev fs).action = .deny ↔ Listed ctx p := by
  unfold fanChannelHandle Listed
  rw [h]
  dsimp only
  split
  · next hlisted => exact iff_of_true rfl hlisted
  · next hlisted => exact iff_of_false (fun h => by cases h) hlisted

end

/-- In a run every open of the session of a context is denied once the session is blocked,
exactly when each event leaves the blocked session's identity listed. -/
theorem blocked_session_denied_iff (p : LoadedPolicy) (db : Db) (es : List DaemonEvent)
    (c : Channel) (ctx : ChannelCtx) (env : FanEnv) (ev : FanotifyEvent)
    (hresolve : c.ops.resolve env.proc ev = some ctx) :
    (∀ pre, pre <+: es → HasBlocked (daemonRun p db pre) ctx.sessionKey →
        ∀ fs, (fanChannelHandle env (daemonRun p db pre).policy c.ops ev fs).action = .deny) ↔
      Runs.AllSteps daemonStep (KeepsDeny ctx) (Daemon.start p db) es := by
  have hstart : Denied ctx (Daemon.start p db) := by
    rintro ⟨i, hi, -⟩
    cases hi
  rw [Runs.allSteps_iff_states Daemon.Inv (Denied ctx) (fun _ e h => h.step e)
    (fun _ e hinv hdenied => keepsDeny_iff hinv hdenied e) (Daemon.inv_start p db) hstart]
  simp only [fanChannelHandle_deny_iff hresolve]
  exact forall₂_congr fun pre _ => ⟨fun h hb => h hb .empty, fun h hb _ => h hb⟩

/-- An open by a process that serves alice's FTP session. -/
def sampleFtpEnv : FanEnv :=
  { sampleFanEnv with
    proc := { sampleFanEnv.proc with
      ftpSession := some (.ofStr 64 (lit "alice"), .ofStr 48 (lit "10.0.0.5")) } }

/-- Once a rename has blocked alice's session from `10.0.0.5`, the FTP channel denies it. -/
theorem blocked_session_denied_sample :
    HasBlocked (daemonRun strictPolicy .empty [.message (sampleEnv 1) sampleRename])
        (makeSessionKey (lit "alice") (lit "10.0.0.5")) ∧
      (fanChannelHandle sampleFtpEnv
        (daemonRun strictPolicy .empty [.message (sampleEnv 1) sampleRename]).policy
        Channel.ftp.ops (sampleFanEvent "/srv/a") .empty).action = .deny := by
  have hblocked : HasBlocked (daemonRun strictPolicy .empty [.message (sampleEnv 1) sampleRename])
      (makeSessionKey (lit "alice") (lit "10.0.0.5")) :=
    ⟨SessionTable.probe (makeSessionKey (lit "alice") (lit "10.0.0.5")) 0, by decide⟩
  refine ⟨hblocked, (blocked_session_denied_iff strictPolicy .empty
    [.message (sampleEnv 1) sampleRename] .ftp
    ⟨.ofStr 64 (lit "alice"), .ofStr 48 (lit "10.0.0.5"), .ofStr 64 (lit "ftp")⟩ sampleFtpEnv
    (sampleFanEvent "/srv/a") rfl).2 ?_ _ (List.prefix_refl _) hblocked .empty⟩
  exact ⟨⟨fun _ h => absurd h.2.2.1 (by decide), fun _ _ => by decide⟩, trivial⟩

/-- A rename by the cloud task `gdrive` blocks its session, whose address is no real one and
goes on no list: the next open is let through. -/
theorem blocked_session_not_always_denied :
    ¬ ∀ (p : LoadedPolicy) (db : Db) (es : List DaemonEvent) (c : Channel) (ctx : ChannelCtx)
      (env : FanEnv) (ev : FanotifyEvent), p.policy.protection.enabled = true →
      (∀ e ∈ es, e.KeepsPolicy) → c.ops.resolve env.proc ev = some ctx →
      HasBlocked (daemonRun p db es) ctx.sessionKey →
      ∀ fs, (fanChannelHandle env (daemonRun p db es).policy c.ops ev fs).action = .deny := by
  intro h
  let ctx : ChannelCtx := ⟨.ofStr 64 (lit "cloud"), .ofStr 48 (lit "gdrive"), .ofStr 64 (lit "gdrive")⟩
  let msg : EventMsg := ctx.identify { sampleRename with sourceType := sourceCloudSync }
  have hblocked : HasBlocked (daemonRun strictPolicy .empty [.message (sampleEnv 1) msg])
      ctx.sessionKey := ⟨SessionTable.probe ctx.sessionKey 0, by decide⟩
  have hdeny := h strictPolicy .empty [.message (sampleEnv 1) msg] .cloud ctx sampleFanEnv
    (sampleFanEvent "/srv/a") rfl (by decide) rfl hblocked .empty
  revert hdeny
  decide

end GfrGuard

import GfrGuard.DenySignal
import GfrGuard.Precedence

/-!
# The two decisions to deny

A channel denies an open by one lookup in the blacklist; `process_msg` blocks behind the switches,
the extension filter, the exceptions and the whitelist. The two agree on an identity and a path
exactly when it is not blacklisted, or none of these gates drops the message
(`deny_agrees_iff`).
-/

namespace GfrGuard

/-- A file event of the same identity, path and source as an open on a channel. -/
structure SameSubject (msg : EventMsg) (c : Channel) (ctx : ChannelCtx) (ev : FanotifyEvent) : Prop where
  type : msg.msgType = msgFileEvent
  source : msg.sourceType = c.ops.sourceType
  username : msg.username = ctx.username
  clientIp : msg.clientIp = ctx.clientIp
  path : msg.filePath = ev.path

/-- `process_msg` comes to its blacklist branch. -/
def ReachesBlacklist (p : Policy) (msg : EventMsg) : Prop :=
  msg.msgType ≠ msgVfsBlocked ∧ gate p msg = .blacklistBlock

instance (p : Policy) (msg : EventMsg) : Decidable (ReachesBlacklist p msg) :=
  inferInstanceAs (Decidable (_ ∧ _))

section
variable {p : Policy} {msg : EventMsg} {c : Channel} {ctx : ChannelCtx} {ev : FanotifyEvent}
  {env : FanEnv}

/-- The message a channel reports an open with is one of its own subject. -/
theorem sameSubject_identify (c : Channel) (ctx : ChannelCtx) (ev : FanotifyEvent) :
    SameSubject (ctx.identify (fanotifyBuildEventMsg ev c.ops.sourceType)) c ctx ev :=
  ⟨rfl, rfl, rfl, rfl, rfl⟩

/-- What comes to the blacklist branch in the state of the daemon is handled there. -/
theorem processMsg_of_reachesBlacklist {env : CallEnv} {d : Daemon} (h : ReachesBlacklist d.policy msg) :
    processMsg env msg d = blacklistBlock env msg { d with journal := [] } := by
  unfold processMsg
  dsimp only
  rw [if_neg h.1, h.2]

/-- The gates before the blacklist, and the blacklist. -/
theorem gate_eq_blacklistBlock : gate p msg = .blacklistBlock ↔ ReachesLists p msg ∧
    scorerIsWhitelisted p msg.username.str msg.clientIp.str = false ∧
      scorerIsBlacklisted p (some msg.username.str) msg.clientIp.str = true := by
  by_cases hlists : ReachesLists p msg
  · rw [gate_of_reachesLists hlists, and_iff_right hlists]
    cases scorerIsWhitelisted p msg.username.str msg.clientIp.str <;>
      cases scorerIsBlacklisted p (some msg.username.str) msg.clientIp.str <;> simp
  · refine iff_of_false (fun h => hlists ?_) fun h => hlists h.1
    unfold gate at h
    unfold ReachesLists
    split_ifs at h with h1 h2 h3
    all_goals simp_all

/-- An open is denied where `process_msg` comes to its blacklist branch, exactly unless the
identity is blacklisted and one of the gates before that branch drops the message. -/
theorem deny_agrees_iff (hresolve : c.ops.resolve env.proc ev = some ctx)
    (hmsg : SameSubject msg c ctx ev) (p : Policy) (fs : Fs) :
    ((fanChannelHandle env p c.ops ev fs).action = .deny ↔ ReachesBlacklist p msg) ↔
      (Listed ctx p → ReachesLists p msg ∧
        scorerIsWhitelisted p ctx.username.str ctx.clientIp.str = false) := by
  have htype : msg.msgType ≠ msgVfsBlocked := by rw [hmsg.type]; decide
  rw [fanChannelHandle_deny_iff hresolve, ReachesBlacklist, and_iff_right htype,
    gate_eq_blacklistBlock, hmsg.username, hmsg.clientIp]
  unfold Listed
  constructor
  · exact fun h hlisted => ⟨(h.1 hlisted).1, (h.1 hlisted).2.1⟩
  · exact fun h => ⟨fun hlisted => ⟨(h hlisted).1, (h hlisted).2, hlisted⟩, fun h => h.2.2⟩

end

/-! ## A blacklisted user -/

/-- A list of one user, alice. -/
def onlyAlice : StrList 64 64 := ⟨[.ofStr 64 (lit "alice")], by decide⟩

/-- The default policy with alice blacklisted. -/
def bannedPolicy : Policy :=
  { Policy.default with blacklist := { Policy.default.blacklist with users := onlyAlice } }

/-- The same with the protection switched off. -/
def dormantPolicy : Policy :=
  { bannedPolicy with protection := { bannedPolicy.protection with enabled := false } }

/-- Alice's identity on the FTP channel. -/
def aliceFtp : ChannelCtx :=
  ⟨.ofStr 64 (lit "alice"), .ofStr 48 (lit "10.0.0.5"), .ofStr 64 (lit "ftp")⟩

/-- With the protection on both deny her. -/
theorem deny_agrees_sample :
    (fanChannelHandle sampleFtpEnv bannedPolicy Channel.ftp.ops (sampleFanEvent "/srv/a") .empty).action =
        .deny ↔
      ReachesBlacklist bannedPolicy
        (aliceFtp.identify (fanotifyBuildEventMsg (sampleFanEvent "/srv/a") sourceFtp)) := by
  have hresolve : Channel.ftp.ops.resolve sampleFtpEnv.proc (sampleFanEvent "/srv/a") = some aliceFtp := rfl
  refine (deny_agrees_iff hresolve (sameSubject_identify .ftp aliceFtp _) bannedPolicy .empty).2 fun _ => ?_
  decide

/-- With the protection off the channel denies her still. -/
theorem deny_not_always_agrees :
    ¬ ∀ (c : Channel) (ctx : ChannelCtx) (env : FanEnv) (ev : FanotifyEvent) (msg : EventMsg)
      (p : Policy) (fs : Fs), c.ops.resolve env.proc ev = some ctx → SameSubject msg c ctx ev →
      ((fanChannelHandle env p c.ops ev fs).action = .deny ↔ ReachesBlacklist p msg) := by
  intro h
  have hagree := (h .ftp aliceFtp sampleFtpEnv (sampleFanEvent "/srv/a") _ dormantPolicy .empty rfl
    (sameSubject_identify .ftp aliceFtp (sampleFanEvent "/srv/a"))).1 (by decide)
  exact absurd hagree (by decide)

end GfrGuard

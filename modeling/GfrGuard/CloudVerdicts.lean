import GfrGuard.Principals
import GfrGuard.Unblock

/-!
# Verdicts over tasks and processes

The cloud and the host channel have no address for their sessions and put the name of the task, or
of the process, in its place. The daemon lists and persists what parses as an address. The name of a
process never does (`host_not_address`); that of a task is whatever stands before the colon of an
rclone argument. `KeepsLists` says when a verdict leaves the lists, the policy file and the blocked
file as they were, and where all of a run do, these stay (`channel_verdicts_keep_lists`).
-/

namespace GfrGuard

/-- The event is a message of the cloud or of the host channel. -/
inductive ChannelSends : SystemEvent → Prop
  | cloud {proc : ProcInfo} {ev : FanotifyEvent} {ctx : ChannelCtx} {env : CallEnv} {io : PersistIo}
      {msg : EventMsg} (hctx : cloudResolve proc ev = some ctx) (hmsg : ctx.Carries msg)
      (hsource : msg.sourceType = sourceCloudSync) : ChannelSends (.message env io msg)
  | host {proc : ProcInfo} {ev : FanotifyEvent} {ctx : ChannelCtx} {env : CallEnv} {io : PersistIo}
      {msg : EventMsg} (hctx : localResolve proc ev = some ctx) (hmsg : ctx.Carries msg)
      (hsource : msg.sourceType = sourceHost) : ChannelSends (.message env io msg)

/-- The lists and the policy file are as they were, and no line has come to the blocked file. -/
structure ListsKept (path : CStr) (s s' : System) : Prop where
  memory : s'.daemon.policy.blacklist = s.daemon.policy.blacklist
  file : s'.files path = s.files path
  blocked : ∀ line, line ≠ [] → line ∈ blockedLines s'.daemon.blocked →
    line ∈ blockedLines s.daemon.blocked

/-- The write to the policy file leaves it. -/
def PersistIo.LeavesFile (io : PersistIo) (path : CStr) : Prop :=
  io.openOk = false ∨ io.succeeds = false ∧ tmpPath path ≠ path

/-- Where a message blocks its session for the score, a task whose name is an address is listed, and
is in the policy file or cannot be put there; and the blocked file, if it is rebuilt, has the lines of
the lists. -/
def KeepsLists (cfg : ConfigEnv) (path : CStr) (s : System) : SystemEvent → Prop
  | .message env io msg =>
    s.up = true → autoAdds env msg s.daemon = true →
      (msg.sourceType = sourceCloudSync → validClientIp msg.clientIp.str = true →
        (msg.clientIp.str ∈ s.daemon.policy.blacklist.ips.strs ∨
          msg.clientIp.str ∈ s.daemon.policy.blacklist.autoIps.strs) ∧
        ∀ root, readJson cfg s.files path = some root →
          msg.clientIp.str ∈ fileAddresses root ∨ io.LeavesFile path) ∧
      (env.syncOk = true → ∀ line, line ≠ [] → ListsLine s.daemon.policy.blacklist line →
        line ∈ blockedLines s.daemon.blocked)
  | _ => True

section
variable {cfg : ConfigEnv} {path : CStr} {s s' s'' : System} {env : CallEnv} {io : PersistIo}
  {msg : EventMsg} {d : Daemon} {e : SystemEvent} {es : List SystemEvent}

theorem ListsKept.refl (path : CStr) (s : System) : ListsKept path s s :=
  ⟨rfl, rfl, fun _ _ h => h⟩

theorem ListsKept.trans (h : ListsKept path s s') (h' : ListsKept path s' s'') :
    ListsKept path s s'' :=
  ⟨h'.memory.trans h.memory, h'.file.trans h.file,
    fun line hne hline => h.blocked line hne (h'.blocked line hne hline)⟩

/-- What the host channel has for an address is none. -/
theorem host_not_address {proc : ProcInfo} {ev : FanotifyEvent} {ctx : ChannelCtx}
    (h : localResolve proc ev = some ctx) : validClientIp ctx.clientIp.str = false := by
  have hword {word : CStr} {b : UInt8} (hmem : b ∈ word) (hb : addrByte b = false) :
      validClientIp word = false :=
    Bool.eq_false_iff.2 fun hip => not_mem_of_validClientIp hip hb hmem
  unfold localResolve at h
  split at h
  · next comm start _ _ =>
    split at h
    · cases h
    · cases h
      have hhead : (108 : UInt8) ∈ (CBuf.ofStr 48 (lit "local:" ++ ev.pid ++ colon :: dec start)).str := by
        rw [CBuf.str_ofStr, snprintf, List.append_assoc]
        exact List.mem_cons_self
      exact hword hhead (by decide)
  · cases h
    decide

/-- Neither channel has an address for the blocked file. -/
theorem blockIp_of_channel (h : ChannelSends (.message env io msg)) : blockIp msg = [] := by
  unfold blockIp
  cases h with
  | cloud _ _ hsource => rw [hsource]; rfl
  | host _ _ hsource => rw [hsource]; rfl

/-- The lists stay where the address is none, or listed. -/
theorem blacklistAutoAdd_of_listed {bl : Blacklist} {ip : CBuf 48}
    (h : validClientIp ip.str = true → ip.str ∈ bl.ips.strs ∨ ip.str ∈ bl.autoIps.strs) :
    blacklistAutoAdd bl ip = bl := by
  unfold blacklistAutoAdd
  refine if_pos ?_
  cases hip : validClientIp ip.str with
  | false => rfl
  | true =>
    rcases h hip with hin | hin
    · simp [hin]
    · simp [hin]

/-- A persist leaves the file where the address is none, or there, or cannot be put there. -/
theorem persist_leaves (files : FileTexts) {ip : CStr} (h : validClientIp ip = true →
      ∀ root, readJson cfg files path = some root → ip ∈ fileAddresses root ∨ io.LeavesFile path) :
    (configPersistBlacklistIp cfg io files path ip).2 path = files path := by
  have hspec := configPersistBlacklistIp_spec cfg io files path ip
  generalize configPersistBlacklistIp cfg io files path ip = result at hspec
  cases hspec with
  | invalid | unread | known => rfl
  | new root hip hread hnew =>
    obtain ⟨openOk, writeOk, renameOk⟩ := io
    cases openOk with
    | false => rfl
    | true =>
      obtain ⟨hfail, htmp⟩ := ((h hip root hread).resolve_left hnew).resolve_left Bool.noConfusion
      have hfailed : (writeOk && renameOk) = false := hfail
      unfold replaceFile
      dsimp only
      rw [hfailed]
      exact if_neg htmp.symm

/-! ## Runs -/

/-- A message of the two channels leaves the blocked file, or rebuilds it from the lists. -/
theorem processMsg_blocked_of_channel (hsent : ChannelSends (.message env io msg)) :
    (processMsg env msg d).blocked = d.blocked ∨
      autoAdds env msg d = true ∧ (processMsg env msg d).blocked =
        blockerSyncBlacklist d.blocked (processMsg env msg d).policy.blacklist env.syncOk := by
  have hcontent {content : Option CStr} (happend : blockerAppend d.blocked (blockIp msg) env.readOk
      env.writeOk = some content) : content = d.blocked := by
    rw [blockIp_of_channel hsent] at happend
    cases happend
    rfl
  cases processMsg_effect env msg d with
  | kept _ _ hblocked => exact .inl hblocked
  | appended _ _ _ happend => exact .inl (hcontent happend)
  | rebuilt c hcall hcause content happend _ hblocked =>
    refine .inr ⟨?_, ?_⟩
    · simp [autoAdds, hcall, hcause, executeCall_ok hcall, executes_of_append happend]
    · rw [← hcontent happend]
      exact hblocked

/-- One message. -/
theorem systemStep_keepsLists (hsent : ChannelSends e) (hkeeps : KeepsLists cfg path s e) :
    ListsKept path s (systemStep cfg path s e) := by
  obtain ⟨env, io, msg, rfl⟩ : ∃ env io msg, e = .message env io msg := by
    cases hsent <;> exact ⟨_, _, _, rfl⟩
  unfold systemStep
  dsimp only
  split
  · next hup =>
    have hlisted (hadds : autoAdds env msg s.daemon = true)
        (hip : validClientIp msg.clientIp.str = true) :
        (msg.clientIp.str ∈ s.daemon.policy.blacklist.ips.strs ∨
          msg.clientIp.str ∈ s.daemon.policy.blacklist.autoIps.strs) ∧
        ∀ root, readJson cfg s.files path = some root →
          msg.clientIp.str ∈ fileAddresses root ∨ io.LeavesFile path := by
      cases hsent with
      | cloud _ _ hsource => exact (hkeeps hup hadds).1 hsource hip
      | host hctx hmsg _ =>
        rw [hmsg.2, host_not_address hctx] at hip
        cases hip
    have hmemory : (processMsg env msg s.daemon).policy.blacklist = s.daemon.policy.blacklist := by
      have heffect := autoAdds_effect env msg s.daemon
      split at heffect
      · next hadds =>
        rw [heffect.1]
        exact blacklistAutoAdd_of_listed fun hip => (hlisted hadds hip).1
      · exact heffect
    refine ⟨hmemory, ?_, fun line hne hline => ?_⟩
    · show persistVerdict cfg path env io msg s path = s.files path
      unfold persistVerdict
      split
      · next hadds => exact persist_leaves s.files fun hip => (hlisted hadds hip).2
      · rfl
    · rcases processMsg_blocked_of_channel hsent with hblocked | ⟨hadds, hblocked⟩
      · have hline : line ∈ blockedLines (processMsg env msg s.daemon).blocked := hline
        rwa [hblocked] at hline
      · have hline : line ∈ blockedLines (processMsg env msg s.daemon).blocked := hline
        rw [hblocked, hmemory, mem_blockedLines_sync_iff_listsLine hne] at hline
        split at hline
        · next hsync => exact (hkeeps hup hadds).2 hsync line hne hline
        · exact hline
  · exact .refl path s

/-- In a run of messages of the cloud and the host channel whose verdicts all keep the lists, the
lists, the policy file and the blocked file never change. -/
theorem channel_verdicts_keep_lists (cfg : ConfigEnv) (path : CStr) (s : System)
    (es : List SystemEvent) (hsent : ∀ e ∈ es, ChannelSends e)
    (hkeeps : Runs.AllSteps (systemStep cfg path) (KeepsLists cfg path) s es) :
    ∀ pre, pre <+: es → ListsKept path s (Runs.run (systemStep cfg path) s pre) := by
  rintro pre ⟨rest, rfl⟩
  have hpre : Runs.AllSteps (systemStep cfg path)
      (fun s e => ChannelSends e ∧ KeepsLists cfg path s e) s pre :=
    Runs.allSteps_and.2 ⟨Runs.allSteps_of_forall fun e he => hsent e (List.mem_append_left _ he),
      (Runs.allSteps_append.1 hkeeps).1⟩
  exact Runs.run_invariant_of_allSteps (ListsKept path s)
    (fun s' e h hstep => h.trans (systemStep_keepsLists hstep.1 hstep.2)) (.refl path s) hpre

end

/-- The daemon is up with a policy that blocks a session for one rename. -/
def strictSystem : System := ⟨Daemon.start strictPolicy .empty, sampleFiles strictText, true⟩

/-- A rename by the cloud task of a name. -/
def taskRename (remote : String) : SystemEvent :=
  .message (sampleEnv 0) .ok
    (ChannelCtx.identify ⟨.ofStr 64 (lit "cloud"), .ofStr 48 (lit remote), .ofStr 64 (lit remote)⟩
      { sampleRename with sourceType := sourceCloudSync })

theorem taskRename_sends {remote : String}
    (h : cloudResolveTask (rcloneProc remote).cmdline = some (lit remote)) :
    ChannelSends (taskRename remote) :=
  .cloud (cloudResolve_rcloneProc h) ⟨rfl, rfl⟩ rfl

/-- The verdict over the task `gdrive` is listed nowhere. -/
theorem channel_verdicts_sample :
    ListsKept samplePath strictSystem
      (Runs.run (systemStep strictEnv samplePath) strictSystem [taskRename "gdrive"]) := by
  refine channel_verdicts_keep_lists strictEnv samplePath strictSystem [taskRename "gdrive"]
    ?_ ⟨fun _ _ => ⟨fun _ hip => ?_, fun _ line hne hline => ?_⟩, trivial⟩ _ List.prefix_rfl
  · rintro e he
    rw [List.mem_singleton.1 he]
    exact taskRename_sends (by decide)
  · exact absurd hip (by decide)
  · obtain ⟨entry, hentry, -⟩ := hline
    have hnone : exactEntries strictSystem.daemon.policy.blacklist = [] := by decide
    rw [hnone] at hentry
    cases hentry

/-- The verdict over the task `10.0.0.5` puts the address on the list. -/
theorem channel_verdict_lists_address :
    ¬ ∀ (cfg : ConfigEnv) (path : CStr) (s : System) (es : List SystemEvent),
      (∀ e ∈ es, ChannelSends e) →
      ∀ pre, pre <+: es → ListsKept path s (Runs.run (systemStep cfg path) s pre) := by
  intro h
  have hkept := (h strictEnv samplePath strictSystem [taskRename "10.0.0.5"] (fun e he => by
    rw [List.mem_singleton.1 he]
    exact taskRename_sends (by decide)) _ List.prefix_rfl).memory
  have hauto := congrArg (fun bl => bl.autoIps.strs) hkept
  exact absurd hauto (by decide)

end GfrGuard

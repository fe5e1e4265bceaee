import GfrGuard.BlockCalls

/-!
# What a message does to the lists

The runtime blacklist and the blocked file change together, and only by a call of
`blocker_execute` (`ListEffect`): a blacklisted session's appends its address, a critical one's
also puts the address on the runtime list and rebuilds the file from the lists. Which lines
either leaves is said exactly (`mem_blockedLines_append_iff`, `mem_blockedLines_sync_iff`).
-/

namespace GfrGuard

/-- What a message leaves of the runtime blacklist and the blocked file, by the call of
`blocker_execute` it makes. -/
inductive ListEffect (env : CallEnv) (msg : EventMsg) (d d' : Daemon) : Prop
  | kept (hcall : ∀ c, executeCall env msg d = some c → executes env msg d = false)
      (hlist : d'.policy.blacklist = d.policy.blacklist) (hblocked : d'.blocked = d.blocked)
  | appended (c : ExecuteCall) (hcall : executeCall env msg d = some c)
      (hcause : c.cause = .blacklisted)
      (happend : blockerAppend d.blocked (blockIp msg) env.readOk env.writeOk = some d'.blocked)
      (hlist : d'.policy.blacklist = d.policy.blacklist)
  | rebuilt (c : ExecuteCall) (hcall : executeCall env msg d = some c)
      (hcause : c.cause = .critical) (content : Option CStr)
      (happend : blockerAppend d.blocked (blockIp msg) env.readOk env.writeOk = some content)
      (hlist : d'.policy.blacklist = blacklistAutoAdd d.policy.blacklist msg.clientIp)
      (hblocked : d'.blocked = blockerSyncBlacklist content d'.policy.blacklist env.syncOk)

section
variable {env : CallEnv} {msg : EventMsg} {d : Daemon} {c : ExecuteCall} {content : Option CStr}
  {ip line : CStr} {bl : Blacklist}

/-! ## Lines -/

theorem mem_blockedLines_iff (hne : line ≠ []) :
    line ∈ blockedLines content ↔ line ∈ (content.getD []).splitOn newline :=
  SepText.mem_pieces_iff hne

theorem mem_splitOn_endLastLine (hne : line ≠ []) (text : CStr) :
    line ∈ (endLastLine text).splitOn newline ↔ line ∈ text.splitOn newline := by
  unfold endLastLine
  split
  · rw [List.splitOn_append_cons_self, List.splitOn_nil, List.mem_append, List.mem_singleton,
      or_iff_left hne]
  · rfl

/-- The lines after a call of `blocker_execute` that succeeded. -/
theorem mem_blockedLines_append_iff {content' : Option CStr} {readOk writeOk : Bool}
    (h : blockerAppend content ip readOk writeOk = some content') (hne : line ≠ []) :
    line ∈ blockedLines content' ↔
      line ∈ blockedLines content ∨ validClientIp ip = true ∧ line = ip := by
  constructor
  · intro hline
    obtain ⟨rfl, -⟩ | ⟨rfl, hip, -⟩ := blockerAppend_eq_some_iff.1 h
    · exact .inl hline
    · have hnl : newline ∉ ip := not_mem_of_validClientIp hip (by decide)
      rw [mem_blockedLines_iff hne, Option.getD_some] at hline
      rw [mem_blockedLines_iff hne, ← mem_splitOn_endLastLine hne]
      unfold appendLine at hline
      rcases endLastLine_terminated (content.getD []) with hnil | ⟨a, ha⟩
      · rw [hnil, List.nil_append, List.splitOn_append_cons_self,
          List.splitOn_eq_singleton hnl, List.splitOn_nil] at hline
        simp only [List.mem_append, List.mem_singleton, hne, or_false] at hline
        exact .inr ⟨hip, hline⟩
      · rw [ha] at hline ⊢
        rw [List.append_assoc, List.append_assoc, List.singleton_append,
          List.splitOn_append_cons_self, List.splitOn_append_cons_self,
          List.splitOn_eq_singleton hnl, List.splitOn_nil] at hline
        simp only [List.mem_append, List.mem_singleton, hne, or_false] at hline
        rw [List.splitOn_append_cons_self, List.mem_append]
        exact hline.imp Or.inl fun h => ⟨hip, h⟩
  · rintro (hline | ⟨hip, rfl⟩)
    · exact blockerAppend_keeps h hline hne
    · exact mem_blockedLines_blockerAppend h hip

/-- The lines of a rebuilt file are those of the exact entries. -/
theorem mem_blockedLines_sync_iff (hne : line ≠ []) :
    line ∈ blockedLines (some (syncContent bl)) ↔
      ∃ e ∈ exactEntries bl, line ∈ e.splitOn newline := by
  rw [mem_blockedLines_iff hne, Option.getD_some]
  exact SepText.mem_splitOn_flatMap hne

/-! ## The call -/

/-- The daemon a call is made in has the lists as they were. -/
theorem executeCall_policy (h : executeCall env msg d = some c) : c.daemon.policy = d.policy := by
  cases executeCall_spec h with
  | blacklisted i t =>
    exact (ensureBlockedEvent_ensured env msg i { d with table := t, journal := [] }).policy
  | critical i t => exact (settleMsg_frame env msg i _).2.1

/-- What follows a call. -/
theorem finish_effect (h : executeCall env msg d = some c) :
    ListEffect env msg d (c.finish env msg) := by
  have hok := executeCall_ok h
  have hfile := (executeCall_daemon h).2
  have hpolicy := executeCall_policy h
  have hspec := blockerExecute_spec env (blockIp msg) (c.status msg) c.slot c.daemon
  unfold ExecuteCall.ok ExecuteCall.result at hok
  unfold ExecuteCall.finish ExecuteCall.result
  generalize blockerExecute env (blockIp msg) (c.daemon.session c.slot).currentEventId.str
    (c.status msg) c.daemon = result at hok hspec
  cases hspec with
  | failed =>
    refine .kept (fun _ _ => hok.symm) ?_ ?_ <;> cases c.cause <;> first
      | exact hfile
      | exact congrArg Policy.blacklist hpolicy
  | done content d' happend _ hblocked _ hpolicy' =>
    rw [hfile] at happend
    have hlist : d'.policy = d.policy := hpolicy'.trans hpolicy
    cases hcause : c.cause with
    | blacklisted =>
      exact .appended c h hcause (happend.trans (congrArg some hblocked.symm))
        (congrArg Policy.blacklist hlist)
    | critical =>
      refine .rebuilt c h hcause content happend ?_ ?_
      · show blacklistAutoAdd d'.policy.blacklist msg.clientIp = _
        rw [hlist]
      · show blockerSyncBlacklist d'.blocked _ env.syncOk = _
        rw [hblocked]
        rfl

/-- A message that makes no call leaves the lists and the blocked file. -/
theorem processMsg_of_noCall (h : executeCall env msg d = none) :
    (processMsg env msg d).policy.blacklist = d.policy.blacklist ∧
      (processMsg env msg d).blocked = d.blocked := by
  obtain ⟨hpolicy, hblocked, -⟩ := quietMsg_frame env msg d
  rw [processMsg_of_quiet h]
  exact ⟨congrArg Policy.blacklist hpolicy, hblocked⟩

/-- What a message does to the lists and the blocked file. -/
theorem processMsg_effect (env : CallEnv) (msg : EventMsg) (d : Daemon) :
    ListEffect env msg d (processMsg env msg d) := by
  cases h : executeCall env msg d with
  | some c =>
    rw [processMsg_of_executeCall h]
    exact finish_effect h
  | none =>
    obtain ⟨hlist, hblocked⟩ := processMsg_of_noCall h
    exact .kept (fun c hc => by rw [h] at hc; cases hc) hlist hblocked

end

end GfrGuard

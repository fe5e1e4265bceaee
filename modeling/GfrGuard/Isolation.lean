import GfrGuard.Evidence

/-!
# Two clients at a time

Two sessions share the table, the runtime blacklist, the blocked file and the counter of
event ids. A message of one leaves the session of the other, as no table of two sessions is
full, and whether the other's address is listed, as an address listed at run time matches
itself alone. So a session ends as it does without the other one's messages, its event id
apart (`session_isolated`).
-/

namespace GfrGuard

/-- The event is a message of the session, from the address, whose block would succeed. -/
def DaemonEvent.OfSession (key : CBuf 128) (ip : CStr) : DaemonEvent → Prop
  | .message env msg =>
    msg.sessionKey = key ∧ msg.clientIp.str = ip ∧ env.readOk = true ∧ env.writeOk = true
  | _ => False

instance (key : CBuf 128) (ip : CStr) : ∀ e : DaemonEvent, Decidable (e.OfSession key ip)
  | .message .. => inferInstanceAs (Decidable (_ ∧ _))
  | .lookup .. => inferInstanceAs (Decidable False)
  | .reload .. => inferInstanceAs (Decidable False)

/-- The message makes its session critical and blocks it for that. -/
def ransomBlocks (env : CallEnv) (p : Policy) (msg : EventMsg) (ok : Bool)
    (v : Option SessionState) : Bool :=
  let s := visit msg.sessionKey env.now v
  msg.msgType ≠ msgVfsBlocked && gate p msg = .accept &&
    (scoreSession env p msg s).riskLevel = .critical && !s.isBlocked && ok

/-- A policy with another runtime blacklist. -/
def Policy.withAuto (p : Policy) (auto : StrList 64 48) : Policy :=
  { p with blacklist := { p.blacklist with autoIps := auto } }

/-- A runtime list of at most two given addresses. -/
structure ListsTwo (ip ip' : CStr) (auto : StrList 64 48) : Prop where
  valid : ∀ a ∈ auto.strs, validClientIp a = true
  ips : ∀ a ∈ auto.strs, a = ip ∨ a = ip'
  nodup : auto.strs.Nodup

/-- The daemon has served two sessions, one from each of two addresses, and listed no other
address at run time. -/
structure ServesTwo (p : Policy) (key key' : CBuf 128) (ip ip' : CStr) (d : Daemon) : Prop where
  inv : d.Inv
  policy : d.policy = p.withAuto d.policy.blacklist.autoIps
  keys : ∀ i k, d.table.keyAt i = some k → k = key ∨ k = key'
  auto : ListsTwo ip ip' d.policy.blacklist.autoIps

section
variable {d d' : Daemon} {key key' : CBuf 128} {ip ip' : CStr} {env : CallEnv} {msg : EventMsg}
  {p : Policy} {i : Fin sessionBuckets} {t : SessionTable}

/-! ## What a message lists -/

theorem blacklistBlock_policy (env : CallEnv) (msg : EventMsg) (d : Daemon) :
    (blacklistBlock env msg d).policy = d.policy := by
  unfold blacklistBlock
  split
  · rfl
  · next i t hfind =>
    dsimp only
    split
    · rfl
    · have hens := ensureBlockedEvent_ensured env msg i { d with table := t }
      have hexec := blockerExecute_spec env (blockIp msg)
        (blacklistStatus (ensureBlockedEvent env msg i { d with table := t }).policy msg) i
        (ensureBlockedEvent env msg i { d with table := t })
      generalize blockerExecute env (blockIp msg) _ _ _ = result at hexec
      cases hexec with
      | failed => exact hens.policy
      | done _ _ _ _ _ _ hpolicy => exact hpolicy.trans hens.policy

/-- The block stage lists the address of a critical session it blocks. -/
theorem blockIfCritical_blacklist (env : CallEnv) (msg : EventMsg) (i : Fin sessionBuckets)
    (d : Daemon) : (blockIfCritical env msg i d).policy.blacklist =
      if (d.session i).riskLevel = .critical ∧ (d.session i).isBlocked = false ∧
          executes env msg d = true then
        blacklistAutoAdd d.policy.blacklist msg.clientIp
      else d.policy.blacklist := by
  have hspec := blockIfCritical_spec env msg i d
  unfold blockIfCritical at hspec ⊢
  by_cases hcrit : (d.session i).riskLevel = .critical ∧ (d.session i).isBlocked = false
  · rw [if_pos hcrit] at hspec ⊢
    have hfst := blockerExecute_fst env (blockIp msg) (d.session i).currentEventId.str
      (lit "blocked_ransom") d
    have hexec := blockerExecute_spec env (blockIp msg) (lit "blocked_ransom") i d
    generalize blockerExecute env (blockIp msg) (d.session i).currentEventId.str
      (lit "blocked_ransom") d = result at hfst hexec
    have hok : executes env msg d = result.1 := hfst.symm
    rw [hok]
    cases hexec with
    | failed => exact (if_neg fun h => Bool.false_ne_true h.2.2).symm
    | done content d' _ _ _ _ hpolicy =>
      rw [if_pos ⟨hcrit.1, hcrit.2, rfl⟩, ← hpolicy]
      rfl
  · rw [if_neg hcrit, if_neg fun h => hcrit ⟨h.1, h.2.1⟩]

/-- A message lists the address of its session when it blocks it as critical. -/
theorem processMsg_blacklist
    (hslot : (sessionFindOrCreate d.table msg.sessionKey env.now).isSome) :
    (processMsg env msg d).policy.blacklist =
      if ransomBlocks env d.policy msg (executes env msg d) (d.view msg.sessionKey) then
        blacklistAutoAdd d.policy.blacklist msg.clientIp
      else d.policy.blacklist := by
  obtain ⟨⟨i, t⟩, hfind⟩ := Option.isSome_iff_exists.1 hslot
  unfold processMsg ransomBlocks
  dsimp only
  split
  · next htype =>
    unfold vfsBlocked
    rw [hfind]
    dsimp only
    rw [if_neg (ensureId_ne_nil env i _), if_neg (by simp [htype])]
    exact congrArg Policy.blacklist (ensureId_frame env i _).2.1
  · next htype =>
    split
    · next hgate =>
      rw [blacklistBlock_policy, if_neg (by simp [hgate])]
    · next hgate =>
      unfold acceptMsg
      rw [hfind]
      dsimp only
      show (blockIfCritical env msg i (settleMsg env msg i _)).policy.blacklist = _
      have hframe := settleMsg_frame env msg i { d with table := t, journal := [] }
      have hsettle := settleMsg_bare env msg i { d with table := t, journal := [] }
      have hvisit := (sessionFindOrCreate_spec hfind).visited_view
      have hexec : executes env msg (settleMsg env msg i { d with table := t, journal := [] }) =
          executes env msg d := by
        unfold executes
        rw [hframe.1]
      have hlevel : ((settleMsg env msg i { d with table := t, journal := [] }).session i).riskLevel =
          (scoreSession env d.policy msg (visit msg.sessionKey env.now
            (d.view msg.sessionKey))).riskLevel := by
        have hscore := scoreSession_withEvent env d.policy msg (t.buckets i) (.empty 32)
        rw [← SessionState.bare, hvisit] at hscore
        exact (congrArg SessionState.riskLevel (hsettle.trans hscore.symm) :)
      have hflag : ((settleMsg env msg i { d with table := t, journal := [] }).session i).isBlocked =
          (visit msg.sessionKey env.now (d.view msg.sessionKey)).isBlocked :=
        hframe.2.2.trans (congrArg SessionState.isBlocked hvisit :)
      rw [blockIfCritical_blacklist, hlevel, hflag, hexec, hframe.2.1]
      refine if_congr ?_ rfl rfl
      simp [htype, hgate, and_assoc]
    · next hblack haccept =>
      rw [if_neg]
      simp only [Bool.and_eq_true, decide_eq_true_eq]
      exact fun h => haccept h.1.1.1.2

/-! ## Gates -/

/-- An address on the runtime list matches itself alone. -/
theorem autoEntryMatches_of_valid {entry : CStr} (h : validClientIp entry = true) (a : CStr) :
    autoEntryMatches a entry = decide (a = entry) := by
  have hcidr : isCidr entry = false :=
    decide_eq_false (not_mem_of_validClientIp h (by decide))
  have hrange : isIpRange entry = false :=
    decide_eq_false (not_mem_of_validClientIp h (by decide))
  unfold autoEntryMatches
  rw [hcidr, hrange, decide_eq_true (ne_nil_of_validClientIp h)]
  simp

/-- Whether a runtime list of addresses matches is whether it has the address. -/
theorem any_autoEntryMatches {l : List CStr} (h : ∀ a ∈ l, validClientIp a = true) (a : CStr) :
    l.any (autoEntryMatches a) = decide (a ∈ l) := by
  rw [Bool.eq_iff_iff, List.any_eq_true, decide_eq_true_eq]
  constructor
  · rintro ⟨entry, hmem, hmatch⟩
    rw [autoEntryMatches_of_valid (h entry hmem), decide_eq_true_eq] at hmatch
    exact hmatch ▸ hmem
  · intro hmem
    exact ⟨a, hmem, by rw [autoEntryMatches_of_valid (h a hmem)]; exact decide_eq_true rfl⟩

/-- The gates do not tell runtime lists apart that agree on the address of the message. -/
theorem gate_withAuto {auto auto' : StrList 64 48} (p : Policy)
    (hvalid : ∀ a ∈ auto.strs, validClientIp a = true)
    (hvalid' : ∀ a ∈ auto'.strs, validClientIp a = true)
    (hlisted : msg.clientIp.str ∈ auto.strs ↔ msg.clientIp.str ∈ auto'.strs) :
    gate (p.withAuto auto) msg = gate (p.withAuto auto') msg := by
  have hblack : scorerIsBlacklisted (p.withAuto auto) (some msg.username.str) msg.clientIp.str =
      scorerIsBlacklisted (p.withAuto auto') (some msg.username.str) msg.clientIp.str := by
    unfold scorerIsBlacklisted
    rw [show (p.withAuto auto).blacklist.autoIps = auto from rfl,
      show (p.withAuto auto').blacklist.autoIps = auto' from rfl,
      any_autoEntryMatches hvalid, any_autoEntryMatches hvalid', decide_eq_decide.2 hlisted]
    rfl
  unfold gate
  rw [hblack]
  rfl

theorem ServesTwo.gate_eq (h : ServesTwo p key key' ip ip' d) (h' : ServesTwo p key key' ip ip' d')
    (hlisted : msg.clientIp.str ∈ d.policy.blacklist.autoIps.strs ↔
      msg.clientIp.str ∈ d'.policy.blacklist.autoIps.strs) :
    gate d.policy msg = gate d'.policy msg :=
  calc gate d.policy msg
    _ = gate (p.withAuto d.policy.blacklist.autoIps) msg := congrArg (gate · msg) h.policy
    _ = gate (p.withAuto d'.policy.blacklist.autoIps) msg :=
      gate_withAuto p h.auto.valid h'.auto.valid hlisted
    _ = gate d'.policy msg := (congrArg (gate · msg) h'.policy).symm

theorem ServesTwo.follows (h : ServesTwo p key key' ip ip' d) : d.Follows p :=
  h.policy.trans (congrArg (fun bl : Blacklist => { p with blacklist := bl })
    (congrArg Policy.blacklist h.policy).symm)

theorem Daemon.Follows.withAuto (h : d.Follows p)
    (hbl : d.policy.blacklist = { p.blacklist with autoIps := d.policy.blacklist.autoIps }) :
    d.policy = p.withAuto d.policy.blacklist.autoIps :=
  Eq.trans h (congrArg (fun bl : Blacklist => { p with blacklist := bl }) hbl)

/-! ## Lists of two addresses -/

theorem blacklistAutoAdd_eq (bl : Blacklist) (a : CBuf 48) :
    blacklistAutoAdd bl a = { bl with autoIps := (blacklistAutoAdd bl a).autoIps } := by
  unfold blacklistAutoAdd
  split <;> rfl

/-- A list of two addresses has room. -/
theorem ListsTwo.length_lt {auto : StrList 64 48} (h : ListsTwo ip ip' auto) :
    auto.entries.length < 64 := by
  have hsub : auto.strs ⊆ [ip, ip'] := fun a ha => by
    rcases h.ips a ha with rfl | rfl
    · exact List.mem_cons_self
    · exact List.mem_cons_of_mem _ List.mem_cons_self
  have hle := (h.nodup.subperm hsub).length_le
  rw [StrList.strs, List.length_map] at hle
  exact Nat.lt_of_le_of_lt hle (show 2 < 64 by decide)

/-- The addresses of a list of two after one of them is to be added. -/
theorem ListsTwo.add_strs {bl : Blacklist} {a : CBuf 48} (h : ListsTwo ip ip' bl.autoIps) :
    (blacklistAutoAdd bl a).autoIps.strs = if validClientIp a.str = true ∧ a.str ∉ bl.ips.strs ∧
      a.str ∉ bl.autoIps.strs then bl.autoIps.strs ++ [a.str] else bl.autoIps.strs := by
  unfold blacklistAutoAdd
  by_cases hnew : validClientIp a.str = true ∧ a.str ∉ bl.ips.strs ∧ a.str ∉ bl.autoIps.strs
  · rw [if_pos hnew, if_neg (by simpa [not_or, and_assoc] using hnew)]
    unfold pushAuto
    rw [dif_pos h.length_lt]
    simp [StrList.strs]
  · rw [if_neg hnew, if_pos (by simpa [Decidable.or_iff_not_not_and_not, and_assoc] using hnew)]

theorem ListsTwo.add {bl : Blacklist} {a : CBuf 48} (h : ListsTwo ip ip' bl.autoIps)
    (ha : a.str = ip ∨ a.str = ip') : ListsTwo ip ip' (blacklistAutoAdd bl a).autoIps := by
  have hstrs := h.add_strs (a := a)
  split at hstrs
  · next hnew =>
    refine ⟨fun b hb => ?_, fun b hb => ?_, ?_⟩
    · rw [hstrs, List.mem_append, List.mem_singleton] at hb
      rcases hb with hb | rfl
      · exact h.valid b hb
      · exact hnew.1
    · rw [hstrs, List.mem_append, List.mem_singleton] at hb
      rcases hb with hb | rfl
      · exact h.ips b hb
      · exact ha
    · rw [hstrs]
      exact List.nodup_append.2 ⟨h.nodup, List.nodup_singleton _, fun b hb c hc hbc =>
        hnew.2.2 (List.mem_singleton.1 hc ▸ hbc ▸ hb)⟩
  · exact ⟨hstrs ▸ h.valid, hstrs ▸ h.ips, hstrs ▸ h.nodup⟩

/-! ## Tables of two sessions -/

/-- A table of two sessions is not full. -/
theorem ServesTwo.search_ne_full (h : ServesTwo p key key' ip ip' d) (k : CBuf 128) :
    d.table.search k ≠ .full := fun hfull => by
  have hspec := OpenAddressing.searchSpec (SessionTable.probe k) d.table.keyAt k sessionBuckets
  rw [← SessionTable.search, hfull] at hspec
  cases hspec with
  | full hpass =>
    -- every slot is used, so two of the first three hold the same key
    have hused : ∀ i, d.table.keyAt i = some key ∨ d.table.keyAt i = some key' := fun i => by
      obtain ⟨q, hq, hi⟩ := SessionTable.probe_cover k i
      have hne := (hpass q hq).1
      rw [hi] at hne
      obtain ⟨k', hk'⟩ := Option.ne_none_iff_exists'.1 hne
      rw [hk', Option.some.injEq, Option.some.injEq]
      exact h.keys i k' hk'
    have hunique : ∀ {i j k}, d.table.keyAt i = some k → d.table.keyAt j = some k → i = j :=
      fun hi hj => OpenAddressing.Placed.unique h.inv.placed hi hj
    rcases hused 0 with h0 | h0 <;> rcases hused 1 with h1 | h1 <;>
      rcases hused 2 with h2 | h2 <;>
      first
      | exact absurd (hunique h0 h1) (by decide)
      | exact absurd (hunique h0 h2) (by decide)
      | exact absurd (hunique h1 h2) (by decide)

theorem ServesTwo.isSome_slot (h : ServesTwo p key key' ip ip' d) (k : CBuf 128) (now : Int) :
    (sessionFindOrCreate d.table k now).isSome := by
  unfold sessionFindOrCreate
  split
  · rfl
  · rfl
  · next hs => exact absurd hs (h.search_ne_full k)

/-- A message of one of the two sessions. -/
theorem ServesTwo.step (h : ServesTwo p key key' ip ip' d)
    (hkey : msg.sessionKey = key ∧ msg.clientIp.str = ip ∨
      msg.sessionKey = key' ∧ msg.clientIp.str = ip') :
    ServesTwo p key key' ip ip' (processMsg env msg d) := by
  have hinv := h.inv.step (.message env msg)
  have hkeys : ∀ i k, (processMsg env msg d).table.keyAt i = some k → k = key ∨ k = key' := by
    have hspec := processMsg_spec env msg d
    generalize processMsg env msg d = d' at hspec
    cases hspec with
    | idle => exact h.keys
    | worked i t d' hfind hstage _ _ =>
      intro j k hj
      by_cases hji : j = i
      · subst hji
        rw [hfind.keyAt_stage hstage, Option.some.injEq] at hj
        exact hj ▸ hkey.imp And.left And.left
      · refine h.keys j k ?_
        have hsame := hfind.session_stage hstage hji
        simp only [Daemon.session] at hsame
        rwa [SessionTable.keyAt, hsame] at hj
  have hlist := processMsg_blacklist (h.isSome_slot msg.sessionKey env.now)
  have hfollows : (processMsg env msg d).Follows p :=
    h.follows.step (e := .message env msg) trivial
  have hbl := congrArg Policy.blacklist h.policy
  split at hlist
  · refine ⟨hinv, hfollows.withAuto ?_, hkeys, ?_⟩
    · rw [hlist, blacklistAutoAdd_eq, hbl]
      rfl
    · rw [hlist]
      exact h.auto.add (hkey.imp And.right And.right)
  · refine ⟨hinv, hfollows.withAuto ?_, hkeys, ?_⟩
    · rw [hlist, hbl]
      rfl
    · rw [hlist]
      exact h.auto

/-! ## One session with and without the other -/

/-- The daemons hold the same session of the key, its event id apart, and agree on whether
its address is listed at run time. -/
structure SameFor (p : Policy) (key key' : CBuf 128) (ip ip' : CStr) (d d' : Daemon) : Prop where
  left : ServesTwo p key key' ip ip' d
  right : ServesTwo p key key' ip ip' d'
  view : d.view key' = d'.view key'
  listed : ip' ∈ d.policy.blacklist.autoIps.strs ↔ ip' ∈ d'.policy.blacklist.autoIps.strs

/-- A message of the other session changes neither. -/
theorem SameFor.step_other (h : SameFor p key key' ip ip' d d') (hkey : key ≠ key')
    (hip : ip ≠ ip') (hmsg : msg.sessionKey = key) (haddr : msg.clientIp.str = ip) :
    SameFor p key key' ip ip' (processMsg env msg d) d' := by
  refine ⟨h.left.step (.inl ⟨hmsg, haddr⟩), h.right, ?_, ?_⟩
  · rw [← h.view]
    have hne : key' ≠ msg.sessionKey := hmsg ▸ hkey.symm
    exact (processMsg_view_of_ne h.left.inv hne).resolve_right fun hfull =>
      h.left.search_ne_full msg.sessionKey hfull.1
  · rw [← h.listed, processMsg_blacklist (h.left.isSome_slot msg.sessionKey env.now)]
    split
    · rw [h.left.auto.add_strs]
      split
      · rw [List.mem_append, List.mem_singleton, haddr]
        exact or_iff_left hip.symm
      · rfl
    · rfl

/-- A message of the session itself does the same to both. -/
theorem SameFor.step_own (h : SameFor p key key' ip ip' d d') (hmsg : msg.sessionKey = key')
    (haddr : msg.clientIp.str = ip') (hexec : (DaemonEvent.message env msg).Executes) :
    SameFor p key key' ip ip' (processMsg env msg d) (processMsg env msg d') := by
  have hgate : gate d.policy msg = gate d'.policy msg :=
    h.left.gate_eq h.right (by rw [haddr]; exact h.listed)
  have hview := h.view
  rw [← hmsg] at hview
  refine ⟨h.left.step (.inr ⟨hmsg, haddr⟩), h.right.step (.inr ⟨hmsg, haddr⟩), ?_, ?_⟩
  · rw [← hmsg, processMsg_view h.left.inv (h.left.isSome_slot _ _),
      processMsg_view h.right.inv (h.right.isSome_slot _ _), hview,
      executes_of_executes hexec, executes_of_executes hexec]
    unfold messageView
    dsimp only
    rw [hgate, h.left.follows.acceptState, h.right.follows.acceptState]
  · have hblocks : ransomBlocks env d.policy msg (executes env msg d) (d.view msg.sessionKey) =
        ransomBlocks env d'.policy msg (executes env msg d') (d'.view msg.sessionKey) := by
      unfold ransomBlocks
      dsimp only
      rw [hgate, hview, h.left.follows.scoreSession, h.right.follows.scoreSession,
        executes_of_executes hexec, executes_of_executes hexec]
    have hips : d.policy.blacklist.ips = d'.policy.blacklist.ips :=
      (congrArg (fun q : Policy => q.blacklist.ips) h.left.policy).trans
        (congrArg (fun q : Policy => q.blacklist.ips) h.right.policy).symm
    have hlisted := h.listed
    rw [← haddr] at hlisted ⊢
    rw [processMsg_blacklist (h.left.isSome_slot _ _),
      processMsg_blacklist (h.right.isSome_slot _ _), hblocks]
    split
    · rw [h.left.auto.add_strs, h.right.auto.add_strs, hips]
      by_cases hnew : validClientIp msg.clientIp.str = true ∧
          msg.clientIp.str ∉ d'.policy.blacklist.ips.strs
      · by_cases hmem : msg.clientIp.str ∈ d'.policy.blacklist.autoIps.strs
        · rw [if_neg fun hc => hc.2.2 (hlisted.2 hmem), if_neg fun hc => hc.2.2 hmem]
          exact hlisted
        · rw [if_pos ⟨hnew.1, hnew.2, fun hm => hmem (hlisted.1 hm)⟩,
            if_pos ⟨hnew.1, hnew.2, hmem⟩]
          simp
      · rw [if_neg fun hc => hnew ⟨hc.1, hc.2.1⟩, if_neg fun hc => hnew ⟨hc.1, hc.2.1⟩]
        exact hlisted
    · exact hlisted

end

/-- In every interleaving of the messages of two sessions with different keys and addresses,
blocks succeeding, the second session ends as after its own messages alone, its event id
apart. -/
theorem session_isolated (p : LoadedPolicy) (db : Db) (es : List DaemonEvent)
    (key key' : CBuf 128) (ip ip' : CStr) (hkey : key ≠ key') (hip : ip ≠ ip')
    (hevents : ∀ e ∈ es, e.OfSession key ip ∨ e.OfSession key' ip') :
    (daemonRun p db es).view key' =
      (daemonRun p db (es.filter (·.key? = some key'))).view key' := by
  have hstart : ServesTwo p.policy key key' ip ip' (Daemon.start p db) := by
    have hauto : (Daemon.start p db).policy.blacklist.autoIps.strs = [] :=
      congrArg (List.map CBuf.str) p.noAuto
    refine ⟨Daemon.inv_start p db, rfl, fun i k hk => ?_, ?_⟩
    · cases hk
    · refine ⟨fun a ha => ?_, fun a ha => ?_, ?_⟩
      · rw [hauto] at ha; cases ha
      · rw [hauto] at ha; cases ha
      · rw [hauto]; exact List.nodup_nil
  refine (Runs.run_filter (p := fun e => e.OfSession key ip ∨ e.OfSession key' ip') _
    (SameFor p.policy key key' ip ip') (fun d d' e h he hq => ?_) (fun d d' e h he hq => ?_)
    ⟨hstart, hstart, rfl, Iff.rfl⟩ hevents).view
  · cases e with
    | message env msg =>
      have hmsg : msg.sessionKey = key' := Option.some.inj (of_decide_eq_true hq)
      rcases he with ⟨hother, -⟩ | ⟨-, haddr, hexec⟩
      · exact absurd (hother.symm.trans hmsg) hkey
      · exact h.step_own hmsg haddr hexec
    | lookup k now => cases he <;> contradiction
    | reload np syncOk => cases he <;> contradiction
  · cases e with
    | message env msg =>
      rcases he with ⟨hmsg, haddr, -⟩ | ⟨hmsg, -⟩
      · exact h.step_other hkey hip hmsg haddr
      · exact absurd (congrArg some hmsg) (of_decide_eq_false hq)
    | lookup k now => cases he <;> contradiction
    | reload np syncOk => cases he <;> contradiction

/-- The blocks of two addresses, one after the other. -/
theorem session_isolated_sample :
    (daemonRun strictPolicy .empty (criticalRenames 2)).view
        (makeSessionKey (lit "alice") (lit "10.0.0.2")) =
      (daemonRun strictPolicy .empty ((criticalRenames 2).filter
        (·.key? = some (makeSessionKey (lit "alice") (lit "10.0.0.2"))))).view
        (makeSessionKey (lit "alice") (lit "10.0.0.2")) :=
  session_isolated strictPolicy .empty (criticalRenames 2)
    (makeSessionKey (lit "alice") (lit "10.0.0.1")) (makeSessionKey (lit "alice") (lit "10.0.0.2"))
    (lit "10.0.0.1") (lit "10.0.0.2") (by decide) (by decide) (by decide)

end GfrGuard

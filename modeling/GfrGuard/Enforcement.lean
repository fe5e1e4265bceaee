import GfrGuard.Run

/-!
# Blocks and the blocked file

A session's block flag is never taken back, while the line of its address in the blocked
file lives on through the appends of `blocker_execute` and is subject to every rebuild from
the lists. `Enforced` is the invariant of one session: its steps and those of other sessions
keep it, a rebuild keeps it when it finds the address on a list. The runtime list is bounded
and first in, first out, so enough later blocks take an address off the file.
-/

namespace GfrGuard

/-- The file operations of a step succeed. -/
def DaemonEvent.WritesOk : DaemonEvent → Prop
  | .message env _ => env.readOk = true ∧ env.writeOk = true ∧ env.syncOk = true
  | .lookup _ _ => True
  | .reload _ syncOk => syncOk = true

instance : ∀ e : DaemonEvent, Decidable (e.WritesOk)
  | .message .. => inferInstanceAs (Decidable (_ ∧ _))
  | .lookup .. => inferInstanceAs (Decidable True)
  | .reload .. => inferInstanceAs (Decidable (_ = true))

/-- The messages of a session come over SMB or FTP, from one address. -/
def DaemonEvent.ComesFrom (key : CBuf 128) (ip : CStr) : DaemonEvent → Prop
  | .message _ msg => msg.sessionKey = key →
      msg.clientIp.str = ip ∧ (msg.sourceType = sourceSmb ∨ msg.sourceType = sourceFtp)
  | _ => True

instance (key : CBuf 128) (ip : CStr) : ∀ e : DaemonEvent, Decidable (e.ComesFrom key ip)
  | .message .. => inferInstanceAs (Decidable (_ → _))
  | .lookup .. => inferInstanceAs (Decidable True)
  | .reload .. => inferInstanceAs (Decidable True)

/-- The slot holds the session of the key, and it is blocked. -/
def BlockedAt (d : Daemon) (key : CBuf 128) (i : Fin sessionBuckets) : Prop :=
  d.table.keyAt i = some key ∧ (d.session i).isBlocked = true

/-- The session of a key is in the table and blocked. -/
def HasBlocked (d : Daemon) (key : CBuf 128) : Prop :=
  ∃ i, d.table.keyAt i = some key ∧ (d.session i).isBlocked = true

/-- A step rebuilds the blocked file from the lists: a reload that loads a policy, or a
message that blocks its session for its score. -/
def Rebuilds (d : Daemon) : DaemonEvent → Prop
  | .reload np _ => np.isSome = true
  | e => ∃ u ∈ (daemonStep d e).journal, u.kind = .restoreTrigger

/-- A rebuild made while the session of a key is blocked finds the address on a list. -/
def RebuildLists (key : CBuf 128) (ip : CStr) (d : Daemon) (e : DaemonEvent) : Prop :=
  HasBlocked d key → Rebuilds d e → ip ∈ exactEntries (daemonStep d e).policy.blacklist

/-- When the session of a key is blocked, the address is a line of the blocked file. -/
def Enforced (key : CBuf 128) (ip : CStr) (d : Daemon) : Prop :=
  HasBlocked d key → ip ∈ blockedLines d.blocked

section
variable {i j : Fin sessionBuckets} {d d' : Daemon} {t : SessionTable} {key key' : CBuf 128}
  {now : Int} {ip : CStr} {env : CallEnv} {msg : EventMsg} {e : DaemonEvent}

/-- A rebuild leaves a line for an address on a list. -/
theorem mem_blockedLines_sync (content : Option CStr) {bl : Blacklist}
    (hip : validClientIp ip = true) (h : ip ∈ exactEntries bl) :
    ip ∈ blockedLines (blockerSyncBlacklist content bl true) :=
  mem_blockedLines_syncContent h (not_mem_of_validClientIp hip (by decide))

/-- The slot of a lookup is blocked only when it was found so. -/
theorem FindOrCreateSpec.hasBlocked (hfind : FindOrCreateSpec d.table key now i t)
    (h : (t.buckets i).isBlocked = true) : HasBlocked d key := by
  cases hfind with
  | found _ hkey hset =>
    rw [hset, SessionTable.set_self] at h
    exact ⟨i, hkey, h⟩
  | created _ _ hset =>
    rw [hset, SessionTable.set_self] at h
    simp [SessionState.fresh, SessionState.zero] at h

/-- A blocked slot that a stage does not work on was blocked before. -/
theorem FindOrCreateSpec.hasBlocked_of_ne (hfind : FindOrCreateSpec d.table key' now i t)
    (hstage : Stage i { d with table := t, journal := [] } d') (hji : j ≠ i)
    (hkey : d'.table.keyAt j = some key) (h : (d'.session j).isBlocked = true) :
    HasBlocked d key := by
  have hsame : d'.session j = d.session j := (hstage.frame j hji).trans (hfind.frame hji)
  rw [hsame] at h
  simp only [Daemon.session] at hsame
  rw [SessionTable.keyAt, hsame] at hkey
  exact ⟨j, hkey, h⟩

/-- A block is never taken back, and a blocked session never evicted. -/
theorem BlockedAt.step (h : BlockedAt d key j) (e : DaemonEvent) :
    BlockedAt (daemonStep d e) key j := by
  obtain ⟨hj, hblocked⟩ := h
  -- a lookup finds the slot or works on another one
  have hlookup : ∀ {k now i t}, FindOrCreateSpec d.table k now i t →
      t.keyAt j = some key ∧ (t.buckets j).isBlocked = true := by
    intro k now i t hfind
    obtain ⟨huse, hkey⟩ := SessionTable.keyAt_eq_some_iff.1 hj
    have hslot : t.buckets j = d.table.buckets j ∨
        t.buckets j = (d.table.buckets j).touch now := by
      by_cases hji : j = i
      · subst hji
        cases hfind with
        | found _ _ hset => exact .inr (by rw [hset, SessionTable.set_self])
        | created _ hfree _ =>
          rcases hfree with hfree | hfree
          · rw [huse] at hfree; cases hfree
          · simp only [Daemon.session, hfree] at hblocked; cases hblocked
      · exact .inl (hfind.frame hji)
    rw [SessionTable.keyAt_eq_some_iff]
    rcases hslot with hs | hs <;> rw [hs] <;> exact ⟨⟨huse, hkey⟩, hblocked⟩
  cases e with
  | message env msg =>
    have hspec := processMsg_spec env msg d
    show BlockedAt (processMsg env msg d) key j
    generalize processMsg env msg d = d' at hspec
    cases hspec with
    | idle => exact ⟨hj, hblocked⟩
    | worked i t d' hfind hstage _ heffect =>
      obtain ⟨hkey, hflag⟩ := hlookup hfind
      by_cases hji : j = i
      · subst hji
        obtain ⟨huse, hkey⟩ := SessionTable.keyAt_eq_some_iff.1 hkey
        refine ⟨SessionTable.keyAt_eq_some_iff.2
          ⟨hstage.inUse.trans huse, hstage.key.trans hkey⟩, ?_⟩
        cases heffect with
        | none _ hsame => exact hsame.trans hflag
        | append _ hset => exact hset
        | rebuild _ _ _ _ _ hset => exact hset
      · have hframe := hstage.frame j hji
        refine ⟨?_, by rw [hframe]; exact hflag⟩
        simp only [Daemon.session] at hframe
        rw [SessionTable.keyAt, hframe]
        exact hkey
  | lookup k now =>
    simp only [daemonStep]
    split
    · exact ⟨hj, hblocked⟩
    · next i t hfind => exact hlookup (sessionFindOrCreate_spec hfind)
  | reload np syncOk => cases np <;> exact ⟨hj, hblocked⟩

theorem HasBlocked.step (h : HasBlocked d key) (e : DaemonEvent) :
    HasBlocked (daemonStep d e) key := by
  obtain ⟨j, hj⟩ := h
  exact ⟨j, BlockedAt.step hj e⟩

/-- A block stays for the rest of a run. -/
theorem HasBlocked.run (h : HasBlocked d key) (es : List DaemonEvent) :
    HasBlocked (Runs.run daemonStep d es) key :=
  Runs.run_invariant (HasBlocked · key) (fun _ e hb => hb.step e) h es

/-- A message keeps a session's block on the file, whoever sent it. -/
theorem Enforced.message (he : Enforced key ip d) (hip : validClientIp ip = true)
    (hwrites : (DaemonEvent.message env msg).WritesOk)
    (hfrom : (DaemonEvent.message env msg).ComesFrom key ip)
    (hlists : RebuildLists key ip d (.message env msg)) :
    Enforced key ip (processMsg env msg d) := by
  have hspec := processMsg_spec env msg d
  simp only [RebuildLists, Rebuilds, daemonStep] at hlists
  generalize processMsg env msg d = d' at hspec hlists
  cases hspec with
  | idle => exact he
  | worked i t d' hfind hstage _ heffect =>
    rintro ⟨j, hj, hblocked⟩
    by_cases hji : j = i
    · -- the session of the message itself
      subst hji
      have hslot := SessionTable.keyAt_eq_some_iff.1 hj
      have hkey : msg.sessionKey = key :=
        (hstage.key.trans hfind.slot.2).symm.trans hslot.2
      obtain ⟨hclient, hsource⟩ := hfrom hkey
      have hblockIp : blockIp msg = ip := by rw [blockIp, if_pos hsource, hclient]
      cases heffect with
      | none hfile hflag =>
        rw [hfile]
        refine he (hkey ▸ hfind.hasBlocked ?_)
        rw [← hblocked, hflag]
        rfl
      | append happend =>
        rw [hblockIp] at happend
        exact mem_blockedLines_blockerAppend happend hip
      | rebuild content happend hlist hsync =>
        rw [hsync, hlist, hwrites.2.2]
        have hmem := mem_blacklistAutoAdd d.policy.blacklist msg.clientIp (hclient ▸ hip)
        rw [hclient] at hmem
        exact mem_blockedLines_sync _ hip (mem_exactEntries hip hmem)
    · -- another session
      have hold := hfind.hasBlocked_of_ne hstage hji hj hblocked
      cases heffect with
      | none hfile => rw [hfile]; exact he hold
      | append happend =>
        exact blockerAppend_keeps happend (he hold) (ne_nil_of_validClientIp hip)
      | rebuild content _ _ hsync htrigger =>
        rw [hsync, hwrites.2.2]
        exact mem_blockedLines_sync _ hip (hlists hold htrigger)

/-- A lookup blocks no session and leaves the blocked file. -/
theorem daemonStep_lookup_blocked (key : CBuf 128) (d : Daemon) (k : CBuf 128) (now : Int) :
    (HasBlocked (daemonStep d (.lookup k now)) key → HasBlocked d key) ∧
      (daemonStep d (.lookup k now)).blocked = d.blocked := by
  simp only [daemonStep]
  split
  · exact ⟨id, rfl⟩
  · next i t hfind =>
    refine ⟨?_, rfl⟩
    have hspec := sessionFindOrCreate_spec hfind
    rintro ⟨j, hj, hblocked⟩
    by_cases hji : j = i
    · subst hji
      have hkey : k = key := hspec.slot.2.symm.trans (SessionTable.keyAt_eq_some_iff.1 hj).2
      exact hkey ▸ hspec.hasBlocked hblocked
    · exact hspec.hasBlocked_of_ne (Stage.refl i _) hji hj hblocked

/-- Every step keeps a session's block on the file, as long as a rebuild finds the address
on a list. -/
theorem Enforced.step (he : Enforced key ip d) (hip : validClientIp ip = true)
    (hwrites : e.WritesOk) (hfrom : e.ComesFrom key ip) (hlists : RebuildLists key ip d e) :
    Enforced key ip (daemonStep d e) := by
  cases e with
  | message env msg => exact he.message hip hwrites hfrom hlists
  | lookup k now =>
    obtain ⟨hback, hfile⟩ := daemonStep_lookup_blocked key d k now
    intro h
    rw [hfile]
    exact he (hback h)
  | reload np syncOk =>
    cases np with
    | none => exact he
    | some np =>
      intro hold
      have hsync : syncOk = true := hwrites
      subst hsync
      exact mem_blockedLines_sync d.blocked hip (hlists hold rfl)

end

/-! ## Runs -/

/-- In every run whose file operations succeed, a blocked session of SMB or FTP messages from
one valid address has that address on the blocked file, provided that every rebuild made
while it was blocked found the address on a list. -/
theorem block_enforced (p : LoadedPolicy) (db : Db) (es : List DaemonEvent) (key : CBuf 128)
    (ip : CStr) (hip : validClientIp ip = true) (hwrites : ∀ e ∈ es, e.WritesOk)
    (hfrom : ∀ e ∈ es, e.ComesFrom key ip)
    (hlists : Runs.AllSteps daemonStep (RebuildLists key ip) (Daemon.start p db) es)
    (hblocked : HasBlocked (daemonRun p db es) key) :
    ip ∈ blockedLines (daemonRun p db es).blocked := by
  have hstart : Enforced key ip (Daemon.start p db) := by
    rintro ⟨i, -, h⟩
    simp [Daemon.session, Daemon.start, Daemon.init, sessionTableInit, SessionState.zero] at h
  have hall : ∀ e ∈ es, e.WritesOk ∧ e.ComesFrom key ip := fun e he =>
    ⟨hwrites e he, hfrom e he⟩
  exact Runs.run_invariant_of_allSteps (Enforced key ip)
    (fun _ _ h hstep => h.step hip hstep.1.1 hstep.1.2 hstep.2) hstart
    (Runs.allSteps_and.2 ⟨Runs.allSteps_of_forall hall, hlists⟩) hblocked

/-- A critical rename by `alice` from each of the addresses `10.0.0.1`, `10.0.0.2`, … -/
def criticalRenames (n : Nat) : List DaemonEvent :=
  (List.range n).map fun k => .message (sampleEnv 1)
    { sampleRename with clientIp := .ofStr 48 (lit "10.0.0." ++ dec (k + 1)) }

/-- Two sessions blocked one after the other: the first one's address survives the second
one's rebuild. -/
theorem block_enforced_sample :
    lit "10.0.0.1" ∈ blockedLines (daemonRun strictPolicy .empty (criticalRenames 2)).blocked := by
  refine block_enforced strictPolicy .empty (criticalRenames 2)
    (makeSessionKey (lit "alice") (lit "10.0.0.1")) (lit "10.0.0.1") (by decide)
    (by decide) (by decide) ⟨fun _ _ => ?_, fun _ _ => ?_, trivial⟩
    ⟨SessionTable.probe (makeSessionKey (lit "alice") (lit "10.0.0.1")) 0, ?_⟩
  all_goals decide

/-- A critical rename by `alice` from each of the addresses `1::`, `2::`, …; the file of many of
them stays short. -/
def criticalRenames6 (n : Nat) : List DaemonEvent :=
  (List.range n).map fun k => .message (sampleEnv 1)
    { sampleRename with clientIp := .ofStr 48 (dec (k + 1) ++ lit "::") }

/-- The runtime list holds 64 addresses: the block of a 65th session takes the first one's
address off the blocked file. -/
theorem block_not_always_enforced :
    ¬ ∀ (p : LoadedPolicy) (db : Db) (es : List DaemonEvent) (key : CBuf 128) (ip : CStr),
      validClientIp ip = true → (∀ e ∈ es, e.WritesOk) → (∀ e ∈ es, e.ComesFrom key ip) →
      HasBlocked (daemonRun p db es) key → ip ∈ blockedLines (daemonRun p db es).blocked := by
  intro h
  -- the first message blocks the session, and it stays blocked
  have hfirst : HasBlocked (daemonRun strictPolicy .empty (criticalRenames6 1))
      (makeSessionKey (lit "alice") (lit "1::")) :=
    ⟨SessionTable.probe (makeSessionKey (lit "alice") (lit "1::")) 0, by decide⟩
  have hsplit : criticalRenames6 65 = criticalRenames6 1 ++ (criticalRenames6 65).drop 1 := by
    have htake : criticalRenames6 1 = (criticalRenames6 65).take 1 := by
      simp [criticalRenames6, ← List.map_take, List.take_range]
    rw [htake, List.take_append_drop]
  have hblocked : HasBlocked (daemonRun strictPolicy .empty (criticalRenames6 65))
      (makeSessionKey (lit "alice") (lit "1::")) := by
    rw [hsplit, daemonRun, Runs.run_append]
    exact hfirst.run _
  have hline := h strictPolicy .empty (criticalRenames6 65)
    (makeSessionKey (lit "alice") (lit "1::")) (lit "1::") (by decide)
    (by decide) (by decide) hblocked
  revert hline
  decide +kernel

end GfrGuard

import GfrGuard.ListEffects
import GfrGuard.NameOps
import GfrGuard.Precedence
import GfrGuard.Verdicts

/-!
# What the VFS module enforces

The VFS module refuses whoever is a line of the blocked file, and a reload rebuilds the file from
the blacklist alone. So it refuses an address against the switches or the whitelist exactly when
the address is a line of a plain blacklist entry while SMB protection is off or the address is
whitelisted (`smb_enforcement_iff`).
-/

namespace GfrGuard

/-- The daemon right after it started with a policy or loaded it again, with the blocked file
rebuilt. -/
def JustSynced (p : LoadedPolicy) (d : Daemon) : Prop :=
  (∃ d₀, d = startDaemon p true d₀) ∨ ∃ d₀, d = daemonReload (some p) true d₀

/-- The policy protects SMB sessions, and does not let the address through. -/
def SmbProtected (p : Policy) (ip : CStr) : Prop :=
  p.protection.enabled = true ∧ p.protection.smb = true ∧ scorerIsWhitelisted p [] ip = false

/-- Each entry of the blacklist that is no network and no range has the address as a line of it
only if the policy protects SMB sessions and does not list the address as a friend. -/
def EntriesEnforced (p : Policy) (ip : CStr) : Prop :=
  ∀ entry ∈ exactEntries p.blacklist, ip ≠ [] → ip ∈ entry.splitOn newline →
    p.protection.enabled = true ∧ p.protection.smb = true ∧ ipListed p.whitelist.ips.strs ip = false

instance (p : Policy) (ip : CStr) : Decidable (EntriesEnforced p ip) := by
  unfold EntriesEnforced; infer_instance

section
variable {p : LoadedPolicy} {d : Daemon} {conn : Conn} {env : VfsEnv}

theorem JustSynced.spec (h : JustSynced p d) :
    d.policy = p.policy ∧ d.blocked = some (syncContent p.policy.blacklist) := by
  rcases h with ⟨d₀, rfl⟩ | ⟨d₀, rfl⟩ <;> exact ⟨rfl, rfl⟩

theorem isBlocked_fst (s : VfsState) : (conn.isBlocked env s).1 = conn.listed env := by
  unfold Conn.isBlocked
  split
  · next h => exact h.symm
  · next h => exact (Bool.eq_false_iff.2 h).symm

/-- What is refused after a rebuild. -/
theorem listed_sync_iff {bl : Blacklist} (h : env.blocked = some (syncContent bl)) :
    conn.listed env = true ↔
      conn.ip ≠ [] ∧ ∃ entry ∈ exactEntries bl, conn.ip ∈ entry.splitOn newline := by
  unfold Conn.listed lineExists
  rw [h, Bool.and_eq_true, decide_eq_true_eq, decide_eq_true_eq]
  exact and_congr_right fun hne => mem_blockedLines_sync_iff hne

/-- After a start or a reload the VFS module refuses an address only where the policy protects SMB
sessions and does not whitelist the address, exactly when this holds for each plain entry of the
blacklist. -/
theorem smb_enforcement_iff {cfg : ConfigEnv} {files : FileTexts} {path : CStr}
    (hload : loadPolicy cfg files path = some p) (hsync : JustSynced p d)
    (hfile : env.blocked = d.blocked) (s : VfsState) :
    ((conn.isBlocked env s).1 = true → SmbProtected d.policy conn.ip) ↔
      EntriesEnforced p.policy conn.ip := by
  obtain ⟨hpolicy, hblocked⟩ := hsync.spec
  have hsorted : p.policy.ListsSorted := by
    unfold loadPolicy at hload
    obtain ⟨st, -, hst, rfl⟩ := Option.pmap_eq_some_iff.1 hload
    exact listsSorted_of_configLoad hst
  have hwhite : scorerIsWhitelisted p.policy [] conn.ip = ipListed p.policy.whitelist.ips.strs conn.ip :=
    (scorerIsWhitelisted_eq hsorted [] conn.ip).trans (Bool.false_or _)
  rw [isBlocked_fst, listed_sync_iff (hfile.trans hblocked), hpolicy]
  unfold SmbProtected EntriesEnforced
  rw [hwhite]
  exact ⟨fun h entry hentry hip hline => h ⟨hip, entry, hentry, hline⟩,
    fun h ⟨hip, entry, hentry, hline⟩ => h entry hentry hip hline⟩

end

/-! ## Switched off -/

/-- The text of a policy that blacklists an address, with SMB protection off. -/
def smbOffText : CStr :=
  lit "\x7b\"blacklist\":\x7b\"ips\":[\"10.0.0.5\"]\x7d,\"protection\":\x7b\"smb\":false\x7d\x7d"

/-- Its document. -/
def smbOffDoc : Json :=
  .obj [(lit "blacklist", .obj [(lit "ips", .arr [.str (lit "10.0.0.5")])]),
    (lit "protection", .obj [(lit "smb", .bool false)])]

/-- What is loaded from it. -/
def smbOffPolicy : LoadedPolicy where
  policy := (docSettings smbOffText smbOffDoc).policy
  valid := by decide
  noAuto := rfl

theorem loadPolicy_smbOff :
    loadPolicy (docEnv smbOffText smbOffDoc) (sampleFiles smbOffText) samplePath = some smbOffPolicy := by
  unfold loadPolicy
  rw [Option.pmap_eq_some_iff]
  exact ⟨docSettings smbOffText smbOffDoc, ⟨smbOffPolicy.valid, smbOffPolicy.noAuto⟩,
    configLoad_doc (by decide) (by decide), rfl⟩

/-- A call of the client at an address while the blocked file is the daemon's. -/
def clientCall (d : Daemon) : VfsEnv := { sampleVfsEnv with blocked := d.blocked }

/-- Another address is not refused. -/
theorem smb_enforcement_sample :
    ({ sampleConn with ip := lit "10.0.0.6" }.isBlocked
      (clientCall (startDaemon smbOffPolicy true (Daemon.init .default))) ⟨.empty, []⟩).1 = false := by
  let conn : Conn := { sampleConn with ip := lit "10.0.0.6" }
  have hentries : EntriesEnforced smbOffPolicy.policy conn.ip := by decide
  let d : Daemon := startDaemon smbOffPolicy true (Daemon.init .default)
  have hfile : (clientCall d).blocked = d.blocked := rfl
  have hprotected := (smb_enforcement_iff loadPolicy_smbOff (.inl ⟨_, rfl⟩) hfile ⟨.empty, []⟩).2 hentries
  exact Bool.eq_false_iff.2 fun hblocked => absurd (hprotected hblocked).2.1 (by decide)

/-- The blacklisted address is refused though SMB protection is off. -/
theorem smb_enforcement_broken :
    ¬ ∀ (cfg : ConfigEnv) (files : FileTexts) (path : CStr) (p : LoadedPolicy) (d : Daemon)
      (conn : Conn) (env : VfsEnv) (s : VfsState), loadPolicy cfg files path = some p →
      JustSynced p d → env.blocked = d.blocked → (conn.isBlocked env s).1 = true →
      SmbProtected d.policy conn.ip := by
  intro h
  let d := startDaemon smbOffPolicy true (Daemon.init .default)
  have hprotected := h _ _ _ _ d sampleConn (clientCall d) ⟨.empty, []⟩ loadPolicy_smbOff
    (.inl ⟨_, rfl⟩) rfl (by decide)
  exact absurd hprotected.2.1 (by decide)

end GfrGuard

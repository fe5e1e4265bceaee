import GfrGuard.Isolation
import GfrGuard.Persist

/-!
# The order of the lists

The lists are documented to be asked address before user, and the whitelist before the blacklist
for each. `process_msg` asks the whole whitelist first, so a whitelisted user passes from a
blacklisted address. In every other case the two orders agree (`list_precedence_iff`).
-/

namespace GfrGuard

/-- The user is on a list of users. -/
def userListed (users : List CStr) (username : CStr) : Bool := username ≠ [] && username ∈ users

/-- The address is on a list of addresses: as an entry, or inside a network or a range. -/
def ipListed (ips : List CStr) (ip : CStr) : Bool := (ip ≠ [] && ip ∈ ips) || ips.any (entryCovers ip)

/-- The address is on the blacklist, the manual or the runtime one. -/
def ipBlacklisted (bl : Blacklist) (ip : CStr) : Bool :=
  ipListed bl.ips.strs ip || bl.autoIps.strs.any (autoEntryMatches ip)

/-- The documented order: addresses before users, for each the whitelist before the blacklist. -/
def listPrecedence (p : Policy) (username ip : CStr) : Gate :=
  if ipListed p.whitelist.ips.strs ip then .whitelistBypass
  else if ipBlacklisted p.blacklist ip then .blacklistBlock
  else if userListed p.whitelist.users.strs username then .whitelistBypass
  else if userListed p.blacklist.users.strs username then .blacklistBlock
  else .accept

/-- The lists a lookup searches ascend by hash. -/
structure Policy.ListsSorted (p : Policy) : Prop where
  whiteUsers : HashSorted p.whitelist.users.strs
  whiteIps : HashSorted p.whitelist.ips.strs
  blackUsers : HashSorted p.blacklist.users.strs
  blackIps : HashSorted p.blacklist.ips.strs

section
variable {p : Policy} {msg : EventMsg} {env : ConfigEnv} {files : FileTexts} {path : CStr}
  {s : Settings} {strings : List CStr}

/-! ## Lookups -/

/-- A loaded policy has sorted lists. -/
theorem listsSorted_of_configLoad (h : configLoad env files path = some s) : s.policy.ListsSorted := by
  obtain ⟨root, -, rfl, -⟩ := configLoad_eq_some.1 h
  exact ⟨StrList.hashSorted_sorted _, StrList.hashSorted_sorted _, StrList.hashSorted_sorted _,
    StrList.hashSorted_sorted _⟩

theorem hashLookup_eq (h : HashSorted strings) (key : CStr) :
    hashLookup key strings = userListed strings key := by
  rw [Bool.eq_iff_iff, hashLookup_iff h]
  simp [userListed]

theorem scorerIsWhitelisted_eq (h : p.ListsSorted) (username ip : CStr) :
    scorerIsWhitelisted p username ip =
      (userListed p.whitelist.users.strs username || ipListed p.whitelist.ips.strs ip) := by
  unfold scorerIsWhitelisted ipListed
  rw [hashLookup_eq h.whiteUsers, hashLookup_eq h.whiteIps, Bool.or_assoc]
  rfl

theorem scorerIsBlacklisted_eq (h : p.ListsSorted) (username ip : CStr) :
    scorerIsBlacklisted p (some username) ip =
      (userListed p.blacklist.users.strs username || ipBlacklisted p.blacklist ip) := by
  unfold scorerIsBlacklisted ipBlacklisted ipListed
  rw [Option.any_some, hashLookup_eq h.blackUsers, hashLookup_eq h.blackIps]
  simp only [Bool.or_assoc]
  rfl

/-! ## The gates -/

/-- The earlier gates let the message through to the lists. -/
def ReachesLists (p : Policy) (msg : EventMsg) : Prop :=
  p.protection.enabled = true ∧ sourceEnabled p.protection msg.sourceType = true ∧
    extMatched p.fileExt msg.filePath.str = true ∧ scorerIsExcepted p msg.filePath.str = false

instance (p : Policy) (msg : EventMsg) : Decidable (ReachesLists p msg) :=
  inferInstanceAs (Decidable (_ ∧ _))

/-- Behind the earlier gates the lists decide. -/
theorem gate_of_reachesLists (h : ReachesLists p msg) : gate p msg =
    if scorerIsWhitelisted p msg.username.str msg.clientIp.str then .whitelistBypass
    else if scorerIsBlacklisted p (some msg.username.str) msg.clientIp.str then .blacklistBlock
    else .accept := by
  unfold gate
  rw [h.1, h.2.1, h.2.2.1, h.2.2.2]
  rfl

/-- A message with none of the earlier gates in its way is sent where the documented order sends
it, exactly unless a whitelisted user comes from a blacklisted address that is not whitelisted. -/
theorem list_precedence_iff (h : configLoad env files path = some s) (auto : StrList 64 48)
    (hlists : ReachesLists (s.policy.withAuto auto) msg) :
    gate (s.policy.withAuto auto) msg =
        listPrecedence (s.policy.withAuto auto) msg.username.str msg.clientIp.str ↔
      ¬ (userListed s.policy.whitelist.users.strs msg.username.str = true ∧
        ipListed s.policy.whitelist.ips.strs msg.clientIp.str = false ∧
        ipBlacklisted (s.policy.withAuto auto).blacklist msg.clientIp.str = true) := by
  have hsorted : (s.policy.withAuto auto).ListsSorted := by
    have := listsSorted_of_configLoad h
    exact ⟨this.whiteUsers, this.whiteIps, this.blackUsers, this.blackIps⟩
  rw [gate_of_reachesLists hlists, scorerIsWhitelisted_eq hsorted, scorerIsBlacklisted_eq hsorted]
  unfold listPrecedence
  rw [show (s.policy.withAuto auto).whitelist = s.policy.whitelist from rfl]
  cases userListed s.policy.whitelist.users.strs msg.username.str <;>
    cases ipListed s.policy.whitelist.ips.strs msg.clientIp.str <;>
    cases ipBlacklisted (s.policy.withAuto auto).blacklist msg.clientIp.str <;>
    cases userListed (s.policy.withAuto auto).blacklist.users.strs msg.username.str <;>
    simp

end

/-! ## A conflict -/

/-- The text of a policy that blacklists an address and whitelists a user. -/
def conflictText : CStr :=
  lit "\x7b\"blacklist\":\x7b\"ips\":[\"10.0.0.5\"]\x7d,\"whitelist\":\x7b\"users\":[\"alice\"]\x7d\x7d"

/-- Its document. -/
def conflictDoc : Json :=
  .obj [(lit "blacklist", .obj [(lit "ips", .arr [.str (lit "10.0.0.5")])]),
    (lit "whitelist", .obj [(lit "users", .arr [.str (lit "alice")])])]

theorem configLoad_conflict :
    configLoad (docEnv conflictText conflictDoc) (sampleFiles conflictText) samplePath =
      some (docSettings conflictText conflictDoc) := configLoad_doc (by decide) (by decide)

/-- Another user from the address is blocked. -/
theorem list_precedence_sample :
    gate ((docSettings conflictText conflictDoc).policy.withAuto (.nil 64 48))
        { sampleMsg with username := .ofStr 64 (lit "bob") } =
      listPrecedence ((docSettings conflictText conflictDoc).policy.withAuto (.nil 64 48))
        (CBuf.ofStr 64 (lit "bob")).str sampleMsg.clientIp.str := by
  have hlists : ReachesLists ((docSettings conflictText conflictDoc).policy.withAuto (.nil 64 48))
      { sampleMsg with username := .ofStr 64 (lit "bob") } := by decide
  exact (list_precedence_iff configLoad_conflict (.nil 64 48) hlists).2 (by decide)

/-- Alice from the blacklisted address is let through. -/
theorem list_precedence_broken :
    ¬ ∀ (env : ConfigEnv) (files : FileTexts) (path : CStr) (s : Settings) (msg : EventMsg),
      configLoad env files path = some s → ReachesLists s.policy msg →
      gate s.policy msg = listPrecedence s.policy msg.username.str msg.clientIp.str := by
  intro h
  have hgate := h _ _ _ _ sampleMsg configLoad_conflict (by decide)
  revert hgate
  decide

end GfrGuard

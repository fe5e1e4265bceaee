import GfrGuard.Inet
import GfrGuard.Session

/-!
# Scoring and the policy lists

`scorer_calculate` turns a session's counters into a score and a risk level; the whitelist,
blacklist and exception tests decide which messages reach it. The runtime blacklist is a
first-in-first-out list of at most 64 addresses (`blacklistAutoAdd`), which an address that
was just added is always on (`mem_blacklistAutoAdd`).
-/

namespace GfrGuard

/-! ## The score -/

/-- `clamp100`. -/
def clamp100 (v : Int) : UInt32 := if v < 0 then 0 else if 100 < v then 100 else v.toNat.toUInt32

/-- The weighted sum of the counters, a `long` of the source that is taken not to overflow.
Entropy and YARA count once per session. -/
def rawScore (s : SessionState) (w : Weights) : Int :=
  s.modifiedCount.toNat * w.modified + s.renameCount.toNat * w.renameW +
    s.deleteCount.toNat * w.deleteW + s.touchedDirs.toNat * w.dirs +
    s.extChangeCount.toNat * w.extChange + s.ransomExtCount.toNat * w.ransomExt +
    (if s.highEntropyCount ≠ 0 then 1 else 0) * w.highEntropy +
    (if s.yaraMatchCount ≠ 0 then 1 else 0) * w.yaraMatch

/-- Content-same suppression: from 80 % of identical writes on the score is 0, from 50 % on
it stays below the warning threshold. The share is computed in 32 bits. -/
def suppressSame (s : SessionState) (t : Thresholds) (score : Int) : Int :=
  let totalWrites := s.modifiedCount + s.contentSameCount
  if 0 < totalWrites ∧ 0 < s.contentSameCount then
    let pctSame := s.contentSameCount * 100 / totalWrites
    if 80 ≤ pctSame then 0
    else if 50 ≤ pctSame then min score (t.warn - 1)
    else score
  else score

/-- A session that only deletes stays at 60. -/
def capDeleteOnly (s : SessionState) (score : UInt32) : UInt32 :=
  if s.modifiedCount = 0 ∧ s.renameCount = 0 ∧ s.extChangeCount = 0 ∧ s.ransomExtCount = 0 ∧
      s.highEntropyCount = 0 ∧ s.yaraMatchCount = 0 ∧ 0 < s.deleteCount then
    if 60 < score then 60 else score
  else score

/-- The number of behavioural dimensions a session shows. -/
def dimensions (s : SessionState) : Nat :=
  (if 0 < s.modifiedCount then 1 else 0) + (if 0 < s.renameCount then 1 else 0) +
    (if 0 < s.deleteCount then 1 else 0) + (if 0 < s.touchedDirs then 1 else 0) +
    (if 0 < s.extChangeCount then 1 else 0)

/-- A single dimension without a ransomware extension stays below critical. -/
def capOneDimension (s : SessionState) (t : Thresholds) (score : UInt32) : UInt32 :=
  if dimensions s = 1 ∧ s.ransomExtCount = 0 ∧ t.critical - 1 < score.toNat then
    UInt32.ofInt (t.critical - 1)
  else score

/-- The level of a score. -/
def levelOf (t : Thresholds) (score : UInt32) : RiskLevel :=
  let v := score.toInt32.toInt
  if t.critical ≤ v then .critical
  else if t.high ≤ v then .high
  else if t.warn ≤ v then .suspicious
  else .normal

/-- `scorer_calculate`. -/
def scorerCalculate (s : SessionState) (p : Policy) : SessionState :=
  let score := clamp100 (suppressSame s p.scoring.thresholds (rawScore s p.scoring.weights))
  let score := capOneDimension s p.scoring.thresholds (capDeleteOnly s score)
  { s with riskScore := score, riskLevel := levelOf p.scoring.thresholds score }

theorem scorerCalculate_sameSession (s : SessionState) (p : Policy) :
    s.SameSession (scorerCalculate s p) := ⟨rfl, rfl, rfl⟩

@[simp] theorem scorerCalculate_currentEventId (s : SessionState) (p : Policy) :
    (scorerCalculate s p).currentEventId = s.currentEventId := rfl

/-! ## The caps on numbers -/

/-- A session that deleted and showed nothing else the score counts, its directories apart. -/
structure SessionState.DeleteOnly (s : SessionState) : Prop where
  modified : s.modifiedCount = 0
  renamed : s.renameCount = 0
  extChanged : s.extChangeCount = 0
  ransomExt : s.ransomExtCount = 0
  highEntropy : s.highEntropyCount = 0
  yaraMatch : s.yaraMatchCount = 0
  deleted : 0 < s.deleteCount

theorem SessionState.deleteOnly_iff (s : SessionState) : s.DeleteOnly ↔
    s.modifiedCount = 0 ∧ s.renameCount = 0 ∧ s.extChangeCount = 0 ∧ s.ransomExtCount = 0 ∧
      s.highEntropyCount = 0 ∧ s.yaraMatchCount = 0 ∧ 0 < s.deleteCount :=
  ⟨fun ⟨h1, h2, h3, h4, h5, h6, h7⟩ => ⟨h1, h2, h3, h4, h5, h6, h7⟩,
    fun ⟨h1, h2, h3, h4, h5, h6, h7⟩ => ⟨h1, h2, h3, h4, h5, h6, h7⟩⟩

instance (s : SessionState) : Decidable s.DeleteOnly := decidable_of_iff' _ s.deleteOnly_iff

theorem toNat_clamp100 (v : Int) : (clamp100 v).toNat = min v.toNat 100 := by
  unfold clamp100
  have h0 : UInt32.toNat 0 = 0 := rfl
  have h100 : UInt32.toNat 100 = 100 := rfl
  split
  · omega
  · split
    · omega
    · rw [Nat.toUInt32_eq, UInt32.toNat_ofNat', Nat.mod_eq_of_lt (by omega)]
      omega

theorem toNat_capDeleteOnly (s : SessionState) (score : UInt32) :
    (capDeleteOnly s score).toNat = if s.DeleteOnly then min score.toNat 60 else score.toNat := by
  unfold capDeleteOnly
  have h60 : UInt32.toNat 60 = 60 := rfl
  by_cases h : s.DeleteOnly
  · rw [if_pos h, if_pos (s.deleteOnly_iff.1 h)]
    split
    · next hlt => rw [UInt32.lt_iff_toNat_lt] at hlt; omega
    · next hle => rw [UInt32.lt_iff_toNat_lt] at hle; omega
  · rw [if_neg h, if_neg fun h' => h (s.deleteOnly_iff.2 h')]

theorem toNat_capOneDimension {s : SessionState} {t : Thresholds} {score : UInt32}
    (hpos : 1 ≤ t.critical) (hmax : t.critical ≤ 100) :
    (capOneDimension s t score).toNat =
      if dimensions s = 1 ∧ s.ransomExtCount = 0 then min score.toNat (t.critical - 1).toNat
      else score.toNat := by
  unfold capOneDimension
  by_cases h : dimensions s = 1 ∧ s.ransomExtCount = 0
  · rw [if_pos h]
    by_cases hlt : t.critical - 1 < score.toNat
    · rw [if_pos ⟨h.1, h.2, hlt⟩, UInt32.ofInt, UInt32.toNat_ofNat']
      omega
    · rw [if_neg fun h' => hlt h'.2.2]
      omega
  · rw [if_neg h, if_neg fun h' => h ⟨h'.1, h'.2.1⟩]

/-- A score is compared as a signed number, which for a score is the same. -/
theorem toInt_score {score : UInt32} (h : score.toNat ≤ 100) :
    score.toInt32.toInt = (score.toNat : Int) := by
  show score.toBitVec.toInt = _
  rw [BitVec.toInt_eq_toNat_of_lt]
  · rfl
  · show 2 * score.toNat < 2 ^ 32
    omega

theorem levelOf_eq_critical_iff {t : Thresholds} {score : UInt32} (hle : score.toNat ≤ 100) :
    levelOf t score = .critical ↔ t.critical ≤ score.toNat := by
  unfold levelOf
  dsimp only
  rw [toInt_score hle]
  split
  · next h => exact iff_of_true rfl h
  · next h => refine iff_of_false ?_ h; split_ifs <;> exact fun heq => by cases heq

/-! ## Address lists -/

/-- `is_cidr`. -/
def isCidr (s : CStr) : Bool := slash ∈ s

/-- `is_ip_range`. -/
def isIpRange (s : CStr) : Bool := dash ∈ s

/-- The two sides of the first occurrence of a byte. -/
def splitFirst (c : UInt8) (s : CStr) : CStr × CStr :=
  (s.takeWhile (· ≠ c), (s.dropWhile (· ≠ c)).drop 1)

/-- `atoi` as an `int`: the `long` of `strtol`, which stops at its bounds, cut to 32 bits. -/
def atoiInt (s : CStr) : Int := (max (-2 ^ 63) (min (2 ^ 63 - 1) (atoi s))).bmod (2 ^ 32)

/-- The mask of a network, which keeps the leading bits. -/
def cidrMask (bits : Nat) : UInt32 := if bits = 0 then 0 else ~~~((1 <<< (32 - bits).toUInt32) - 1)

/-- `ip_in_cidr` on its copy of the entry, with a parser of addresses. -/
def ipInCidrOn (aton : CStr → Option UInt32) (ip buf : CStr) : Bool :=
  isCidr buf &&
    let (base, rest) := splitFirst slash buf
    let bits := atoiInt rest
    if bits < 0 ∨ 32 < bits then false
    else
      match aton base, aton ip with
      | some net, some addr => addr &&& cidrMask bits.toNat = net &&& cidrMask bits.toNat
      | _, _ => false

/-- `ip_in_range` on its copy of the entry: the bounds may come in either order. -/
def ipInRangeOn (aton : CStr → Option UInt32) (ip buf : CStr) : Bool :=
  isIpRange buf &&
    let (first, last) := splitFirst dash buf
    match aton first, aton last, aton ip with
    | some a, some b, some v =>
      let (a, b) := if b < a then (b, a) else (a, b)
      a ≤ v && v ≤ b
    | _, _, _ => false

/-- `ip_in_cidr`, which copies the entry to 64 bytes. -/
def ipInCidrBy (aton : CStr → Option UInt32) (ip cidr : CStr) : Bool :=
  ipInCidrOn aton ip (snprintf 64 cidr)

/-- `ip_in_range`, which copies the entry to 64 bytes. -/
def ipInRangeBy (aton : CStr → Option UInt32) (ip range : CStr) : Bool :=
  ipInRangeOn aton ip (snprintf 64 range)

/-- A list entry that is a network or a range covers the address. -/
def entryCoversBy (aton : CStr → Option UInt32) (ip entry : CStr) : Bool :=
  if isCidr entry then ipInCidrBy aton ip entry
  else if isIpRange entry then ipInRangeBy aton ip entry
  else false

/-- The address in a text, as `inet_aton` of the C library reads it. -/
def atonValue (s : CStr) : Option UInt32 := (inetAton s).map Nat.toUInt32

/-- `ip_in_cidr`. -/
def ipInCidr (ip cidr : CStr) : Bool := ipInCidrBy atonValue ip cidr

/-- `ip_in_range`. -/
def ipInRange (ip range : CStr) : Bool := ipInRangeBy atonValue ip range

/-- The entry covers the address. -/
def entryCovers (ip entry : CStr) : Bool := entryCoversBy atonValue ip entry

/-- `scorer_is_whitelisted`. -/
def scorerIsWhitelisted (p : Policy) (username clientIp : CStr) : Bool :=
  hashLookup username p.whitelist.users.strs ||
    hashLookup clientIp p.whitelist.ips.strs ||
    p.whitelist.ips.strs.any (entryCovers clientIp)

/-- An entry of the runtime list matches: equal, or a network or a range that covers the
address. -/
def autoEntryMatches (ip entry : CStr) : Bool :=
  entry ≠ [] && (ip = entry || (isCidr entry && ipInCidr ip entry) ||
    (isIpRange entry && ipInRange ip entry))

/-- `scorer_is_blacklisted`; no user name asks about the address alone. -/
def scorerIsBlacklisted (p : Policy) (username : Option CStr) (clientIp : CStr) : Bool :=
  username.any (hashLookup · p.blacklist.users.strs) ||
    hashLookup clientIp p.blacklist.ips.strs ||
    p.blacklist.ips.strs.any (entryCovers clientIp) ||
    p.blacklist.autoIps.strs.any (autoEntryMatches clientIp)

/-! ## Exceptions -/

/-- An excepted file matches a path that ends in it after a slash. -/
def suffixExcepted (filePath file : CStr) : Bool :=
  file ≠ [] && file.length < filePath.length &&
    (filePath.take (filePath.length - file.length)).getLast? = some slash &&
    filePath.drop (filePath.length - file.length) = file

/-- The lengths of the directories above a path, and of the path itself. -/
def ancestorLengths (filePath : CStr) : List Nat :=
  (List.range (filePath.length + 1)).filter fun d =>
    0 < d && (d = filePath.length || filePath[d]? = some slash)

/-- `scorer_is_excepted`. -/
def scorerIsExcepted (p : Policy) (filePath : CStr) : Bool :=
  filePath ≠ [] &&
    (hashLookup filePath p.exceptions.files.strs ||
      p.exceptions.files.strs.any (suffixExcepted filePath) ||
      (p.exceptions.folders.strs ≠ [] &&
        (ancestorLengths filePath).any (hashLookupLen filePath · p.exceptions.folders.strs)))

/-! ## The runtime blacklist -/

/-- The list after one more entry, the oldest dropped when it is full. -/
def pushAuto (l : StrList 64 48) (ip : CBuf 48) : StrList 64 48 :=
  if h : l.entries.length < 64 then
    ⟨l.entries ++ [ip], by simp only [List.length_append, List.length_singleton]; omega⟩
  else ⟨l.entries.tail ++ [ip], by
    have := l.count_le
    simp only [List.length_append, List.length_tail, List.length_singleton]; omega⟩

/-- `scorer_blacklist_auto_add`: a real address that is on neither list is added. -/
def blacklistAutoAdd (bl : Blacklist) (ip : CBuf 48) : Blacklist :=
  if !validClientIp ip.str || ip.str ∈ bl.ips.strs || ip.str ∈ bl.autoIps.strs then bl
  else { bl with autoIps := pushAuto bl.autoIps ip }

/-- The address just added is on one of the lists. -/
theorem mem_blacklistAutoAdd (bl : Blacklist) (ip : CBuf 48) (h : validClientIp ip.str) :
    ip.str ∈ (blacklistAutoAdd bl ip).ips.strs ∨
      ip.str ∈ (blacklistAutoAdd bl ip).autoIps.strs := by
  unfold blacklistAutoAdd
  split
  · next hin => simpa [h] using hin
  · right
    unfold pushAuto
    split <;> simp [StrList.strs]

end GfrGuard

import GfrGuard.Protocol

/-!
# The policy

The part of `struct rguard_policy` that the daemon's event path reads, and the numeric
checks `config_load` makes before it accepts a policy (`Policy.numericValid`). Lists carry
their capacity, as the arrays do. Logging, free-space and monitor-path settings are left
out; the entropy threshold is a floating-point number and enters only through the answer of
the entropy scan.
-/

namespace GfrGuard

/-- A counted array of strings: at most `cap` entries of `char[n]`. -/
structure StrList (cap n : Nat) where
  entries : List (CBuf n)
  count_le : entries.length ≤ cap
deriving DecidableEq

/-- An empty array. -/
def StrList.nil (cap n : Nat) : StrList cap n := ⟨[], Nat.zero_le _⟩

/-- The strings of the array. -/
def StrList.strs {cap n : Nat} (l : StrList cap n) : List CStr := l.entries.map CBuf.str

/-- `struct rguard_weights`. -/
structure Weights where
  modified : Int
  renameW : Int
  deleteW : Int
  dirs : Int
  extChange : Int
  ransomExt : Int
  highEntropy : Int
  yaraMatch : Int
deriving DecidableEq

/-- `struct rguard_thresholds`. -/
structure Thresholds where
  warn : Int
  high : Int
  critical : Int
deriving DecidableEq

/-- `struct rguard_scoring`. -/
structure Scoring where
  windowShort : Int
  windowLong : Int
  cloudWindowShort : Int
  cloudWindowLong : Int
  weights : Weights
  thresholds : Thresholds
  entropyEnabled : Bool
  yaraEnabled : Bool
deriving DecidableEq

/-- `struct rguard_whitelist`. -/
structure Whitelist where
  users : StrList 64 64
  ips : StrList 64 48
deriving DecidableEq

/-- `struct rguard_blacklist`: the manual entries and the first-in-first-out runtime list. -/
structure Blacklist where
  users : StrList 64 64
  ips : StrList 64 48
  autoIps : StrList 64 48
deriving DecidableEq

/-- `struct rguard_exceptions`. -/
structure Exceptions where
  files : StrList 64 2048
  folders : StrList 64 2048
deriving DecidableEq

/-- `struct rguard_protection`: the master switch and the one of each channel. -/
structure Protection where
  enabled : Bool
  smb : Bool
  cloudSync : Bool
  ftp : Bool
  host : Bool
deriving DecidableEq

/-- `struct rguard_file_extensions`. -/
structure FileExtensions where
  all : Bool
  manual : StrList 128 32
deriving DecidableEq

/-- `struct rguard_policy`. -/
structure Policy where
  storePath : CBuf 256
  ransomExts : StrList 128 32
  scoring : Scoring
  exceptions : Exceptions
  whitelist : Whitelist
  blacklist : Blacklist
  autoRestore : Bool
  protection : Protection
  fileExt : FileExtensions
deriving DecidableEq

/-- The policy `apply_defaults` starts from. -/
def Policy.default : Policy where
  storePath := .ofStr 256 (lit "/var/lib/gf2000/rguard-store")
  ransomExts := .nil 128 32
  scoring :=
    { windowShort := 10
      windowLong := 30
      cloudWindowShort := 60
      cloudWindowLong := 180
      weights :=
        { modified := 3, renameW := 4, deleteW := 3, dirs := 5, extChange := 5,
          ransomExt := 20, highEntropy := 8, yaraMatch := 40 }
      thresholds := { warn := 30, high := 60, critical := 80 }
      entropyEnabled := true
      yaraEnabled := true }
  exceptions := { files := .nil 64 2048, folders := .nil 64 2048 }
  whitelist := { users := .nil 64 64, ips := .nil 64 48 }
  blacklist := { users := .nil 64 64, ips := .nil 64 48, autoIps := .nil 64 48 }
  autoRestore := true
  protection := { enabled := true, smb := true, cloudSync := true, ftp := true, host := true }
  fileExt := { all := true, manual := .nil 128 32 }

/-- The thresholds are ordered and inside the score range. -/
def Thresholds.valid (t : Thresholds) : Bool :=
  1 ≤ t.warn && t.warn < t.high && t.high < t.critical && t.critical ≤ 100

/-- No weight subtracts from a score. -/
def Weights.valid (w : Weights) : Bool :=
  0 ≤ w.modified && 0 ≤ w.renameW && 0 ≤ w.deleteW && 0 ≤ w.dirs && 0 ≤ w.extChange &&
    0 ≤ w.ransomExt && 0 ≤ w.highEntropy && 0 ≤ w.yaraMatch

/-- The checks of `config_load` on the numbers of the policy. -/
def Policy.numericValid (p : Policy) : Bool :=
  p.scoring.thresholds.valid && p.scoring.weights.valid &&
    0 < p.scoring.windowShort && 0 < p.scoring.windowLong &&
    0 < p.scoring.cloudWindowShort && 0 < p.scoring.cloudWindowLong

/-- The defaults pass the checks. -/
theorem Policy.default_numericValid : Policy.default.numericValid = true := by decide

/-- The short and long window `process_msg` applies to a message of a source: the cloud
channel's own where they are set. -/
def Policy.windows (p : Policy) (sourceType : UInt8) : Int × Int :=
  let cloud := sourceType = sourceCloudSync
  (if cloud ∧ 0 < p.scoring.cloudWindowShort then p.scoring.cloudWindowShort
    else p.scoring.windowShort,
   if cloud ∧ 0 < p.scoring.cloudWindowLong then p.scoring.cloudWindowLong
    else p.scoring.windowLong)

end GfrGuard

import GfrGuard.Config
import GfrGuard.HashLookup
import GfrGuard.Json

/-!
# Loading the policy

`config_load`: the defaults, overlaid with what the policy file, and the scoring and
ransom-extension files it names, hold of the right type, then the checks. Parsing and
printing belong to cJSON and enter as parameters (`ConfigEnv`). Arrays are read up to the
capacity of their list and strings up to that of their buffer. Diagnostics on the error
stream, the `auto_add` flag of a loaded entry, which nothing reads, and the hash set of the
manual extensions are left out.
-/

namespace GfrGuard

/-- What the files of the system hold, by path. -/
abbrev FileTexts := CStr → Option CStr

/-- What the policy code finds outside the files. -/
structure ConfigEnv where
  /-- `cJSON_Parse`. -/
  parse : CStr → Option Json
  /-- `cJSON_Print`. -/
  print : Json → CStr
  /-- `stat` succeeds. -/
  exist : CStr → Bool
  /-- `dir_writable`. -/
  dirWritable : CStr → Bool

/-- `struct rguard_policy`, as it is loaded. -/
structure Settings where
  policy : Policy
  logPath : CBuf 256
  logLevel : CBuf 16
  mode : CBuf 16
  scoringConfig : CBuf 256
  ransomExtensionsConfig : CBuf 256
  entropyThreshold : Rat
  maxUsagePercent : Int
  cleanupDays : Int
  delaySeconds : Int
  ftpPaths : StrList 8 4096
  cloudPaths : StrList 8 4096
  localPaths : StrList 8 4096

/-- `apply_defaults`. -/
def applyDefaults : Settings where
  policy := .default
  logPath := .ofStr 256 (lit "/var/log/gfrguard")
  logLevel := .ofStr 16 (lit "info")
  mode := .ofStr 16 (lit "strict")
  scoringConfig := .empty 256
  ransomExtensionsConfig := .empty 256
  entropyThreshold := 7
  maxUsagePercent := 80
  cleanupDays := 30
  delaySeconds := 3
  ftpPaths := .nil 8 4096
  cloudPaths := .nil 8 4096
  localPaths := .nil 8 4096

/-! ## Items -/

/-- `read_file`: files over 4 MiB are refused. -/
def readFile (files : FileTexts) (path : CStr) : Option CStr :=
  (files path).filter fun text => text.length ≤ 4194304

/-- The document in a file. -/
def readJson (env : ConfigEnv) (files : FileTexts) (path : CStr) : Option Json :=
  (readFile files path).bind env.parse

/-- `copy_string`. -/
def copyString {n : Nat} [NeZero n] (dst : CBuf n) (node : Option Json) : CBuf n :=
  match node with
  | some (.str s) => .ofStr n s
  | _ => dst

/-- `copy_int`. -/
def copyInt (dst : Int) (node : Option Json) : Int :=
  match node with
  | some (.num q) => Json.valueInt q
  | _ => dst

/-- `copy_bool`. -/
def copyBool (dst : Bool) (node : Option Json) : Bool :=
  match node with
  | some (.bool b) => b
  | _ => dst

/-- The loop over an array of strings: those that count, up to the capacity of the list. -/
def loadStrings (cap n : Nat) [NeZero n] (counts : CStr → Bool) (node : Option Json) :
    StrList cap n :=
  ⟨(((Json.items node).filterMap Json.string?).filter counts |>.take cap).map (CBuf.ofStr n), by
    simp⟩

/-- A list after `SORT_BY_HASH`. -/
def StrList.sorted {cap n : Nat} (l : StrList cap n) : StrList cap n :=
  ⟨sortByHash l.entries, by rw [(sortByHash_perm l.entries).length_eq]; exact l.count_le⟩

/-- The item under a name in the object under another. -/
def Json.getIn (j : Json) (outer name : CStr) : Option Json := (j.getItem outer).bind (getItem name)

/-! ## Parts of the policy -/

/-- The scoring part of the policy and the entropy threshold. -/
def loadScoring (node : Json) (s : Scoring) (entropy : Rat) : Scoring × Rat :=
  let weights := fun name w => copyInt w (node.getIn (lit "weights") name)
  let thresholds := fun name t => copyInt t (node.getIn (lit "thresholds") name)
  ({ windowShort := copyInt s.windowShort (node.getItem (lit "window_short"))
     windowLong := copyInt s.windowLong (node.getItem (lit "window_long"))
     cloudWindowShort := copyInt s.cloudWindowShort (node.getIn (lit "cloud_sync") (lit "window_short"))
     cloudWindowLong := copyInt s.cloudWindowLong (node.getIn (lit "cloud_sync") (lit "window_long"))
     weights :=
       { modified := weights (lit "modified") s.weights.modified
         renameW := weights (lit "rename") s.weights.renameW
         deleteW := weights (lit "delete") s.weights.deleteW
         dirs := weights (lit "dirs") s.weights.dirs
         extChange := weights (lit "ext_change") s.weights.extChange
         ransomExt := weights (lit "ransom_ext") s.weights.ransomExt
         highEntropy := weights (lit "high_entropy") s.weights.highEntropy
         yaraMatch := weights (lit "yara_match") s.weights.yaraMatch }
     thresholds :=
       { warn := thresholds (lit "warn") s.thresholds.warn
         high := thresholds (lit "high") s.thresholds.high
         critical := thresholds (lit "critical") s.thresholds.critical }
     entropyEnabled := copyBool s.entropyEnabled (node.getItem (lit "entropy_enabled"))
     yaraEnabled := copyBool s.yaraEnabled (node.getItem (lit "yara_enabled")) },
   match node.getItem (lit "entropy_threshold") with
   | some (.num q) => q
   | _ => entropy)

/-- The object that holds the scoring part: the scoring file, or the inline one where that
file is not named or cannot be read. -/
def scoringNode (env : ConfigEnv) (files : FileTexts) (root : Json) (scoringConfig : CStr) : Json :=
  let inline := (root.getItem (lit "scoring")).getD .null
  if scoringConfig ≠ [] then (readJson env files scoringConfig).getD inline else inline

/-- The ransomware extensions: from their file, or the inline ones where that gives none. -/
def loadRansomExts (env : ConfigEnv) (files : FileTexts) (root : Json) (config : CStr) :
    StrList 128 32 :=
  let external := if config ≠ [] then
      loadStrings 128 32 (· ≠ []) ((readJson env files config).bind (Json.getItem (lit "extensions")))
    else .nil 128 32
  if external.entries = [] then
    loadStrings 128 32 (· ≠ []) (root.getItem (lit "ransom_extensions"))
  else external

/-- The address of an entry of the blacklist: a string, or an object that has one. -/
def entryIp : Json → Option CStr
  | .str s => some s
  | .obj fields => ((Json.obj fields).getItem (lit "ip")).bind Json.string?
  | _ => none

/-- The array of blacklist entries of a document. -/
def blacklistEntries (root : Json) : List Json :=
  Json.items (root.getIn (lit "blacklist") (lit "ips"))

/-- The addresses loaded from an array of entries. -/
def loadIps (entries : List Json) : StrList 64 48 :=
  ⟨((entries.filterMap entryIp).take 64).map (CBuf.ofStr 48), by simp⟩

/-- The blacklist of a document; the runtime list starts empty. -/
def loadBlacklist (root : Json) : Blacklist where
  users := (loadStrings 64 64 (fun _ => true) (root.getIn (lit "blacklist") (lit "users"))).sorted
  ips := (loadIps (blacklistEntries root)).sorted
  autoIps := .nil 64 48

/-- The policy of a document and the files it names, before the checks. -/
def loadSettings (env : ConfigEnv) (files : FileTexts) (root : Json) : Settings :=
  let d := applyDefaults
  let scoringConfig := copyString d.scoringConfig (root.getItem (lit "scoring_config"))
  let ransomConfig := copyString d.ransomExtensionsConfig
    (root.getItem (lit "ransom_extensions_config"))
  let scoring := loadScoring (scoringNode env files root scoringConfig.str) d.policy.scoring
    d.entropyThreshold
  let whitelist := fun name => root.getIn (lit "whitelist") name
  let exceptions := fun name => root.getIn (lit "exceptions") name
  let protection := fun name => copyBool true (root.getIn (lit "protection") name)
  let monitor := fun name => loadStrings 8 4096 (fun _ => true) (root.getIn (lit "monitor_path") name)
  { policy :=
      { storePath := copyString d.policy.storePath (root.getItem (lit "store_path"))
        ransomExts := loadRansomExts env files root ransomConfig.str
        scoring := scoring.1
        exceptions :=
          { files := (loadStrings 64 2048 (fun _ => true) (exceptions (lit "files"))).sorted
            folders := (loadStrings 64 2048 (fun _ => true) (exceptions (lit "folders"))).sorted }
        whitelist :=
          { users := (loadStrings 64 64 (fun _ => true) (whitelist (lit "users"))).sorted
            ips := (loadStrings 64 48 (fun _ => true) (whitelist (lit "ips"))).sorted }
        blacklist := loadBlacklist root
        autoRestore := copyBool d.policy.autoRestore (root.getIn (lit "auto_restore") (lit "enabled"))
        protection :=
          { enabled := protection (lit "enabled")
            smb := protection (lit "smb")
            cloudSync := protection (lit "cloud_sync")
            ftp := protection (lit "ftp")
            host := protection (lit "host") }
        fileExt :=
          { all := copyBool d.policy.fileExt.all (root.getIn (lit "file_extensions") (lit "all"))
            manual := loadStrings 128 32 (· ≠ []) (root.getIn (lit "file_extensions") (lit "manual")) } }
    logPath := copyString d.logPath (root.getItem (lit "log_path"))
    logLevel := copyString d.logLevel (root.getItem (lit "log_level"))
    mode := copyString d.mode (root.getItem (lit "mode"))
    scoringConfig := scoringConfig
    ransomExtensionsConfig := ransomConfig
    entropyThreshold := scoring.2
    maxUsagePercent := copyInt d.maxUsagePercent (root.getIn (lit "space") (lit "max_usage_percent"))
    cleanupDays := copyInt d.cleanupDays (root.getIn (lit "space") (lit "cleanup_days"))
    delaySeconds := copyInt d.delaySeconds (root.getIn (lit "auto_restore") (lit "delay_seconds"))
    ftpPaths := monitor (lit "ftp")
    cloudPaths := monitor (lit "cloud_sync")
    localPaths := monitor (lit "local") }

/-! ## The checks -/

/-- The log path is a writable directory, or can be made one: its parent is. -/
def logPathOk (env : ConfigEnv) (logPath : CStr) : Bool :=
  if logPath = [] then true
  else if env.exist logPath then env.dirWritable logPath
  else
    match strrchr logPath slash with
    | some rest =>
      let parent := logPath.take (logPath.length - rest.length)
      parent = [] || env.dirWritable parent
    | none => true

/-- The checks of `config_load`. -/
def Settings.valid (env : ConfigEnv) (s : Settings) : Bool :=
  env.dirWritable s.policy.storePath.str && logPathOk env s.logPath.str &&
    (s.mode.str = lit "strict" || s.mode.str = lit "permissive") && s.policy.numericValid &&
    0 ≤ s.entropyThreshold && s.entropyThreshold ≤ 8 &&
    0 < s.maxUsagePercent && s.maxUsagePercent ≤ 100 && 0 < s.cleanupDays && 0 ≤ s.delaySeconds

/-- `config_load`: the policy of a file, or nothing when it is refused. -/
def configLoad (env : ConfigEnv) (files : FileTexts) (path : CStr) : Option Settings :=
  (readJson env files path).bind fun root =>
    let s := loadSettings env files root
    if s.valid env then some s else none

section
variable {env : ConfigEnv} {files : FileTexts} {path : CStr} {s : Settings}

theorem configLoad_eq_some : configLoad env files path = some s ↔
    ∃ root, readJson env files path = some root ∧ loadSettings env files root = s ∧
      s.valid env = true := by
  unfold configLoad
  rw [Option.bind_eq_some_iff]
  refine exists_congr fun root => and_congr_right fun _ => ?_
  dsimp only
  split
  · next hvalid => rw [Option.some.injEq, iff_self_and]; rintro rfl; exact hvalid
  · next hvalid =>
    refine iff_of_false (fun h => by cases h) ?_
    rintro ⟨rfl, h⟩
    exact hvalid h

/-- The defaults pass the checks where the directories are there. -/
theorem applyDefaults_valid (h : env.dirWritable applyDefaults.policy.storePath.str = true)
    (hlog : logPathOk env applyDefaults.logPath.str = true) : applyDefaults.valid env = true := by
  unfold Settings.valid
  rw [h, hlog]
  decide

/-- A loaded policy has numbers in range and an empty runtime blacklist. -/
theorem configLoad_policy (h : configLoad env files path = some s) :
    s.policy.numericValid = true ∧ s.policy.blacklist.autoIps.entries = [] := by
  obtain ⟨root, -, rfl, hvalid⟩ := configLoad_eq_some.1 h
  simp only [Settings.valid, Bool.and_eq_true] at hvalid
  exact ⟨hvalid.1.1.1.1.1.1.2, rfl⟩

theorem StrList.mem_sorted {cap n : Nat} (l : StrList cap n) {a : CStr} :
    a ∈ l.sorted.strs ↔ a ∈ l.strs :=
  ((sortByHash_perm l.entries).map CBuf.str).mem_iff

theorem StrList.hashSorted_sorted {cap n : Nat} (l : StrList cap n) : HashSorted l.sorted.strs :=
  hashSorted_sortByHash l.entries

end

end GfrGuard

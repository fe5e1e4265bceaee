import GfrGuard.ConfigLoad
import GfrGuard.Isolation

/-!
# Verdicts in the policy file

`config_persist_blacklist_ip` appends the address of a blocked session to the blacklist of
the policy file; of automatic entries it keeps 64, of manual ones all. `config_load` reads
the first 64 entries that have an address. So a verdict outlives a restart exactly when its
entry is among them, or one of them covers the address (`persist_durable_iff`).
-/

namespace GfrGuard

/-! ## The writer -/

/-- The entry is an automatic one. -/
def isAutoEntry : Json → Bool
  | .obj fields => ((Json.obj fields).getItem (lit "auto_add")).any Json.isTrue
  | _ => false

/-- The entries before a new one: of 64 automatic ones the first is dropped. -/
def dropOldestAuto (entries : List Json) : List Json :=
  if 64 ≤ entries.countP isAutoEntry then entries.eraseP isAutoEntry else entries

/-- The entry of an address. -/
def autoEntry (ip : CStr) : Json := .obj [(lit "ip", .str ip), (lit "auto_add", .bool true)]

example : isAutoEntry (autoEntry (lit "::1")) = true := by decide

/-- The blacklist with an entry for the address at the end of its array, which is made anew
where it has none. -/
def putIps (bl : Json) (ip : CStr) : Json :=
  bl.putItem Json.isArray (.arr []) (lit "ips") fun ips =>
    .arr (dropOldestAuto (Json.items (some ips)) ++ [autoEntry ip])

/-- The document with an entry for the address in its blacklist, which is made anew where it
has none. -/
def addVerdict (root : Json) (ip : CStr) : Json :=
  root.putItem Json.isObject (.obj []) (lit "blacklist") (putIps · ip)

/-- The outcomes of the file operations of a write. -/
structure PersistIo where
  /-- The temporary file can be opened. -/
  openOk : Bool
  /-- It can be written, synced and closed. -/
  writeOk : Bool
  /-- The rename succeeds. -/
  renameOk : Bool

/-- `path`, then what `snprintf` keeps of `.tmp`. -/
def tmpPath (path : CStr) : CStr := snprintf 512 (path ++ lit ".tmp")

/-- The files with another content of one. -/
def FileTexts.set (files : FileTexts) (path : CStr) (text : Option CStr) : FileTexts :=
  fun p => if p = path then text else files p

/-- Write a file through a temporary one; on a failure the temporary one is removed. -/
def replaceFile (io : PersistIo) (files : FileTexts) (path text : CStr) : Bool × FileTexts :=
  if !io.openOk then (false, files)
  else
    let files := files.set (tmpPath path) none
    if io.writeOk && io.renameOk then (true, files.set path (some text)) else (false, files)

/-- `config_persist_blacklist_ip`. -/
def configPersistBlacklistIp (env : ConfigEnv) (io : PersistIo) (files : FileTexts)
    (path ip : CStr) : Bool × FileTexts :=
  if ip = [] then (false, files)
  else if !validClientIp ip then (true, files)
  else
    match readJson env files path with
    | none => (false, files)
    | some root =>
      -- an address that is there in any form is left alone
      if ip ∈ (blacklistEntries root).filterMap entryIp then (true, files)
      else replaceFile io files path (env.print (addVerdict root ip) ++ [newline])

/-! ## When a verdict lasts -/

/-- One of the entries that are loaded is the address or covers it. -/
def ListsIp (entries : List Json) (ip : CStr) : Prop :=
  ∃ entry ∈ (loadIps entries).strs, entry = ip ∨ entryCovers ip entry = true

instance (entries : List Json) (ip : CStr) : Decidable (ListsIp entries ip) := by
  unfold ListsIp; infer_instance

/-- After an entry for the address has been added, one that is loaded is the address or
covers it: there is room, or one of the others does. -/
def ListsIpAdded (entries : List Json) (ip : CStr) : Prop :=
  ((dropOldestAuto entries).filterMap entryIp).length < 64 ∨ ListsIp (dropOldestAuto entries) ip

instance (entries : List Json) (ip : CStr) : Decidable (ListsIpAdded entries ip) := by
  unfold ListsIpAdded; infer_instance

/-- The document, after the verdict was added, is one whose blacklist is loaded with the address
or an entry that covers it. The first item named `blacklist`, and in it the first named `ips`,
is the one that counts; when it has another type it is dropped, and the next of its name
hides the new one. -/
def Lasts (root : Json) (ip : CStr) : Prop :=
  root.isObject = true ∧
    match root.getItem (lit "blacklist") with
    | some (.obj fields) =>
      match (Json.obj fields).getItem (lit "ips") with
      | some (.arr entries) => ListsIpAdded entries ip
      | _ =>
        let next := ((Json.obj fields).deleteItem (lit "ips")).getItem (lit "ips")
        next = none ∨ ListsIp (Json.items next) ip
    | _ =>
      let root := root.deleteItem (lit "blacklist")
      root.getItem (lit "blacklist") = none ∨ ListsIp (blacklistEntries root) ip

/-- The verdict is loaded again: it was there and is among the entries that are loaded, or it
is added so that it is, the file does not grow over what is read, and nothing else that is
loaded stood in the temporary file. -/
def Durable (env : ConfigEnv) (files : FileTexts) (path ip : CStr) : Prop :=
  ∃ root, readJson env files path = some root ∧
    if ip ∈ (blacklistEntries root).filterMap entryIp then ListsIp (blacklistEntries root) ip
    else Lasts root ip ∧ (env.print (addVerdict root ip)).length < 4194304 ∧
      (configLoad env ((files.set (tmpPath path) none).set path (files path)) path).isSome

/-- Two documents with the same items under all names but one. -/
def Json.SameBut (name : CStr) (j j' : Json) : Prop :=
  ∀ name', strcaseEq name' name = false → j'.getItem name' = j.getItem name'

section
variable {env : ConfigEnv} {files files' : FileTexts} {path ip : CStr} {root root' : Json}
  {p : Policy}

/-! ## The reader -/

/-- What a loaded policy blacklists. -/
theorem loadBlacklist_lists (hip : ip ≠ []) (h : p.blacklist = loadBlacklist root) :
    scorerIsBlacklisted p none ip = true ↔ ListsIp (blacklistEntries root) ip := by
  have hips : p.blacklist.ips = (loadIps (blacklistEntries root)).sorted :=
    congrArg Blacklist.ips h
  have hauto : p.blacklist.autoIps.strs = [] := by rw [h]; rfl
  have hlookup : hashLookup ip (loadIps (blacklistEntries root)).sorted.strs = true ↔
      ip ≠ [] ∧ ip ∈ (loadIps (blacklistEntries root)).sorted.strs :=
    hashLookup_iff (loadIps (blacklistEntries root)).hashSorted_sorted
  unfold scorerIsBlacklisted ListsIp
  rw [hips, hauto]
  simp only [Option.any_none, Bool.false_or, List.any_nil, Bool.or_false, Bool.or_eq_true,
    hlookup, List.any_eq_true, StrList.mem_sorted]
  constructor
  · rintro (⟨-, hmem⟩ | ⟨entry, hmem, hcovers⟩)
    · exact ⟨ip, hmem, .inl rfl⟩
    · exact ⟨entry, hmem, .inr hcovers⟩
  · rintro ⟨entry, hmem, rfl | hcovers⟩
    · exact .inl ⟨hip, hmem⟩
    · exact .inr ⟨entry, hmem, hcovers⟩

theorem listsIp_nil : ¬ ListsIp [] ip := by
  rintro ⟨entry, hmem, -⟩
  cases hmem

/-- The new entry, at the end, is loaded when there is room. -/
theorem listsIp_append (hip : validClientIp ip = true) (entries : List Json) :
    ListsIp (entries ++ [autoEntry ip]) ip ↔
      (entries.filterMap entryIp).length < 64 ∨ ListsIp entries ip := by
  have hcopy : (CBuf.ofStr 48 ip).str = ip :=
    CBuf.str_ofStr_of_lt (length_lt_of_validClientIp hip)
  have hload : (entries ++ [autoEntry ip]).filterMap entryIp =
      entries.filterMap entryIp ++ [ip] := by
    rw [List.filterMap_append]
    rfl
  unfold ListsIp loadIps StrList.strs
  dsimp only
  rw [hload]
  generalize entries.filterMap entryIp = ips
  by_cases hroom : ips.length < 64
  · have htake : (ips ++ [ip]).take 64 = ips ++ [ip] :=
      List.take_of_length_le (by rw [List.length_append, List.length_singleton]; omega)
    refine iff_of_true ⟨ip, ?_, .inl rfl⟩ (.inl hroom)
    rw [htake, List.map_append, List.map_append, List.mem_append]
    exact .inr (by rw [List.map_singleton, List.map_singleton, hcopy]; exact List.mem_singleton_self ip)
  · have htake : (ips ++ [ip]).take 64 = ips.take 64 :=
      List.take_append_of_le_length (Nat.not_lt.1 hroom)
    rw [htake, or_iff_right hroom]

/-! ## The changed document -/

theorem addVerdict_sameBut (root : Json) (ip : CStr) :
    Json.SameBut (lit "blacklist") root (addVerdict root ip) :=
  fun _ hne => Json.getItem_putItem_of_ne hne root

/-- The array of a blacklist that had none is found unless another item hides it. -/
theorem listsIp_putIps_of_not {bl : Json} (hbl : bl.isObject = true) (hip : validClientIp ip = true)
    (htype : ¬ (bl.getItem (lit "ips")).any Json.isArray = true) :
    ListsIp (Json.items ((putIps bl ip).getItem (lit "ips"))) ip ↔
      ((bl.deleteItem (lit "ips")).getItem (lit "ips") = none ∨
        ListsIp (Json.items ((bl.deleteItem (lit "ips")).getItem (lit "ips"))) ip) := by
  unfold putIps
  rw [Json.getItem_putItem_of_not hbl htype]
  cases (bl.deleteItem (lit "ips")).getItem (lit "ips") with
  | none => exact iff_of_true ((listsIp_append hip []).2 (.inl (by decide))) (.inl rfl)
  | some next => rw [Option.some_or, or_iff_right (by simp)]

/-- The entries found in a blacklist that has been given the address. -/
theorem listsIp_putIps {bl : Json} (hbl : bl.isObject = true) (hip : validClientIp ip = true) :
    ListsIp (Json.items ((putIps bl ip).getItem (lit "ips"))) ip ↔
      match bl.getItem (lit "ips") with
      | some (.arr entries) => ListsIpAdded entries ip
      | _ =>
        let next := (bl.deleteItem (lit "ips")).getItem (lit "ips")
        next = none ∨ ListsIp (Json.items next) ip := by
  have hnot := listsIp_putIps_of_not hbl hip
  cases hitem : bl.getItem (lit "ips") with
  | none => exact hnot (by rw [hitem]; exact Bool.false_ne_true)
  | some item =>
    cases item with
    | arr entries =>
      unfold putIps
      rw [Json.getItem_putItem_of_type hitem rfl]
      exact listsIp_append hip (dropOldestAuto entries)
    | _ => exact hnot (by rw [hitem]; exact Bool.false_ne_true)

/-- A document without a blacklist is given one, which is found unless another item hides
it. -/
theorem listsIp_addVerdict_of_not (hroot : root.isObject = true) (hip : validClientIp ip = true)
    (htype : ¬ (root.getItem (lit "blacklist")).any Json.isObject = true) :
    ListsIp (blacklistEntries (addVerdict root ip)) ip ↔
      ((root.deleteItem (lit "blacklist")).getItem (lit "blacklist") = none ∨
        ListsIp (blacklistEntries (root.deleteItem (lit "blacklist"))) ip) := by
  have hfresh : ListsIp (Json.items ((putIps (.obj []) ip).getItem (lit "ips"))) ip :=
    (listsIp_putIps rfl hip).2 (Or.inl rfl)
  unfold blacklistEntries Json.getIn addVerdict
  rw [Json.getItem_putItem_of_not hroot htype]
  cases (root.deleteItem (lit "blacklist")).getItem (lit "blacklist") with
  | none => exact iff_of_true hfresh (.inl rfl)
  | some next => rw [Option.some_or, or_iff_right (by simp)]

/-- The entries found in a document that has been given the verdict. -/
theorem listsIp_addVerdict (hip : validClientIp ip = true) :
    ListsIp (blacklistEntries (addVerdict root ip)) ip ↔ Lasts root ip := by
  cases hroot : root.isObject with
  | false =>
    have hnone : blacklistEntries (addVerdict root ip) = [] := by
      have hobject : (addVerdict root ip).isObject = false := (Json.isObject_putItem root).trans hroot
      unfold blacklistEntries Json.getIn
      cases h : addVerdict root ip with
      | obj fields => rw [h] at hobject; cases hobject
      | _ => rfl
    rw [hnone]
    exact iff_of_false listsIp_nil fun h => Bool.false_ne_true (hroot.symm.trans h.1)
  | true =>
    have hnot := listsIp_addVerdict_of_not hroot hip
    unfold Lasts
    rw [hroot, eq_self, true_and]
    cases hitem : root.getItem (lit "blacklist") with
    | none => exact hnot (by rw [hitem]; exact Bool.false_ne_true)
    | some bl =>
      cases bl with
      | obj fields =>
        unfold blacklistEntries Json.getIn addVerdict
        rw [Json.getItem_putItem_of_type hitem rfl]
        exact listsIp_putIps rfl hip
      | _ => exact hnot (by rw [hitem]; exact Bool.false_ne_true)

/-! ## The rest of the policy -/

theorem Json.SameBut.getIn {j j' : Json} {name outer : CStr} (h : j.SameBut name j')
    (hne : strcaseEq outer name = false) (inner : CStr) : j'.getIn outer inner = j.getIn outer inner := by
  unfold Json.getIn
  rw [h outer hne]

theorem loadScoring_congr {j j' : Json} (h : j.SameBut (lit "blacklist") j') (s : Scoring)
    (entropy : Rat) : loadScoring j' s entropy = loadScoring j s entropy := by
  unfold loadScoring
  rw [h (lit "window_short") (by decide), h (lit "window_long") (by decide),
    h (lit "entropy_enabled") (by decide), h (lit "yara_enabled") (by decide),
    h (lit "entropy_threshold") (by decide)]
  simp only [h.getIn (show strcaseEq (lit "cloud_sync") (lit "blacklist") = false by decide),
    h.getIn (show strcaseEq (lit "weights") (lit "blacklist") = false by decide),
    h.getIn (show strcaseEq (lit "thresholds") (lit "blacklist") = false by decide)]

/-- The files from which two readings of a policy are made: the policy files hold documents
that differ under one name, and the other files are the same. -/
structure SameFiles (env : ConfigEnv) (path : CStr) (files files' : FileTexts) (root root' : Json) :
    Prop where
  same : root.SameBut (lit "blacklist") root'
  read : readJson env files path = some root
  read' : readJson env files' path = some root'
  others : ∀ p, p ≠ path → files' p = files p

theorem SameFiles.readJson_of_ne (h : SameFiles env path files files' root root') {other : CStr}
    (hne : other ≠ path) : readJson env files' other = readJson env files other := by
  unfold readJson readFile
  rw [h.others other hne]

/-- The scoring file may be the policy file itself. -/
theorem SameFiles.scoringNode (h : SameFiles env path files files' root root') (config : CStr) :
    Json.SameBut (lit "blacklist") (scoringNode env files root config)
      (scoringNode env files' root' config) := by
  unfold GfrGuard.scoringNode
  dsimp only
  rw [h.same (lit "scoring") (by decide)]
  by_cases hconfig : config = path
  · rw [hconfig, h.read, h.read']
    split
    · exact h.same
    · exact fun _ _ => rfl
  · rw [h.readJson_of_ne hconfig]
    exact fun _ _ => rfl

theorem SameFiles.loadRansomExts (h : SameFiles env path files files' root root') (config : CStr) :
    loadRansomExts env files' root' config = loadRansomExts env files root config := by
  have hread : (readJson env files' config).bind (Json.getItem (lit "extensions")) =
      (readJson env files config).bind (Json.getItem (lit "extensions")) := by
    by_cases hconfig : config = path
    · rw [hconfig, h.read, h.read']
      exact h.same (lit "extensions") (by decide)
    · rw [h.readJson_of_ne hconfig]
  unfold GfrGuard.loadRansomExts
  rw [hread, h.same (lit "ransom_extensions") (by decide)]

/-- The two readings differ in the blacklist alone. -/
theorem SameFiles.loadSettings (h : SameFiles env path files files' root root') :
    loadSettings env files' root' = { loadSettings env files root with
      policy := { (loadSettings env files root).policy with blacklist := loadBlacklist root' } } := by
  have hname : ∀ name, strcaseEq name (lit "blacklist") = false →
      root'.getItem name = root.getItem name := h.same
  have hin : ∀ outer inner, strcaseEq outer (lit "blacklist") = false →
      root'.getIn outer inner = root.getIn outer inner := fun _ inner hne => h.same.getIn hne inner
  have hscoring : ∀ config s entropy,
      loadScoring (GfrGuard.scoringNode env files' root' config) s entropy =
        loadScoring (GfrGuard.scoringNode env files root config) s entropy :=
    fun config => loadScoring_congr (h.scoringNode config)
  unfold GfrGuard.loadSettings
  simp (disch := decide) only [hname, hin, hscoring, h.loadRansomExts]

/-! ## Writing and loading again -/

theorem FileTexts.set_self (files : FileTexts) (path : CStr) (text : Option CStr) :
    files.set path text path = text := if_pos rfl

theorem FileTexts.set_of_ne {other : CStr} (hne : other ≠ path) (files : FileTexts)
    (text : Option CStr) : files.set path text other = files other := if_neg hne

/-- The file that has been written is read when it is not too large. -/
theorem readJson_set {text : CStr} (h : env.parse text = some root) :
    readJson env (files.set path (some text)) path =
      if text.length ≤ 4194304 then some root else none := by
  unfold readJson readFile
  rw [FileTexts.set_self, Option.filter_some]
  by_cases hlen : text.length ≤ 4194304
  · rw [if_pos hlen, if_pos (decide_eq_true hlen), Option.bind_some, h]
  · rw [if_neg hlen, if_neg (by simpa using hlen), Option.bind_none]

/-- What loads once the verdict has been written. -/
theorem configLoad_written (hread : readJson env files path = some root)
    (hround : env.parse (env.print (addVerdict root ip) ++ [newline]) = some (addVerdict root ip))
    (hip : validClientIp ip = true) :
    (∃ s', configLoad env ((files.set (tmpPath path) none).set path
        (some (env.print (addVerdict root ip) ++ [newline]))) path = some s' ∧
      scorerIsBlacklisted s'.policy none ip = true) ↔
    Lasts root ip ∧ (env.print (addVerdict root ip)).length < 4194304 ∧
      (configLoad env ((files.set (tmpPath path) none).set path (files path)) path).isSome := by
  have hread' : readJson env ((files.set (tmpPath path) none).set path
      (some (env.print (addVerdict root ip) ++ [newline]))) path = _ := readJson_set hround
  rw [List.length_append, List.length_singleton] at hread'
  by_cases hlen : (env.print (addVerdict root ip)).length < 4194304
  · rw [if_pos (Nat.succ_le_of_lt hlen)] at hread'
    have hold : readJson env ((files.set (tmpPath path) none).set path (files path)) path =
        some root := by
      rw [← hread]
      unfold readJson readFile
      rw [FileTexts.set_self]
    have hsame : SameFiles env path ((files.set (tmpPath path) none).set path (files path))
        ((files.set (tmpPath path) none).set path
          (some (env.print (addVerdict root ip) ++ [newline]))) root (addVerdict root ip) :=
      ⟨addVerdict_sameBut root ip, hold, hread', fun p hp => by
        rw [FileTexts.set_of_ne hp, FileTexts.set_of_ne hp]⟩
    have hsettings := hsame.loadSettings
    have hlists : ∀ {p : Policy}, p.blacklist = loadBlacklist (addVerdict root ip) →
        (scorerIsBlacklisted p none ip = true ↔ Lasts root ip) := fun h =>
      (loadBlacklist_lists (ne_nil_of_validClientIp hip) h).trans (listsIp_addVerdict hip)
    unfold configLoad
    rw [hread', hold, Option.bind_some, Option.bind_some]
    dsimp only
    generalize loadSettings env _ (addVerdict root ip) = s' at hsettings
    generalize loadSettings env _ root = s at hsettings
    have hvalid : s'.valid env = s.valid env := by rw [hsettings]; rfl
    have hblacklist : s'.policy.blacklist = loadBlacklist (addVerdict root ip) := by
      rw [hsettings]
    rw [hvalid]
    cases s.valid env with
    | true => simp [hlists hblacklist, hlen]
    | false => simp
  · rw [if_neg fun h => hlen (Nat.lt_of_succ_le h)] at hread'
    refine iff_of_false ?_ fun h => hlen h.2.1
    rintro ⟨s', hload, -⟩
    obtain ⟨root', hroot', -⟩ := configLoad_eq_some.1 hload
    cases hread'.symm.trans hroot'

end

/-- A verdict that was persisted is in force after the policy is loaded again, exactly when its
entry is one of those that are loaded, or one of those covers the address. -/
theorem persist_durable_iff (env : ConfigEnv) (io : PersistIo) (files files' : FileTexts)
    (path ip : CStr) (hip : validClientIp ip = true)
    (hload : (configLoad env files path).isSome)
    (hround : ∀ root, readJson env files path = some root →
      env.parse (env.print (addVerdict root ip) ++ [newline]) = some (addVerdict root ip))
    (hok : configPersistBlacklistIp env io files path ip = (true, files')) :
    (∃ s, configLoad env files' path = some s ∧ scorerIsBlacklisted s.policy none ip = true) ↔
      Durable env files path ip := by
  obtain ⟨s, hs⟩ := Option.isSome_iff_exists.1 hload
  obtain ⟨root, hread, hsettings, -⟩ := configLoad_eq_some.1 hs
  unfold configPersistBlacklistIp at hok
  rw [if_neg (ne_nil_of_validClientIp hip), hip, Bool.not_true, if_neg Bool.false_ne_true,
    hread] at hok
  dsimp only at hok
  have hdurable : Durable env files path ip ↔
      if ip ∈ (blacklistEntries root).filterMap entryIp then ListsIp (blacklistEntries root) ip
      else Lasts root ip ∧ (env.print (addVerdict root ip)).length < 4194304 ∧
        (configLoad env ((files.set (tmpPath path) none).set path (files path)) path).isSome := by
    unfold Durable
    rw [hread]
    simp only [Option.some.injEq, exists_eq_left']
  rw [hdurable]
  split at hok
  · next hthere =>
    cases hok
    rw [if_pos hthere, hs]
    simp only [Option.some.injEq, exists_eq_left']
    exact loadBlacklist_lists (ne_nil_of_validClientIp hip) (by rw [← hsettings]; rfl)
  · next hnew =>
    rw [if_neg hnew]
    unfold replaceFile at hok
    split at hok
    · cases hok
    · split at hok
      · cases hok
        exact configLoad_written hread (hround root hread) hip
      · cases hok

/-! ## Two policy files -/

/-- A system that holds a policy file with one document, and knows how another is printed. -/
def sampleConfigEnv (text : CStr) (doc : Json) (text' : CStr) (doc' : Json) : ConfigEnv where
  parse t := if t = text then some doc else if t = text' ++ [newline] then some doc' else none
  print _ := text'
  exist _ := true
  dirWritable _ := true

/-- The path of the policy file. -/
def samplePath : CStr := lit "/etc/gf2000/rguard-policy.json"

/-- The files when all there is is the policy file. -/
def sampleFiles (text : CStr) : FileTexts := fun p => if p = samplePath then some text else none

/-- Every file operation succeeds. -/
def PersistIo.ok : PersistIo := ⟨true, true, true⟩

theorem readJson_sample {text t : CStr} {d e : Json} (h : text.length ≤ 4194304) :
    readJson (sampleConfigEnv text d t e) (sampleFiles text) samplePath = some d := by
  unfold readJson readFile sampleFiles
  rw [if_pos rfl, Option.filter_some, if_pos (decide_eq_true h), Option.bind_some]
  exact if_pos rfl

theorem parse_sample {text text' : CStr} (doc doc' : Json) (hne : text' ++ [newline] ≠ text) :
    (sampleConfigEnv text doc text' doc').parse (text' ++ [newline]) = some doc' :=
  (if_neg hne).trans (if_pos rfl)

/-- A system whose policy file holds one document. -/
def docEnv (text : CStr) (doc : Json) : ConfigEnv := sampleConfigEnv text doc (lit "null") .null

/-- What is loaded from it. -/
def docSettings (text : CStr) (doc : Json) : Settings :=
  loadSettings (docEnv text doc) (sampleFiles text) doc

theorem configLoad_doc {text : CStr} {doc : Json} (hlen : text.length ≤ 4194304)
    (hvalid : (docSettings text doc).valid (docEnv text doc) = true) :
    configLoad (docEnv text doc) (sampleFiles text) samplePath = some (docSettings text doc) :=
  configLoad_eq_some.2 ⟨doc, readJson_sample hlen, rfl, hvalid⟩

/-- The text of an empty policy file: every setting is a default. -/
def emptyText : CStr := lit "\x7b\x7d"

theorem configLoad_empty : configLoad (docEnv emptyText (.obj [])) (sampleFiles emptyText) samplePath =
    some (docSettings emptyText (.obj [])) := configLoad_doc (by decide) (by decide)

/-- An address that is not there yet is written. -/
theorem configPersistBlacklistIp_new {env : ConfigEnv} {files : FileTexts} {path ip : CStr}
    {root : Json} (hip : validClientIp ip = true) (hread : readJson env files path = some root)
    (hnew : ip ∉ (blacklistEntries root).filterMap entryIp) :
    configPersistBlacklistIp env .ok files path ip = (true, (files.set (tmpPath path) none).set path
      (some (env.print (addVerdict root ip) ++ [newline]))) := by
  unfold configPersistBlacklistIp
  rw [if_neg (ne_nil_of_validClientIp hip), hip, Bool.not_true, if_neg Bool.false_ne_true, hread]
  exact if_neg hnew

/-- The empty policy file after `10.0.0.9` was persisted. -/
def sampleText : CStr :=
  lit "\x7b\n\t\"blacklist\":\t\x7b\n\t\t\"ips\":\t[\x7b\n" ++
    lit "\t\t\t\t\"ip\":\t\"10.0.0.9\",\n\t\t\t\t\"auto_add\":\ttrue\n" ++
    lit "\t\t\t\x7d]\n\t\x7d\n\x7d"

/-- The empty policy has room. -/
theorem persist_durable_sample :
    ∃ s, configLoad (sampleConfigEnv (lit "\x7b\x7d") (.obj []) sampleText
          (addVerdict (.obj []) (lit "10.0.0.9")))
        (((sampleFiles (lit "\x7b\x7d")).set (tmpPath samplePath) none).set samplePath
          (some (sampleText ++ [newline]))) samplePath = some s ∧
      scorerIsBlacklisted s.policy none (lit "10.0.0.9") = true := by
  have hread := readJson_sample (d := .obj []) (e := addVerdict (.obj []) (lit "10.0.0.9"))
    (t := sampleText) (show (lit "\x7b\x7d").length ≤ 4194304 by decide)
  refine (persist_durable_iff _ .ok _ _ samplePath (lit "10.0.0.9") (by decide)
    (by decide) (fun root h => ?_)
    (configPersistBlacklistIp_new (by decide) hread (by decide))).2
    ⟨.obj [], hread, ⟨⟨rfl, .inl rfl⟩, by decide, by decide⟩⟩
  cases hread.symm.trans h
  exact parse_sample _ _ (by decide)

/-- The addresses `10.0.0.1` to `10.0.0.64`, each in quotes. -/
def manualTexts : List CStr :=
  (List.range 64).map fun k => lit "\"10.0.0." ++ dec (k + 1) ++ lit "\""

/-- The policy with these addresses as manual entries. -/
def manualDoc : Json :=
  .obj [(lit "blacklist", .obj [(lit "ips", .arr ((List.range 64).map fun k =>
    .str (lit "10.0.0." ++ dec (k + 1))))])]

/-- Its text. -/
def manualText : CStr :=
  lit "\x7b\"blacklist\":\x7b\"ips\":[" ++ [44].intercalate manualTexts ++ lit "]\x7d\x7d"

/-- Its text after `10.0.1.1` was persisted. -/
def manualText' : CStr :=
  lit "\x7b\n\t\"blacklist\":\t\x7b\n\t\t\"ips\":\t[" ++ (lit ", ").intercalate manualTexts ++
    lit ", \x7b\n\t\t\t\t\"ip\":\t\"10.0.1.1\",\n\t\t\t\t\"auto_add\":\ttrue\n" ++
    lit "\t\t\t\x7d]\n\t\x7d\n\x7d"

/-- With 64 manual entries a persisted verdict is the 65th and is not loaded again. -/
theorem persist_not_always_durable :
    ¬ ∀ (env : ConfigEnv) (io : PersistIo) (files files' : FileTexts) (path ip : CStr),
      validClientIp ip = true → (configLoad env files path).isSome →
      (∀ root, readJson env files path = some root →
        env.parse (env.print (addVerdict root ip) ++ [newline]) = some (addVerdict root ip)) →
      configPersistBlacklistIp env io files path ip = (true, files') →
      ∃ s, configLoad env files' path = some s ∧ scorerIsBlacklisted s.policy none ip = true := by
  intro h
  let env := sampleConfigEnv manualText manualDoc manualText' (addVerdict manualDoc (lit "10.0.1.1"))
  have hread : readJson env (sampleFiles manualText) samplePath = some manualDoc :=
    readJson_sample (by decide +kernel)
  have hparse : env.parse (manualText' ++ [newline]) =
      some (addVerdict manualDoc (lit "10.0.1.1")) := parse_sample _ _ (by decide)
  have hlost : ¬ Lasts manualDoc (lit "10.0.1.1") := by
    rintro ⟨-, hadded⟩
    have hadded : ListsIpAdded ((List.range 64).map fun k => .str (lit "10.0.0." ++ dec (k + 1)))
        (lit "10.0.1.1") := hadded
    revert hadded
    decide
  have hdurable := h env .ok (sampleFiles manualText) _ samplePath (lit "10.0.1.1")
    (by decide) (by decide +kernel)
    (fun root hroot => by cases hread.symm.trans hroot; exact hparse)
    (configPersistBlacklistIp_new (by decide) hread (by decide))
  exact hlost ((configLoad_written hread hparse (by decide)).1 hdurable).1

end GfrGuard

import GfrGuard.ListEffects
import GfrGuard.DenySignal
import GfrGuard.Persist

/-!
# A verdict and its copies

A block for the score puts its address on the runtime blacklist, in the policy file and, by a
rebuild, on the blocked file. `System` is the daemon with the files it loads its policy from:
messages persist, reloads and restarts load. What a persist leaves of the addresses of the file
is said once (`persist_new`, `persist_known`), and what is loaded of them (`load_blacklist`).
-/

namespace GfrGuard

/-- The daemon, whether it runs, and the files of the system. -/
structure System where
  daemon : Daemon
  files : FileTexts
  up : Bool

/-- What `config_load` finds of the directories a policy names. -/
structure Dirs where
  exist : CStr → Bool
  dirWritable : CStr → Bool

/-- What happens to the system. -/
inductive SystemEvent where
  /-- A message, with the outcome of the write to the policy file if it makes one. -/
  | message (env : CallEnv) (io : PersistIo) (msg : EventMsg)
  | lookup (key : CBuf 128) (now : Int)
  /-- SIGHUP. -/
  | reload (dirs : Dirs) (syncOk : Bool)
  /-- The daemon is started, or stopped and started again. -/
  | restart (dirs : Dirs) (syncOk : Bool)

/-- The environment of a load. -/
def ConfigEnv.seeing (cfg : ConfigEnv) (dirs : Dirs) : ConfigEnv :=
  { cfg with exist := dirs.exist, dirWritable := dirs.dirWritable }

/-- `config_load`, as far as the daemon keeps it. -/
def loadPolicy (cfg : ConfigEnv) (files : FileTexts) (path : CStr) : Option LoadedPolicy :=
  (configLoad cfg files path).pmap (fun st h => ⟨st.policy, h.1, h.2⟩)
    fun _ hst => configLoad_policy hst

/-- The message puts its address on the runtime blacklist and in the policy file: it blocks a
session for its score. -/
def autoAdds (env : CallEnv) (msg : EventMsg) (d : Daemon) : Bool :=
  (executeCall env msg d).any fun c => c.cause = .critical && c.ok env msg

/-- `main` up to its loop, with the blocked file made where there is none. -/
def startDaemon (p : LoadedPolicy) (syncOk : Bool) (d : Daemon) : Daemon :=
  { Daemon.start p d.db with
    blocked := blockerSyncBlacklist (some (d.blocked.getD [])) p.policy.blacklist syncOk }

/-- The files after a message: a block for the score persists its verdict. -/
def persistVerdict (cfg : ConfigEnv) (path : CStr) (env : CallEnv) (io : PersistIo) (msg : EventMsg)
    (s : System) : FileTexts :=
  if autoAdds env msg s.daemon then
    (configPersistBlacklistIp cfg io s.files path msg.clientIp.str).2
  else s.files

/-- One event. A daemon that is not up does nothing. -/
def systemStep (cfg : ConfigEnv) (path : CStr) (s : System) : SystemEvent → System
  | .message env io msg =>
    if s.up then
      { s with
        daemon := processMsg env msg s.daemon
        files := persistVerdict cfg path env io msg s }
    else s
  | .lookup key now => if s.up then { s with daemon := daemonStep s.daemon (.lookup key now) } else s
  | .reload dirs syncOk =>
    let np := loadPolicy (cfg.seeing dirs) s.files path
    if s.up then { s with daemon := daemonStep s.daemon (.reload np syncOk) } else s
  | .restart dirs syncOk =>
    match loadPolicy (cfg.seeing dirs) s.files path with
    | none => { s with up := false }
    | some p => { s with daemon := startDaemon p syncOk s.daemon, up := true }

/-- The system before the daemon is first started. -/
def System.off (db : Db) (blocked : Option CStr) (files : FileTexts) : System where
  daemon := { Daemon.start .default db with blocked := blocked }
  files := files
  up := false

/-! ## The addresses of the policy file -/

/-- The addresses of the entries. -/
def fileAddresses (root : Json) : List CStr := (blacklistEntries root).filterMap entryIp

/-- The entry a persist drops from the document. -/
def droppedEntry (root : Json) : Option Json :=
  if 64 ≤ (blacklistEntries root).countP isAutoEntry then (blacklistEntries root).find? isAutoEntry
  else none

/-- The items the verdicts are kept under are not hidden: where the first `blacklist` is no
object, or the first `ips` in it no array, there is no second one of the name. -/
def PlainBlacklist (root : Json) : Prop :=
  root.isObject = true ∧
    match root.getItem (lit "blacklist") with
    | some (.obj fields) =>
      ((Json.obj fields).getItem (lit "ips")).any Json.isArray = true ∨
        ((Json.obj fields).deleteItem (lit "ips")).getItem (lit "ips") = none
    | _ => (root.deleteItem (lit "blacklist")).getItem (lit "blacklist") = none

/-- The address the runtime list drops when one more goes on it. -/
def droppedAuto (bl : Blacklist) : Option CStr :=
  if bl.autoIps.entries.length < 64 then none else bl.autoIps.strs.head?

/-- The document with the verdict is printed so that it is parsed again. -/
def RoundTrips (cfg : ConfigEnv) (path : CStr) (s : System) : SystemEvent → Prop
  | .message env _ msg =>
    s.up = true → autoAdds env msg s.daemon = true → ∀ root, readJson cfg s.files path = some root →
      cfg.parse (cfg.print (addVerdict root msg.clientIp.str) ++ [newline]) =
        some (addVerdict root msg.clientIp.str)
  | _ => True

section
variable {cfg : ConfigEnv} {files : FileTexts} {path ip a : CStr} {root : Json} {io : PersistIo}
  {p : LoadedPolicy} {entries : List Json} {bl : Json}

/-- What a load keeps of the file. -/
theorem load_blacklist (h : loadPolicy cfg files path = some p) :
    ∃ root, readJson cfg files path = some root ∧ p.policy.blacklist = loadBlacklist root := by
  unfold loadPolicy at h
  obtain ⟨st, -, hst, rfl⟩ := Option.pmap_eq_some_iff.1 h
  obtain ⟨root, hread, rfl, -⟩ := configLoad_eq_some.1 hst
  exact ⟨root, hread, rfl⟩

/-- A daemon that is not up does not reload. -/
theorem systemStep_of_down {s : System} {dirs : Dirs} {syncOk : Bool} (hup : s.up = false) :
    systemStep cfg path s (.reload dirs syncOk) = s :=
  if_neg fun h => Bool.false_ne_true (hup.symm.trans h)

theorem systemStep_reload {s : System} {dirs : Dirs} {syncOk : Bool} (hup : s.up = true) :
    (systemStep cfg path s (.reload dirs syncOk)).daemon =
      { daemonReload (loadPolicy (cfg.seeing dirs) s.files path) syncOk s.daemon with journal := [] } := by
  unfold systemStep
  dsimp only
  rw [if_pos hup]
  rfl

/-- A restart changes no file. -/
theorem systemStep_restart_files {s : System} {dirs : Dirs} {syncOk : Bool} :
    (systemStep cfg path s (.restart dirs syncOk)).files = s.files := by
  unfold systemStep
  dsimp only
  split <;> rfl

/-- A daemon that starts with the policy of the file. -/
theorem systemStep_restart {s : System} {dirs : Dirs} {syncOk : Bool}
    (h : loadPolicy (cfg.seeing dirs) s.files path = some p) :
    systemStep cfg path s (.restart dirs syncOk) =
      { s with daemon := startDaemon p syncOk s.daemon, up := true } := by
  unfold systemStep
  dsimp only
  rw [h]

/-- A block for the score, with its persist. -/
theorem systemStep_block {s : System} {env : CallEnv} {msg : EventMsg} (hup : s.up = true)
    (hadds : autoAdds env msg s.daemon = true) :
    systemStep cfg path s (.message env io msg) =
      { s with
        daemon := processMsg env msg s.daemon
        files := (configPersistBlacklistIp cfg io s.files path msg.clientIp.str).2 } := by
  unfold systemStep persistVerdict
  dsimp only
  rw [if_pos hup, if_pos hadds]

/-! ## The changed document -/

theorem putIps_entries (hbl : bl.isObject = true)
    (h : (bl.getItem (lit "ips")).any Json.isArray = true ∨
      (bl.deleteItem (lit "ips")).getItem (lit "ips") = none) :
    Json.items ((putIps bl ip).getItem (lit "ips")) =
      dropOldestAuto (Json.items (bl.getItem (lit "ips"))) ++ [autoEntry ip] := by
  have hnot (htype : ¬ (bl.getItem (lit "ips")).any Json.isArray = true)
      (hitems : Json.items (bl.getItem (lit "ips")) = []) :
      Json.items ((putIps bl ip).getItem (lit "ips")) =
        dropOldestAuto (Json.items (bl.getItem (lit "ips"))) ++ [autoEntry ip] := by
    unfold putIps
    rw [Json.getItem_putItem_of_not hbl htype, h.resolve_left htype, hitems]
    rfl
  cases hitem : bl.getItem (lit "ips") with
  | none => exact hitem ▸ hnot (by rw [hitem]; exact Bool.false_ne_true) (by rw [hitem]; rfl)
  | some item =>
    cases item with
    | arr entries =>
      unfold putIps
      rw [Json.getItem_putItem_of_type hitem rfl]
      rfl
    | _ => exact hitem ▸ hnot (by rw [hitem]; exact Bool.false_ne_true) (by rw [hitem]; rfl)

/-- The entries of a document that has been given a verdict. -/
theorem addVerdict_entries (h : PlainBlacklist root) :
    blacklistEntries (addVerdict root ip) =
      dropOldestAuto (blacklistEntries root) ++ [autoEntry ip] := by
  obtain ⟨hroot, hplain⟩ := h
  have hnot (htype : ¬ (root.getItem (lit "blacklist")).any Json.isObject = true)
      (hentries : blacklistEntries root = [])
      (hgone : (root.deleteItem (lit "blacklist")).getItem (lit "blacklist") = none) :
      blacklistEntries (addVerdict root ip) =
        dropOldestAuto (blacklistEntries root) ++ [autoEntry ip] := by
    have hfresh : Json.items ((putIps (.obj []) ip).getItem (lit "ips")) =
        dropOldestAuto [] ++ [autoEntry ip] := putIps_entries rfl (.inr rfl)
    rw [hentries, ← hfresh]
    unfold blacklistEntries Json.getIn addVerdict
    rw [Json.getItem_putItem_of_not hroot htype, hgone]
    rfl
  cases hitem : root.getItem (lit "blacklist") with
  | none =>
    rw [hitem] at hplain
    exact hnot (by rw [hitem]; exact Bool.false_ne_true)
      (by unfold blacklistEntries Json.getIn; rw [hitem]; rfl) hplain
  | some bl =>
    rw [hitem] at hplain
    cases bl with
    | obj fields =>
      unfold blacklistEntries Json.getIn addVerdict
      rw [Json.getItem_putItem_of_type hitem rfl, hitem]
      exact putIps_entries rfl hplain
    | _ =>
      exact hnot (by rw [hitem]; exact Bool.false_ne_true)
        (by unfold blacklistEntries Json.getIn; rw [hitem]; rfl) hplain

/-- The addresses after a verdict. -/
theorem addVerdict_addresses (h : PlainBlacklist root) :
    fileAddresses (addVerdict root ip) =
      (dropOldestAuto (blacklistEntries root)).filterMap entryIp ++ [ip] := by
  unfold fileAddresses
  rw [addVerdict_entries h, List.filterMap_append]
  rfl

/-! ## A persist -/

/-- Every file operation of the write succeeds. -/
def PersistIo.succeeds (io : PersistIo) : Bool := io.openOk && io.writeOk && io.renameOk

/-- What a persist does: nothing for what is no address, in a file that cannot be read, or for
an address that is there; else it writes the document with the verdict. -/
inductive PersistSpec (cfg : ConfigEnv) (io : PersistIo) (files : FileTexts) (path ip : CStr) :
    Bool × FileTexts → Prop
  | invalid (ok : Bool) (hip : validClientIp ip = false) : PersistSpec cfg io files path ip (ok, files)
  | unread (hip : validClientIp ip = true) (hread : readJson cfg files path = none) :
      PersistSpec cfg io files path ip (false, files)
  | known (root : Json) (hip : validClientIp ip = true)
      (hread : readJson cfg files path = some root) (hin : ip ∈ fileAddresses root) :
      PersistSpec cfg io files path ip (true, files)
  | new (root : Json) (hip : validClientIp ip = true)
      (hread : readJson cfg files path = some root) (hnew : ip ∉ fileAddresses root) :
      PersistSpec cfg io files path ip
        (replaceFile io files path (cfg.print (addVerdict root ip) ++ [newline]))

theorem configPersistBlacklistIp_spec (cfg : ConfigEnv) (io : PersistIo) (files : FileTexts)
    (path ip : CStr) :
    PersistSpec cfg io files path ip (configPersistBlacklistIp cfg io files path ip) := by
  unfold configPersistBlacklistIp
  split
  · next hnil => exact .invalid false (by rw [hnil]; decide)
  · split
    · next hip => exact .invalid true (by simpa using hip)
    · next hip =>
      have hip : validClientIp ip = true := by simpa using hip
      cases hread : readJson cfg files path with
      | none => exact .unread hip hread
      | some root =>
        dsimp only
        split
        · next hin => exact .known root hip hread hin
        · next hnew => exact .new root hip hread hnew

/-- A write that succeeds. -/
theorem replaceFile_of_succeeds (h : io.succeeds = true) (files : FileTexts) (path text : CStr) :
    replaceFile io files path text =
      (true, (files.set (tmpPath path) none).set path (some text)) := by
  obtain ⟨openOk, writeOk, renameOk⟩ := io
  simp only [PersistIo.succeeds, Bool.and_eq_true] at h
  obtain ⟨⟨rfl, rfl⟩, rfl⟩ := h
  rfl

theorem replaceFile_fst (io : PersistIo) (files : FileTexts) (path text : CStr) :
    (replaceFile io files path text).1 = io.succeeds := by
  obtain ⟨openOk, writeOk, renameOk⟩ := io
  unfold replaceFile PersistIo.succeeds
  cases openOk <;> cases writeOk <;> cases renameOk <;> rfl

end

section
variable {env : CallEnv} {msg : EventMsg} {d : Daemon}

/-- A block for the score changes the lists and rebuilds the blocked file; nothing else changes
the lists. -/
theorem autoAdds_effect (env : CallEnv) (msg : EventMsg) (d : Daemon) :
    if autoAdds env msg d then
      (processMsg env msg d).policy.blacklist = blacklistAutoAdd d.policy.blacklist msg.clientIp ∧
        ∃ content, (processMsg env msg d).blocked =
          blockerSyncBlacklist content (processMsg env msg d).policy.blacklist env.syncOk
    else (processMsg env msg d).policy.blacklist = d.policy.blacklist := by
  cases processMsg_effect env msg d with
  | kept hcall hlist _ =>
    rw [if_neg, hlist]
    unfold autoAdds
    cases h : executeCall env msg d with
    | none => exact Bool.false_ne_true
    | some c => simp [executeCall_ok h, hcall c h]
  | appended c hcall hcause _ hlist =>
    rw [if_neg, hlist]
    simp [autoAdds, hcall, hcause]
  | rebuilt c hcall hcause content happend hlist hblocked =>
    rw [if_pos]
    · exact ⟨hlist, content, hblocked⟩
    · have hok : executes env msg d = true := by
        unfold executes
        rw [happend]
        rfl
      simp [autoAdds, hcall, hcause, executeCall_ok hcall, hok]

end

/-! ## A policy file -/

/-- The text of a policy file that scores renames high. -/
def strictText : CStr := lit "\x7b\"scoring\":\x7b\"weights\":\x7b\"rename\":80\x7d\x7d\x7d"

/-- Its document. -/
def strictDoc : Json :=
  .obj [(lit "scoring", .obj [(lit "weights", .obj [(lit "rename", .num 80)])])]

/-- Its text after `10.0.0.5` was persisted. -/
def strictText' : CStr :=
  lit "\x7b\n\t\"scoring\":\t\x7b\n\t\t\"weights\":\t\x7b\n\t\t\t\"rename\":\t80\n" ++
    lit "\t\t\x7d\n\t\x7d,\n\t\"blacklist\":\t\x7b\n\t\t\"ips\":\t[\x7b\n" ++
    lit "\t\t\t\t\"ip\":\t\"10.0.0.5\",\n\t\t\t\t\"auto_add\":\ttrue\n" ++
    lit "\t\t\t\x7d]\n\t\x7d\n\x7d"

/-- A system that holds the file. -/
def strictEnv : ConfigEnv :=
  sampleConfigEnv strictText strictDoc strictText' (addVerdict strictDoc (lit "10.0.0.5"))

/-- All directories are there. -/
def Dirs.ok : Dirs := ⟨fun _ => true, fun _ => true⟩

theorem readJson_strict {root : Json}
    (h : readJson strictEnv (sampleFiles strictText) samplePath = some root) : root = strictDoc :=
  Option.some.inj (h.symm.trans (readJson_sample (by decide)))

theorem parse_strict : strictEnv.parse (strictText' ++ [newline]) =
    some (addVerdict strictDoc (lit "10.0.0.5")) := parse_sample _ _ (by decide)

end GfrGuard

import GfrGuard.Verdicts

/-!
# Reloads and the verdicts

A reload replaces the policy by the one in the file, and the runtime blacklist with it. It
pardons no address that a block put there as long as every verdict is recorded
(`RecordsVerdict`): it is written, it is among the 64 addresses that are loaded, and what makes
room for it in the file is no address that stays on the runtime list (`reload_keeps_verdicts`).
-/

namespace GfrGuard

/-- The system, and the addresses that a block put on the runtime blacklist and that no later
one pushed off it. -/
structure Held where
  sys : System
  held : List CStr

/-- The held addresses after an address was added to the lists. -/
def heldAfter (bl : Blacklist) (ip : CStr) (held : List CStr) : List CStr :=
  if NewAutoIp bl ip then held.filter (fun a => droppedAuto bl ≠ some a) ++ [ip] else held

/-- One event, with the held addresses. -/
def heldStep (cfg : ConfigEnv) (path : CStr) (h : Held) (e : SystemEvent) : Held where
  sys := systemStep cfg path h.sys e
  held :=
    match e with
    | .message env _ msg =>
      if h.sys.up && autoAdds env msg h.sys.daemon then
        heldAfter h.sys.daemon.policy.blacklist msg.clientIp.str h.held
      else h.held
    | _ => h.held

/-- The system before the daemon is first started holds no address. -/
def Held.off (db : Db) (blocked : Option CStr) (files : FileTexts) : Held :=
  ⟨System.off db blocked files, []⟩

/-- A held address that is blacklisted is so after a reload, and stays on the blocked file. -/
def ReloadKeeps (cfg : ConfigEnv) (path : CStr) (h : Held) (e : SystemEvent) : Prop :=
  match e with
  | .reload .. =>
    let d := h.sys.daemon
    let d' := (systemStep cfg path h.sys e).daemon
    ∀ ip ∈ h.held, scorerIsBlacklisted d.policy none ip = true →
      scorerIsBlacklisted d'.policy none ip = true ∧
        (ip ∈ blockedLines d.blocked → ip ∈ blockedLines d'.blocked)
  | _ => True

/-- A file that can be read records the verdict of a block: the address is among those that are
loaded, or it is written where it will be, and the entry it replaces is of no address that stays
held. -/
def RecordsVerdict (cfg : ConfigEnv) (path : CStr) (h : Held) : SystemEvent → Prop
  | .message env io msg =>
    let ip := msg.clientIp.str
    h.sys.up = true → autoAdds env msg h.sys.daemon = true → validClientIp ip = true →
    ∀ root, readJson cfg h.sys.files path = some root →
      if ip ∈ fileAddresses root then ip ∈ (loadIps (blacklistEntries root)).strs
      else
        let entries := dropOldestAuto (blacklistEntries root)
        io.succeeds = true ∧ PlainBlacklist root ∧ (entries.filterMap entryIp).length < 64 ∧
          ∀ a ∈ heldAfter h.sys.daemon.policy.blacklist ip h.held,
            a = ip ∨ a ∈ (loadIps entries).strs
  | _ => True

/-- Each held address is a real one, and the file, if it can be read, has it among the addresses
that are loaded. -/
def HeldRecorded (cfg : ConfigEnv) (path : CStr) (h : Held) : Prop :=
  ∀ ip ∈ h.held, validClientIp ip = true ∧ ∀ root, readJson cfg h.sys.files path = some root →
    ip ∈ (loadIps (blacklistEntries root)).strs

section
variable {cfg : ConfigEnv} {path ip a : CStr} {h : Held} {env : CallEnv} {io : PersistIo}
  {msg : EventMsg} {bl : Blacklist} {entries : List Json} {held : List CStr} {files : FileTexts}
  {e : SystemEvent}

/-! ## Addresses -/

theorem mem_heldAfter (ha : a ∈ heldAfter bl ip held) : a ∈ held ∨ a = ip ∧ validClientIp ip = true := by
  unfold heldAfter at ha
  split at ha
  · next hnew =>
    rcases List.mem_append.1 ha with hold | hip
    · exact .inl (List.mem_filter.1 hold).1
    · exact .inr ⟨List.mem_singleton.1 hip, hnew.1⟩
  · exact .inl ha

/-- With room for it an entry at the end is loaded too. -/
theorem loadIps_append (hip : validClientIp ip = true) (hroom : (entries.filterMap entryIp).length < 64) :
    (loadIps (entries ++ [autoEntry ip])).strs = (loadIps entries).strs ++ [ip] := by
  have hload : (entries ++ [autoEntry ip]).filterMap entryIp = entries.filterMap entryIp ++ [ip] := by
    rw [List.filterMap_append]
    rfl
  have hcopy : (CBuf.ofStr 48 ip).str = ip := CBuf.str_ofStr_of_lt (length_lt_of_validClientIp hip)
  unfold loadIps StrList.strs
  dsimp only
  rw [hload, List.take_of_length_le (by rw [List.length_append, List.length_singleton]; omega),
    List.take_of_length_le (Nat.le_of_lt hroom), List.map_append, List.map_append,
    List.map_singleton, List.map_singleton, hcopy]

/-- An address that is loaded is blacklisted by what is loaded, and an exact entry of it. -/
theorem loaded_listed {p : Policy} {root : Json} (hip : validClientIp ip = true)
    (hp : p.blacklist = loadBlacklist root) (hin : ip ∈ (loadIps (blacklistEntries root)).strs) :
    scorerIsBlacklisted p none ip = true ∧ ip ∈ exactEntries p.blacklist := by
  refine ⟨(loadBlacklist_lists (ne_nil_of_validClientIp hip) hp).2 ⟨ip, hin, .inl rfl⟩, ?_⟩
  refine mem_exactEntries hip (.inl ?_)
  rw [hp]
  exact (StrList.mem_sorted _).2 hin

/-! ## One event -/

/-- What a block leaves recorded. -/
theorem persist_recorded (hrec : HeldRecorded cfg path h) (hup : h.sys.up = true)
    (hadds : autoAdds env msg h.sys.daemon = true)
    (hok : RecordsVerdict cfg path h (.message env io msg))
    (hround : RoundTrips cfg path h.sys (.message env io msg)) :
    ∀ a ∈ heldAfter h.sys.daemon.policy.blacklist msg.clientIp.str h.held, validClientIp a = true ∧
      ∀ root, readJson cfg
          (configPersistBlacklistIp cfg io h.sys.files path msg.clientIp.str).2 path = some root →
        a ∈ (loadIps (blacklistEntries root)).strs := by
  intro a ha
  have hvalid : validClientIp a = true := by
    rcases mem_heldAfter ha with hold | ⟨rfl, hip⟩
    · exact (hrec a hold).1
    · exact hip
  refine ⟨hvalid, ?_⟩
  have hspec := configPersistBlacklistIp_spec cfg io h.sys.files path msg.clientIp.str
  generalize configPersistBlacklistIp cfg io h.sys.files path msg.clientIp.str = result at hspec
  cases hspec with
  | invalid _ hip =>
    intro root hread
    rcases mem_heldAfter ha with hold | ⟨-, hip'⟩
    · exact (hrec a hold).2 root hread
    · cases hip.symm.trans hip'
  | unread _ hnone =>
    intro root hread
    cases hnone.symm.trans hread
  | known root hip hread hin =>
    intro root' hread'
    cases hread.symm.trans hread'
    have hloaded := hok hup hadds hip root hread
    rw [if_pos hin] at hloaded
    rcases mem_heldAfter ha with hold | ⟨rfl, -⟩
    · exact (hrec a hold).2 root hread
    · exact hloaded
  | new root hip hread hnew =>
    intro root' hread'
    have hwritten := hok hup hadds hip root hread
    rw [if_neg hnew] at hwritten
    obtain ⟨hio, hplain, hroom, hkept⟩ := hwritten
    rw [replaceFile_of_succeeds hio, readJson_set (hround hup hadds root hread)] at hread'
    split at hread'
    · cases hread'
      rw [addVerdict_entries hplain, loadIps_append hip hroom, List.mem_append, List.mem_singleton,
        or_comm]
      exact hkept a ha
    · cases hread'

/-- Every event that records its verdict keeps the held addresses recorded. -/
theorem HeldRecorded.step (hrec : HeldRecorded cfg path h) (hok : RecordsVerdict cfg path h e)
    (hround : RoundTrips cfg path h.sys e) : HeldRecorded cfg path (heldStep cfg path h e) := by
  cases e with
  | message env io msg =>
    unfold heldStep systemStep persistVerdict
    dsimp only
    cases hup : h.sys.up with
    | false => exact hrec
    | true =>
      cases hadds : autoAdds env msg h.sys.daemon with
      | false => exact hrec
      | true => exact persist_recorded hrec hup hadds hok hround
  | lookup key now =>
    unfold heldStep systemStep
    dsimp only
    split <;> exact hrec
  | reload dirs syncOk =>
    unfold heldStep systemStep
    dsimp only
    split <;> exact hrec
  | restart dirs syncOk =>
    unfold heldStep systemStep
    dsimp only
    split <;> exact hrec

/-- A reload keeps the held addresses that are recorded. -/
theorem HeldRecorded.reloadKeeps (hrec : HeldRecorded cfg path h) (e : SystemEvent) :
    ReloadKeeps cfg path h e := by
  cases e with
  | reload dirs syncOk =>
    intro ip hip hlisted
    cases hup : h.sys.up with
    | false =>
      rw [systemStep_of_down hup]
      exact ⟨hlisted, id⟩
    | true =>
      rw [systemStep_reload hup]
      cases hload : loadPolicy (cfg.seeing dirs) h.sys.files path with
      | none => exact ⟨hlisted, id⟩
      | some p =>
        obtain ⟨root, hread, hblacklist⟩ := load_blacklist hload
        obtain ⟨hvalid, hloaded⟩ := hrec ip hip
        obtain ⟨hlists, hexact⟩ := loaded_listed hvalid hblacklist (hloaded root hread)
        refine ⟨hlists, fun hline => ?_⟩
        show ip ∈ blockedLines (blockerSyncBlacklist _ p.policy.blacklist syncOk)
        cases syncOk with
        | false => exact hline
        | true =>
          exact mem_blockedLines_syncContent hexact (not_mem_of_validClientIp hvalid (by decide))
  | message env io msg => trivial
  | lookup key now => trivial
  | restart dirs syncOk => trivial

end

/-- In every run in which each verdict is recorded, no reload pardons an address that a block put
on the runtime blacklist. -/
theorem reload_keeps_verdicts (cfg : ConfigEnv) (path : CStr) (db : Db) (blocked : Option CStr)
    (files : FileTexts) (es : List SystemEvent)
    (hrun : Runs.AllSteps (heldStep cfg path)
      (fun h e => RecordsVerdict cfg path h e ∧ RoundTrips cfg path h.sys e)
      (Held.off db blocked files) es) :
    Runs.AllSteps (heldStep cfg path) (ReloadKeeps cfg path) (Held.off db blocked files) es :=
  Runs.allSteps_imp (HeldRecorded cfg path) (fun _ e hrec _ => hrec.reloadKeeps e)
    (fun _ _ hrec h => hrec.step h.1 h.2) (fun _ hip => by cases hip) hrun

/-- The daemon starts, a rename blocks alice's session, and the policy is loaded again. -/
def reloadRun (io : PersistIo) : List SystemEvent :=
  [.restart .ok true, .message (sampleEnv 1) io sampleRename, .reload .ok true]

theorem reloadRun_roundTrips (io : PersistIo) :
    Runs.AllSteps (heldStep strictEnv samplePath) (fun h e => RoundTrips strictEnv samplePath h.sys e)
      (Held.off .empty none (sampleFiles strictText)) (reloadRun io) := by
  refine ⟨trivial, fun _ _ root hread => ?_, trivial, trivial⟩
  obtain rfl := readJson_strict ((congrArg (readJson _ · _) systemStep_restart_files).symm.trans hread)
  exact parse_strict

/-- A verdict that is written outlasts the reload. -/
theorem reload_keeps_verdicts_sample :
    lit "10.0.0.5" ∈ (Runs.run (heldStep strictEnv samplePath)
        (Held.off .empty none (sampleFiles strictText)) (reloadRun .ok)).held ∧
      Runs.AllSteps (heldStep strictEnv samplePath) (ReloadKeeps strictEnv samplePath)
        (Held.off .empty none (sampleFiles strictText)) (reloadRun .ok) := by
  refine ⟨by decide, reload_keeps_verdicts strictEnv samplePath .empty none
    (sampleFiles strictText) (reloadRun .ok)
    (Runs.allSteps_and.2 ⟨⟨trivial, fun _ _ _ root hread => ?_, trivial, trivial⟩,
      reloadRun_roundTrips .ok⟩)⟩
  obtain rfl := readJson_strict ((congrArg (readJson _ · _) systemStep_restart_files).symm.trans hread)
  rw [if_neg (by decide)]
  exact ⟨rfl, ⟨rfl, rfl⟩, by decide, by decide⟩

/-- A verdict whose write fails is pardoned by the next reload. -/
theorem reload_pardons :
    ¬ ∀ (cfg : ConfigEnv) (path : CStr) (db : Db) (blocked : Option CStr) (files : FileTexts)
      (es : List SystemEvent),
      Runs.AllSteps (heldStep cfg path) (fun h e => RoundTrips cfg path h.sys e)
        (Held.off db blocked files) es →
      Runs.AllSteps (heldStep cfg path) (ReloadKeeps cfg path) (Held.off db blocked files) es := by
  intro h
  have hkeeps := h strictEnv samplePath .empty none (sampleFiles strictText) _
    (reloadRun_roundTrips ⟨false, true, true⟩)
  have hreload := hkeeps.2.2.1 (lit "10.0.0.5") (by decide) (by decide)
  revert hreload
  decide

end GfrGuard

import GfrGuard.Verdicts

/-!
# The three copies of the blacklist

The exact addresses of the blacklist are in memory, in the policy file and on the blocked file.
A block for the score changes all three (`Agrees.push`), and so they agree after it, as long as a
load reads every exact address of the file and what the runtime list drops to make room is what
the file drops (`KeepsLockstep`, `verdicts_in_lockstep`).
-/

namespace GfrGuard

/-- The entry is an address: neither empty, nor a network, nor a range. -/
def isExact (s : CStr) : Bool := s ≠ [] && !isCidr s && !isIpRange s

/-- The document of the policy file. -/
def docAt (cfg : ConfigEnv) (files : FileTexts) (path : CStr) : Option Json :=
  (files path).bind cfg.parse

/-- The exact addresses in memory are those of the policy file and the lines of the blocked
file. -/
def Lockstep (cfg : ConfigEnv) (path : CStr) (s : System) : Prop :=
  ∃ root, docAt cfg s.files path = some root ∧
    ∀ a, (a ∈ exactEntries s.daemon.policy.blacklist ↔ a ∈ fileAddresses root ∧ isExact a = true) ∧
      (a ∈ blockedLines s.daemon.blocked ↔ a ∈ exactEntries s.daemon.policy.blacklist)

/-- Right after a block for the score the copies are in lockstep. -/
def AddsInLockstep (cfg : ConfigEnv) (path : CStr) (s : System) (e : SystemEvent) : Prop :=
  match e with
  | .message env _ msg =>
    s.up = true → autoAdds env msg s.daemon = true → Lockstep cfg path (systemStep cfg path s e)
  | _ => True

/-- Every persist and every write of the blocked file succeeds. -/
def WritesOk (cfg : ConfigEnv) (path : CStr) (s : System) : SystemEvent → Prop
  | .message env io msg =>
    env.readOk = true ∧ env.writeOk = true ∧ env.syncOk = true ∧
      (s.up = true → autoAdds env msg s.daemon = true →
        (configPersistBlacklistIp cfg io s.files path msg.clientIp.str).1 = true)
  | .lookup .. => True
  | .reload _ syncOk | .restart _ syncOk => syncOk = true

/-- A load reads the exact addresses of the document: they are among the first 64 addresses and
on one line, and no longer address is cut to an exact one. -/
def LoadsAll (root : Json) : Prop :=
  (∀ a ∈ fileAddresses root, isExact a = true → a ∈ (fileAddresses root).take 64 ∧ newline ∉ a) ∧
    ∀ a ∈ (fileAddresses root).take 64, isExact (snprintf 48 a) = true → a.length < 48

/-- A policy that is loaded has all exact addresses of the file, and where a new address goes on
the runtime list and into the file, both drop the same address to make room, or none. -/
def KeepsLockstep (cfg : ConfigEnv) (path : CStr) (s : System) : SystemEvent → Prop
  | .message env _ msg =>
    s.up = true → autoAdds env msg s.daemon = true →
      NewAutoIp s.daemon.policy.blacklist msg.clientIp.str →
      ∀ root ∈ readJson cfg s.files path, PlainBlacklist root ∧
        droppedAuto s.daemon.policy.blacklist = (droppedEntry root).bind entryIp
  | .lookup .. => True
  | .reload dirs _ =>
    s.up = true → (loadPolicy (cfg.seeing dirs) s.files path).isSome →
      ∀ root ∈ readJson cfg s.files path, LoadsAll root
  | .restart dirs _ =>
    (loadPolicy (cfg.seeing dirs) s.files path).isSome →
      ∀ root ∈ readJson cfg s.files path, LoadsAll root

/-- The manual and the runtime entries in memory, and the addresses of the file: the exact ones
are the same, the manual ones are on one line each, and each runtime one is in one place of
each. -/
structure Agrees (ips autos file : List CStr) : Prop where
  same : ∀ a, isExact a = true → (a ∈ ips ∨ a ∈ autos ↔ a ∈ file)
  clean : ∀ a ∈ ips, isExact a = true → newline ∉ a
  once : ∀ a ∈ autos, validClientIp a = true ∧ a ∉ ips ∧ file.count a = 1
  nodup : autos.Nodup

/-- The daemon that is up has the blacklist of the file. -/
def InLockstep (cfg : ConfigEnv) (path : CStr) (s : System) : Prop :=
  s.up = true → ∃ root, docAt cfg s.files path = some root ∧
    Agrees s.daemon.policy.blacklist.ips.strs s.daemon.policy.blacklist.autoIps.strs
      (fileAddresses root)

section
variable {cfg : ConfigEnv} {path ip a : CStr} {s : System} {env : CallEnv} {io : PersistIo}
  {msg : EventMsg} {bl : Blacklist} {ips autos file file' : List CStr} {files : FileTexts}
  {root : Json} {e : SystemEvent}

/-! ## Exact entries -/

theorem mem_exactEntries_iff :
    a ∈ exactEntries bl ↔ (a ∈ bl.ips.strs ∨ a ∈ bl.autoIps.strs) ∧ isExact a = true := by
  unfold exactEntries isExact
  rw [List.mem_filter, List.mem_append]

theorem isExact_of_valid (h : validClientIp a = true) : isExact a = true := by
  have hslash : slash ∉ a := not_mem_of_validClientIp h (by decide)
  have hdash : dash ∉ a := not_mem_of_validClientIp h (by decide)
  simp [isExact, isCidr, isIpRange, ne_nil_of_validClientIp h, hslash, hdash]

/-- What is kept of an exact entry is one. -/
theorem isExact_snprintf (h : isExact a = true) : isExact (snprintf 48 a) = true := by
  simp only [isExact, isCidr, isIpRange, Bool.and_eq_true, decide_eq_true_eq, Bool.not_eq_true',
    decide_eq_false_iff_not] at h ⊢
  obtain ⟨⟨hne, hslash⟩, hdash⟩ := h
  refine ⟨⟨?_, fun hmem => hslash (List.mem_of_mem_take hmem)⟩,
    fun hmem => hdash (List.mem_of_mem_take hmem)⟩
  simpa [snprintf] using hne

/-- Where the exact entries are on one line each, they are the lines of the rebuilt file. -/
theorem blockedLines_syncContent (h : ∀ a ∈ exactEntries bl, newline ∉ a) :
    blockedLines (some (syncContent bl)) = exactEntries bl :=
  SepText.pieces_flatMap h

theorem makeRoom_strs (l : StrList 64 48) :
    (makeRoom l).strs = if l.entries.length < 64 then l.strs else l.strs.tail := by
  unfold makeRoom
  split
  · rfl
  · exact List.map_tail

/-! ## The copies -/

/-- An address dropped by both goes from both. -/
theorem Agrees.drop {l l' : List CStr} (h : Agrees ips (a :: autos) (l ++ a :: l')) :
    Agrees ips autos (l ++ l') := by
  obtain ⟨hvalid, hips, hcount⟩ := h.once a List.mem_cons_self
  have hgone : a ∉ l ++ l' := by
    rw [← List.count_eq_zero]
    rw [List.count_append, List.count_cons_self] at hcount
    rw [List.count_append]
    omega
  have hnodup := List.nodup_cons.1 h.nodup
  refine ⟨fun b hb => ?_, h.clean, fun b hb => ?_, hnodup.2⟩
  · have hsame := h.same b hb
    by_cases hba : b = a
    · subst hba
      exact iff_of_false (fun hmem => hmem.elim hips hnodup.1) hgone
    · simpa [hba] using hsame
  · obtain ⟨hbvalid, hbips, hbcount⟩ := h.once b (List.mem_cons_of_mem _ hb)
    have hba : a ≠ b := fun heq => hnodup.1 (heq ▸ hb)
    refine ⟨hbvalid, hbips, ?_⟩
    rwa [List.count_append, List.count_cons_of_ne hba, ← List.count_append] at hbcount

/-- A new address goes on both. -/
theorem Agrees.push (h : Agrees ips autos file) (hip : validClientIp ip = true) (hips : ip ∉ ips)
    (hautos : ip ∉ autos) : Agrees ips (autos ++ [ip]) (file ++ [ip]) := by
  have hfile : ip ∉ file := fun hmem =>
    ((h.same ip (isExact_of_valid hip)).2 hmem).elim hips hautos
  refine ⟨fun b hb => ?_, h.clean, fun b hb => ?_, ?_⟩
  · rw [List.mem_append, List.mem_append, ← h.same b hb, or_assoc]
  · rw [List.count_append]
    rcases List.mem_append.1 hb with hold | hnew
    · obtain ⟨hbvalid, hbips, hbcount⟩ := h.once b hold
      have hne : ip ≠ b := fun heq => hautos (heq ▸ hold)
      exact ⟨hbvalid, hbips, by rw [hbcount, List.count_singleton, if_neg (by simpa using hne)]⟩
    · obtain rfl := List.mem_singleton.1 hnew
      exact ⟨hip, hips, by rw [List.count_eq_zero_of_not_mem hfile, List.count_singleton_self]⟩
  · exact List.nodup_append.2 ⟨h.nodup, List.nodup_singleton ip, fun b hb c hc => by
      obtain rfl := List.mem_singleton.1 hc
      exact fun heq => hautos (heq ▸ hb)⟩

/-- What the file has once it has made room. -/
theorem dropOldestAuto_addresses (root : Json) :
    match (droppedEntry root).bind entryIp with
    | none => (dropOldestAuto (blacklistEntries root)).filterMap entryIp = fileAddresses root
    | some a => ∃ l l', fileAddresses root = l ++ a :: l' ∧
        (dropOldestAuto (blacklistEntries root)).filterMap entryIp = l ++ l' := by
  unfold droppedEntry dropOldestAuto fileAddresses
  generalize blacklistEntries root = entries
  by_cases hfull : 64 ≤ entries.countP isAutoEntry
  · rw [if_pos hfull, if_pos hfull]
    obtain ⟨entry, hentry, hauto⟩ : ∃ entry ∈ entries, isAutoEntry entry = true :=
      List.countP_pos_iff.1 (by omega)
    obtain ⟨x, l, l', hl, hx, hsplit, herase⟩ := List.exists_of_eraseP hentry hauto
    have hfind : entries.find? isAutoEntry = some x := by
      rw [hsplit, List.find?_append, List.find?_eq_none.2 (by simpa using hl)]
      simp [hx]
    rw [hfind, herase, hsplit, Option.bind_some]
    simp only [List.filterMap_append, List.filterMap_cons]
    cases entryIp x with
    | none => rfl
    | some a => exact ⟨_, _, rfl, rfl⟩
  · rw [if_neg hfull, if_neg hfull]
    rfl

/-- A new address on the runtime list and in the file. -/
theorem Agrees.add {ip : CBuf 48}
    (h : Agrees bl.ips.strs bl.autoIps.strs (fileAddresses root))
    (hnew : NewAutoIp bl ip.str) (hplain : PlainBlacklist root)
    (hdrop : droppedAuto bl = (droppedEntry root).bind entryIp) :
    Agrees (blacklistAutoAdd bl ip).ips.strs (blacklistAutoAdd bl ip).autoIps.strs
      (fileAddresses (addVerdict root ip.str)) := by
  obtain ⟨hip, hips, hautos⟩ := hnew
  have hadd : blacklistAutoAdd bl ip = { bl with autoIps := pushAuto bl.autoIps ip } := by
    unfold blacklistAutoAdd
    rw [if_neg (by simp [hip, hips, hautos])]
  have hroom := dropOldestAuto_addresses root
  rw [← hdrop] at hroom
  rw [hadd, addVerdict_addresses hplain]
  show Agrees bl.ips.strs (pushAuto bl.autoIps ip).strs _
  rw [pushAuto_strs, makeRoom_strs]
  unfold droppedAuto at hroom
  by_cases hfull : bl.autoIps.entries.length < 64
  · rw [if_pos hfull] at hroom ⊢
    rw [hroom]
    exact h.push hip hips hautos
  · rw [if_neg hfull] at hroom ⊢
    cases hstrs : bl.autoIps.strs with
    | nil =>
      rw [List.map_eq_nil_iff.1 hstrs] at hfull
      exact absurd (by decide) hfull
    | cons x rest =>
      rw [hstrs] at hroom h hautos
      obtain ⟨l, l', hfile, hleft⟩ := hroom
      rw [hfile] at h
      rw [hleft]
      exact h.drop.push hip hips fun hmem => hautos (List.mem_cons_of_mem _ hmem)

/-- What is loaded agrees with the file. -/
theorem LoadsAll.agrees (h : LoadsAll root) :
    Agrees (loadBlacklist root).ips.strs (loadBlacklist root).autoIps.strs (fileAddresses root) := by
  have hmem (a : CStr) : a ∈ (loadBlacklist root).ips.strs ↔
      ∃ b ∈ (fileAddresses root).take 64, snprintf 48 b = a := by
    have hsorted : a ∈ (loadBlacklist root).ips.strs ↔ a ∈ (loadIps (blacklistEntries root)).strs :=
      StrList.mem_sorted _
    rw [hsorted]
    unfold loadIps StrList.strs fileAddresses
    rw [List.map_map, List.mem_map]
    rfl
  have hwhole {b : CStr} (hb : b ∈ (fileAddresses root).take 64)
      (hexact : isExact (snprintf 48 b) = true) : snprintf 48 b = b :=
    snprintf_of_lt (h.2 b hb hexact)
  refine ⟨fun a ha => ?_, fun a hin ha => ?_, fun a ha => (nomatch ha), List.nodup_nil⟩
  · rw [hmem]
    constructor
    · rintro (⟨b, hb, rfl⟩ | hnil)
      · rw [hwhole hb ha]
        exact List.mem_of_mem_take hb
      · cases hnil
    · intro hfile
      have htake := (h.1 a hfile ha).1
      exact .inl ⟨a, htake, hwhole htake (isExact_snprintf ha)⟩
  · obtain ⟨b, hb, rfl⟩ := (hmem a).1 hin
    have hb' := hwhole hb ha
    rw [hb'] at ha ⊢
    exact (h.1 b (List.mem_of_mem_take hb) ha).2

/-- Where memory and file agree and the blocked file has been rebuilt, the three are in
lockstep. -/
theorem Agrees.lockstep (hdoc : docAt cfg s.files path = some root)
    (h : Agrees s.daemon.policy.blacklist.ips.strs s.daemon.policy.blacklist.autoIps.strs
      (fileAddresses root))
    (hblocked : s.daemon.blocked = some (syncContent s.daemon.policy.blacklist)) :
    Lockstep cfg path s := by
  refine ⟨root, hdoc, fun a => ⟨?_, ?_⟩⟩
  · rw [mem_exactEntries_iff, and_congr_left (h.same a)]
  · rw [hblocked, blockedLines_syncContent]
    intro b hb
    obtain ⟨hin | hin, hexact⟩ := mem_exactEntries_iff.1 hb
    · exact h.clean b hin hexact
    · exact not_mem_of_validClientIp (h.once b hin).1 (by decide)

/-- An address in memory that the file does not have. -/
theorem not_lockstep (hfile : (docAt cfg s.files path).any (a ∈ fileAddresses ·) = false)
    (hmemory : a ∈ exactEntries s.daemon.policy.blacklist) : ¬ Lockstep cfg path s := by
  rintro ⟨root, hdoc, hsame⟩
  rw [hdoc, Option.any_some, decide_eq_false_iff_not] at hfile
  exact hfile ((hsame a).1.1 hmemory).1

/-! ## One event -/

theorem docAt_of_readJson (h : readJson cfg files path = some root) :
    docAt cfg files path = some root := by
  unfold readJson readFile at h
  obtain ⟨text, htext, hparse⟩ := Option.bind_eq_some_iff.1 h
  obtain ⟨hfile, -⟩ := Option.filter_eq_some_iff.1 htext
  unfold docAt
  rw [hfile, Option.bind_some, hparse]

/-- A block for the score keeps memory and file in agreement. -/
theorem persist_agrees
    (h : ∃ root, docAt cfg s.files path = some root ∧
      Agrees s.daemon.policy.blacklist.ips.strs s.daemon.policy.blacklist.autoIps.strs
        (fileAddresses root))
    (hup : s.up = true) (hadds : autoAdds env msg s.daemon = true)
    (hwrites : WritesOk cfg path s (.message env io msg))
    (hround : RoundTrips cfg path s (.message env io msg))
    (hkeeps : KeepsLockstep cfg path s (.message env io msg)) :
    ∃ root, docAt cfg (configPersistBlacklistIp cfg io s.files path msg.clientIp.str).2 path =
        some root ∧
      Agrees (blacklistAutoAdd s.daemon.policy.blacklist msg.clientIp).ips.strs
        (blacklistAutoAdd s.daemon.policy.blacklist msg.clientIp).autoIps.strs
        (fileAddresses root) := by
  obtain ⟨root, hdoc, hagrees⟩ := h
  have hok := hwrites.2.2.2 hup hadds
  have hspec := configPersistBlacklistIp_spec cfg io s.files path msg.clientIp.str
  generalize configPersistBlacklistIp cfg io s.files path msg.clientIp.str = result at hspec hok
  cases hspec with
  | invalid _ hip =>
    refine ⟨root, hdoc, ?_⟩
    unfold blacklistAutoAdd
    rwa [if_pos (by rw [hip]; rfl)]
  | unread _ _ => cases hok
  | known root' hip hread hin =>
    obtain rfl := Option.some.inj ((docAt_of_readJson hread).symm.trans hdoc)
    refine ⟨root', hdoc, ?_⟩
    have hlisted := (hagrees.same _ (isExact_of_valid hip)).2 hin
    unfold blacklistAutoAdd
    rwa [if_pos (by simpa [hip] using hlisted)]
  | new root' hip hread hnew =>
    obtain rfl := Option.some.inj ((docAt_of_readJson hread).symm.trans hdoc)
    rw [replaceFile_fst] at hok
    have hnewIp : NewAutoIp s.daemon.policy.blacklist msg.clientIp.str :=
      ⟨hip, not_or.1 fun hmem => hnew ((hagrees.same _ (isExact_of_valid hip)).1 hmem)⟩
    obtain ⟨hplain, hdrop⟩ := hkeeps hup hadds hnewIp root' hread
    refine ⟨addVerdict root' msg.clientIp.str, ?_, hagrees.add hnewIp hplain hdrop⟩
    rw [replaceFile_of_succeeds hok]
    unfold docAt
    dsimp only
    rw [FileTexts.set_self, Option.bind_some, hround hup hadds root' hread]

/-- What the daemon has loaded agrees with the file. -/
theorem load_agrees {p : LoadedPolicy} {dirs : Dirs}
    (hload : loadPolicy (cfg.seeing dirs) files path = some p)
    (hall : (loadPolicy (cfg.seeing dirs) files path).isSome →
      ∀ root ∈ readJson cfg files path, LoadsAll root) :
    ∃ root, docAt cfg files path = some root ∧
      Agrees p.policy.blacklist.ips.strs p.policy.blacklist.autoIps.strs (fileAddresses root) := by
  obtain ⟨root, hread, hblacklist⟩ := load_blacklist hload
  refine ⟨root, docAt_of_readJson hread, ?_⟩
  rw [hblacklist]
  exact (hall (by rw [hload]; rfl) root hread).agrees

theorem InLockstep.step (h : InLockstep cfg path s) (hwrites : WritesOk cfg path s e)
    (hround : RoundTrips cfg path s e) (hkeeps : KeepsLockstep cfg path s e) :
    InLockstep cfg path (systemStep cfg path s e) := by
  cases e with
  | message env io msg =>
    unfold systemStep
    dsimp only
    cases hup : s.up with
    | false => exact fun hup' => absurd (hup.symm.trans hup') Bool.false_ne_true
    | true =>
      have heffect := autoAdds_effect env msg s.daemon
      rw [if_pos rfl]
      intro _
      unfold persistVerdict
      cases hadds : autoAdds env msg s.daemon with
      | false =>
        rw [hadds, if_neg Bool.false_ne_true] at heffect
        dsimp only
        rw [heffect]
        exact h hup
      | true =>
        rw [hadds, if_pos rfl] at heffect
        dsimp only
        rw [heffect.1]
        exact persist_agrees (h hup) hup hadds hwrites hround hkeeps
  | lookup key now =>
    unfold systemStep
    dsimp only
    split
    · intro hup
      have hpolicy : (daemonStep s.daemon (.lookup key now)).policy = s.daemon.policy := by
        simp only [daemonStep]
        split <;> rfl
      dsimp only
      rw [hpolicy]
      exact h hup
    · exact h
  | reload dirs syncOk =>
    cases hup : s.up with
    | false => rwa [systemStep_of_down hup]
    | true =>
      intro _
      have hfiles : (systemStep cfg path s (.reload dirs syncOk)).files = s.files := by
        simp only [systemStep, hup, if_true]
      rw [systemStep_reload hup, hfiles]
      cases hload : loadPolicy (cfg.seeing dirs) s.files path with
      | none => exact h hup
      | some p => exact load_agrees hload (hkeeps hup)
  | restart dirs syncOk =>
    unfold systemStep
    dsimp only
    cases hload : loadPolicy (cfg.seeing dirs) s.files path with
    | none => exact fun hup => absurd hup Bool.false_ne_true
    | some p => exact fun _ => load_agrees hload hkeeps

/-- A block for the score in a system in lockstep leaves the three copies in lockstep. -/
theorem InLockstep.adds (h : InLockstep cfg path s) (hwrites : WritesOk cfg path s e)
    (hround : RoundTrips cfg path s e) (hkeeps : KeepsLockstep cfg path s e) :
    AddsInLockstep cfg path s e := by
  cases e with
  | message env io msg =>
    intro hup hadds
    have heffect := autoAdds_effect env msg s.daemon
    rw [hadds, if_pos rfl] at heffect
    obtain ⟨hlist, content, hblocked⟩ := heffect
    obtain ⟨root, hdoc, hagrees⟩ := persist_agrees (h hup) hup hadds hwrites hround hkeeps
    rw [systemStep_block hup hadds]
    refine Agrees.lockstep hdoc (by rwa [hlist]) ?_
    rw [hblocked, hwrites.2.2.1]
    rfl
  | lookup key now => trivial
  | reload dirs syncOk => trivial
  | restart dirs syncOk => trivial

end

/-- In every run in which the writes succeed, every load has all exact addresses of the file, and
the two lists make room alike, the three copies are in lockstep after each block for the score. -/
theorem verdicts_in_lockstep (cfg : ConfigEnv) (path : CStr) (db : Db) (blocked : Option CStr)
    (files : FileTexts) (es : List SystemEvent)
    (hrun : Runs.AllSteps (systemStep cfg path)
      (fun s e => WritesOk cfg path s e ∧ RoundTrips cfg path s e ∧ KeepsLockstep cfg path s e)
      (System.off db blocked files) es) :
    Runs.AllSteps (systemStep cfg path) (AddsInLockstep cfg path) (System.off db blocked files) es :=
  Runs.allSteps_imp (InLockstep cfg path) (fun _ _ h hok => h.adds hok.1 hok.2.1 hok.2.2)
    (fun _ _ h hok => h.step hok.1 hok.2.1 hok.2.2)
    (fun hup => absurd hup Bool.false_ne_true) hrun

/-- The daemon starts, and a rename blocks alice's session. -/
def blockRun : List SystemEvent := [.restart .ok true, .message (sampleEnv 1) .ok sampleRename]

/-- With an empty blacklist in the file the copies are in lockstep. -/
theorem verdicts_in_lockstep_sample :
    autoAdds (sampleEnv 1) sampleRename
        (systemStep strictEnv samplePath (System.off .empty none (sampleFiles strictText))
          (.restart .ok true)).daemon = true ∧
      Runs.AllSteps (systemStep strictEnv samplePath) (AddsInLockstep strictEnv samplePath)
        (System.off .empty none (sampleFiles strictText)) blockRun := by
  refine ⟨by decide, verdicts_in_lockstep strictEnv samplePath .empty none
    (sampleFiles strictText) blockRun ⟨⟨rfl, trivial, fun _ root hread => ?_⟩,
      ⟨⟨rfl, rfl, rfl, fun _ _ => by decide⟩, fun _ _ root hread => ?_,
        fun _ _ _ root hread => ?_⟩, trivial⟩⟩
  · obtain rfl := readJson_strict hread
    exact ⟨by decide, by decide⟩
  · obtain rfl :=
      readJson_strict ((congrArg (readJson _ · _) systemStep_restart_files).symm.trans hread)
    exact parse_strict
  · obtain rfl :=
      readJson_strict ((congrArg (readJson _ · _) systemStep_restart_files).symm.trans hread)
    exact ⟨⟨rfl, rfl⟩, by decide⟩

/-- The automatic entries `10.0.1.1` to `10.0.1.64`. -/
def autoEntries : List Json := (List.range 64).map fun k => autoEntry (lit "10.0.1." ++ dec (k + 1))

/-- A policy that scores renames high, with these entries. -/
def autosDoc : Json :=
  .obj [(lit "scoring", .obj [(lit "weights", .obj [(lit "rename", .num 80)])]),
    (lit "blacklist", .obj [(lit "ips", .arr autoEntries)])]

/-- An automatic entry as it is printed. -/
def autoEntryText (ip : CStr) : CStr :=
  lit "\x7b\n\t\t\t\t\"ip\":\t\"" ++ ip ++ lit "\",\n\t\t\t\t\"auto_add\":\ttrue\n\t\t\t\x7d"

/-- A policy as it is printed, with automatic entries for some addresses. -/
def autosText (ips : List CStr) : CStr :=
  lit "\x7b\n\t\"scoring\":\t\x7b\n\t\t\"weights\":\t\x7b\n\t\t\t\"rename\":\t80\n" ++
    lit "\t\t\x7d\n\t\x7d,\n\t\"blacklist\":\t\x7b\n\t\t\"ips\":\t[" ++
    (lit ", ").intercalate (ips.map autoEntryText) ++ lit "]\n\t\x7d\n\x7d"

/-- The addresses of the entries. -/
def autoIps : List CStr := (List.range 64).map fun k => lit "10.0.1." ++ dec (k + 1)

/-- A system that holds the policy. -/
def autosEnv : ConfigEnv :=
  sampleConfigEnv (autosText autoIps) autosDoc (autosText (autoIps.tail ++ [lit "10.0.0.5"]))
    (addVerdict autosDoc (lit "10.0.0.5"))

/-- The policy that is loaded. -/
def autosPolicy : LoadedPolicy where
  policy := (loadSettings (autosEnv.seeing .ok) (sampleFiles (autosText autoIps)) autosDoc).policy
  valid := by decide
  noAuto := rfl

theorem readJson_autos :
    readJson autosEnv (sampleFiles (autosText autoIps)) samplePath = some autosDoc :=
  readJson_sample (by decide +kernel)

theorem parse_autos : autosEnv.parse (autosText (autoIps.tail ++ [lit "10.0.0.5"]) ++ [newline]) =
    some (addVerdict autosDoc (lit "10.0.0.5")) := parse_sample _ _ (by decide)

theorem loadPolicy_autos :
    loadPolicy (autosEnv.seeing .ok) (sampleFiles (autosText autoIps)) samplePath = some autosPolicy :=
  Option.pmap_eq_some_iff.2 ⟨_, configLoad_policy (configLoad_eq_some.2
    ⟨autosDoc, readJson_autos, rfl, by decide⟩), configLoad_eq_some.2
    ⟨autosDoc, readJson_autos, rfl, by decide⟩, rfl⟩

/-- The system once the daemon has started with the policy. -/
def autosSystem : System :=
  { System.off .empty none (sampleFiles (autosText autoIps)) with
    daemon := startDaemon autosPolicy true { Daemon.start .default .empty with blocked := none }
    up := true }

theorem systemStep_autos : systemStep autosEnv samplePath
    (System.off .empty none (sampleFiles (autosText autoIps))) (.restart .ok true) = autosSystem :=
  systemStep_restart loadPolicy_autos

/-- A verdict that is written. -/
theorem persist_autos : configPersistBlacklistIp autosEnv .ok (sampleFiles (autosText autoIps))
    samplePath (lit "10.0.0.5") = (true, ((sampleFiles (autosText autoIps)).set (tmpPath samplePath)
      none).set samplePath (some (autosText (autoIps.tail ++ [lit "10.0.0.5"]) ++ [newline]))) :=
  configPersistBlacklistIp_new (by decide) readJson_autos (by decide)

/-- With 64 automatic entries in the file when it is loaded, a block drops the first of them from
the file, and none from memory. -/
theorem verdicts_not_always_in_lockstep :
    ¬ ∀ (cfg : ConfigEnv) (path : CStr) (db : Db) (blocked : Option CStr) (files : FileTexts)
      (es : List SystemEvent),
      Runs.AllSteps (systemStep cfg path) (fun s e => WritesOk cfg path s e ∧ RoundTrips cfg path s e)
        (System.off db blocked files) es →
      Runs.AllSteps (systemStep cfg path) (AddsInLockstep cfg path) (System.off db blocked files) es := by
  intro h
  have hadds : autoAdds (sampleEnv 1) sampleRename autosSystem.daemon = true := by decide
  have hlock := h autosEnv samplePath .empty none (sampleFiles (autosText autoIps)) blockRun ?_
  · have hlock := hlock.2.1
    rw [systemStep_autos] at hlock
    have hip : sampleRename.clientIp.str = lit "10.0.0.5" := by decide
    refine not_lockstep (a := lit "10.0.1.1") ?_ (by decide) (hlock rfl hadds)
    have hfiles : autosSystem.files = sampleFiles (autosText autoIps) := rfl
    rw [systemStep_block rfl hadds, hip, hfiles, persist_autos]
    unfold docAt
    dsimp only
    rw [FileTexts.set_self, Option.bind_some, parse_autos, Option.any_some]
    decide
  · refine ⟨⟨rfl, trivial⟩, ?_, trivial⟩
    rw [systemStep_autos]
    refine ⟨⟨rfl, rfl, rfl, fun _ _ => congrArg Prod.fst persist_autos⟩, fun _ _ root hread => ?_⟩
    obtain rfl : autosDoc = root := Option.some.inj (readJson_autos.symm.trans hread)
    exact parse_autos

end GfrGuard

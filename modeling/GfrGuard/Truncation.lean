import GfrGuard.ExceptionWalk
import GfrGuard.Precedence

/-!
# Entries that are cut on loading

`config_load` copies each entry of a list into a field of fixed width, so a long entry is cut
and stands in the loaded list as another one. A cut folder may be an ancestor of the folder
that was meant, a cut network may have a shorter prefix. The loaded policy exempts no more
than the entries of the document do exactly when each cut entry is exempted, or its addresses
are, by entries of the document (`truncation_safe_iff`).
-/

namespace GfrGuard

/-! ## The document -/

/-- The strings of a list of the document, in full. -/
def listed (root : Json) (outer name : CStr) : List CStr :=
  (Json.items (root.getIn outer name)).filterMap Json.string?

/-- The excepted files of the document. -/
abbrev listedFiles (root : Json) : List CStr := listed root (lit "exceptions") (lit "files")

/-- The excepted folders of the document. -/
abbrev listedFolders (root : Json) : List CStr := listed root (lit "exceptions") (lit "folders")

/-- The whitelisted users of the document. -/
abbrev listedUsers (root : Json) : List CStr := listed root (lit "whitelist") (lit "users")

/-- The whitelisted addresses of the document. -/
abbrev listedIps (root : Json) : List CStr := listed root (lit "whitelist") (lit "ips")

/-- `cJSON_Parse` makes no array with more items than its text has bytes. -/
def ConfigEnv.ParsesWithin (env : ConfigEnv) : Prop :=
  ∀ text root outer name, env.parse text = some root →
    (Json.items (root.getIn outer name)).length ≤ text.length

/-! ## Exemptions by full entries -/

/-- An entry of any length covers the address, as a network or as a range. -/
def coversFull (ip entry : CStr) : Bool :=
  if isCidr entry then ipInCidrOn atonValue ip entry
  else if isIpRange entry then ipInRangeOn atonValue ip entry
  else false

/-- The lists exempt a user at an address. -/
def WhitelistedIn (users ips : List CStr) (username ip : CStr) : Prop :=
  (username ≠ [] ∧ username ∈ users) ∨ ∃ e ∈ ips, (ip ≠ [] ∧ ip = e) ∨ coversFull ip e = true

/-- What the loaded policy exempts, the entries of the document exempt. -/
structure NeverWidened (s : Settings) (root : Json) : Prop where
  excepted : ∀ path : CBuf pathMax, scorerIsExcepted s.policy path.str = true →
    ExceptedIn (listedFiles root) (listedFolders root) path.str
  whitelisted : ∀ (username : CBuf 64) (ip : CBuf 48),
    scorerIsWhitelisted s.policy username.str ip.str = true →
    WhitelistedIn (listedUsers root) (listedIps root) username.str ip.str

/-- The number is in the network or the range that the entry stands for. -/
def InEntry (v : UInt32) (entry : CStr) : Prop :=
  if isCidr entry then
    let (base, text) := splitFirst slash entry
    (0 ≤ atoiInt text ∧ atoiInt text ≤ 32) ∧ ∃ net, atonValue base = some net ∧
      v &&& cidrMask (atoiInt text).toNat = net &&& cidrMask (atoiInt text).toNat
  else if isIpRange entry then
    let (first, last) := splitFirst dash entry
    ∃ lo hi, atonValue first = some lo ∧ atonValue last = some hi ∧
      ((lo ≤ v ∧ v ≤ hi) ∨ (hi ≤ v ∧ v ≤ lo))
  else False

/-- The entries that are loaded and too long for their field of `n` bytes. -/
def cutEntries (n : Nat) (entries : List CStr) : List CStr := (entries.take 64).filter (n ≤ ·.length)

/-- Entries of the document exempt what the cut ones stand for. -/
structure CutsCovered (root : Json) : Prop where
  files : ∀ e ∈ cutEntries 2048 (listedFiles root), ∃ f ∈ listedFiles root, FileExcepts f (snprintf 2048 e)
  folders : ∀ e ∈ cutEntries 2048 (listedFolders root), ∃ f ∈ listedFolders root,
    FolderExcepts f (snprintf 2048 e)
  users : ∀ e ∈ cutEntries 64 (listedUsers root), snprintf 64 e ∈ listedUsers root
  ips : ∀ e ∈ cutEntries 48 (listedIps root),
    snprintf 48 e ∈ listedIps root ∨
      ∃ v, atonValue (snprintf 48 e) = some v ∧ ∃ f ∈ listedIps root, InEntry v f
  networks : ∀ e ∈ cutEntries 48 (listedIps root), ∀ v, InEntry v (snprintf 48 e) →
    ∃ f ∈ listedIps root, InEntry v f

section
variable {ip entry path f g c e : CStr} {v : UInt32} {root : Json} {entries : List CStr}

/-! ## Addresses -/

theorem ipInCidrOn_iff (h : isCidr entry = true) :
    ipInCidrOn atonValue ip entry = true ↔ ∃ v, atonValue ip = some v ∧ InEntry v entry := by
  unfold ipInCidrOn InEntry
  rw [h, Bool.true_and]
  simp only [↓reduceIte]
  generalize splitFirst slash entry = parts
  obtain ⟨base, text⟩ := parts
  dsimp only
  split
  · next hout => exact iff_of_false Bool.false_ne_true fun ⟨_, _, hin, _⟩ => by omega
  · next hin =>
    cases hbase : atonValue base with
    | none => simp
    | some net =>
      cases hip : atonValue ip with
      | none => simp
      | some v =>
        have hbits : 0 ≤ atoiInt text ∧ atoiInt text ≤ 32 := by omega
        simp [hbits]

theorem ipInRangeOn_iff (hcidr : isCidr entry = false) (h : isIpRange entry = true) :
    ipInRangeOn atonValue ip entry = true ↔ ∃ v, atonValue ip = some v ∧ InEntry v entry := by
  unfold ipInRangeOn InEntry
  rw [h, Bool.true_and, hcidr]
  simp only [Bool.false_eq_true, ↓reduceIte]
  generalize splitFirst dash entry = parts
  obtain ⟨first, last⟩ := parts
  dsimp only
  cases hfirst : atonValue first with
  | none => simp
  | some lo =>
    cases hlast : atonValue last with
    | none => simp
    | some hi =>
      cases hip : atonValue ip with
      | none => simp
      | some v =>
        have hbounds : (∃ w, some v = some w ∧ ∃ a b, some lo = some a ∧ some hi = some b ∧
            ((a ≤ w ∧ w ≤ b) ∨ (b ≤ w ∧ w ≤ a))) ↔ ((lo ≤ v ∧ v ≤ hi) ∨ (hi ≤ v ∧ v ≤ lo)) := by simp
        rw [hbounds]
        dsimp only
        split <;>
          · simp only [Bool.and_eq_true, decide_eq_true_eq, UInt32.le_iff_toNat_le,
              UInt32.lt_iff_toNat_lt] at *
            omega

/-- An entry covers a client whose address is in it. -/
theorem coversFull_iff : coversFull ip entry = true ↔ ∃ v, atonValue ip = some v ∧ InEntry v entry := by
  unfold coversFull
  cases hcidr : isCidr entry with
  | true => exact ipInCidrOn_iff hcidr
  | false =>
    rw [if_neg Bool.false_ne_true]
    cases hrange : isIpRange entry with
    | true => exact ipInRangeOn_iff hcidr hrange
    | false => simp [InEntry, hcidr, hrange]

/-- The field of an address is shorter than the copies that are made of it. -/
theorem entryCovers_eq (h : entry.length < 64) : entryCovers ip entry = coversFull ip entry := by
  unfold entryCovers entryCoversBy coversFull ipInCidrBy ipInRangeBy
  rw [snprintf_of_lt h]

/-! ## Loaded lists -/

theorem strs_loadStrings (cap n : Nat) [NeZero n] (outer name : CStr) :
    (loadStrings cap n (fun _ => true) (root.getIn outer name)).strs =
      ((listed root outer name).take cap).map (snprintf n) := by
  show (((((Json.items (root.getIn outer name)).filterMap Json.string?).filter fun _ => true).take cap).map
    (CBuf.ofStr n)).map CBuf.str = _
  rw [List.filter_true, List.map_map]
  rfl

/-- A loaded entry is a full one, or one that is cut. -/
theorem mem_cut_or_full {n : Nat} (h : c ∈ (entries.take 64).map (snprintf n)) :
    c ∈ entries ∨ ∃ e ∈ cutEntries n entries, c = snprintf n e := by
  obtain ⟨e, he, rfl⟩ := List.mem_map.1 h
  by_cases hlen : n ≤ e.length
  · exact .inr ⟨e, List.mem_filter.2 ⟨he, decide_eq_true hlen⟩, rfl⟩
  · rw [snprintf_of_lt (Nat.not_le.1 hlen)]
    exact .inl (List.mem_of_mem_take he)

/-- A cut entry fills its field. -/
theorem length_of_mem_cutEntries {n : Nat} (h : e ∈ cutEntries n entries) :
    (snprintf n e).length = n - 1 := by
  have hle := of_decide_eq_true (List.mem_filter.1 h).2
  unfold snprintf
  rw [List.length_take]
  omega

theorem mem_loaded_of_cut {n : Nat} (h : e ∈ cutEntries n entries) :
    snprintf n e ∈ (entries.take 64).map (snprintf n) :=
  List.mem_map_of_mem (List.mem_filter.1 h).1

/-! ## Fresh names -/

/-- Of more texts than a list is long, one is not in it. -/
theorem exists_fresh {text : Nat → CStr} (hinj : Function.Injective text) (used : List CStr) :
    ∃ n ≤ used.length, text n ∉ used := by
  by_contra hall
  have hsub : (List.range (used.length + 1)).map text ⊆ used := by
    intro t ht
    obtain ⟨n, hn, rfl⟩ := List.mem_map.1 ht
    by_contra hfree
    exact hall ⟨n, Nat.le_of_lt_succ (List.mem_range.1 hn), hfree⟩
  have hle := ((List.nodup_range.map hinj).subperm hsub).length_le
  rw [List.length_map, List.length_range] at hle
  exact Nat.lt_irrefl _ hle

theorem length_dec_le_seven {n : Nat} (h : n ≤ 8388608) : (dec n).length ≤ 7 :=
  (length_dec_le (by decide)).2 (by omega)

theorem slash_not_mem_dec (n : Nat) : slash ∉ dec n := not_mem_dec (by decide)

/-- What follows the last slash. -/
def lastName (s : CStr) : CStr := (s.reverse.takeWhile (· ≠ slash)).reverse

/-- What comes before the first slash. -/
def firstName (s : CStr) : CStr := s.takeWhile (· ≠ slash)

theorem takeWhile_append_slash (a b : CStr) :
    (a ++ slash :: b).takeWhile (· ≠ slash) = a.takeWhile (· ≠ slash) := by
  induction a with
  | nil => simp
  | cons x a ih => rw [List.cons_append, List.takeWhile_cons, List.takeWhile_cons, ih]

theorem firstName_append (a b : CStr) : firstName (a ++ slash :: b) = firstName a :=
  takeWhile_append_slash a b

theorem lastName_append (a b : CStr) : lastName (a ++ slash :: b) = lastName b := by
  unfold lastName
  rw [List.reverse_append, List.reverse_cons, List.append_assoc, List.singleton_append,
    takeWhile_append_slash]

theorem firstName_dec (n : Nat) : firstName (dec n) = dec n := by
  refine List.takeWhile_eq_self_iff.2 fun b hb => decide_eq_true ?_
  rintro rfl
  exact slash_not_mem_dec n hb

theorem lastName_dec (n : Nat) : lastName (dec n) = dec n := by
  unfold lastName
  rw [List.takeWhile_eq_self_iff.2 fun b hb => decide_eq_true ?_, List.reverse_reverse]
  rintro rfl
  exact slash_not_mem_dec n (List.mem_reverse.1 hb)

/-! ## Exceptions -/

theorem FileExcepts.trans (hf : FileExcepts f c) (hc : FileExcepts c path) : FileExcepts f path := by
  obtain ⟨hne, rfl | ⟨above, rfl⟩⟩ := hf
  · exact hc
  · obtain ⟨-, rfl | ⟨above', rfl⟩⟩ := hc
    · exact ⟨hne, .inr ⟨above, rfl⟩⟩
    · exact ⟨hne, .inr ⟨above' ++ slash :: above, by simp⟩⟩

theorem FolderExcepts.trans (hf : FolderExcepts f c) (hc : FolderExcepts c path) : FolderExcepts f path := by
  obtain ⟨hne, rfl | ⟨below, rfl⟩⟩ := hf
  · exact hc
  · obtain ⟨-, rfl | ⟨below', rfl⟩⟩ := hc
    · exact ⟨hne, .inr ⟨below, rfl⟩⟩
    · exact ⟨hne, .inr ⟨below ++ slash :: below', by simp⟩⟩

/-- Below a directory with a name of its own, only what excepts the file itself excepts it. -/
theorem fileExcepts_of_below {n : Nat} (h : FileExcepts f (dec n ++ slash :: c)) (hfresh : firstName f ≠ dec n) :
    FileExcepts f c := by
  obtain ⟨hne, rfl | ⟨above, habove⟩⟩ := h
  · rw [firstName_append, firstName_dec] at hfresh
    exact absurd rfl hfresh
  · refine ⟨hne, ?_⟩
    rcases List.append_eq_append_iff.1 habove with ⟨more, rfl, hmore⟩ | ⟨more, hdec, hmore⟩
    · cases more with
      | nil => exact .inl (List.cons.inj hmore).2.symm
      | cons b more => exact .inr ⟨more, (List.cons.inj hmore).2⟩
    · cases more with
      | nil => exact .inl (List.cons.inj hmore).2
      | cons b more =>
        obtain ⟨rfl, -⟩ := List.cons.inj hmore
        exact absurd (by rw [hdec]; simp) (slash_not_mem_dec n)

/-- A folder that excepts a file below a directory begins with its name. -/
theorem firstName_of_folderExcepts {n : Nat} (h : FolderExcepts f (dec n ++ slash :: c)) :
    firstName f = dec n := by
  obtain ⟨-, rfl | ⟨below, hbelow⟩⟩ := h
  · rw [firstName_append, firstName_dec]
  · have hfirst := congrArg firstName hbelow
    rw [firstName_append, firstName_append, firstName_dec] at hfirst
    exact hfirst.symm

/-- A file that excepts a file ends in its name. -/
theorem lastName_of_fileExcepts {n : Nat} (h : FileExcepts f (c ++ slash :: dec n)) :
    lastName f = dec n := by
  obtain ⟨-, rfl | ⟨above, habove⟩⟩ := h
  · rw [lastName_append, lastName_dec]
  · have hlast := congrArg lastName habove
    rw [lastName_append, lastName_append, lastName_dec] at hlast
    exact hlast.symm

/-- Above a file with a name of its own, only what excepts the folder itself excepts it. -/
theorem folderExcepts_of_above {n : Nat} (h : FolderExcepts f (c ++ slash :: dec n))
    (hfresh : lastName f ≠ dec n) : FolderExcepts f c := by
  obtain ⟨hne, rfl | ⟨below, hbelow⟩⟩ := h
  · rw [lastName_append, lastName_dec] at hfresh
    exact absurd rfl hfresh
  · refine ⟨hne, ?_⟩
    rcases List.append_eq_append_iff.1 hbelow with ⟨more, rfl, hmore⟩ | ⟨more, rfl, hmore⟩
    · cases more with
      | nil => exact .inl (by simp)
      | cons b more =>
        exact absurd (by rw [(List.cons.inj hmore).2]; simp) (slash_not_mem_dec n)
    · cases more with
      | nil => exact .inl (by simp)
      | cons b more =>
        obtain ⟨rfl, -⟩ := List.cons.inj hmore
        exact .inr ⟨more, rfl⟩

end

section
variable {env : ConfigEnv} {files : FileTexts} {config : CStr} {s : Settings} {root : Json} {c : CStr}

/-! ## The loaded policy -/

/-- The policy of a document. -/
def LoadedFrom (env : ConfigEnv) (files : FileTexts) (config : CStr) (s : Settings) (root : Json) : Prop :=
  configLoad env files config = some s ∧ readJson env files config = some root

theorem LoadedFrom.settings (h : LoadedFrom env files config s root) : s = loadSettings env files root := by
  obtain ⟨root', hroot, rfl, -⟩ := configLoad_eq_some.1 h.1
  rw [h.2, Option.some.injEq] at hroot
  rw [hroot]

theorem LoadedFrom.mem_files (h : LoadedFrom env files config s root) :
    c ∈ s.policy.exceptions.files.strs ↔ c ∈ ((listedFiles root).take 64).map (snprintf 2048) := by
  rw [h.settings, ← strs_loadStrings]
  exact StrList.mem_sorted _

theorem LoadedFrom.mem_folders (h : LoadedFrom env files config s root) :
    c ∈ s.policy.exceptions.folders.strs ↔ c ∈ ((listedFolders root).take 64).map (snprintf 2048) := by
  rw [h.settings, ← strs_loadStrings]
  exact StrList.mem_sorted _

theorem LoadedFrom.mem_users (h : LoadedFrom env files config s root) :
    c ∈ s.policy.whitelist.users.strs ↔ c ∈ ((listedUsers root).take 64).map (snprintf 64) := by
  rw [h.settings, ← strs_loadStrings]
  exact StrList.mem_sorted _

theorem LoadedFrom.mem_ips (h : LoadedFrom env files config s root) :
    c ∈ s.policy.whitelist.ips.strs ↔ c ∈ ((listedIps root).take 64).map (snprintf 48) := by
  rw [h.settings, ← strs_loadStrings]
  exact StrList.mem_sorted _

theorem LoadedFrom.excepted_iff (h : LoadedFrom env files config s root) {path : CStr} (hpath : path ≠ []) :
    scorerIsExcepted s.policy path = true ↔
      ExceptedIn (((listedFiles root).take 64).map (snprintf 2048))
        (((listedFolders root).take 64).map (snprintf 2048)) path := by
  have hsorted : HashSorted s.policy.exceptions.files.strs ∧ HashSorted s.policy.exceptions.folders.strs := by
    rw [h.settings]
    exact ⟨StrList.hashSorted_sorted _, StrList.hashSorted_sorted _⟩
  rw [scorerIsExcepted_iff hsorted.1 hsorted.2 hpath]
  unfold ExceptedBy ExceptedIn
  simp only [h.mem_files, h.mem_folders]

theorem LoadedFrom.whitelisted_iff (h : LoadedFrom env files config s root) {username ip : CStr} :
    scorerIsWhitelisted s.policy username ip = true ↔
      WhitelistedIn (((listedUsers root).take 64).map (snprintf 64))
        (((listedIps root).take 64).map (snprintf 48)) username ip := by
  rw [scorerIsWhitelisted_eq (listsSorted_of_configLoad h.1)]
  unfold WhitelistedIn userListed ipListed
  simp only [Bool.or_eq_true, Bool.and_eq_true, decide_eq_true_eq, List.any_eq_true, h.mem_users, h.mem_ips]
  refine or_congr_right ⟨?_, ?_⟩
  · rintro (⟨hne, hmem⟩ | ⟨e, he, hcovers⟩)
    · exact ⟨ip, hmem, .inl ⟨hne, rfl⟩⟩
    · refine ⟨e, he, .inr ?_⟩
      obtain ⟨e, -, rfl⟩ := List.mem_map.1 he
      rwa [entryCovers_eq (Nat.lt_trans (length_snprintf_lt (by decide) e) (by decide))] at hcovers
  · rintro ⟨e, he, ⟨hne, rfl⟩ | hcovers⟩
    · exact .inl ⟨hne, he⟩
    · refine .inr ⟨e, he, ?_⟩
      obtain ⟨e, -, rfl⟩ := List.mem_map.1 he
      rwa [entryCovers_eq (Nat.lt_trans (length_snprintf_lt (by decide) e) (by decide))]

/-- The document has no list of more than 4 Mi entries. -/
theorem LoadedFrom.length_listed (h : LoadedFrom env files config s root) (hparse : env.ParsesWithin)
    (outer name : CStr) : (listed root outer name).length ≤ 4194304 := by
  obtain ⟨text, htext, hroot⟩ := Option.bind_eq_some_iff.1 h.2
  have hlen : text.length ≤ 4194304 := of_decide_eq_true (Option.filter_eq_some_iff.1 htext).2
  exact Nat.le_trans (List.length_filterMap_le _ _) (Nat.le_trans (hparse text root outer name hroot) hlen)

/-! ## Both directions -/

/-- Where the cut entries are covered, nothing more is exempted. -/
theorem CutsCovered.neverWidened (h : LoadedFrom env files config s root) (hcuts : CutsCovered root) :
    NeverWidened s root where
  excepted path hexcepted := by
    have hpath : path.str ≠ [] := by
      intro hnil
      unfold scorerIsExcepted at hexcepted
      rw [hnil] at hexcepted
      cases hexcepted
    rcases (h.excepted_iff hpath).1 hexcepted with ⟨f, hf, hpath⟩ | ⟨f, hf, hpath⟩
    · rcases mem_cut_or_full hf with hfull | ⟨e, he, rfl⟩
      · exact .inl ⟨f, hfull, hpath⟩
      · obtain ⟨g, hg, hcut⟩ := hcuts.files e he
        exact .inl ⟨g, hg, hcut.trans hpath⟩
    · rcases mem_cut_or_full hf with hfull | ⟨e, he, rfl⟩
      · exact .inr ⟨f, hfull, hpath⟩
      · obtain ⟨g, hg, hcut⟩ := hcuts.folders e he
        exact .inr ⟨g, hg, hcut.trans hpath⟩
  whitelisted username ip hwhite := by
    rcases h.whitelisted_iff.1 hwhite with ⟨hne, hmem⟩ | ⟨c, hc, hmatch⟩
    · refine .inl ⟨hne, ?_⟩
      rcases mem_cut_or_full hmem with hfull | ⟨e, he, heq⟩
      · exact hfull
      · rw [heq]
        exact hcuts.users e he
    · refine .inr ?_
      rcases mem_cut_or_full hc with hfull | ⟨e, he, rfl⟩
      · exact ⟨c, hfull, hmatch⟩
      · rcases hmatch with ⟨hne, heq⟩ | hcovers
        · rw [heq] at hne ⊢
          rcases hcuts.ips e he with hmem | ⟨v, hv, f, hf, hin⟩
          · exact ⟨_, hmem, .inl ⟨hne, rfl⟩⟩
          · exact ⟨f, hf, .inr (coversFull_iff.2 ⟨v, hv, hin⟩)⟩
        · obtain ⟨v, hv, hin⟩ := coversFull_iff.1 hcovers
          obtain ⟨f, hf, hfull⟩ := hcuts.networks e he v hin
          exact ⟨f, hf, .inr (coversFull_iff.2 ⟨v, hv, hfull⟩)⟩

/-- The texts of an address are too many to be listed one by one. -/
theorem fresh_ip (v : UInt32) (used : List CStr) (h : used.length ≤ 4194304) :
    ∃ ip : CBuf 48, ip.str ∉ used ∧ atonValue ip.str = some v := by
  have hinj : Function.Injective fun n => dec v.toNat ++ 32 :: dec n := fun a b hab =>
    dec_injective (List.cons.inj (List.append_cancel_left hab)).2
  obtain ⟨n, hn, hfree⟩ := exists_fresh hinj used
  have hv : (dec v.toNat).length ≤ 10 := (length_dec_le (by decide)).2 (Nat.lt_trans v.toNat_lt (by decide))
  have hlen : (dec n).length ≤ 7 := length_dec_le_seven (Nat.le_trans hn (Nat.le_trans h (by decide)))
  have hfits : (dec v.toNat ++ 32 :: dec n).length < 48 := by
    rw [List.length_append, List.length_cons]
    omega
  refine ⟨.ofStr 48 (dec v.toNat ++ 32 :: dec n), ?_, ?_⟩
  · rwa [CBuf.str_ofStr_of_lt hfits]
  · rw [CBuf.str_ofStr_of_lt hfits]
    unfold atonValue
    rw [inetAton_dec v.toNat_lt, Option.map_some]
    exact congrArg some (UInt32.ofNat_toNat)

/-- A number that is neither the first nor the last name of an entry. -/
theorem fresh_name (h : LoadedFrom env files config s root) (hparse : env.ParsesWithin) (name : CStr → CStr) :
    ∃ n, (dec n).length ≤ 7 ∧ (∀ f ∈ listedFiles root, name f ≠ dec n) ∧
      ∀ f ∈ listedFolders root, name f ≠ dec n := by
  obtain ⟨n, hn, hfree⟩ := exists_fresh dec_injective
    ((listedFiles root).map name ++ (listedFolders root).map name)
  have hfiles : (listedFiles root).length ≤ 4194304 := h.length_listed hparse _ _
  have hfolders : (listedFolders root).length ≤ 4194304 := h.length_listed hparse _ _
  rw [List.length_append, List.length_map, List.length_map] at hn
  rw [List.mem_append, not_or] at hfree
  exact ⟨n, length_dec_le_seven (by omega), fun f hf heq => hfree.1 (heq ▸ List.mem_map_of_mem hf),
    fun f hf heq => hfree.2 (heq ▸ List.mem_map_of_mem hf)⟩

theorem ne_nil_of_mem_cutEntries {n : Nat} {entries : List CStr} {e : CStr} (h : e ∈ cutEntries n entries)
    (hn : 1 < n) : snprintf n e ≠ [] :=
  List.ne_nil_of_length_pos (by rw [length_of_mem_cutEntries h]; omega)

/-- A cut file is excepted by the document, or it excepts more below a directory that no entry
names. -/
theorem NeverWidened.cutFile (hnever : NeverWidened s root) (h : LoadedFrom env files config s root)
    (hparse : env.ParsesWithin) {e : CStr} (he : e ∈ cutEntries 2048 (listedFiles root)) :
    ∃ f ∈ listedFiles root, FileExcepts f (snprintf 2048 e) := by
  obtain ⟨n, hlen, hfiles, hfolders⟩ := fresh_name h hparse firstName
  have hfits : (dec n ++ slash :: snprintf 2048 e).length < pathMax := by
    unfold pathMax
    rw [List.length_append, List.length_cons, length_of_mem_cutEntries he]
    omega
  have hexcepted := hnever.excepted (.ofStr pathMax (dec n ++ slash :: snprintf 2048 e))
  rw [CBuf.str_ofStr_of_lt hfits, h.excepted_iff (by simp)] at hexcepted
  rcases hexcepted (.inl ⟨_, mem_loaded_of_cut he, ne_nil_of_mem_cutEntries he (by decide),
    .inr ⟨dec n, rfl⟩⟩) with ⟨f, hf, hpath⟩ | ⟨f, hf, hpath⟩
  · exact ⟨f, hf, fileExcepts_of_below hpath (hfiles f hf)⟩
  · exact absurd (firstName_of_folderExcepts hpath) (hfolders f hf)

/-- A cut folder is excepted by the document, or it excepts a file in it that no entry names. -/
theorem NeverWidened.cutFolder (hnever : NeverWidened s root) (h : LoadedFrom env files config s root)
    (hparse : env.ParsesWithin) {e : CStr} (he : e ∈ cutEntries 2048 (listedFolders root)) :
    ∃ f ∈ listedFolders root, FolderExcepts f (snprintf 2048 e) := by
  obtain ⟨n, hlen, hfiles, hfolders⟩ := fresh_name h hparse lastName
  have hfits : (snprintf 2048 e ++ slash :: dec n).length < pathMax := by
    unfold pathMax
    rw [List.length_append, List.length_cons, length_of_mem_cutEntries he]
    omega
  have hexcepted := hnever.excepted (.ofStr pathMax (snprintf 2048 e ++ slash :: dec n))
  rw [CBuf.str_ofStr_of_lt hfits, h.excepted_iff (by simp)] at hexcepted
  rcases hexcepted (.inr ⟨_, mem_loaded_of_cut he, ne_nil_of_mem_cutEntries he (by decide),
    .inr ⟨dec n, rfl⟩⟩) with ⟨f, hf, hpath⟩ | ⟨f, hf, hpath⟩
  · exact absurd (lastName_of_fileExcepts hpath) (hfiles f hf)
  · exact ⟨f, hf, folderExcepts_of_above hpath (hfolders f hf)⟩

/-- A cut user is listed: he is asked for at no address. -/
theorem NeverWidened.cutUser (hnever : NeverWidened s root) (h : LoadedFrom env files config s root) {e : CStr}
    (he : e ∈ cutEntries 64 (listedUsers root)) : snprintf 64 e ∈ listedUsers root := by
  have hwhite := hnever.whitelisted (.ofStr 64 (snprintf 64 e)) (.empty 48)
  have hlen := length_of_mem_cutEntries he
  rw [CBuf.str_ofStr_of_lt (by omega), h.whitelisted_iff] at hwhite
  rcases hwhite (.inl ⟨ne_nil_of_mem_cutEntries he (by decide), mem_loaded_of_cut he⟩) with
    ⟨-, hmem⟩ | ⟨f, -, ⟨hnil, -⟩ | hcovers⟩
  · exact hmem
  · exact absurd rfl hnil
  · obtain ⟨v, hv, -⟩ := coversFull_iff.1 hcovers
    cases hv

/-- What a client without a user is whitelisted for. -/
theorem NeverWidened.cutClient (hnever : NeverWidened s root) (h : LoadedFrom env files config s root)
    (ip : CBuf 48) {e : CStr} (he : e ∈ cutEntries 48 (listedIps root))
    (hmatch : (ip.str ≠ [] ∧ ip.str = snprintf 48 e) ∨ coversFull ip.str (snprintf 48 e) = true) :
    ip.str ∈ listedIps root ∨ ∃ v, atonValue ip.str = some v ∧ ∃ f ∈ listedIps root, InEntry v f := by
  have hwhite := hnever.whitelisted (.empty 64) ip
  rw [h.whitelisted_iff] at hwhite
  rcases hwhite (.inr ⟨_, mem_loaded_of_cut he, hmatch⟩) with ⟨hnil, -⟩ | ⟨f, hf, ⟨-, heq⟩ | hcovers⟩
  · exact absurd rfl hnil
  · exact .inl (heq ▸ hf)
  · obtain ⟨v, hv, hin⟩ := coversFull_iff.1 hcovers
    exact .inr ⟨v, hv, f, hf, hin⟩

/-- A loaded policy exempts no more than the document exactly when the document exempts what
its cut entries stand for. -/
theorem truncation_safe_iff (hparse : env.ParsesWithin) (h : LoadedFrom env files config s root) :
    NeverWidened s root ↔ CutsCovered root := by
  refine ⟨fun hnever => ⟨fun e => hnever.cutFile h hparse, fun e => hnever.cutFolder h hparse,
    fun e => hnever.cutUser h, fun e he => ?_, fun e he v hin => ?_⟩, CutsCovered.neverWidened h⟩
  · have hlen := length_of_mem_cutEntries he
    have hclient := hnever.cutClient h (.ofStr 48 (snprintf 48 e)) he
    rw [CBuf.str_ofStr_of_lt (by omega)] at hclient
    exact hclient (.inl ⟨ne_nil_of_mem_cutEntries he (by decide), rfl⟩)
  · -- a text of the address that is not listed
    obtain ⟨ip, hfree, hip⟩ := fresh_ip v (listedIps root) (h.length_listed hparse _ _)
    rcases hnever.cutClient h ip he (.inr (coversFull_iff.2 ⟨v, hip, hin⟩)) with hmem | ⟨w, hw, hfull⟩
    · exact absurd hmem hfree
    · rw [hip, Option.some.injEq] at hw
      rwa [hw]

end

/-- A folder of 2049 bytes: 23 names of 88 letters, and one more. -/
def deepFolder : CStr := (List.replicate 23 (slash :: List.replicate 88 97)).flatten ++ lit "/b"

/-- A policy that excepts it. -/
def deepText : CStr := lit "\x7b\"exceptions\":\x7b\"folders\":[\"" ++ deepFolder ++ lit "\"]\x7d\x7d"

/-- Its document. -/
def deepDoc : Json := .obj [(lit "exceptions", .obj [(lit "folders", .arr [.str deepFolder])])]

theorem length_deepFolder : deepFolder.length = 2049 := by
  have hend : (lit "/b").length = 2 := rfl
  simp only [deepFolder, List.length_append, List.length_flatten, List.map_replicate, List.sum_replicate_nat,
    List.length_cons, List.length_replicate, hend]

/-- The policy is loaded. -/
theorem loadedFrom_deep : LoadedFrom (docEnv deepText deepDoc) (sampleFiles deepText) samplePath
    (docSettings deepText deepDoc) deepDoc := by
  have hhead : (lit "\x7b\"exceptions\":\x7b\"folders\":[\"").length = 27 := rfl
  have hend : (lit "\"]\x7d\x7d").length = 4 := rfl
  have hlen : deepText.length ≤ 4194304 := by
    rw [deepText, List.length_append, List.length_append, hhead, length_deepFolder, hend]
    decide
  exact ⟨configLoad_doc hlen (by decide), readJson_sample hlen⟩

theorem listed_deep : listedFiles deepDoc = [] ∧ listedFolders deepDoc = [deepFolder] := ⟨rfl, rfl⟩

/-- The files in the directory above are excepted too. -/
theorem truncation_widens : ¬ ∀ (env : ConfigEnv) (files : FileTexts) (config : CStr) (s : Settings)
    (root : Json), LoadedFrom env files config s root → NeverWidened s root := by
  intro h
  have hlen : (snprintf 2048 deepFolder).length = 2047 := by
    unfold snprintf
    rw [List.length_take, length_deepFolder]
    rfl
  have hexcepted := (h _ _ _ _ _ loadedFrom_deep).excepted (.ofStr pathMax (snprintf 2048 deepFolder))
  have hne : snprintf 2048 deepFolder ≠ [] := List.ne_nil_of_length_pos (by rw [hlen]; decide)
  rw [CBuf.str_ofStr_of_lt (by rw [hlen]; decide), loadedFrom_deep.excepted_iff hne, listed_deep.1,
    listed_deep.2] at hexcepted
  rcases hexcepted (.inr ⟨_, List.mem_cons_self, hne, .inl rfl⟩) with ⟨f, hf, -⟩ | ⟨f, hf, -, heq | ⟨below, heq⟩⟩
  · exact absurd hf List.not_mem_nil
  · rw [List.mem_singleton.1 hf] at heq
    have := congrArg List.length heq
    rw [length_deepFolder, hlen] at this
    omega
  · rw [List.mem_singleton.1 hf] at heq
    have := congrArg List.length heq
    rw [hlen, List.length_append, length_deepFolder] at this
    omega

/-- A policy with short entries exempts what they say. -/
theorem truncation_safe_sample : NeverWidened (docSettings folderText folderDoc) folderDoc := by
  have hlen : folderText.length ≤ 4194304 := by decide
  have hloaded : LoadedFrom (docEnv folderText folderDoc) (sampleFiles folderText) samplePath
      (docSettings folderText folderDoc) folderDoc :=
    ⟨configLoad_doc hlen (by decide), readJson_sample hlen⟩
  have hparse : (docEnv folderText folderDoc).ParsesWithin := by
    intro text root outer name hroot
    unfold docEnv sampleConfigEnv at hroot
    dsimp only at hroot
    split at hroot
    · next htext =>
      cases hroot
      rw [htext]
      have hitems : (Json.items (folderDoc.getIn outer name)).length ≤ 1 := by
        unfold folderDoc Json.getIn Json.getItem
        cases houter : strcaseEq outer (lit "exceptions") <;> cases hname : strcaseEq name (lit "folders") <;>
          simp [houter, hname, Json.items]
      exact Nat.le_trans hitems (by decide)
    · split at hroot
      · cases hroot
        simp [Json.getIn, Json.getItem, Json.items]
      · cases hroot
  have hcut : cutEntries 2048 (listedFiles folderDoc) = [] ∧ cutEntries 2048 (listedFolders folderDoc) = [] ∧
      cutEntries 64 (listedUsers folderDoc) = [] ∧ cutEntries 48 (listedIps folderDoc) = [] := by decide
  obtain ⟨hfiles, hfolders, husers, hips⟩ := hcut
  exact (truncation_safe_iff hparse hloaded).2 ⟨by simp [hfiles], by simp [hfolders], by simp [husers],
    by simp [hips], by simp [hips]⟩

end GfrGuard

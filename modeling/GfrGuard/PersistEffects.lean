import GfrGuard.Persist

/-!
# What a persisted verdict changes

`config_persist_blacklist_ip` goes over the array of the blacklist once, for the address, the
number of automatic entries and the place of the first of them, and then replaces the policy
file through a temporary one. Whatever the array holds and whichever file operation fails, an
error and an address that was there leave the policy file; otherwise the new document is the
old one with the entry added to the array, its oldest automatic entry gone when there were 64,
and every other field in its place (`persist_changes_only`).
-/

namespace GfrGuard

/-! ## The pass over the array -/

/-- The loop over the entries from index `idx` on: nothing when the address is there, otherwise
the number of automatic entries and the index of the first. -/
def scanIps (ip : CStr) : (entries : List Json) → (idx autoCount : Nat) → (firstAuto : Option Nat) →
    Option (Nat × Option Nat)
  | [], _, autoCount, firstAuto => some (autoCount, firstAuto)
  | e :: entries, idx, autoCount, firstAuto =>
    if entryIp e = some ip then none
    else if isAutoEntry e then scanIps ip entries (idx + 1) (autoCount + 1) (firstAuto.or (some idx))
    else scanIps ip entries (idx + 1) autoCount firstAuto

/-- The entries before the new one: of 64 automatic ones the first is deleted. -/
def evictAuto (entries : List Json) (autoCount : Nat) (firstAuto : Option Nat) : List Json :=
  match firstAuto with
  | some i => if 64 ≤ autoCount then entries.eraseIdx i else entries
  | none => entries

/-- The document with the array as the pass leaves it, its blacklist and its array made anew
where they have another type. -/
def addScanned (root : Json) (ip : CStr) (autoCount : Nat) (firstAuto : Option Nat) : Json :=
  root.putItem Json.isObject (.obj []) (lit "blacklist") fun bl =>
    bl.putItem Json.isArray (.arr []) (lit "ips") fun ips =>
      .arr (evictAuto (Json.items (some ips)) autoCount firstAuto ++ [autoEntry ip])

/-! ## The file operations -/

/-- The outcome of each file operation. -/
structure PersistOps where
  fopen : Bool
  fputs : Bool
  fputc : Bool
  fflush : Bool
  fsync : Bool
  fclose : Bool
  rename : Bool
  unlink : Bool
  /-- What a failed write leaves in the temporary file. -/
  partialText : CStr

/-- The temporary file is written, synced and closed. -/
def PersistOps.written (ops : PersistOps) : Bool :=
  ops.fputs && ops.fputc && ops.fflush && ops.fsync && ops.fclose

/-- Replace a file through a temporary one, which is removed on a failure. -/
def replaceTmp (ops : PersistOps) (files : FileTexts) (path text : CStr) : Bool × FileTexts :=
  if !ops.fopen then (false, files)
  else
    let files := files.set (tmpPath path) (some (if ops.written then text else ops.partialText))
    if ops.written && ops.rename then (true, (files.set (tmpPath path) none).set path (some text))
    else (false, if ops.unlink then files.set (tmpPath path) none else files)

/-- `config_persist_blacklist_ip`, one operation after the other. -/
def persistRun (env : ConfigEnv) (ops : PersistOps) (files : FileTexts) (path ip : CStr) :
    Bool × FileTexts :=
  if ip = [] then (false, files)
  else if !validClientIp ip then (true, files)
  else
    match readJson env files path with
    | none => (false, files)
    | some root =>
      match scanIps ip (blacklistEntries root) 0 0 none with
      | none => (true, files)
      | some (autoCount, firstAuto) =>
        replaceTmp ops files path (env.print (addScanned root ip autoCount firstAuto) ++ [newline])

/-! ## The change of a document -/

/-- The first field of a name is changed where it has the type; otherwise it is taken out, if
there is one, and a fresh one is put at the end. -/
inductive FieldPut (name : CStr) (isType : Json → Bool) (change : Json → Json → Prop)
    (fresh : Json → Prop) : List (CStr × Json) → List (CStr × Json) → Prop
  | changed {before after : List (CStr × Json)} {key : CStr} {v v' : Json} :
    (∀ f ∈ before, strcaseEq name f.1 = false) → strcaseEq name key = true → isType v = true → change v v' →
    FieldPut name isType change fresh (before ++ (key, v) :: after) (before ++ (key, v') :: after)
  | missing {fields : List (CStr × Json)} {v' : Json} :
    (∀ f ∈ fields, strcaseEq name f.1 = false) → fresh v' →
    FieldPut name isType change fresh fields (fields ++ [(name, v')])
  | illTyped {before after : List (CStr × Json)} {key : CStr} {v v' : Json} :
    (∀ f ∈ before, strcaseEq name f.1 = false) → strcaseEq name key = true → isType v = false → fresh v' →
    FieldPut name isType change fresh (before ++ (key, v) :: after) (before ++ after ++ [(name, v')])

/-- The array after a verdict: the entry at the end, and the first automatic entry gone exactly
when there were at least 64. -/
inductive EntriesAfter (ip : CStr) : List Json → List Json → Prop
  | room {entries : List Json} : entries.countP isAutoEntry < 64 →
    EntriesAfter ip entries (entries ++ [autoEntry ip])
  | evict {before after : List Json} {first : Json} :
    64 ≤ (before ++ first :: after).countP isAutoEntry → (∀ e ∈ before, isAutoEntry e = false) →
    isAutoEntry first = true →
    EntriesAfter ip (before ++ first :: after) (before ++ after ++ [autoEntry ip])

/-- The blacklist after a verdict. -/
def IpsPut (ip : CStr) : List (CStr × Json) → List (CStr × Json) → Prop :=
  FieldPut (lit "ips") Json.isArray
    (fun a a' => ∃ old new, a = .arr old ∧ a' = .arr new ∧ EntriesAfter ip old new ∧
      new.filter (!isAutoEntry ·) = old.filter (!isAutoEntry ·))
    fun a' => a' = .arr [autoEntry ip]

/-- The document after a verdict. -/
def VerdictPut (ip : CStr) : List (CStr × Json) → List (CStr × Json) → Prop :=
  FieldPut (lit "blacklist") Json.isObject
    (fun b b' => ∃ old new, b = .obj old ∧ b' = .obj new ∧ IpsPut ip old new)
    fun b' => ∃ new, b' = .obj new ∧ IpsPut ip [] new

section
variable {ip : CStr} {entries old new : List Json} {name name' : CStr} {isType : Json → Bool}
  {change : Json → Json → Prop} {fresh : Json → Prop} {fields fields' : List (CStr × Json)}

/-! ## The pass -/

theorem scanIps_eq (entries : List Json) (idx autoCount : Nat) (firstAuto : Option Nat) :
    scanIps ip entries idx autoCount firstAuto =
      if ip ∈ entries.filterMap entryIp then none
      else some (autoCount + entries.countP isAutoEntry,
        firstAuto.or ((entries.findIdx? isAutoEntry).map (· + idx))) := by
  induction entries generalizing idx autoCount firstAuto with
  | nil => simp [scanIps]
  | cons e entries ih =>
    rw [scanIps]
    by_cases hthere : entryIp e = some ip
    · rw [if_pos hthere, if_pos (List.mem_filterMap.2 ⟨e, List.mem_cons_self, hthere⟩)]
    · have hmem : ip ∈ (e :: entries).filterMap entryIp ↔ ip ∈ entries.filterMap entryIp := by
        simp [List.mem_filterMap, hthere]
      rw [if_neg hthere]
      simp only [hmem]
      cases hauto : isAutoEntry e with
      | true =>
        rw [if_pos rfl, ih, List.countP_cons_of_pos hauto, List.findIdx?_cons, hauto]
        cases firstAuto <;> simp [Nat.add_assoc, Nat.add_comm 1]
      | false =>
        rw [if_neg Bool.false_ne_true, ih, List.countP_cons_of_neg (by simp [hauto]), List.findIdx?_cons,
          hauto]
        simp [Option.map_map, Function.comp_def, Nat.add_assoc, Nat.add_comm 1]

theorem evictAuto_eq (entries : List Json) :
    evictAuto entries (entries.countP isAutoEntry) (entries.findIdx? isAutoEntry) = dropOldestAuto entries := by
  unfold evictAuto dropOldestAuto
  rw [List.eraseP_eq_eraseIdx]
  cases entries.findIdx? isAutoEntry with
  | none => simp
  | some i => rfl

theorem entriesAfter_dropOldestAuto (ip : CStr) (entries : List Json) :
    EntriesAfter ip entries (dropOldestAuto entries ++ [autoEntry ip]) := by
  unfold dropOldestAuto
  split
  · next hfull =>
    obtain ⟨e, he, hauto⟩ := List.countP_pos_iff.1 (Nat.lt_of_lt_of_le (by decide) hfull)
    obtain ⟨first, before, after, hbefore, hfirst, heq, herase⟩ := List.exists_of_eraseP he hauto
    rw [herase]
    rw [heq] at hfull ⊢
    exact .evict hfull (fun e he => Bool.eq_false_iff.2 (hbefore e he)) hfirst
  · next hroom => exact .room (Nat.not_le.1 hroom)

/-- Manual entries keep their places in the order. -/
theorem EntriesAfter.manual (h : EntriesAfter ip old new) :
    new.filter (!isAutoEntry ·) = old.filter (!isAutoEntry ·) := by
  have hentry : isAutoEntry (autoEntry ip) = true := rfl
  cases h with
  | room => simp [hentry]
  | evict _ _ hfirst => simp [hentry, hfirst]

/-! ## Fields -/

/-- The first field of a name, and what comes before and after it. -/
theorem exists_first_field (h : ∃ f ∈ fields, strcaseEq name f.1 = true) :
    ∃ before key v after, fields = before ++ (key, v) :: after ∧
      (∀ f ∈ before, strcaseEq name f.1 = false) ∧ strcaseEq name key = true := by
  obtain ⟨f, hf, hname⟩ := h
  obtain ⟨first, before, after, hbefore, hfirst, heq, -⟩ :=
    List.exists_of_eraseP (p := fun f => strcaseEq name f.1) hf hname
  exact ⟨before, first.1, first.2, after, heq, fun f hf => Bool.eq_false_iff.2 (hbefore f hf), hfirst⟩

theorem getItem_obj (name : CStr) (fields : List (CStr × Json)) :
    (Json.obj fields).getItem name = (fields.find? fun f => strcaseEq name f.1).map (·.2) := rfl

theorem getItem_first {before : List (CStr × Json)} (after : List (CStr × Json)) {key : CStr} (v : Json)
    (hbefore : ∀ f ∈ before, strcaseEq name f.1 = false) (hkey : strcaseEq name key = true) :
    (Json.obj (before ++ (key, v) :: after)).getItem name = some v := by
  have hnone : before.find? (fun f => strcaseEq name f.1) = none :=
    List.find?_eq_none.2 fun f hf => by simp [hbefore f hf]
  rw [getItem_obj, List.find?_append, hnone, Option.none_or, List.find?_cons, hkey]
  rfl

theorem modifyField_first (f : Json → Json) {before after : List (CStr × Json)} {key : CStr} {v : Json}
    (hbefore : ∀ f ∈ before, strcaseEq name f.1 = false) (hkey : strcaseEq name key = true) :
    Json.modifyField name f (before ++ (key, v) :: after) = before ++ (key, f v) :: after := by
  induction before with
  | nil => rw [List.nil_append, Json.modifyField, if_pos hkey, List.nil_append]
  | cons g before ih =>
    rw [List.forall_mem_cons] at hbefore
    rw [List.cons_append, Json.modifyField, if_neg (by simp [hbefore.1]), ih hbefore.2, List.cons_append]

theorem eraseP_first {before after : List (CStr × Json)} {key : CStr} {v : Json}
    (hbefore : ∀ f ∈ before, strcaseEq name f.1 = false) (hkey : strcaseEq name key = true) :
    (before ++ (key, v) :: after).eraseP (fun f => strcaseEq name f.1) = before ++ after := by
  rw [List.eraseP_append_right _ (fun f hf => by simp [hbefore f hf]), List.eraseP_cons_of_pos (p := fun f : CStr × Json => strcaseEq name f.1) hkey]

/-- A changed document differs in one field. -/
theorem fieldPut_putItem (fields : List (CStr × Json)) {freshItem : Json} {f : Json → Json}
    (hchange : ∀ v, isType v = true → change v (f v)) (hfresh : fresh (f freshItem)) :
    ∃ fields', (Json.obj fields).putItem isType freshItem name f = .obj fields' ∧
      FieldPut name isType change fresh fields fields' := by
  by_cases hthere : ∃ g ∈ fields, strcaseEq name g.1 = true
  · obtain ⟨before, key, v, after, rfl, hbefore, hkey⟩ := exists_first_field hthere
    cases htype : isType v with
    | true =>
      refine ⟨before ++ (key, f v) :: after, ?_, .changed hbefore hkey htype (hchange v htype)⟩
      unfold Json.putItem
      rw [getItem_first _ _ hbefore hkey, Option.any_some, htype, if_pos rfl, Json.modifyItem,
        modifyField_first f hbefore hkey]
    | false =>
      refine ⟨before ++ after ++ [(name, f freshItem)], ?_, .illTyped hbefore hkey htype hfresh⟩
      unfold Json.putItem
      rw [getItem_first _ _ hbefore hkey, Option.any_some, htype, if_neg Bool.false_ne_true, Json.deleteItem,
        eraseP_first hbefore hkey, Json.addItem]
  · have hnot : ∀ g ∈ fields, strcaseEq name g.1 = false := fun g hg =>
      Bool.eq_false_iff.2 fun h => hthere ⟨g, hg, h⟩
    have hnone : fields.find? (fun g => strcaseEq name g.1) = none :=
      List.find?_eq_none.2 fun g hg => by simp [hnot g hg]
    refine ⟨fields ++ [(name, f freshItem)], ?_, .missing hnot hfresh⟩
    unfold Json.putItem
    rw [Json.getItem, hnone, Option.map_none, Option.any_none, if_neg Bool.false_ne_true, Json.deleteItem,
      List.eraseP_of_forall_not fun g hg => by simp [hnot g hg], Json.addItem]

/-- What is found under another name stays. -/
theorem FieldPut.getItem_of_ne (h : FieldPut name isType change fresh fields fields')
    (hne : strcaseEq name' name = false) :
    (Json.obj fields').getItem name' = (Json.obj fields).getItem name' := by
  rw [getItem_obj, getItem_obj]
  cases h with
  | changed _ hkey =>
    have hother := Json.strcaseEq_false_of_ne hne hkey
    simp only [List.find?_append, List.find?_cons, hother]
  | missing => simp only [List.find?_append, List.find?_cons, hne, List.find?_nil, Option.or_none]
  | illTyped _ hkey =>
    have hother := Json.strcaseEq_false_of_ne hne hkey
    simp only [List.find?_append, List.find?_cons, hother, hne, List.find?_nil, Option.or_none]

/-! ## The document -/

theorem verdictPut_addVerdict (ip : CStr) (fields : List (CStr × Json)) :
    ∃ fields', addVerdict (.obj fields) ip = .obj fields' ∧ VerdictPut ip fields fields' := by
  have hips : ∀ bl : List (CStr × Json), ∃ bl', putIps (.obj bl) ip = .obj bl' ∧ IpsPut ip bl bl' := by
    intro bl
    refine fieldPut_putItem bl (fun v hv => ?_) rfl
    cases v with
    | arr old =>
      have hafter := entriesAfter_dropOldestAuto ip old
      exact ⟨old, _, rfl, rfl, hafter, hafter.manual⟩
    | _ => cases hv
  refine fieldPut_putItem fields (fun v hv => ?_) ?_
  · cases v with
    | obj bl =>
      obtain ⟨bl', hbl', hput⟩ := hips bl
      exact ⟨bl, bl', rfl, hbl', hput⟩
    | _ => cases hv
  · exact hips []

/-- The item is found in the new fields, where no second one of its name takes its place. -/
theorem FieldPut.getItem_self (h : FieldPut name isType change fresh fields fields')
    (hself : strcaseEq name name = true)
    (honce : (fields.countP fun f => strcaseEq name f.1) ≤ 1) :
    ∃ v', (Json.obj fields').getItem name = some v' ∧
      ((∃ v, (Json.obj fields).getItem name = some v ∧ isType v = true ∧ change v v') ∨
        ((Json.obj fields).getItem name).any isType = false ∧ fresh v') := by
  cases h with
  | @changed before after key v v' hbefore hkey htype hchange =>
    exact ⟨v', getItem_first _ _ hbefore hkey, .inl ⟨v, getItem_first _ _ hbefore hkey, htype, hchange⟩⟩
  | @missing fields v' hnot hfresh =>
    refine ⟨v', getItem_first _ _ hnot hself, .inr ⟨?_, hfresh⟩⟩
    have hnone : fields.find? (fun g => strcaseEq name g.1) = none :=
      List.find?_eq_none.2 fun g hg => by simp [hnot g hg]
    rw [getItem_obj, hnone]
    rfl
  | @illTyped before after key v v' hbefore hkey htype hfresh =>
    have hafter : ∀ f ∈ after, strcaseEq name f.1 = false := by
      intro f hf
      by_contra hname
      have hone : 0 < after.countP fun f => strcaseEq name f.1 :=
        List.countP_pos_iff.2 ⟨f, hf, by simpa using hname⟩
      rw [List.countP_append, List.countP_cons, if_pos hkey] at honce
      omega
    refine ⟨v', getItem_first _ _ (fun f hf => ?_) hself, .inr ⟨?_, hfresh⟩⟩
    · rcases List.mem_append.1 hf with hf | hf
      · exact hbefore f hf
      · exact hafter f hf
    · rw [getItem_first _ _ hbefore hkey, Option.any_some, htype]

/-- One field at most has the name. -/
def NamedOnce (name : CStr) (fields : List (CStr × Json)) : Prop :=
  (fields.countP fun f => strcaseEq name f.1) ≤ 1

theorem IpsPut.entriesAfter {bl bl' : List (CStr × Json)} (h : IpsPut ip bl bl') (honce : NamedOnce (lit "ips") bl) :
    EntriesAfter ip (Json.items ((Json.obj bl).getItem (lit "ips")))
      (Json.items ((Json.obj bl').getItem (lit "ips"))) := by
  obtain ⟨a', ha', ⟨a, ha, -, old, new, rfl, rfl, hafter, -⟩ | ⟨hnone, rfl⟩⟩ := h.getItem_self rfl honce
  · rw [ha, ha']
    exact hafter
  · rw [ha']
    have hitems : Json.items ((Json.obj bl).getItem (lit "ips")) = [] := by
      cases hitem : (Json.obj bl).getItem (lit "ips") with
      | none => rfl
      | some item =>
        cases item with
        | arr entries => rw [hitem] at hnone; cases hnone
        | _ => rfl
    rw [hitems]
    exact entriesAfter_dropOldestAuto ip []

/-- The arrays that are found before and after a verdict, where no second field of a name can
take the place of one that is deleted. -/
theorem VerdictPut.entriesAfter (h : VerdictPut ip fields fields') (honce : NamedOnce (lit "blacklist") fields)
    (hips : ∀ bl, (Json.obj fields).getItem (lit "blacklist") = some (.obj bl) → NamedOnce (lit "ips") bl) :
    EntriesAfter ip (blacklistEntries (.obj fields)) (blacklistEntries (.obj fields')) := by
  unfold blacklistEntries Json.getIn
  obtain ⟨b', hb', ⟨b, hb, -, old, new, rfl, rfl, hput⟩ | ⟨hnone, new, rfl, hput⟩⟩ := h.getItem_self rfl honce
  · rw [hb, hb']
    exact IpsPut.entriesAfter hput (hips old hb)
  · rw [hb']
    have hitems : Json.items (((Json.obj fields).getItem (lit "blacklist")).bind (Json.getItem (lit "ips"))) = [] := by
      cases hitem : (Json.obj fields).getItem (lit "blacklist") with
      | none => rfl
      | some item =>
        cases item with
        | obj bl => rw [hitem] at hnone; cases hnone
        | _ => rfl
    rw [hitems]
    exact IpsPut.entriesAfter hput (Nat.zero_le 1)

/-- A change counts only at the item it is made to. -/
theorem putItem_congr {j freshItem : Json} {f g : Json → Json}
    (hitem : ∀ v, j.getItem name = some v → isType v = true → f v = g v)
    (hfresh : (j.getItem name).any isType = false → f freshItem = g freshItem) :
    j.putItem isType freshItem name f = j.putItem isType freshItem name g := by
  unfold Json.putItem
  split
  · next htype =>
    cases j with
    | obj fields =>
      by_cases hthere : ∃ h ∈ fields, strcaseEq name h.1 = true
      · obtain ⟨before, key, v, after, rfl, hbefore, hkey⟩ := exists_first_field hthere
        have hfirst := getItem_first after v hbefore hkey
        rw [hfirst, Option.any_some] at htype
        rw [Json.modifyItem, Json.modifyItem, modifyField_first f hbefore hkey,
          modifyField_first g hbefore hkey, hitem v hfirst htype]
      · rw [getItem_obj, List.find?_eq_none.2 fun h hh => fun hname => hthere ⟨h, hh, hname⟩] at htype
        cases htype
    | _ => rfl
  · next htype => rw [hfresh (Bool.eq_false_iff.2 htype)]

/-- The counts of the pass are those of the array that is changed. -/
theorem addScanned_eq (root : Json) :
    addScanned root ip ((blacklistEntries root).countP isAutoEntry)
      ((blacklistEntries root).findIdx? isAutoEntry) = addVerdict root ip := by
  have hfresh : ∀ autoCount firstAuto, evictAuto [] autoCount firstAuto = dropOldestAuto [] := by
    intro autoCount firstAuto
    cases firstAuto <;> simp [evictAuto, dropOldestAuto]
  refine putItem_congr (fun bl hbl _ => ?_) fun _ => ?_
  · refine putItem_congr (fun ips hips harr => ?_) fun _ => ?_
    · cases ips with
      | arr entries =>
        have hentries : blacklistEntries root = entries := by
          unfold blacklistEntries Json.getIn
          rw [hbl, Option.bind_some, hips]
          rfl
        rw [hentries]
        exact congrArg (fun entries => Json.arr (entries ++ [autoEntry ip])) (evictAuto_eq entries)
      | _ => cases harr
    · exact congrArg (fun entries => Json.arr (entries ++ [autoEntry ip])) (hfresh _ _)
  · exact putItem_congr (fun _ hnone => by cases hnone) fun _ =>
      congrArg (fun entries => Json.arr (entries ++ [autoEntry ip])) (hfresh _ _)

end

section
variable {env : ConfigEnv} {ops : PersistOps} {files : FileTexts} {path ip text : CStr}
  {fields : List (CStr × Json)}

/-! ## The file -/

/-- The temporary file of a path that is short enough is another file. -/
theorem tmpPath_ne (hlen : path.length < 500) : path ≠ tmpPath path := by
  intro h
  have htmp := congrArg List.length h
  have hsuffix : (lit ".tmp").length = 4 := rfl
  rw [tmpPath, snprintf, List.length_take, List.length_append, hsuffix] at htmp
  omega

theorem replaceTmp_ok (h : (replaceTmp ops files path text).1 = true) :
    (replaceTmp ops files path text).2 path = some text := by
  unfold replaceTmp at h ⊢
  split at h
  · cases h
  · next hopen =>
    rw [if_neg hopen]
    dsimp only at h ⊢
    split at h
    · next hdone =>
      rw [if_pos hdone]
      exact FileTexts.set_self _ path (some text)
    · cases h

/-- Whichever operation fails, the file is as it was. -/
theorem replaceTmp_failed (htmp : path ≠ tmpPath path)
    (h : (replaceTmp ops files path text).1 = false) :
    (replaceTmp ops files path text).2 path = files path := by
  unfold replaceTmp at h ⊢
  split at h
  · next hopen => rw [if_pos hopen]
  · next hopen =>
    rw [if_neg hopen]
    dsimp only at h ⊢
    split at h
    · cases h
    · next hfailed =>
      rw [if_neg hfailed]
      cases ops.unlink with
      | true => exact (FileTexts.set_of_ne htmp _ none).trans (FileTexts.set_of_ne htmp files _)
      | false => exact FileTexts.set_of_ne htmp files _

/-- What the call does for a valid address, the pass in closed form. -/
theorem persistRun_eq {root : Json} (hip : validClientIp ip = true)
    (hread : readJson env files path = some root) :
    persistRun env ops files path ip =
      if ip ∈ (blacklistEntries root).filterMap entryIp then (true, files)
      else replaceTmp ops files path (env.print (addVerdict root ip) ++ [newline]) := by
  unfold persistRun
  rw [if_neg (ne_nil_of_validClientIp hip), hip, Bool.not_true, if_neg Bool.false_ne_true, hread]
  dsimp only
  rw [scanIps_eq]
  by_cases hthere : ip ∈ (blacklistEntries root).filterMap entryIp
  · rw [if_pos hthere, if_pos hthere]
  · rw [if_neg hthere, if_neg hthere]
    simp only [Nat.zero_add, Option.none_or, Nat.add_zero, Option.map_id', addScanned_eq]

/-- The operations in full have the outcome of `configPersistBlacklistIp`. -/
theorem persistRun_refines (htmp : path ≠ tmpPath path) :
    let call := configPersistBlacklistIp env ⟨ops.fopen, ops.written, ops.rename⟩ files path ip
    (persistRun env ops files path ip).1 = call.1 ∧ (persistRun env ops files path ip).2 path = call.2 path := by
  dsimp only
  unfold configPersistBlacklistIp
  by_cases hnil : ip = []
  · rw [if_pos hnil, persistRun, if_pos hnil]
    exact ⟨rfl, rfl⟩
  rw [if_neg hnil]
  cases hip : validClientIp ip with
  | false =>
    rw [persistRun, if_neg hnil, hip]
    exact ⟨rfl, rfl⟩
  | true =>
    cases hread : readJson env files path with
    | none =>
      rw [persistRun, if_neg hnil, hip, hread]
      exact ⟨rfl, rfl⟩
    | some root =>
      rw [persistRun_eq hip hread, Bool.not_true, if_neg Bool.false_ne_true]
      dsimp only
      by_cases hthere : ip ∈ (blacklistEntries root).filterMap entryIp
      · rw [if_pos hthere, if_pos hthere]
        exact ⟨rfl, rfl⟩
      · rw [if_neg hthere, if_neg hthere]
        generalize env.print (addVerdict root ip) ++ [newline] = text
        unfold replaceTmp replaceFile
        cases ops.fopen <;> cases ops.written <;> cases ops.rename <;> cases ops.unlink <;>
          simp [FileTexts.set_self, FileTexts.set_of_ne htmp]

/-- For a valid address and a policy file that holds an object: where the address was there, in
any form, success leaves the files; otherwise the new document differs by the verdict, the
manual entries in their order, and in nothing under another name; and any failure leaves the
policy file. -/
theorem persist_changes_only (env : ConfigEnv) (ops : PersistOps) (files : FileTexts) (path ip : CStr)
    (fields : List (CStr × Json)) (hlen : path.length < 500) (hip : validClientIp ip = true)
    (hread : readJson env files path = some (.obj fields))
    (hround : env.parse (env.print (addVerdict (.obj fields) ip) ++ [newline]) =
      some (addVerdict (.obj fields) ip)) :
    let run := persistRun env ops files path ip
    let present := ip ∈ (blacklistEntries (.obj fields)).filterMap entryIp
    (run.1 = true → present → run.2 = files) ∧
      (run.1 = true → ¬ present → ∃ text fields', run.2 path = some text ∧
        env.parse text = some (.obj fields') ∧ VerdictPut ip fields fields' ∧
        Json.SameBut (lit "blacklist") (.obj fields) (.obj fields') ∧
        (NamedOnce (lit "blacklist") fields →
          (∀ bl, (Json.obj fields).getItem (lit "blacklist") = some (.obj bl) → NamedOnce (lit "ips") bl) →
          EntriesAfter ip (blacklistEntries (.obj fields)) (blacklistEntries (.obj fields')))) ∧
      (run.1 = false → run.2 path = files path) := by
  dsimp only
  rw [persistRun_eq hip hread]
  by_cases hthere : ip ∈ (blacklistEntries (.obj fields)).filterMap entryIp
  · rw [if_pos hthere]
    exact ⟨fun _ _ => rfl, fun _ hnot => absurd hthere hnot, fun _ => rfl⟩
  · rw [if_neg hthere]
    refine ⟨fun _ hpresent => absurd hpresent hthere, fun hok _ => ?_,
      replaceTmp_failed (tmpPath_ne hlen)⟩
    obtain ⟨fields', hadd, hput⟩ := verdictPut_addVerdict ip fields
    exact ⟨_, fields', replaceTmp_ok hok, by rw [hround, hadd], hput, fun _ hne => hput.getItem_of_ne hne,
      VerdictPut.entriesAfter hput⟩

/-- Every operation succeeds. -/
def PersistOps.ok : PersistOps := ⟨true, true, true, true, true, true, true, true, []⟩

/-- The empty policy file is given its first verdict. -/
theorem persist_changes_only_sample :
    let env := sampleConfigEnv (lit "\x7b\x7d") (.obj []) sampleText (addVerdict (.obj []) (lit "10.0.0.9"))
    ∃ text fields', (persistRun env .ok (sampleFiles (lit "\x7b\x7d")) samplePath (lit "10.0.0.9")).2
        samplePath = some text ∧ env.parse text = some (.obj fields') ∧
      VerdictPut (lit "10.0.0.9") [] fields' ∧
      EntriesAfter (lit "10.0.0.9") [] (blacklistEntries (.obj fields')) := by
  have hread := readJson_sample (d := .obj []) (e := addVerdict (.obj []) (lit "10.0.0.9"))
    (t := sampleText) (show (lit "\x7b\x7d").length ≤ 4194304 by decide)
  have hip : validClientIp (lit "10.0.0.9") = true := by decide
  have hall := persist_changes_only _ .ok _ samplePath (lit "10.0.0.9") [] (by decide) hip hread
    (parse_sample _ _ (by decide))
  have hok : (persistRun (sampleConfigEnv (lit "\x7b\x7d") (.obj []) sampleText
      (addVerdict (.obj []) (lit "10.0.0.9"))) .ok (sampleFiles (lit "\x7b\x7d")) samplePath
      (lit "10.0.0.9")).1 = true := by
    rw [persistRun_eq hip hread]
    rfl
  obtain ⟨text, fields', htext, hparse, hput, -, hentries⟩ := hall.2.1 hok List.not_mem_nil
  exact ⟨text, fields', htext, hparse, hput, hentries (Nat.zero_le 1) fun _ hbl => by cases hbl⟩

end

end GfrGuard

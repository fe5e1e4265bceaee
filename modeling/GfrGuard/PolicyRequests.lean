import GfrGuard.Verdicts

/-!
# Policy requests

`update_config` loads the policy document, sets the fields of its request and saves the result.
A dict is the list of its items, in their order. What a request sets is then there
(`updateConfig_saved`), no request touches the addresses of the blacklist
(`updateConfig_addresses`), and no persisted verdict touches what a request has set
(`Saved.addVerdict`).
-/

namespace GfrGuard

/-- `dict.get`. -/
def dictGet (items : List (CStr × Json)) (key : CStr) : Option Json :=
  (items.find? fun f => f.1 = key).map (·.2)

/-- `d[key] = value`. -/
def dictSet (items : List (CStr × Json)) (key : CStr) (value : Json) : List (CStr × Json) :=
  match items with
  | [] => [(key, value)]
  | f :: items => if f.1 = key then (key, value) :: items else f :: dictSet items key value

/-- `dict.update`. -/
def dictUpdate (items new : List (CStr × Json)) : List (CStr × Json) :=
  new.foldl (fun items f => dictSet items f.1 f.2) items

/-- `allowed`. -/
def allowedKeys : List CStr :=
  [lit "mode", lit "auto_restore", lit "scoring", lit "whitelist", lit "space", lit "log_level",
    lit "file_extensions"]

/-- The keys of a request that change the policy: the mode is a switch of the file server. -/
def policyKeys : List CStr := allowedKeys.filter (· ≠ lit "mode")

example : lit "scoring" ∈ policyKeys ∧ lit "mode" ∉ policyKeys := by decide

/-- What a key holds after a request: a dict's items are put into a dict that is there. -/
def mergedValue (value : Json) (old : Option Json) : Json :=
  match value, old with
  | .obj new, some (.obj old) => .obj (dictUpdate old new)
  | value, _ => value

/-- One item of a request. -/
def updateField (policy : Json) (f : CStr × Json) : Option Json :=
  if f.1 ∈ policyKeys then
    match policy with
    | .obj items => some (.obj (dictSet items f.1 (mergedValue f.2 (dictGet items f.1))))
    | _ => none
  else some policy

/-- `update_config`, from the document it loads to the one it saves; nothing where it fails. -/
def updateConfig (body policy : Json) : Option Json :=
  match body with
  | .obj (f :: fields) => (f :: fields).foldlM updateField policy
  | _ => none

/-- The document holds what a request set under a key; the items of a dict are merged into those
that were there. -/
def Saved (key : CStr) (value policy : Json) : Prop :=
  ∃ items, policy = .obj items ∧
    match value with
    | .obj new => ∃ fields, dictGet items key = some (.obj fields) ∧
        ∀ f ∈ new, dictGet fields f.1 = some f.2
    | value => dictGet items key = some value

/-- A dict has one item for each key. -/
def DistinctKeys : Json → Prop
  | .obj fields => (fields.map Prod.fst).Nodup
  | _ => True

section
variable {items new fields : List (CStr × Json)} {key name ip : CStr} {value policy policy' : Json}
  {f : CStr × Json}

/-! ## Dicts -/

theorem dictGet_cons (f : CStr × Json) (items : List (CStr × Json)) (key : CStr) :
    dictGet (f :: items) key = if f.1 = key then some f.2 else dictGet items key := by
  unfold dictGet
  rw [List.find?_cons]
  split
  · next h => rw [if_pos (of_decide_eq_true h)]; rfl
  · next h => rw [if_neg (of_decide_eq_false h)]

theorem dictGet_dictSet (items : List (CStr × Json)) (key name : CStr) (value : Json) :
    dictGet (dictSet items key value) name = if key = name then some value else dictGet items name := by
  induction items with
  | nil =>
    unfold dictSet
    rw [dictGet_cons]
  | cons f items ih =>
    unfold dictSet
    split
    · next hf =>
      rw [dictGet_cons, dictGet_cons, hf]
      split <;> rfl
    · next hf =>
      rw [dictGet_cons, ih, dictGet_cons]
      split
      · next hname =>
        rw [if_neg]
        exact fun heq => hf (hname.trans heq.symm)
      · rfl

theorem dictGet_dictUpdate_of_not_mem (items : List (CStr × Json)) (h : key ∉ new.map Prod.fst) :
    dictGet (dictUpdate items new) key = dictGet items key := by
  induction new generalizing items with
  | nil => rfl
  | cons g new ih =>
    rw [List.map_cons, List.mem_cons, not_or] at h
    show dictGet (dictUpdate (dictSet items g.1 g.2) new) key = _
    rw [ih _ h.2, dictGet_dictSet, if_neg (Ne.symm h.1)]

theorem dictGet_dictUpdate (items : List (CStr × Json)) (hkeys : (new.map Prod.fst).Nodup)
    (h : f ∈ new) : dictGet (dictUpdate items new) f.1 = some f.2 := by
  induction new generalizing items with
  | nil => cases h
  | cons g new ih =>
    rw [List.map_cons, List.nodup_cons] at hkeys
    show dictGet (dictUpdate (dictSet items g.1 g.2) new) f.1 = _
    rcases List.mem_cons.1 h with rfl | h
    · rw [dictGet_dictUpdate_of_not_mem _ hkeys.1, dictGet_dictSet, if_pos rfl]
    · exact ih _ hkeys.2 h

theorem dictGet_of_mem (hkeys : (new.map Prod.fst).Nodup) (h : f ∈ new) :
    dictGet new f.1 = some f.2 := by
  induction new with
  | nil => cases h
  | cons g new ih =>
    rw [List.map_cons, List.nodup_cons] at hkeys
    rw [dictGet_cons]
    rcases List.mem_cons.1 h with rfl | h
    · rw [if_pos rfl]
    · have hne : g.1 ≠ f.1 := fun heq => hkeys.1 (heq ▸ List.mem_map_of_mem h)
      rw [if_neg hne, ih hkeys.2 h]

/-! ## One item of a request -/

/-- The items of a dict are found in what it is merged to. -/
theorem mergedValue_dict (hkeys : (new.map Prod.fst).Nodup) (old : Option Json) :
    ∃ fields, mergedValue (.obj new) old = .obj fields ∧ ∀ f ∈ new, dictGet fields f.1 = some f.2 := by
  have hnew : ∀ f ∈ new, dictGet new f.1 = some f.2 := fun f hf => dictGet_of_mem hkeys hf
  cases old with
  | none => exact ⟨new, rfl, hnew⟩
  | some old =>
    cases old with
    | obj items => exact ⟨_, rfl, fun f hf => dictGet_dictUpdate items hkeys hf⟩
    | _ => exact ⟨new, rfl, hnew⟩

theorem updateField_saved (h : updateField policy (key, value) = some policy')
    (hkey : key ∈ policyKeys) (hvalue : DistinctKeys value) : Saved key value policy' := by
  unfold updateField at h
  rw [if_pos hkey] at h
  cases policy with
  | obj items =>
    cases h
    refine ⟨_, rfl, ?_⟩
    simp only [dictGet_dictSet, if_true]
    cases value with
    | obj new =>
      obtain ⟨fields, hmerged, hfields⟩ := mergedValue_dict hvalue (dictGet items key)
      exact ⟨fields, congrArg some hmerged, hfields⟩
    | _ => rfl
  | _ => cases h

/-- An item under one key leaves what is under another. -/
theorem Saved.updateField (h : Saved key value policy) (hf : updateField policy f = some policy')
    (hne : f.1 ≠ key) : Saved key value policy' := by
  obtain ⟨items, rfl, h⟩ := h
  unfold GfrGuard.updateField at hf
  split at hf
  · cases hf
    exact ⟨_, rfl, by rwa [dictGet_dictSet, if_neg hne]⟩
  · cases hf
    exact ⟨items, rfl, h⟩

theorem getItem_dictSet (h : strcaseEq name key = false) (items : List (CStr × Json)) (value : Json) :
    (Json.obj (dictSet items key value)).getItem name = (Json.obj items).getItem name := by
  unfold Json.getItem
  refine congrArg (Option.map Prod.snd) ?_
  induction items with
  | nil => simp [dictSet, h]
  | cons f items ih =>
    unfold dictSet
    split
    · next hf => rw [List.find?_cons, List.find?_cons, hf, h]
    · rw [List.find?_cons, List.find?_cons, ih]

theorem updateField_getItem (h : updateField policy f = some policy')
    (hname : ∀ key ∈ policyKeys, strcaseEq name key = false) :
    policy'.getItem name = policy.getItem name := by
  unfold updateField at h
  split at h
  · next hkey =>
    cases policy with
    | obj items =>
      cases h
      exact getItem_dictSet (hname _ hkey) ..
    | _ => cases h
  · cases h
    rfl

/-! ## A request -/

theorem updateFields_kept (h : fields.foldlM updateField policy = some policy')
    (hkey : key ∉ fields.map Prod.fst) (hsaved : Saved key value policy) :
    Saved key value policy' := by
  induction fields generalizing policy with
  | nil =>
    cases h
    exact hsaved
  | cons f fields ih =>
    obtain ⟨next, hnext, hrest⟩ := Option.bind_eq_some_iff.1 h
    rw [List.map_cons, List.mem_cons, not_or] at hkey
    exact ih hrest hkey.2 (hsaved.updateField hnext (Ne.symm hkey.1))

theorem updateFields_saved (h : fields.foldlM updateField policy = some policy')
    (hkeys : (fields.map Prod.fst).Nodup) (hmem : (key, value) ∈ fields) (hkey : key ∈ policyKeys)
    (hvalue : DistinctKeys value) : Saved key value policy' := by
  induction fields generalizing policy with
  | nil => cases hmem
  | cons f fields ih =>
    obtain ⟨next, hnext, hrest⟩ := Option.bind_eq_some_iff.1 h
    rw [List.map_cons, List.nodup_cons] at hkeys
    rcases List.mem_cons.1 hmem with rfl | hmem
    · exact updateFields_kept hrest hkeys.1 (updateField_saved hnext hkey hvalue)
    · exact ih hrest hkeys.2 hmem

/-- What a request sets is in the document it saves. -/
theorem updateConfig_saved (h : updateConfig (.obj fields) policy = some policy')
    (hkeys : DistinctKeys (.obj fields)) (hmem : (key, value) ∈ fields) (hkey : key ∈ policyKeys)
    (hvalue : DistinctKeys value) : Saved key value policy' := by
  cases fields with
  | nil => cases hmem
  | cons f fields => exact updateFields_saved h hkeys hmem hkey hvalue

theorem updateFields_getItem (h : fields.foldlM updateField policy = some policy')
    (hname : ∀ key ∈ policyKeys, strcaseEq name key = false) :
    policy'.getItem name = policy.getItem name := by
  induction fields generalizing policy with
  | nil =>
    cases h
    rfl
  | cons f fields ih =>
    obtain ⟨next, hnext, hrest⟩ := Option.bind_eq_some_iff.1 h
    rw [ih hrest, updateField_getItem hnext hname]

/-- The keys of a request are not that of the blacklist, in any case. -/
theorem strcaseEq_blacklist : ∀ key ∈ policyKeys, strcaseEq (lit "blacklist") key = false := by
  decide

/-- No request changes the addresses of the blacklist. -/
theorem updateConfig_addresses {body : Json} (h : updateConfig body policy = some policy') :
    fileAddresses policy' = fileAddresses policy := by
  unfold updateConfig at h
  split at h
  · have hitem := updateFields_getItem h strcaseEq_blacklist
    unfold fileAddresses blacklistEntries Json.getIn
    rw [hitem]
  · cases h

/-! ## A verdict -/

/-- Where a name is not that of the key, an item with the name is not the one of the key. -/
theorem ne_of_strcaseEq (hne : strcaseEq name key = false) {a : CStr} (h : strcaseEq name a = true) :
    a ≠ key := fun heq => Bool.false_ne_true (hne.symm.trans (heq ▸ h))

theorem dictGet_modifyField (hne : strcaseEq name key = false) (change : Json → Json)
    (items : List (CStr × Json)) : dictGet (Json.modifyField name change items) key = dictGet items key := by
  induction items with
  | nil => rfl
  | cons f items ih =>
    unfold Json.modifyField
    split
    · next hf => rw [dictGet_cons, dictGet_cons, if_neg (ne_of_strcaseEq hne hf), if_neg (ne_of_strcaseEq hne hf)]
    · rw [dictGet_cons, dictGet_cons, ih]

theorem dictGet_eraseP (hne : strcaseEq name key = false) (items : List (CStr × Json)) :
    dictGet (items.eraseP fun f => strcaseEq name f.1) key = dictGet items key := by
  induction items with
  | nil => rfl
  | cons f items ih =>
    cases hf : strcaseEq name f.1 with
    | true => rw [List.eraseP_cons_of_pos (by exact hf), dictGet_cons, if_neg (ne_of_strcaseEq hne hf)]
    | false => rw [List.eraseP_cons_of_neg (by simp [hf]), dictGet_cons, dictGet_cons, ih]

theorem dictGet_concat (hne : strcaseEq name key = false) (items : List (CStr × Json)) (value : Json) :
    dictGet (items ++ [(name, value)]) key = dictGet items key := by
  induction items with
  | nil =>
    have hname : name ≠ key := ne_of_strcaseEq hne (Json.strcaseEq_iff.2 rfl)
    show dictGet [(name, value)] key = none
    rw [dictGet_cons, if_neg hname]
    rfl
  | cons f items ih => rw [List.cons_append, dictGet_cons, dictGet_cons, ih]

/-- A verdict leaves what a request has set under a key other than that of the blacklist. -/
theorem Saved.addVerdict (h : Saved key value policy) (hkey : key ∈ policyKeys) (ip : CStr) :
    Saved key value (addVerdict policy ip) := by
  have hne := strcaseEq_blacklist key hkey
  obtain ⟨items, rfl, h⟩ := h
  unfold GfrGuard.addVerdict Json.putItem
  split
  · exact ⟨_, rfl, by rwa [dictGet_modifyField hne]⟩
  · exact ⟨_, rfl, by rwa [dictGet_concat hne, dictGet_eraseP hne]⟩

end

end GfrGuard

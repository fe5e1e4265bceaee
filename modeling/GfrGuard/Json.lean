import GfrGuard.CString

/-!
# JSON documents

The items of a document as cJSON holds them, and the lookups and changes the policy code
makes. Names compare without case and the first match counts (`Json.getItem`), so a document
may hold an item that no lookup sees. A change to the item under one name leaves the items
under all others (`Json.getItem_putItem_of_ne`).
-/

namespace GfrGuard

/-- `cJSON`. A number is the value of its finite `double`. -/
inductive Json where
  | null
  | bool (b : Bool)
  | num (q : Rat)
  | str (s : CStr)
  | arr (items : List Json)
  | obj (fields : List (CStr × Json))

namespace Json

/-- `cJSON_IsObject`. -/
def isObject : Json → Bool
  | obj _ => true
  | _ => false

/-- `cJSON_IsArray`. -/
def isArray : Json → Bool
  | arr _ => true
  | _ => false

/-- `cJSON_IsTrue`. -/
def isTrue : Json → Bool
  | bool b => b
  | _ => false

/-- The string of an item that is one. -/
def string? : Json → Option CStr
  | str s => some s
  | _ => none

/-- `valueint`: the number truncated, at the bounds of `int` where it exceeds them. -/
def valueInt (q : Rat) : Int :=
  if 2147483647 ≤ q then 2147483647
  else if q ≤ -2147483648 then -2147483648
  else q.num.tdiv q.den

/-- `cJSON_GetObjectItem`; the items of an array have no names. -/
def getItem (name : CStr) : Json → Option Json
  | obj fields => (fields.find? fun f => strcaseEq name f.1).map (·.2)
  | _ => none

/-- The items of an array that is there. -/
def items : Option Json → List Json
  | some (arr items) => items
  | _ => []

/-- `cJSON_DeleteItemFromObject`. -/
def deleteItem (name : CStr) : Json → Json
  | obj fields => obj (fields.eraseP fun f => strcaseEq name f.1)
  | j => j

/-- `cJSON_AddItemToObject`, as it is printed: in an array the new item loses its name, in an
item without children it is not printed at all. -/
def addItem (j : Json) (name : CStr) (item : Json) : Json :=
  match j with
  | obj fields => obj (fields ++ [(name, item)])
  | arr items => arr (items ++ [item])
  | j => j

/-- Change the first field of a name. -/
def modifyField (name : CStr) (change : Json → Json) : List (CStr × Json) → List (CStr × Json)
  | [] => []
  | f :: fields =>
    if strcaseEq name f.1 then (f.1, change f.2) :: fields else f :: modifyField name change fields

/-- Change the item under a name in place. -/
def modifyItem (name : CStr) (change : Json → Json) : Json → Json
  | obj fields => obj (modifyField name change fields)
  | j => j

/-- Change the item under a name when it has the type; otherwise put a fresh one, changed, in
its place. -/
def putItem (j : Json) (isType : Json → Bool) (fresh : Json) (name : CStr)
    (change : Json → Json) : Json :=
  if (j.getItem name).any isType then j.modifyItem name change
  else (j.deleteItem name).addItem name (change fresh)

section
variable {name name' : CStr} {j item : Json} {change : Json → Json}

/-! ## Names -/

theorem strcaseEq_iff {a b : CStr} : strcaseEq a b = true ↔ a.map toLower = b.map toLower := by
  unfold strcaseEq
  rw [decide_eq_true_eq]

/-- One field cannot have two names. -/
theorem strcaseEq_false_of_ne {a : CStr} (hne : strcaseEq name' name = false)
    (h : strcaseEq name a = true) : strcaseEq name' a = false := by
  rw [Bool.eq_false_iff, ne_eq, strcaseEq_iff] at hne ⊢
  rw [strcaseEq_iff] at h
  rwa [← h]

/-! ## Changes and lookups -/

theorem find?_modifyField (change : Json → Json) (fields : List (CStr × Json)) :
    ((modifyField name change fields).find? fun f => strcaseEq name f.1).map (·.2) =
      ((fields.find? fun f => strcaseEq name f.1).map (·.2)).map change := by
  induction fields with
  | nil => rfl
  | cons f fields ih =>
    unfold modifyField
    cases hf : strcaseEq name f.1 with
    | true => simp [hf]
    | false => simpa [hf] using ih

theorem find?_modifyField_of_ne (hne : strcaseEq name' name = false) (change : Json → Json)
    (fields : List (CStr × Json)) :
    (modifyField name change fields).find? (fun f => strcaseEq name' f.1) =
      fields.find? fun f => strcaseEq name' f.1 := by
  induction fields with
  | nil => rfl
  | cons f fields ih =>
    unfold modifyField
    cases hf : strcaseEq name f.1 with
    | true => simp [strcaseEq_false_of_ne hne hf]
    | false =>
      rw [if_neg Bool.false_ne_true, List.find?_cons, List.find?_cons, ih]

theorem getItem_modifyItem (j : Json) (change : Json → Json) :
    (j.modifyItem name change).getItem name = (j.getItem name).map change := by
  cases j with
  | obj fields => exact find?_modifyField change fields
  | _ => rfl

theorem getItem_modifyItem_of_ne (hne : strcaseEq name' name = false) (j : Json)
    (change : Json → Json) : (j.modifyItem name change).getItem name' = j.getItem name' := by
  cases j with
  | obj fields => exact congrArg (Option.map (·.2)) (find?_modifyField_of_ne hne change fields)
  | _ => rfl

theorem getItem_deleteItem_of_ne (hne : strcaseEq name' name = false) (j : Json) :
    (j.deleteItem name).getItem name' = j.getItem name' := by
  cases j with
  | obj fields =>
    show ((fields.eraseP fun f => strcaseEq name f.1).find? fun f => strcaseEq name' f.1).map _ = _
    refine congrArg (Option.map Prod.snd) ?_
    induction fields with
    | nil => rfl
    | cons f fields ih =>
      cases hf : strcaseEq name f.1 with
      | true => simp [hf, strcaseEq_false_of_ne hne hf]
      | false =>
        rw [List.eraseP_cons_of_neg (by simp [hf]), List.find?_cons, List.find?_cons, ih]
  | _ => rfl

/-- An item added to an object is found when no other of its name comes first. -/
theorem getItem_addItem (h : j.isObject = true) (item : Json) :
    (j.addItem name item).getItem name' =
      (j.getItem name').or (if strcaseEq name' name then some item else none) := by
  cases j with
  | obj fields =>
    show ((fields ++ [(name, item)]).find? fun f => strcaseEq name' f.1).map Prod.snd =
      ((fields.find? fun f => strcaseEq name' f.1).map Prod.snd).or _
    rw [List.find?_append]
    cases fields.find? fun f => strcaseEq name' f.1 with
    | some f => rfl
    | none =>
      cases hname : strcaseEq name' name <;> simp [hname]
  | _ => cases h

theorem getItem_addItem_of_ne (hne : strcaseEq name' name = false) (j item : Json) :
    (j.addItem name item).getItem name' = j.getItem name' := by
  cases hj : j.isObject with
  | true =>
    rw [getItem_addItem hj, hne, if_neg Bool.false_ne_true, Option.or_none]
  | false => cases j <;> first | rfl | cases hj

theorem isObject_deleteItem (j : Json) : (j.deleteItem name).isObject = j.isObject := by
  cases j <;> rfl

/-- A changed item is found under its name if there was one of the type. -/
theorem getItem_putItem_of_type {isType : Json → Bool} {fresh : Json}
    (hitem : j.getItem name = some item) (htype : isType item = true) :
    (j.putItem isType fresh name change).getItem name = some (change item) := by
  unfold putItem
  rw [hitem, Option.any_some, if_pos htype, getItem_modifyItem, hitem]
  rfl

/-- A fresh item is found under its name unless the old one hid another. -/
theorem getItem_putItem_of_not {isType : Json → Bool} {fresh : Json} (hj : j.isObject = true)
    (htype : ¬ (j.getItem name).any isType = true) :
    (j.putItem isType fresh name change).getItem name =
      ((j.deleteItem name).getItem name).or (some (change fresh)) := by
  unfold putItem
  rw [if_neg htype, getItem_addItem ((isObject_deleteItem j).trans hj),
    if_pos (strcaseEq_iff.2 rfl)]

/-- Whatever happens under a name, the items of other names stay. -/
theorem getItem_putItem_of_ne {isType : Json → Bool} {fresh : Json}
    (hne : strcaseEq name' name = false) (j : Json) :
    (j.putItem isType fresh name change).getItem name' = j.getItem name' := by
  unfold putItem
  split
  · exact getItem_modifyItem_of_ne hne j change
  · rw [getItem_addItem_of_ne hne, getItem_deleteItem_of_ne hne]

theorem isObject_putItem {isType : Json → Bool} {fresh : Json} (j : Json) :
    (j.putItem isType fresh name change).isObject = j.isObject := by
  unfold putItem
  split <;> cases j <;> rfl

end

end Json

end GfrGuard

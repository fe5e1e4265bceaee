import GfrGuard.CjsonNumbers
import GfrGuard.LogDetails

/-!
# What cJSON prints is JSON

The web interface reads the policy that the daemon has written, with a reader of its own. Whatever a
document holds, its text is a value by the grammar (`cjson_print_is_json`): a number is printed as a
number even where it is not read back as it was, and an infinite one as `null`.
-/

namespace GfrGuard

open JsonText (quote backslash Blanks Chars Derives Many)

section
variable {b : UInt8} {s t r whole fraction tail : CStr} {e : Int} {v q : Rat} {p n d : Nat}

/-! ## Numbers -/

theorem digits_append (hne : s ≠ []) (hs : ∀ b ∈ s, isDigit b = true) (r : CStr) : JsonText.Digits (s ++ r) r := by
  cases s with
  | nil => exact absurd rfl hne
  | cons b s =>
    rw [List.forall_mem_cons] at hs
    exact ⟨b, s ++ r, rfl, hs.1, JsonText.many_append hs.2 r⟩

theorem fraction_fractionText (hs : ∀ b ∈ s, isDigit b = true) (r : CStr) :
    JsonText.Fraction (fractionText s ++ r) r := by
  unfold fractionText
  split
  · exact .inl rfl
  · exact .inr ⟨s ++ r, rfl, digits_append ‹_› hs r⟩

theorem ShownExponent.exponent (h : ShownExponent tail e) (r : CStr) : JsonText.Exponent (tail ++ r) r := by
  rcases h with ⟨rfl, -⟩ | rfl
  · exact .inl rfl
  · refine .inr ⟨101, _, decPad 2 e.natAbs ++ r, .inl rfl, rfl, ?_, ?_⟩
    · split
      · exact .inr (.inr rfl)
      · exact .inr (.inl rfl)
    · refine digits_append ?_ (fun b hb => isDigit_of_mem_decPad hb) r
      unfold decPad
      exact List.append_ne_nil_of_right_ne_nil _ (dec_ne_nil _)

/-- Digits as the printer lays them out are a number, unless a zero stands before them. -/
theorem ShowsNumber.number (h : ShowsNumber s v whole fraction tail e)
    (hwhole : whole = [48] ∨ ∃ b t, whole = b :: t ∧ b ≠ 48) (negative : Bool) (r : CStr) :
    JsonText.Number ((if negative then [dash] else []) ++ (s ++ r)) r := by
  refine ⟨s ++ r, fractionText fraction ++ (tail ++ r), tail ++ r, ?_, ?_, fraction_fractionText h.places _,
    h.exponent.exponent r⟩
  · cases negative with
    | false => exact .inl rfl
    | true => exact .inr rfl
  · rw [h.text, List.append_assoc, List.append_assoc]
    rcases hwhole with hzero | ⟨b, t, hcons, hne⟩
    · rw [hzero]
      exact .inl rfl
    · have hdigits := h.digits
      rw [hcons, List.forall_mem_cons] at hdigits
      rw [hcons]
      exact .inr ⟨b, _, rfl, hdigits.1, hne, JsonText.many_append hdigits.2 _⟩

theorem number_gText (hp : 1 ≤ p) (hq : q ≠ 0) (r : CStr) : JsonText.Number (gText p q ++ r) r := by
  obtain ⟨s, whole, fraction, tail, e, htext, hshows, hwhole, -⟩ := gText_spec hp hq
  have hnumber := hshows.number hwhole (decide (q < 0)) r
  simp only [decide_eq_true_eq] at hnumber
  rw [htext, List.append_assoc]
  exact hnumber

/-- A number is printed as one, or as `null`. -/
theorem derives_printNumber (q : Rat) (r : CStr) : Derives .value (printNumber q ++ r) r := by
  unfold printNumber
  split
  · exact .word .null
  · split
    · exact .number (number_decInt _ r)
    · next hint =>
      have hq : q ≠ 0 := by
        rintro rfl
        exact hint rfl
      split
      · split
        · exact .number (number_gText (by decide) hq r)
        · exact .number (number_gText (by decide) hq r)
      · exact .number (number_gText (by decide) hq r)

/-! ## Strings -/

/-- What is printed for a byte is part of a string. -/
theorem body_printByte (b : UInt8) : JsonText.Body (printByte b) := by
  have hhex : ∀ n < 16, JsonText.isHex (hexText n) = true := fun n hn => (hexText_spec hn).1
  have hlt : b.toNat < 256 := b.toNat_lt
  unfold printByte
  split_ifs with hplain hself
  · refine .plain ?_ .nil
    unfold JsonText.isPlain
    have hle : 32 ≤ b := by
      rw [UInt8.le_iff_toNat_le]
      exact UInt8.lt_iff_toNat_lt.1 hplain.1
    simp [hle, hplain.2.1, hplain.2.2]
  · rcases hself with rfl | rfl
    · exact .short rfl .nil
    · exact .short rfl .nil
  · exact .short rfl .nil
  · exact .short rfl .nil
  · exact .short rfl .nil
  · exact .short rfl .nil
  · exact .short rfl .nil
  · exact .unicode rfl rfl (hhex _ (by omega)) (hhex _ (Nat.mod_lt _ (by decide))) .nil

theorem chars_printed (s r : CStr) : Chars ((s.takeWhile (· ≠ 0)).flatMap printByte ++ quote :: r) r := by
  refine ⟨_, ?_, rfl⟩
  induction s.takeWhile (· ≠ 0) with
  | nil => exact .nil
  | cons b s ih =>
    rw [List.flatMap_cons]
    exact (body_printByte b).append ih

theorem printStringPtr_append (s r : CStr) :
    printStringPtr s ++ r = quote :: ((s.takeWhile (· ≠ 0)).flatMap printByte ++ quote :: r) := by
  rw [printStringPtr, List.cons_append, List.append_assoc, List.singleton_append]

/-! ## Values -/

theorem blanks_tabs (d : Nat) (r : CStr) : Blanks (tabs d ++ r) r :=
  JsonText.many_append (fun _ hb => by rw [List.eq_of_mem_replicate hb]; rfl) r

/-- A value is printed as one at a depth. -/
def PrintsValue (d : Nat) (j : Json) : Prop := ∀ r, Derives .value (printValue d j ++ r) r

theorem derives_printItems {items : List Json} (hne : items ≠ []) (h : ∀ item ∈ items, PrintsValue d item)
    (hs : Blanks s (printItems d items ++ 93 :: r)) : Derives .elements s (93 :: r) := by
  induction items generalizing s with
  | nil => exact absurd rfl hne
  | cons item items ih =>
    rw [List.forall_mem_cons] at h
    rw [printItems, List.append_assoc] at hs
    have hitem := Derives.element hs (h.1 _) .nil
    cases items with
    | nil => exact .lastElement hitem
    | cons next items => exact .moreElements hitem (ih (List.cons_ne_nil _ _) h.2 (.cons rfl .nil))

theorem derives_printFields {fields : List (CStr × Json)} {k : Nat} (hne : fields ≠ [])
    (h : ∀ f ∈ fields, PrintsValue d f.2)
    (hs : Blanks s (printFields d fields ++ (tabs k ++ 125 :: r))) : Derives .members s (125 :: r) := by
  induction fields generalizing s with
  | nil => exact absurd rfl hne
  | cons field fields ih =>
    obtain ⟨name, item⟩ := field
    rw [List.forall_mem_cons] at h
    rw [printFields] at hs
    simp only [List.append_assoc, List.cons_append] at hs
    have hblanks := hs.trans (blanks_tabs d _)
    rw [printStringPtr_append] at hblanks
    have hmember : ∀ u, Blanks ((if fields.isEmpty then [] else [44]) ++
        newline :: (printFields d fields ++ (tabs k ++ 125 :: r))) u → Derives .member s u := fun u hu =>
      .member hblanks (chars_printed name _) .nil (.element (.cons rfl .nil) (h.1 _) hu)
    cases fields with
    | nil => exact .lastMember (hmember _ (.cons rfl (blanks_tabs k _)))
    | cons next fields =>
      exact .moreMembers (hmember _ .nil) (ih (List.cons_ne_nil _ _) h.2 (.cons rfl .nil))

end

theorem sizeOf_lt_of_mem_fields {fields : List (CStr × Json)} {f : CStr × Json} (h : f ∈ fields) :
    sizeOf f.2 < sizeOf fields := by
  have hlt := List.sizeOf_lt_of_mem h
  have hfield : sizeOf f = 1 + sizeOf f.1 + sizeOf f.2 := rfl
  omega

/-- Whatever a document holds, it is printed as a value, at every depth. -/
theorem printsValue (d : Nat) (j : Json) : PrintsValue d j := by
  intro r
  cases j with
  | null => exact .word .null
  | bool b =>
    cases b with
    | true => exact .word .true
    | false => exact .word .false
  | num q => exact derives_printNumber q r
  | str s =>
    rw [printValue, printStringPtr_append]
    exact .string (chars_printed s r)
  | arr items =>
    have hitems : ∀ item ∈ items, PrintsValue (d + 1) item := fun item _ => printsValue (d + 1) item
    rw [printValue, List.cons_append, List.append_assoc, List.singleton_append]
    by_cases hne : items = []
    · subst hne
      exact .emptyArray .nil
    · exact .array (derives_printItems hne hitems .nil)
  | obj fields =>
    have hfields : ∀ f ∈ fields, PrintsValue (d + 1) f.2 := fun f hf =>
      have := sizeOf_lt_of_mem_fields hf
      printsValue (d + 1) f.2
    rw [printValue]
    simp only [List.cons_append, List.append_assoc]
    by_cases hne : fields = []
    · subst hne
      exact .ofObject (.emptyObject (.cons rfl (blanks_tabs d _)))
    · exact .ofObject (.object (derives_printFields hne hfields (.cons rfl .nil)))
termination_by sizeOf j

/-- Whatever a document holds, what is printed of it is a value by the grammar of JSON. -/
theorem cjson_print_is_json (j : Json) (r : CStr) : Derives .value (cjsonPrint j ++ r) r := printsValue 0 j r

end GfrGuard

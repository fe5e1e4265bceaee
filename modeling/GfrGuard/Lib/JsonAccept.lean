import GfrGuard.Lib.JsonSyntax

/-!
# What the recogniser accepts

Only objects are accepted, so that the recogniser decides the grammar (`isObject_iff`). With it, texts
put together from members and from strings of someone else are looked at: the end of a value and a new
member are read only where a string value of an object is open (`run_field`), the closing brace is the
end only where one of the outermost object is (`run_close`).
-/

namespace JsonText

/-! ## From the recogniser to the grammar -/

/-- A member up to the end of its value, and what is behind it. -/
def Named (s r : List UInt8) : Prop :=
  ∃ t u v w, Blanks s (quote :: t) ∧ Chars t u ∧ Blanks u (58 :: v) ∧ Blanks v w ∧ Derives .value w r

/-- What follows a complete value where these objects and arrays are open. -/
inductive After : List Frame → List UInt8 → Prop where
  | done (h : Blanks s []) : After [] s
  | closeObject (h : Blanks s (125 :: t)) (ht : After stack t) : After (.object :: stack) s
  | closeArray (h : Blanks s (93 :: t)) (ht : After stack t) : After (.array :: stack) s
  | nextMember (h : Blanks s (44 :: t)) (hm : Named t u) (hu : After (.object :: stack) u) :
    After (.object :: stack) s
  | nextElement (h : Blanks s (44 :: t)) (hblanks : Blanks t u) (hv : Derives .value u v)
    (hu : After (.array :: stack) v) : After (.array :: stack) s

/-- The rest of a number, by the part that was read. -/
def NumberRest (s r : List UInt8) : Mode → Prop
  | .minus => ∃ u v, Whole s u ∧ Fraction u v ∧ Exponent v r
  | .zero => ∃ v, Fraction s v ∧ Exponent v r
  | .int => ∃ u v, Many isDigit s u ∧ Fraction u v ∧ Exponent v r
  | .point => ∃ v, Digits s v ∧ Exponent v r
  | .frac => ∃ v, Many isDigit s v ∧ Exponent v r
  | .exp => ∃ u, Sign s u ∧ Digits u r
  | .expSign => Digits s r
  | .expDigits => Many isDigit s r
  | _ => False

/-- What follows a string: a colon and a value behind a name. -/
def AfterString (name : Bool) (stack : List Frame) (s : List UInt8) : Prop :=
  if name then ∃ v w r, Blanks s (58 :: v) ∧ Blanks v w ∧ Derives .value w r ∧ After stack r
  else After stack s

/-- A text that brings the recogniser from a mode to its end: the rest of a phrase, and what may follow
the value then. -/
def Completes (stack : List Frame) (s : List UInt8) : Mode → Prop
  | .top => ∃ t r, Blanks s t ∧ Derives .object t r ∧ After stack r
  | .value => ∃ t r, Blanks s t ∧ Derives .value t r ∧ After stack r
  | .element => (∃ t r, Blanks s t ∧ Derives .value t r ∧ After stack r) ∨
      ∃ t, Blanks s (93 :: t) ∧ After stack (93 :: t)
  | .key => ∃ r, Named s r ∧ After stack r
  | .member => (∃ r, Named s r ∧ After stack r) ∨ ∃ t, Blanks s (125 :: t) ∧ After stack (125 :: t)
  | .colon => AfterString true stack s
  | .next => After stack s
  | .str name => ∃ r, Chars s r ∧ AfterString name stack r
  | .esc name => ∃ r, Chars (backslash :: s) r ∧ AfterString name stack r
  | .hex name left => ∃ ds t r, s = ds ++ t ∧ ds.length = left + 1 ∧ (∀ d ∈ ds, isHex d = true) ∧
      Chars t r ∧ AfterString name stack r
  | .word w read => ∃ r, s = w.bytes.drop read ++ r ∧ After stack r
  | m => ∃ r, NumberRest s r m ∧ After stack r

section
variable {s t r : List UInt8} {c : UInt8} {m m' : Mode} {stack stack' : List Frame} {name : Bool}

theorem After.blank (h : After stack s) (hc : isBlank c = true) : After stack (c :: s) := by
  cases h with
  | done h => exact .done (.cons hc h)
  | closeObject h ht => exact .closeObject (.cons hc h) ht
  | closeArray h ht => exact .closeArray (.cons hc h) ht
  | nextMember h hm hu => exact .nextMember (.cons hc h) hm hu
  | nextElement h hblanks hv hu => exact .nextElement (.cons hc h) hblanks hv hu

theorem blanks_cons_iff (hc : isBlank c = false) : Blanks (c :: s) r ↔ r = c :: s := by
  constructor
  · intro h
    cases h with
    | nil => rfl
    | cons hb h => exact absurd (hc.symm.trans hb) Bool.false_ne_true
  · rintro rfl
    exact .nil

theorem After.of_brace (h : After (.object :: stack) (125 :: s)) : After stack s := by
  cases h with
  | closeObject h ht =>
    cases (blanks_cons_iff rfl).1 h
    exact ht
  | nextMember h hm hu => cases (blanks_cons_iff rfl).1 h

theorem After.of_bracket (h : After (.array :: stack) (93 :: s)) : After stack s := by
  cases h with
  | closeArray h ht =>
    cases (blanks_cons_iff rfl).1 h
    exact ht
  | nextElement h hblanks hv hu => cases (blanks_cons_iff rfl).1 h

theorem Named.member (h : Named s r) {u : List UInt8} (hu : Blanks r u) : Derives .member s u := by
  obtain ⟨t, v, w, x, hquote, hchars, hcolon, hblanks, hvalue⟩ := h
  exact .member hquote hchars hcolon (.element hblanks hvalue hu)

/-- The members of an open object, up to the brace that closes it. -/
theorem After.members (h : After (.object :: stack) r) (hs : Named s r) :
    ∃ t, Derives .members s (125 :: t) ∧ After stack t := by
  generalize hframes : Frame.object :: stack = frames at h
  induction h generalizing s with
  | done h => cases hframes
  | closeObject h ht =>
    cases hframes
    exact ⟨_, .lastMember (hs.member h), ht⟩
  | closeArray h ht => cases hframes
  | nextMember h hm hu ih =>
    obtain ⟨t, hmembers, ht⟩ := ih hm hframes
    exact ⟨t, .moreMembers (hs.member h) hmembers, ht⟩
  | nextElement h hblanks hv hu => cases hframes

/-- The elements of an open array, up to the bracket that closes it. -/
theorem After.elements (h : After (.array :: stack) r) {u : List UInt8} (hblanks : Blanks s u)
    (hv : Derives .value u r) : ∃ t, Derives .elements s (93 :: t) ∧ After stack t := by
  generalize hframes : Frame.array :: stack = frames at h
  induction h generalizing s u with
  | done h => cases hframes
  | closeObject h ht => cases hframes
  | closeArray h ht =>
    cases hframes
    exact ⟨_, .lastElement (.element hblanks hv h), ht⟩
  | nextMember h hm hu => cases hframes
  | nextElement h hblanks' hv' hu ih =>
    obtain ⟨t, helements, ht⟩ := ih hblanks' hv' hframes
    exact ⟨t, .moreElements (.element hblanks hv h) helements, ht⟩

/-! ### One byte -/

theorem stepNext_complete (h : stepNext stack c = some ⟨m', stack'⟩)
    (hs : Completes stack' s m') : After stack (c :: s) := by
  unfold stepNext at h
  split at h
  · next hblank =>
    cases h
    exact After.blank hs hblank
  · split at h
    · cases h
    · split at h
      · next hc =>
        cases h
        obtain ⟨r, hnamed, hr⟩ := hs
        exact .nextMember (hc ▸ .nil) hnamed hr
      · split at h
        · next hc =>
          cases h
          exact .closeObject (hc ▸ .nil) hs
        · cases h
    · split at h
      · next hc =>
        cases h
        obtain ⟨t, r, hblanks, hv, hr⟩ := hs
        exact .nextElement (hc ▸ .nil) hblanks hv hr
      · split at h
        · next hc =>
          cases h
          exact .closeArray (hc ▸ .nil) hs
        · cases h

theorem stepValue_complete (h : stepValue stack c = some ⟨m', stack'⟩)
    (hs : Completes stack' s m') : ∃ r, Derives .value (c :: s) r ∧ After stack r := by
  unfold stepValue at h
  split at h
  · next hc =>
    cases h
    obtain ⟨r, hchars, hr⟩ := hs
    exact ⟨r, hc ▸ .string hchars, hr⟩
  split at h
  · next hc =>
    cases h
    rw [hc]
    rcases hs with ⟨r, hnamed, hr⟩ | ⟨r, hblanks, hr⟩
    · obtain ⟨u, hmembers, hu⟩ := hr.members hnamed
      exact ⟨u, .ofObject (.object hmembers), hu⟩
    · exact ⟨r, .ofObject (.emptyObject hblanks), hr.of_brace⟩
  split at h
  · next hc =>
    cases h
    rw [hc]
    rcases hs with ⟨u, r, hblanks, hv, hr⟩ | ⟨r, hblanks, hr⟩
    · obtain ⟨v, helements, hv⟩ := hr.elements hblanks hv
      exact ⟨v, .array helements, hv⟩
    · exact ⟨r, .emptyArray hblanks, hr.of_bracket⟩
  split at h
  · next hc =>
    cases h
    obtain ⟨r, ⟨u, v, hwhole, hfraction, hexponent⟩, hr⟩ := hs
    exact ⟨r, .number ⟨s, u, v, .inr (hc ▸ rfl), hwhole, hfraction, hexponent⟩, hr⟩
  split at h
  · next hc =>
    cases h
    obtain ⟨r, ⟨v, hfraction, hexponent⟩, hr⟩ := hs
    exact ⟨r, .number ⟨_, s, v, .inl rfl, .inl (hc ▸ rfl), hfraction, hexponent⟩, hr⟩
  split at h
  · next hzero hc =>
    cases h
    obtain ⟨r, ⟨u, v, hdigits, hfraction, hexponent⟩, hr⟩ := hs
    exact ⟨r, .number ⟨_, u, v, .inl rfl, .inr ⟨c, s, rfl, hc, hzero, hdigits⟩, hfraction, hexponent⟩, hr⟩
  have hword : ∀ w : Word, w.bytes.take 1 = [c] → (⟨.word w 1, stack⟩ : State) = ⟨m', stack'⟩ →
      ∃ r, Derives .value (c :: s) r ∧ After stack r := by
    intro w hw heq
    cases heq
    obtain ⟨r, rfl, hr⟩ := hs
    have hsplit : c :: (w.bytes.drop 1 ++ r) = w.bytes ++ r := by
      rw [← List.singleton_append, ← List.append_assoc, ← hw, List.take_append_drop]
    exact ⟨r, hsplit ▸ .word w, hr⟩
  split at h
  · next hc => exact hword .true (hc ▸ rfl) (Option.some.inj h)
  split at h
  · next hc => exact hword .false (hc ▸ rfl) (Option.some.inj h)
  split at h
  · next hc => exact hword .null (hc ▸ rfl) (Option.some.inj h)
  · cases h

/-- An exponent, or what follows a number that has none. -/
theorem exponent_complete (h : (if c = 101 ∨ c = 69 then some ⟨.exp, stack⟩ else stepNext stack c) =
    some (⟨m', stack'⟩ : State)) (hs : Completes stack' s m') :
    ∃ r, Exponent (c :: s) r ∧ After stack r := by
  split at h
  · next hc =>
    cases h
    obtain ⟨r, ⟨u, hsign, hdigits⟩, hr⟩ := hs
    exact ⟨r, .inr ⟨c, s, u, hc, rfl, hsign, hdigits⟩, hr⟩
  · exact ⟨c :: s, .inl rfl, stepNext_complete h hs⟩

/-- A fraction and an exponent, or what follows a number that has neither. -/
theorem fraction_complete (h : (if c = 46 then some ⟨.point, stack⟩
    else if c = 101 ∨ c = 69 then some ⟨.exp, stack⟩ else stepNext stack c) = some (⟨m', stack'⟩ : State))
    (hs : Completes stack' s m') : ∃ v r, Fraction (c :: s) v ∧ Exponent v r ∧ After stack r := by
  split at h
  · next hc =>
    cases h
    obtain ⟨r, ⟨v, hdigits, hexponent⟩, hr⟩ := hs
    exact ⟨v, r, .inr ⟨s, hc ▸ rfl, hdigits⟩, hexponent, hr⟩
  · obtain ⟨r, hexponent, hr⟩ := exponent_complete h hs
    exact ⟨c :: s, r, .inl rfl, hexponent, hr⟩

theorem chars_cons_plain (hc : isPlain c = true) (h : Chars s r) : Chars (c :: s) r := by
  obtain ⟨b, hb, rfl⟩ := h
  exact ⟨c :: b, .plain hc hb, rfl⟩

theorem chars_cons_short (hc : (shortEscape c).isSome = true) (h : Chars s r) :
    Chars (backslash :: c :: s) r := by
  obtain ⟨b, hb, rfl⟩ := h
  exact ⟨backslash :: c :: b, .short hc hb, rfl⟩

theorem chars_cons_unicode {ds : List UInt8} (hlen : ds.length = 4) (hds : ∀ d ∈ ds, isHex d = true)
    (h : Chars s r) : Chars (backslash :: 117 :: (ds ++ s)) r := by
  obtain ⟨b, hb, rfl⟩ := h
  obtain ⟨d₁, d₂, d₃, d₄, rfl⟩ := List.length_eq_four.1 hlen
  exact ⟨backslash :: 117 :: d₁ :: d₂ :: d₃ :: d₄ :: b,
    .unicode (hds d₁ (by simp)) (hds d₂ (by simp)) (hds d₃ (by simp)) (hds d₄ (by simp)) hb, rfl⟩

/-- A byte inside a string. -/
theorem str_complete (h : step ⟨.str name, stack⟩ c = some ⟨m', stack'⟩) (hs : Completes stack' s m') :
    Completes stack (c :: s) (.str name) := by
  simp only [step] at h
  split at h
  · next hc =>
    cases h
    refine ⟨s, ⟨[], .nil, hc ▸ rfl⟩, ?_⟩
    cases name with
    | false => exact hs
    | true => exact hs
  split at h
  · next hc =>
    cases h
    exact hc ▸ hs
  split at h
  · next hc =>
    cases h
    obtain ⟨r, hchars, hr⟩ := hs
    exact ⟨r, chars_cons_plain hc hchars, hr⟩
  · cases h

/-- A byte inside an escape. -/
theorem esc_complete (h : step ⟨.esc name, stack⟩ c = some ⟨m', stack'⟩) (hs : Completes stack' s m') :
    Completes stack (c :: s) (.esc name) := by
  simp only [step] at h
  split at h
  · next hc =>
    cases h
    obtain ⟨ds, t, r, rfl, hlen, hds, hchars, hr⟩ := hs
    exact ⟨r, hc ▸ chars_cons_unicode hlen hds hchars, hr⟩
  split at h
  · next hc =>
    cases h
    obtain ⟨r, hchars, hr⟩ := hs
    exact ⟨r, chars_cons_short hc hchars, hr⟩
  · cases h

/-- A digit of an escape. -/
theorem hex_complete {left : Nat} (h : step ⟨.hex name left, stack⟩ c = some ⟨m', stack'⟩)
    (hs : Completes stack' s m') : Completes stack (c :: s) (.hex name left) := by
  simp only [step] at h
  split at h
  · next hc =>
    cases left with
    | zero =>
      cases h
      obtain ⟨r, hchars, hr⟩ := hs
      exact ⟨[c], s, r, rfl, rfl, List.forall_mem_singleton.2 hc, hchars, hr⟩
    | succ left =>
      cases h
      obtain ⟨ds, t, r, rfl, hlen, hds, hchars, hr⟩ := hs
      exact ⟨c :: ds, t, r, rfl, congrArg (· + 1) hlen, List.forall_mem_cons.2 ⟨hc, hds⟩, hchars, hr⟩
  · cases h

/-- A byte of a word. -/
theorem word_complete {w : Word} {read : Nat} (h : step ⟨.word w read, stack⟩ c = some ⟨m', stack'⟩)
    (hs : Completes stack' s m') : Completes stack (c :: s) (.word w read) := by
  simp only [step] at h
  split at h
  · next hc =>
    cases h
    obtain ⟨hread, hbyte⟩ := List.getElem?_eq_some_iff.1 hc
    have hdrop : w.bytes.drop read = c :: w.bytes.drop (read + 1) := by
      rw [List.drop_eq_getElem_cons hread, hbyte]
    split at hs
    · next hlast =>
      refine ⟨s, ?_, hs⟩
      rw [hdrop, hlast, List.drop_length]
      rfl
    · obtain ⟨r, rfl, hr⟩ := hs
      exact ⟨r, by rw [hdrop, List.cons_append], hr⟩
  · cases h

/-- A byte of a number. -/
theorem number_complete (hm : m ∈ [Mode.minus, .zero, .int, .point, .frac, .exp, .expSign, .expDigits])
    (h : step ⟨m, stack⟩ c = some ⟨m', stack'⟩) (hs : Completes stack' s m') :
    Completes stack (c :: s) m := by
  simp only [List.mem_cons, List.not_mem_nil, or_false] at hm
  rcases hm with rfl | rfl | rfl | rfl | rfl | rfl | rfl | rfl <;> simp only [step] at h
  · split at h
    · next hc =>
      cases h
      obtain ⟨r, ⟨v, hfraction, hexponent⟩, hr⟩ := hs
      exact ⟨r, ⟨s, v, .inl (hc ▸ rfl), hfraction, hexponent⟩, hr⟩
    split at h
    · next hzero hc =>
      cases h
      obtain ⟨r, ⟨u, v, hdigits, hfraction, hexponent⟩, hr⟩ := hs
      exact ⟨r, ⟨u, v, .inr ⟨c, s, rfl, hc, hzero, hdigits⟩, hfraction, hexponent⟩, hr⟩
    · cases h
  · obtain ⟨v, r, hfraction, hexponent, hr⟩ := fraction_complete h hs
    exact ⟨r, ⟨v, hfraction, hexponent⟩, hr⟩
  · split at h
    · next hc =>
      cases h
      obtain ⟨r, ⟨u, v, hdigits, hrest⟩, hr⟩ := hs
      exact ⟨r, ⟨u, v, .cons hc hdigits, hrest⟩, hr⟩
    · obtain ⟨v, r, hfraction, hexponent, hr⟩ := fraction_complete h hs
      exact ⟨r, ⟨c :: s, v, .nil, hfraction, hexponent⟩, hr⟩
  · split at h
    · next hc =>
      cases h
      obtain ⟨r, ⟨v, hdigits, hexponent⟩, hr⟩ := hs
      exact ⟨r, ⟨v, ⟨c, s, rfl, hc, hdigits⟩, hexponent⟩, hr⟩
    · cases h
  · split at h
    · next hc =>
      cases h
      obtain ⟨r, ⟨v, hdigits, hexponent⟩, hr⟩ := hs
      exact ⟨r, ⟨v, .cons hc hdigits, hexponent⟩, hr⟩
    · obtain ⟨r, hexponent, hr⟩ := exponent_complete h hs
      exact ⟨r, ⟨c :: s, .nil, hexponent⟩, hr⟩
  · split at h
    · next hc =>
      cases h
      obtain ⟨r, hdigits, hr⟩ := hs
      exact ⟨r, ⟨s, .inr (hc.imp (congrArg (· :: s)) (congrArg (· :: s))), hdigits⟩, hr⟩
    split at h
    · next hc =>
      cases h
      obtain ⟨r, hdigits, hr⟩ := hs
      exact ⟨r, ⟨c :: s, .inl rfl, c, s, rfl, hc, hdigits⟩, hr⟩
    · cases h
  · split at h
    · next hc =>
      cases h
      obtain ⟨r, hdigits, hr⟩ := hs
      exact ⟨r, ⟨c, s, rfl, hc, hdigits⟩, hr⟩
    · cases h
  · split at h
    · next hc =>
      cases h
      obtain ⟨r, hdigits, hr⟩ := hs
      exact ⟨r, .cons hc hdigits, hr⟩
    · exact ⟨c :: s, .nil, stepNext_complete h hs⟩

/-- A byte before a value, a name or a colon. -/
theorem head_complete (hm : m ∈ [Mode.top, .value, .element, .key, .member, .colon])
    (h : step ⟨m, stack⟩ c = some ⟨m', stack'⟩) (hs : Completes stack' s m') :
    Completes stack (c :: s) m := by
  simp only [List.mem_cons, List.not_mem_nil, or_false] at hm
  rcases hm with rfl | rfl | rfl | rfl | rfl | rfl <;> simp only [step] at h <;> split at h
  · next hc =>
    cases h
    obtain ⟨t, r, hblanks, hrest⟩ := hs
    exact ⟨t, r, .cons hc hblanks, hrest⟩
  · split at h
    · next hc =>
      cases h
      rcases hs with ⟨r, hnamed, hr⟩ | ⟨r, hblanks, hr⟩
      · obtain ⟨u, hmembers, hu⟩ := hr.members hnamed
        exact ⟨c :: s, u, .nil, hc ▸ .object hmembers, hu⟩
      · exact ⟨c :: s, r, .nil, hc ▸ .emptyObject hblanks, hr.of_brace⟩
    · cases h
  · next hc =>
    cases h
    obtain ⟨t, r, hblanks, hrest⟩ := hs
    exact ⟨t, r, .cons hc hblanks, hrest⟩
  · obtain ⟨r, hv, hr⟩ := stepValue_complete h hs
    exact ⟨c :: s, r, .nil, hv, hr⟩
  · next hc =>
    cases h
    rcases hs with ⟨t, r, hblanks, hrest⟩ | ⟨t, hblanks, hr⟩
    · exact .inl ⟨t, r, .cons hc hblanks, hrest⟩
    · exact .inr ⟨t, .cons hc hblanks, hr⟩
  · split at h
    · next hc =>
      have hafter := stepNext_complete h hs
      rw [hc] at hafter ⊢
      exact .inr ⟨s, .nil, hafter⟩
    · obtain ⟨r, hv, hr⟩ := stepValue_complete h hs
      exact .inl ⟨c :: s, r, .nil, hv, hr⟩
  · next hc =>
    cases h
    obtain ⟨r, ⟨t, u, v, w, hquote, hrest⟩, hr⟩ := hs
    exact ⟨r, ⟨t, u, v, w, .cons hc hquote, hrest⟩, hr⟩
  · split at h
    · next hc =>
      cases h
      obtain ⟨u, hchars, v, w, r, hcolon, hblanks, hv, hr⟩ := hs
      exact ⟨r, ⟨s, u, v, w, hc ▸ .nil, hchars, hcolon, hblanks, hv⟩, hr⟩
    · cases h
  · next hc =>
    cases h
    rcases hs with ⟨r, ⟨t, u, v, w, hquote, hrest⟩, hr⟩ | ⟨t, hblanks, hr⟩
    · exact .inl ⟨r, ⟨t, u, v, w, .cons hc hquote, hrest⟩, hr⟩
    · exact .inr ⟨t, .cons hc hblanks, hr⟩
  · split at h
    · next hc =>
      have hafter := stepNext_complete h hs
      rw [hc] at hafter ⊢
      exact .inr ⟨s, .nil, hafter⟩
    split at h
    · next hc =>
      cases h
      obtain ⟨u, hchars, v, w, r, hcolon, hblanks, hv, hr⟩ := hs
      exact .inl ⟨r, ⟨s, u, v, w, hc ▸ .nil, hchars, hcolon, hblanks, hv⟩, hr⟩
    · cases h
  · next hc =>
    cases h
    obtain ⟨v, w, r, hcolon, hrest⟩ := hs
    exact ⟨v, w, r, .cons hc hcolon, hrest⟩
  · split at h
    · next hc =>
      cases h
      obtain ⟨t, r, hblanks, hv, hr⟩ := hs
      exact ⟨s, t, r, hc ▸ .nil, hblanks, hv, hr⟩
    · cases h

theorem step_complete (h : step ⟨m, stack⟩ c = some ⟨m', stack'⟩) (hs : Completes stack' s m') :
    Completes stack (c :: s) m := by
  cases m with
  | next => exact stepNext_complete h hs
  | str name => exact str_complete h hs
  | esc name => exact esc_complete h hs
  | hex name left => exact hex_complete h hs
  | word w read => exact word_complete h hs
  | top | value | element | key | member | colon => exact head_complete (by simp) h hs
  | minus | zero | int | point | frac | exp | expSign | expDigits => exact number_complete (by simp) h hs

/-- What the recogniser accepts completes the mode it was in. -/
theorem completes_of_run (h : run ⟨m, stack⟩ s = some done) : Completes stack s m := by
  induction s generalizing m stack with
  | nil =>
    cases h
    exact .done .nil
  | cons c s ih =>
    rw [run] at h
    obtain ⟨⟨m', stack'⟩, hstep, hrun⟩ := Option.bind_eq_some_iff.1 h
    exact step_complete hstep (ih hrun)

/-- The recogniser accepts the objects. -/
theorem isObject_iff (s : List UInt8) : IsObject s ↔ run start s = some done := by
  refine ⟨run_of_isObject, fun h => ?_⟩
  obtain ⟨t, r, hbefore, hobject, hafter⟩ : Completes [] s .top := completes_of_run h
  cases hafter with
  | done hblanks => exact ⟨t, r, hbefore, hobject, hblanks⟩

/-! ## Texts with members -/

/-- A small letter. -/
def isLower (b : UInt8) : Bool := 97 ≤ b && b ≤ 122

/-- Where a quote is read. -/
theorem step_quote {st : State} (h : step ⟨m, stack⟩ quote = some st) :
    st = ⟨.str false, stack⟩ ∨ st = ⟨.str true, stack⟩ ∨
      ∃ name, m = .str name ∧ st = ⟨afterString name, stack⟩ := by
  have hnext : stepNext stack quote = none := by
    cases stack with
    | nil => rfl
    | cons frame stack => cases frame <;> rfl
  cases m with
  | value | element => exact .inl (Option.some.inj h).symm
  | key | member => exact .inr (.inl (Option.some.inj h).symm)
  | str name => exact .inr (.inr ⟨name, rfl, (Option.some.inj h).symm⟩)
  | esc name =>
    cases name with
    | false => exact .inl (Option.some.inj h).symm
    | true => exact .inr (.inl (Option.some.inj h).symm)
  | top | colon | hex | minus | point | exp | expSign => cases h
  | next | zero | int | frac | expDigits => cases hnext.symm.trans h
  | word w read =>
    have hbyte : w.bytes[read]? ≠ some quote := fun hbyte => by
      have hmem := List.mem_of_getElem? hbyte
      cases w <;> revert hmem <;> decide
    simp [step, hbyte] at h

/-- A letter is read neither behind a value nor behind a name. -/
theorem run_afterString_lower (hc : isLower c = true) (name : Bool) :
    run ⟨afterString name, stack⟩ (c :: s) = none := by
  have hother : isBlank c = false ∧ c ≠ 44 ∧ c ≠ 125 ∧ c ≠ 93 ∧ c ≠ 58 := by
    refine ⟨?_, ?_, ?_, ?_, ?_⟩
    · cases hblank : isBlank c with
      | false => rfl
      | true => rcases isBlank_iff.1 hblank with rfl | rfl | rfl | rfl <;> cases hc
    all_goals
      rintro rfl
      cases hc
  obtain ⟨hblank, hcomma, hbrace, hbracket, hcolon⟩ := hother
  rw [run]
  cases name with
  | false =>
    cases stack with
    | nil => simp [afterString, step, stepNext, hblank]
    | cons frame stack => cases frame <;> simp [afterString, step, stepNext, *]
  | true => simp [afterString, step, hblank, hcolon]

/-- The quote of a value, a comma, a name and a colon are read where a string value of an object is
open, and there only. -/
theorem run_field {k : List UInt8} (hc : isLower c = true) (hk : Body (c :: k)) (m : Mode)
    (stack : List Frame) (s : List UInt8) (st : State) :
    run ⟨m, stack⟩ (quote :: 44 :: quote :: ((c :: k) ++ quote :: 58 :: s)) = some st ↔
      ∃ rest, m = .str false ∧ stack = .object :: rest ∧ run ⟨.value, stack⟩ s = some st := by
  have hname : ∀ name r, run ⟨.str name, stack⟩ ((c :: k) ++ quote :: r) =
      run ⟨afterString name, stack⟩ r := fun name r => run_chars ⟨c :: k, hk, rfl⟩ name stack
  constructor
  · intro h
    rw [run] at h
    obtain ⟨st', hstep, hrun⟩ := Option.bind_eq_some_iff.1 h
    rcases step_quote hstep with rfl | rfl | ⟨name, rfl, rfl⟩
    · cases (run_afterString_lower hc false).symm.trans hrun
    · cases (run_afterString_lower hc true).symm.trans hrun
    · cases name with
      | true => cases hrun
      | false =>
        cases stack with
        | nil => cases hrun
        | cons frame rest =>
          cases frame with
          | object => exact ⟨rest, rfl, rfl, (hname true (58 :: s)).symm.trans hrun⟩
          | array => cases (hname false (58 :: s)).symm.trans hrun
  · rintro ⟨rest, rfl, rfl, h⟩
    exact (hname true (58 :: s)).trans h

/-- The quote of a value and the closing brace are the end where a string value of the one open object
is open, and there only. -/
theorem run_close (m : Mode) (stack : List Frame) :
    run ⟨m, stack⟩ [quote, 125] = some done ↔ m = .str false ∧ stack = [.object] := by
  constructor
  · intro h
    rw [run] at h
    obtain ⟨st', hstep, hrun⟩ := Option.bind_eq_some_iff.1 h
    rcases step_quote hstep with rfl | rfl | ⟨name, rfl, rfl⟩
    · cases hrun
    · cases hrun
    · cases name with
      | true => cases hrun
      | false =>
        cases stack with
        | nil => cases hrun
        | cons frame rest =>
          cases frame with
          | object =>
            cases hrun
            exact ⟨rfl, rfl⟩
          | array => cases hrun
  · rintro ⟨rfl, rfl⟩
    rfl

theorem body_of_plain (h : s.all isPlain = true) : Body s := by
  induction s with
  | nil => exact .nil
  | cons c s ih =>
    rw [List.all_cons, Bool.and_eq_true] at h
    exact .plain h.1 (ih h.2)

theorem Many.trans {p : UInt8 → Bool} (h : Many p s t) (ht : Many p t r) : Many p s r := by
  induction h with
  | nil => exact ht
  | cons hb _ ih => exact .cons hb (ih ht)

theorem many_append {p : UInt8 → Bool} (h : ∀ b ∈ s, p b = true) (r : List UInt8) :
    Many p (s ++ r) r := by
  induction s with
  | nil => exact .nil
  | cons b s ih =>
    exact .cons (h b List.mem_cons_self) (ih fun c hc => h c (List.mem_cons_of_mem b hc))

/-- A text that leaves a string value open when it is put where the string value of a member goes: the
text of a string, or one that closes it, goes on with whole members and opens the value of another. -/
def LeavesOpen (t : List UInt8) : Prop := run ⟨.str false, [.object]⟩ t = some ⟨.str false, [.object]⟩

instance (t : List UInt8) : Decidable (LeavesOpen t) := inferInstanceAs (Decidable (_ = _))

end

instance (s : List UInt8) : Decidable (IsObject s) := decidable_of_iff' _ (isObject_iff s)

example : IsObject [123, 34, 97, 34, 58, 32, 91, 49, 44, 123, 125, 93, 125] := by decide

end JsonText

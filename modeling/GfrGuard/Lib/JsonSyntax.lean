import GfrGuard.Lib.JsonText

/-!
# The syntax of JSON objects

`Derives k s r` is the grammar: the text `s` starts with a phrase of the symbol `k`, and `r` is what is
behind it. `run` is a recogniser that reads a text byte by byte, with a stack of the objects and arrays
that are open. It accepts every object (`run_of_isObject`). How the bytes from 128 on are encoded is not
looked at.
-/

namespace JsonText

/-! ## The grammar -/

/-- A blank. -/
def isBlank (b : UInt8) : Bool := b = 32 || b = 9 || b = 10 || b = 13

/-- A digit. -/
def isDigit (b : UInt8) : Bool := 48 ≤ b && b ≤ 57

/-- Bytes of a kind, as many as wanted, and what is behind them. -/
inductive Many (p : UInt8 → Bool) : List UInt8 → List UInt8 → Prop where
  | nil : Many p r r
  | cons (hb : p b = true) (h : Many p s r) : Many p (b :: s) r

/-- Blanks. -/
abbrev Blanks : List UInt8 → List UInt8 → Prop := Many isBlank

/-- Digits, at least one. -/
def Digits (s r : List UInt8) : Prop := ∃ d t, s = d :: t ∧ isDigit d = true ∧ Many isDigit t r

/-- The digits before the point, without a zero that does not belong there. -/
def Whole (s r : List UInt8) : Prop :=
  s = 48 :: r ∨ ∃ d t, s = d :: t ∧ isDigit d = true ∧ d ≠ 48 ∧ Many isDigit t r

/-- The point and the digits after it, or nothing. -/
def Fraction (s r : List UInt8) : Prop := s = r ∨ ∃ t, s = 46 :: t ∧ Digits t r

/-- A sign, or nothing. -/
def Sign (s r : List UInt8) : Prop := s = r ∨ s = 43 :: r ∨ s = 45 :: r

/-- The exponent, or nothing. -/
def Exponent (s r : List UInt8) : Prop :=
  s = r ∨ ∃ e t u, (e = 101 ∨ e = 69) ∧ s = e :: t ∧ Sign t u ∧ Digits u r

/-- A number. -/
def Number (s r : List UInt8) : Prop :=
  ∃ t u v, (s = t ∨ s = 45 :: t) ∧ Whole t u ∧ Fraction u v ∧ Exponent v r

/-- The text of a string and the quote that ends it. -/
def Chars (s r : List UInt8) : Prop := ∃ b, Body b ∧ s = b ++ quote :: r

/-- The words. -/
inductive Word where
  | true
  | false
  | null
deriving DecidableEq

/-- Their bytes. -/
def Word.bytes : Word → List UInt8
  | true => [116, 114, 117, 101]
  | false => [102, 97, 108, 115, 101]
  | null => [110, 117, 108, 108]

/-- The symbols of the grammar. -/
inductive Symbol where
  | object
  | value
  | element
  | elements
  | member
  | members

/-- A phrase of a symbol, and what is behind it. -/
inductive Derives : Symbol → List UInt8 → List UInt8 → Prop where
  | emptyObject (h : Blanks s (125 :: r)) : Derives .object (123 :: s) r
  | object (h : Derives .members s (125 :: r)) : Derives .object (123 :: s) r
  | word (w : Word) : Derives .value (w.bytes ++ r) r
  | number (h : Number s r) : Derives .value s r
  | string (h : Chars s r) : Derives .value (quote :: s) r
  | ofObject (h : Derives .object s r) : Derives .value s r
  | emptyArray (h : Blanks s (93 :: r)) : Derives .value (91 :: s) r
  | array (h : Derives .elements s (93 :: r)) : Derives .value (91 :: s) r
  | element (ha : Blanks s t) (hv : Derives .value t u) (hb : Blanks u r) : Derives .element s r
  | lastElement (he : Derives .element s r) : Derives .elements s r
  | moreElements (he : Derives .element s (44 :: t)) (hes : Derives .elements t r) :
    Derives .elements s r
  | member (ha : Blanks s (quote :: t)) (hk : Chars t u) (hb : Blanks u (58 :: v))
    (he : Derives .element v r) : Derives .member s r
  | lastMember (hm : Derives .member s r) : Derives .members s r
  | moreMembers (hm : Derives .member s (44 :: t)) (hms : Derives .members t r) : Derives .members s r

/-- A text that is an object, with blanks around it. -/
def IsObject (s : List UInt8) : Prop := ∃ t u, Blanks s t ∧ Derives .object t u ∧ Blanks u []

/-! ## The recogniser -/

/-- What is open. -/
inductive Frame where
  | object
  | array
deriving DecidableEq

/-- What comes next: the object itself; a value, or after `[` also the bracket; a name, or after `{`
also the brace; the colon; what follows a value; the rest of a string, which may be a name; the rest of
an escape, of `\u` with a number of digits after the next; the rest of a word of which a number of bytes
is read; the rest of a number. -/
inductive Mode where
  | top
  | value
  | element
  | key
  | member
  | colon
  | next
  | str (name : Bool)
  | esc (name : Bool)
  | hex (name : Bool) (left : Nat)
  | word (w : Word) (read : Nat)
  | minus
  | zero
  | int
  | point
  | frac
  | exp
  | expSign
  | expDigits
deriving DecidableEq

/-- A state of the recogniser. -/
structure State where
  mode : Mode
  stack : List Frame
deriving DecidableEq

/-- A byte after a value. -/
def stepNext (stack : List Frame) (c : UInt8) : Option State :=
  if isBlank c then some ⟨.next, stack⟩
  else
    match stack with
    | [] => none
    | .object :: rest =>
      if c = 44 then some ⟨.key, stack⟩ else if c = 125 then some ⟨.next, rest⟩ else none
    | .array :: rest =>
      if c = 44 then some ⟨.value, stack⟩ else if c = 93 then some ⟨.next, rest⟩ else none

/-- The first byte of a value. -/
def stepValue (stack : List Frame) (c : UInt8) : Option State :=
  if c = quote then some ⟨.str false, stack⟩
  else if c = 123 then some ⟨.member, .object :: stack⟩
  else if c = 91 then some ⟨.element, .array :: stack⟩
  else if c = 45 then some ⟨.minus, stack⟩
  else if c = 48 then some ⟨.zero, stack⟩
  else if isDigit c then some ⟨.int, stack⟩
  else if c = 116 then some ⟨.word .true 1, stack⟩
  else if c = 102 then some ⟨.word .false 1, stack⟩
  else if c = 110 then some ⟨.word .null 1, stack⟩
  else none

/-- The mode behind a string. -/
def afterString (name : Bool) : Mode := if name then .colon else .next

/-- One byte. -/
def step (st : State) (c : UInt8) : Option State :=
  match st.mode with
  | .top =>
    if isBlank c then some st else if c = 123 then some ⟨.member, .object :: st.stack⟩ else none
  | .value => if isBlank c then some st else stepValue st.stack c
  | .element =>
    if isBlank c then some st else if c = 93 then stepNext st.stack c else stepValue st.stack c
  | .key => if isBlank c then some st else if c = quote then some ⟨.str true, st.stack⟩ else none
  | .member =>
    if isBlank c then some st
    else if c = 125 then stepNext st.stack c
    else if c = quote then some ⟨.str true, st.stack⟩
    else none
  | .colon => if isBlank c then some st else if c = 58 then some ⟨.value, st.stack⟩ else none
  | .next => stepNext st.stack c
  | .str name =>
    if c = quote then some ⟨afterString name, st.stack⟩
    else if c = backslash then some ⟨.esc name, st.stack⟩
    else if isPlain c then some st
    else none
  | .esc name =>
    if c = 117 then some ⟨.hex name 3, st.stack⟩
    else if (shortEscape c).isSome then some ⟨.str name, st.stack⟩
    else none
  | .hex name left =>
    if isHex c then
      match left with
      | 0 => some ⟨.str name, st.stack⟩
      | left + 1 => some ⟨.hex name left, st.stack⟩
    else none
  | .word w read =>
    if w.bytes[read]? = some c then
      some ⟨if read + 1 = w.bytes.length then .next else .word w (read + 1), st.stack⟩
    else none
  | .minus =>
    if c = 48 then some ⟨.zero, st.stack⟩ else if isDigit c then some ⟨.int, st.stack⟩ else none
  | .zero =>
    if c = 46 then some ⟨.point, st.stack⟩
    else if c = 101 ∨ c = 69 then some ⟨.exp, st.stack⟩
    else stepNext st.stack c
  | .int =>
    if isDigit c then some st
    else if c = 46 then some ⟨.point, st.stack⟩
    else if c = 101 ∨ c = 69 then some ⟨.exp, st.stack⟩
    else stepNext st.stack c
  | .point => if isDigit c then some ⟨.frac, st.stack⟩ else none
  | .frac =>
    if isDigit c then some st
    else if c = 101 ∨ c = 69 then some ⟨.exp, st.stack⟩
    else stepNext st.stack c
  | .exp =>
    if c = 43 ∨ c = 45 then some ⟨.expSign, st.stack⟩
    else if isDigit c then some ⟨.expDigits, st.stack⟩
    else none
  | .expSign => if isDigit c then some ⟨.expDigits, st.stack⟩ else none
  | .expDigits => if isDigit c then some st else stepNext st.stack c

/-- All bytes of a text. -/
def run : State → List UInt8 → Option State
  | st, [] => some st
  | st, c :: s => (step st c).bind fun st' => run st' s

/-- Where a text starts. -/
def start : State := ⟨.top, []⟩

/-- Where the text of an object ends. -/
def done : State := ⟨.next, []⟩

section
variable {s t r : List UInt8} {c : UInt8} {m : Mode} {stack : List Frame} {name : Bool}

theorem run_append (st : State) (s t : List UInt8) :
    run st (s ++ t) = (run st s).bind fun st' => run st' t := by
  induction s generalizing st with
  | nil => rfl
  | cons c s ih =>
    rw [List.cons_append, run, run, Option.bind_assoc]
    exact congrArg _ (funext ih)

/-! ## From the grammar to the recogniser -/

/-- A value may be complete. -/
def Mode.ended : Mode → Bool
  | .next | .zero | .int | .frac | .expDigits => true
  | _ => false

/-- A value may start. -/
def Mode.opens : Mode → Bool
  | .value | .element => true
  | _ => false

/-- A name may start. -/
def Mode.names : Mode → Bool
  | .key | .member => true
  | _ => false

/-- The value that starts a text is read. -/
def Reads (m : Mode) (stack : List Frame) (s r : List UInt8) : Prop :=
  ∃ m', m'.ended = true ∧ run ⟨m, stack⟩ s = run ⟨m', stack⟩ r

theorem run_cons {st st' : State} (h : step st c = some st') (s : List UInt8) :
    run st (c :: s) = run st' s := by
  rw [run, h, Option.bind_some]

theorem run_many {p : UInt8 → Bool} {st : State} (h : Many p s r)
    (hstep : ∀ c, p c = true → step st c = some st) : run st s = run st r := by
  induction h with
  | nil => rfl
  | cons hb _ ih => rw [run_cons (hstep _ hb), ih]

/-- What cannot go on with a number ends it. -/
theorem step_ended (hm : m.ended = true) (hdigit : isDigit c = false)
    (hno : c ≠ 46 ∧ c ≠ 101 ∧ c ≠ 69) : step ⟨m, stack⟩ c = stepNext stack c := by
  obtain ⟨hpoint, he, hE⟩ := hno
  cases m <;> simp [Mode.ended] at hm <;> simp [step, hdigit, hpoint, he, hE]

theorem isBlank_iff : isBlank c = true ↔ c = 32 ∨ c = 9 ∨ c = 10 ∨ c = 13 := by
  simp [isBlank, or_assoc]

theorem step_ended_blank (hm : m.ended = true) (hc : isBlank c = true) :
    step ⟨m, stack⟩ c = some ⟨.next, stack⟩ := by
  have hnext : stepNext stack c = some ⟨.next, stack⟩ := if_pos hc
  rw [← hnext]
  rcases isBlank_iff.1 hc with rfl | rfl | rfl | rfl <;> exact step_ended hm rfl (by decide)

/-- Blanks behind a value. -/
theorem reads_blanks (hm : m.ended = true) (h : Blanks s r) (stack : List Frame) :
    Reads m stack s r := by
  cases h with
  | nil => exact ⟨m, hm, rfl⟩
  | cons hb h =>
    refine ⟨.next, rfl, ?_⟩
    rw [run_cons (step_ended_blank hm hb), run_many h fun c hc => step_ended_blank rfl hc]

/-- Behind a value a number has ended. -/
theorem run_ended (hm : m.ended = true) (hc : c = 44 ∨ c = 125 ∨ c = 93) (s : List UInt8) :
    run ⟨m, stack⟩ (c :: s) = run ⟨.next, stack⟩ (c :: s) := by
  have hstep : step ⟨m, stack⟩ c = stepNext stack c := by
    rcases hc with rfl | rfl | rfl <;> exact step_ended hm rfl (by decide)
  rw [run, run, hstep]
  rfl

theorem step_opens_blank (hm : m.opens = true) (hc : isBlank c = true) :
    step ⟨m, stack⟩ c = some ⟨m, stack⟩ := by
  cases m <;> simp [Mode.opens] at hm <;> simp [step, hc]

theorem step_opens (hm : m.opens = true) (hc : isBlank c = false) (hclose : c ≠ 93) :
    step ⟨m, stack⟩ c = stepValue stack c := by
  cases m <;> simp [Mode.opens] at hm <;> simp [step, hc, hclose]

theorem step_names_blank (hm : m.names = true) (hc : isBlank c = true) :
    step ⟨m, stack⟩ c = some ⟨m, stack⟩ := by
  cases m <;> simp [Mode.names] at hm <;> simp [step, hc]

theorem step_names_quote (hm : m.names = true) :
    step ⟨m, stack⟩ quote = some ⟨.str true, stack⟩ := by
  cases m <;> simp [Mode.names] at hm <;> rfl

/-! ### Strings -/

theorem isPlain_iff : isPlain c = true ↔ 32 ≤ c ∧ c ≠ quote ∧ c ≠ backslash := by
  simp [isPlain, and_assoc]

theorem step_str_plain (h : isPlain c = true) :
    step ⟨.str name, stack⟩ c = some ⟨.str name, stack⟩ := by
  obtain ⟨-, hquote, hback⟩ := isPlain_iff.1 h
  simp [step, hquote, hback, h]

theorem step_esc_short (h : (shortEscape c).isSome = true) :
    step ⟨.esc name, stack⟩ c = some ⟨.str name, stack⟩ := by
  have hu : c ≠ 117 := by
    rintro rfl
    cases h
  simp [step, hu, h]

theorem step_hex_zero (h : isHex c = true) :
    step ⟨.hex name 0, stack⟩ c = some ⟨.str name, stack⟩ := by
  simp [step, h]

theorem step_hex_succ (h : isHex c = true) (left : Nat) (name : Bool) (stack : List Frame) :
    step ⟨.hex name (left + 1), stack⟩ c = some ⟨.hex name left, stack⟩ := by
  simp [step, h]

/-- The text of a string is read inside the string. -/
theorem run_body (h : Body s) (name : Bool) (stack : List Frame) :
    run ⟨.str name, stack⟩ s = some ⟨.str name, stack⟩ := by
  induction h with
  | nil => rfl
  | plain hb _ ih => rw [run_cons (step_str_plain hb), ih]
  | short hc _ ih =>
    have hback : step ⟨.str name, stack⟩ backslash = some ⟨.esc name, stack⟩ := rfl
    rw [run_cons hback, run_cons (step_esc_short hc), ih]
  | unicode ha hb hc hd _ ih =>
    have hback : step ⟨.str name, stack⟩ backslash = some ⟨.esc name, stack⟩ := rfl
    have hu : step ⟨.esc name, stack⟩ 117 = some ⟨.hex name 3, stack⟩ := rfl
    rw [run_cons hback, run_cons hu, run_cons (step_hex_succ ha 2 name stack),
      run_cons (step_hex_succ hb 1 name stack), run_cons (step_hex_succ hc 0 name stack), run_cons (step_hex_zero hd), ih]

theorem run_chars (h : Chars s r) (name : Bool) (stack : List Frame) :
    run ⟨.str name, stack⟩ s = run ⟨afterString name, stack⟩ r := by
  obtain ⟨b, hb, rfl⟩ := h
  rw [run_append, run_body hb, Option.bind_some]
  exact run_cons rfl r

/-! ### Words and numbers -/

theorem run_word (w : Word) (hm : m.opens = true) (r : List UInt8) :
    Reads m stack (w.bytes ++ r) r := by
  refine ⟨.next, rfl, ?_⟩
  cases w
  all_goals
    rw [Word.bytes, List.cons_append, run, step_opens hm rfl (by decide)]
    rfl

theorem run_exponent (hm : m = .zero ∨ m = .int ∨ m = .frac) (h : Exponent s r)
    (stack : List Frame) : Reads m stack s r := by
  have hended : m.ended = true := by rcases hm with rfl | rfl | rfl <;> rfl
  rcases h with rfl | ⟨e, t, u, he, rfl, hsign, d, v, rfl, hd, hdigits⟩
  · exact ⟨m, hended, rfl⟩
  · have hstep : step ⟨m, stack⟩ e = some ⟨.exp, stack⟩ := by
      rcases hm with rfl | rfl | rfl <;> rcases he with rfl | rfl <;> rfl
    have hloop : run ⟨.expDigits, stack⟩ v = run ⟨.expDigits, stack⟩ r :=
      run_many hdigits fun c hc => if_pos hc
    refine ⟨.expDigits, rfl, ?_⟩
    have hfirst : step ⟨.exp, stack⟩ d = some ⟨.expDigits, stack⟩ := by
      have hnot : ¬ (d = 43 ∨ d = 45) := by
        rintro (rfl | rfl) <;> cases hd
      simp [step, hnot, hd]
    have hsigned : step ⟨.expSign, stack⟩ d = some ⟨.expDigits, stack⟩ := if_pos hd
    have hplus : step ⟨.exp, stack⟩ 43 = some ⟨.expSign, stack⟩ := rfl
    have hminus : step ⟨.exp, stack⟩ 45 = some ⟨.expSign, stack⟩ := rfl
    rw [run_cons hstep, ← hloop]
    rcases hsign with rfl | rfl | rfl
    · exact run_cons hfirst v
    · rw [run_cons hplus, run_cons hsigned]
    · rw [run_cons hminus, run_cons hsigned]

theorem run_fraction (hm : m = .zero ∨ m = .int) (h : Fraction s r) (stack : List Frame) :
    ∃ m', (m' = .zero ∨ m' = .int ∨ m' = .frac) ∧ run ⟨m, stack⟩ s = run ⟨m', stack⟩ r := by
  rcases h with rfl | ⟨t, rfl, d, u, rfl, hd, hdigits⟩
  · exact ⟨m, hm.imp_right .inl, rfl⟩
  · have hpoint : step ⟨m, stack⟩ 46 = some ⟨.point, stack⟩ := by rcases hm with rfl | rfl <;> rfl
    have hfirst : step ⟨.point, stack⟩ d = some ⟨.frac, stack⟩ := if_pos hd
    have hloop : run ⟨.frac, stack⟩ u = run ⟨.frac, stack⟩ r := run_many hdigits fun c hc => if_pos hc
    exact ⟨.frac, .inr (.inr rfl), (run_cons hpoint _).trans ((run_cons hfirst u).trans hloop)⟩

theorem stepValue_digit (hc : isDigit c = true) (hzero : c ≠ 48) :
    stepValue stack c = some ⟨.int, stack⟩ := by
  have hother : c ≠ quote ∧ c ≠ 123 ∧ c ≠ 91 ∧ c ≠ 45 := by
    refine ⟨?_, ?_, ?_, ?_⟩ <;> (rintro rfl; cases hc)
  obtain ⟨hquote, hobject, harray, hminus⟩ := hother
  simp [stepValue, hquote, hobject, harray, hminus, hzero, hc]

theorem isBlank_of_isDigit (hc : isDigit c = true) : isBlank c = false := by
  cases hblank : isBlank c with
  | false => rfl
  | true =>
    rcases isBlank_iff.1 hblank with rfl | rfl | rfl | rfl <;> cases hc

theorem run_whole (hm : m.opens = true ∨ m = .minus) (h : Whole s r) (stack : List Frame) :
    ∃ m', (m' = .zero ∨ m' = .int) ∧ run ⟨m, stack⟩ s = run ⟨m', stack⟩ r := by
  rcases h with rfl | ⟨d, t, rfl, hd, hzero, hdigits⟩
  · refine ⟨.zero, .inl rfl, run_cons ?_ r⟩
    rcases hm with hm | rfl
    · exact step_opens hm rfl (by decide)
    · rfl
  · have hstep : step ⟨m, stack⟩ d = some ⟨.int, stack⟩ := by
      rcases hm with hm | rfl
      · have hclose : d ≠ 93 := by
          rintro rfl
          cases hd
        rw [step_opens hm (isBlank_of_isDigit hd) hclose, stepValue_digit hd hzero]
      · simp [step, hzero, hd]
    have hloop : run ⟨.int, stack⟩ t = run ⟨.int, stack⟩ r := run_many hdigits fun c hc => if_pos hc
    exact ⟨.int, .inr rfl, (run_cons hstep t).trans hloop⟩

theorem run_number (hm : m.opens = true) (h : Number s r) (stack : List Frame) : Reads m stack s r := by
  obtain ⟨t, u, v, hsign, hwhole, hfraction, hexponent⟩ := h
  have hrest : ∀ m', (m'.opens = true ∨ m' = .minus) → Reads m' stack t r := fun m' hm' => by
    obtain ⟨m₁, hm₁, hrun₁⟩ := run_whole hm' hwhole stack
    obtain ⟨m₂, hm₂, hrun₂⟩ := run_fraction hm₁ hfraction stack
    obtain ⟨m₃, hm₃, hrun₃⟩ := run_exponent hm₂ hexponent stack
    exact ⟨m₃, hm₃, hrun₁.trans (hrun₂.trans hrun₃)⟩
  rcases hsign with rfl | rfl
  · exact hrest m (.inl hm)
  · obtain ⟨m', hm', hrun⟩ := hrest .minus (.inr rfl)
    have hminus : step ⟨m, stack⟩ 45 = some ⟨.minus, stack⟩ := step_opens hm rfl (by decide)
    exact ⟨m', hm', (run_cons hminus t).trans hrun⟩

/-! ### Phrases -/

/-- What the recogniser does with a phrase. -/
def Symbol.Read (s r : List UInt8) : Symbol → Prop
  | .object => ∃ t, s = 123 :: t ∧
      ∀ stack, run ⟨.member, .object :: stack⟩ t = run ⟨.next, stack⟩ r
  | .value | .element => ∀ m stack, m.opens = true → Reads m stack s r
  | .elements => ∀ m stack, m.opens = true → Reads m (.array :: stack) s r
  | .member | .members => ∀ m stack, m.names = true → Reads m (.object :: stack) s r

theorem read_of_derives {k : Symbol} (h : Derives k s r) : k.Read s r := by
  induction h with
  | emptyObject h =>
    refine ⟨_, rfl, fun stack => ?_⟩
    rw [run_many h fun c hc => step_names_blank rfl hc]
    exact run_cons rfl _
  | object h ih =>
    refine ⟨_, rfl, fun stack => ?_⟩
    obtain ⟨m', hm', hrun⟩ := ih .member stack rfl
    rw [hrun, run_ended hm' (.inr (.inl rfl))]
    exact run_cons rfl _
  | word w => exact fun m stack hm => run_word w hm _
  | number h => exact fun m stack hm => run_number hm h stack
  | string h =>
    intro m stack hm
    have hquote : step ⟨m, stack⟩ quote = some ⟨.str false, stack⟩ := step_opens hm rfl (by decide)
    exact ⟨.next, rfl, (run_cons hquote _).trans (run_chars h false stack)⟩
  | ofObject h ih =>
    obtain ⟨t, rfl, hrun⟩ := ih
    intro m stack hm
    have hopen : step ⟨m, stack⟩ 123 = some ⟨.member, .object :: stack⟩ :=
      step_opens hm rfl (by decide)
    exact ⟨.next, rfl, (run_cons hopen t).trans (hrun stack)⟩
  | emptyArray h =>
    intro m stack hm
    have hopen : step ⟨m, stack⟩ 91 = some ⟨.element, .array :: stack⟩ :=
      step_opens hm rfl (by decide)
    refine ⟨.next, rfl, ?_⟩
    rw [run_cons hopen, run_many h fun c hc => step_opens_blank rfl hc]
    exact run_cons rfl _
  | array h ih =>
    intro m stack hm
    have hopen : step ⟨m, stack⟩ 91 = some ⟨.element, .array :: stack⟩ :=
      step_opens hm rfl (by decide)
    obtain ⟨m', hm', hrun⟩ := ih .element stack rfl
    refine ⟨.next, rfl, ?_⟩
    rw [run_cons hopen, hrun, run_ended hm' (.inr (.inr rfl))]
    exact run_cons rfl _
  | element ha _ hb ih =>
    intro m stack hm
    obtain ⟨m', hm', hrun⟩ := ih m stack hm
    obtain ⟨m'', hm'', hblanks⟩ := reads_blanks hm' hb stack
    refine ⟨m'', hm'', ?_⟩
    rw [run_many ha fun c hc => step_opens_blank hm hc, hrun, hblanks]
  | lastElement _ ih => exact fun m stack hm => ih m (.array :: stack) hm
  | moreElements _ _ ihe ihes =>
    intro m stack hm
    obtain ⟨m', hm', hrun⟩ := ihe m (.array :: stack) hm
    obtain ⟨m'', hm'', hrest⟩ := ihes .value stack rfl
    refine ⟨m'', hm'', ?_⟩
    rw [hrun, run_ended hm' (.inl rfl), ← hrest]
    exact run_cons rfl _
  | @member _ _ u v _ ha hk hb _ ih =>
    intro m stack hm
    obtain ⟨m', hm', hrun⟩ := ih .value (.object :: stack) rfl
    have hcolon : run ⟨.colon, .object :: stack⟩ u = run ⟨.colon, .object :: stack⟩ (58 :: v) :=
      run_many hb fun c hc => if_pos hc
    refine ⟨m', hm', ?_⟩
    rw [run_many ha fun c hc => step_names_blank hm hc, run_cons (step_names_quote hm), run_chars hk,
      ← hrun]
    exact hcolon.trans (run_cons rfl v)
  | lastMember _ ih => exact ih
  | moreMembers _ _ ihm ihms =>
    intro m stack hm
    obtain ⟨m', hm', hrun⟩ := ihm m stack hm
    obtain ⟨m'', hm'', hrest⟩ := ihms .key stack rfl
    refine ⟨m'', hm'', ?_⟩
    rw [hrun, run_ended hm' (.inl rfl), ← hrest]
    exact run_cons rfl _

/-- An object is accepted. -/
theorem run_of_isObject (h : IsObject s) : run start s = some done := by
  obtain ⟨t, u, hbefore, hobject, hafter⟩ := h
  obtain ⟨v, rfl, hrun⟩ := read_of_derives hobject
  have hopen : step start 123 = some ⟨.member, [.object]⟩ := rfl
  have hskip : run start s = run start (123 :: v) := run_many hbefore fun c hc => if_pos hc
  rw [hskip, run_cons hopen, hrun, run_many hafter fun c hc => step_ended_blank rfl hc]
  rfl

end

end JsonText

import Mathlib.Data.List.Infix

/-!
# Components of a separated text

`components sep text` is what a file system reads in a path: the non-empty pieces between
separators, so that runs of separators and leading or trailing ones name nothing. The
components of a text joined at a separator are those of its two parts
(`components_append_cons`).
-/

namespace SepText

variable {α : Type*} [DecidableEq α] {sep : α}

/-- The non-empty pieces of the text between separators. -/
def components (sep : α) (text : List α) : List (List α) :=
  (text.splitOn sep).filter (· ≠ [])

@[simp] theorem components_nil : components sep [] = [] := by
  simp [components, List.splitOn_nil]

/-- A separator splits the components of a text. -/
theorem components_append_cons (a b : List α) :
    components sep (a ++ sep :: b) = components sep a ++ components sep b := by
  rw [components, List.splitOn_append_cons_self, List.filter_append]; rfl

@[simp] theorem components_cons_sep (b : List α) :
    components sep (sep :: b) = components sep b := by
  simpa using (components_append_cons [] b : components sep ([] ++ sep :: b) = _)

/-- A non-empty text without a separator is its own only component. -/
theorem components_eq_singleton {a : List α} (h : sep ∉ a) (hne : a ≠ []) :
    components sep a = [a] := by
  rw [components, List.splitOn_eq_singleton h]
  simp [hne]

/-- A symbol of the text other than the separator lies in one of its pieces. -/
theorem exists_mem_splitOn {text : List α} {c : α} (h : c ∈ text) (hc : c ≠ sep) :
    ∃ piece ∈ text.splitOn sep, c ∈ piece := by
  induction text with
  | nil => cases h
  | cons d text ih =>
    rw [List.splitOn_cons_eq_if_modifyHead]
    rcases hs : text.splitOn sep with _ | ⟨piece, pieces⟩
    · exact absurd hs (List.splitOn_ne_nil _ _)
    · rw [hs] at ih
      by_cases hd : d = sep
      · subst hd
        obtain ⟨p, hp, hcp⟩ := ih ((List.mem_cons.1 h).resolve_left hc)
        exact ⟨p, by simp [List.mem_cons.1 hp], hcp⟩
      · simp only [beq_iff_eq, hd, if_false, List.modifyHead_cons]
        rcases List.mem_cons.1 h with rfl | h
        · exact ⟨_, List.mem_cons_self, List.mem_cons_self⟩
        · obtain ⟨p, hp, hcp⟩ := ih h
          rcases List.mem_cons.1 hp with rfl | hp
          · exact ⟨_, List.mem_cons_self, List.mem_cons_of_mem _ hcp⟩
          · exact ⟨p, List.mem_cons_of_mem _ hp, hcp⟩

/-! ## What components keep of a text -/

/-- No component is empty. -/
theorem ne_nil_of_mem_components {text piece : List α} (h : piece ∈ components sep text) :
    piece ≠ [] := by
  simpa using (List.mem_filter.1 h).2

/-- The components hold the text less its separators. -/
theorem flatten_components (text : List α) :
    (components sep text).flatten = text.filter (· ≠ sep) := by
  have hsplit : (text.splitOn sep).flatten = text.filter (· ≠ sep) := by
    induction text with
    | nil => simp [List.splitOn_nil]
    | cons d text ih =>
      rw [List.splitOn_cons_eq_if_modifyHead]
      rcases hs : text.splitOn sep with _ | ⟨piece, pieces⟩
      · exact absurd hs (List.splitOn_ne_nil _ _)
      · rw [hs] at ih
        by_cases hd : d = sep
        · subst hd
          simpa using ih
        · simpa [hd] using ih
  rw [← hsplit, components]
  exact List.flatten_filter_ne_nil

/-- Separators at the end add no component, and anything else changes them. -/
theorem components_append_eq_left_iff {a b : List α} :
    components sep (a ++ b) = components sep a ↔ ∀ x ∈ b, x = sep := by
  constructor
  · intro h x hx
    by_contra hne
    have hflat := congrArg List.flatten h
    rw [flatten_components, flatten_components, List.filter_append] at hflat
    have hnil : b.filter (· ≠ sep) = [] := List.append_right_eq_self.1 hflat
    have hmem : x ∈ b.filter (· ≠ sep) := List.mem_filter.2 ⟨hx, by simpa using hne⟩
    rw [hnil] at hmem
    cases hmem
  · intro h
    induction b generalizing a with
    | nil => rw [List.append_nil]
    | cons x b ih =>
      obtain rfl := h x List.mem_cons_self
      have hb : components x b = [] := by
        have := ih (a := []) fun y hy => h y (List.mem_cons_of_mem _ hy)
        simpa using this
      rw [components_append_cons, hb, List.append_nil]

/-- A component stands between separators, or at an end of the text. -/
theorem exists_of_mem_components {text piece : List α} (h : piece ∈ components sep text) :
    ∃ a b, text = a ++ piece ++ b ∧ (a = [] ∨ a.getLast? = some sep) ∧ (b = [] ∨ b.head? = some sep) := by
  by_cases hsep : sep ∈ text
  · obtain ⟨p, q, htext, hp⟩ := List.eq_append_cons_of_mem hsep
    have hlen : q.length < text.length := by
      rw [htext, List.length_append, List.length_cons]
      omega
    subst htext
    rw [components_append_cons, List.mem_append] at h
    rcases h with h | h
    · have hpiece : piece = p := by
        by_cases hnil : p = []
        · rw [hnil, components_nil] at h
          cases h
        · rw [components_eq_singleton hp hnil] at h
          exact List.mem_singleton.1 h
      exact ⟨[], sep :: q, by rw [hpiece, List.nil_append], .inl rfl, .inr rfl⟩
    · obtain ⟨a, b, rfl, ha, hb⟩ := exists_of_mem_components h
      refine ⟨p ++ sep :: a, b, by simp, .inr ?_, hb⟩
      rcases ha with rfl | ha
      · simp
      · rw [List.getLast?_append, List.getLast?_cons, ha]
        rfl
  · have hpiece : piece = text := by
      by_cases hnil : text = []
      · rw [hnil, components_nil] at h
        cases h
      · rw [components_eq_singleton hsep hnil] at h
        exact List.mem_singleton.1 h
    exact ⟨[], [], by rw [hpiece]; simp, .inl rfl, .inl rfl⟩
termination_by text.length

/-! ## Terminated pieces -/

/-- The pieces of a text in which the separator ends a piece: a separator at the end does
not open another, empty one. -/
def pieces (sep : α) (text : List α) : List (List α) :=
  let ps := text.splitOn sep
  if ps.getLast? = some [] then ps.dropLast else ps

/-- Ending pieces changes nothing about the non-empty ones. -/
theorem mem_pieces_iff {text piece : List α} (h : piece ≠ []) :
    piece ∈ pieces sep text ↔ piece ∈ text.splitOn sep := by
  simp only [pieces]
  split
  · next hlast =>
    obtain ⟨ps, hps⟩ := List.getLast?_eq_some_iff.1 hlast
    simp [hps, h]
  · rfl

/-- No piece holds the separator. -/
theorem not_mem_of_mem_splitOn {text piece : List α} (h : piece ∈ text.splitOn sep) :
    sep ∉ piece := by
  induction text generalizing piece with
  | nil =>
    rw [List.splitOn_nil, List.mem_singleton] at h
    rw [h]
    exact List.not_mem_nil
  | cons c text ih =>
    rw [List.splitOn_cons_eq_if_modifyHead] at h
    split at h
    · rcases List.mem_cons.1 h with rfl | h
      · exact List.not_mem_nil
      · exact ih h
    · next hc =>
      obtain ⟨p, ps, hps⟩ := List.exists_cons_of_ne_nil (List.splitOn_ne_nil sep text)
      rw [hps, List.modifyHead_cons] at h
      rcases List.mem_cons.1 h with rfl | h
      · have hp : sep ∉ p := ih (hps ▸ List.mem_cons_self)
        exact fun hmem => (List.mem_cons.1 hmem).elim (fun heq => hc (by simp [heq])) hp
      · exact ih (hps ▸ List.mem_cons_of_mem p h)

theorem not_mem_of_mem_pieces {text piece : List α} (h : piece ∈ pieces sep text) : sep ∉ piece := by
  by_cases hne : piece = []
  · rw [hne]
    exact List.not_mem_nil
  · exact not_mem_of_mem_splitOn ((mem_pieces_iff hne).1 h)

/-- The non-empty pieces of terminated texts in a row are those of each. -/
theorem mem_splitOn_flatMap {texts : List (List α)} {piece : List α} (h : piece ≠ []) :
    piece ∈ (texts.flatMap (· ++ [sep])).splitOn sep ↔
      ∃ text ∈ texts, piece ∈ text.splitOn sep := by
  induction texts with
  | nil => simp [List.splitOn_nil, h]
  | cons text texts ih =>
    rw [List.flatMap_cons, List.append_assoc, List.singleton_append,
      List.splitOn_append_cons_self, List.mem_append, ih]
    simp

/-- The pieces of terminated texts in a row, when none of them holds the separator. -/
theorem pieces_flatMap {texts : List (List α)} (h : ∀ text ∈ texts, sep ∉ text) :
    pieces sep (texts.flatMap (· ++ [sep])) = texts := by
  have hsplit : (texts.flatMap (· ++ [sep])).splitOn sep = texts ++ [[]] := by
    induction texts with
    | nil => exact List.splitOn_nil ..
    | cons text texts ih =>
      rw [List.flatMap_cons, List.append_assoc, List.singleton_append,
        List.splitOn_append_cons_self, List.splitOn_eq_singleton (h text List.mem_cons_self),
        ih fun text htext => h text (List.mem_cons_of_mem _ htext)]
      rfl
  unfold pieces
  rw [hsplit]
  simp

@[simp] theorem pieces_nil : pieces sep ([] : List α) = [] := by
  unfold pieces
  rw [List.splitOn_nil]
  rfl

theorem pieces_of_not_mem {text : List α} (hsep : sep ∉ text) (hne : text ≠ []) :
    pieces sep text = [text] := by
  unfold pieces
  rw [List.splitOn_eq_singleton hsep]
  exact if_neg fun hlast => hne (Option.some.inj hlast)

/-- The text before the first separator is the first piece. -/
theorem pieces_append_cons {a : List α} (hsep : sep ∉ a) (b : List α) :
    pieces sep (a ++ sep :: b) = a :: pieces sep b := by
  unfold pieces
  rw [List.splitOn_append_cons_self, List.splitOn_eq_singleton hsep]
  obtain ⟨p, ps, hps⟩ := List.exists_cons_of_ne_nil (List.splitOn_ne_nil sep b)
  dsimp only
  rw [hps, List.singleton_append, List.getLast?_cons_cons]
  split
  · rfl
  · rfl

/-- Induction over the pieces of a text: all but the last are terminated. -/
theorem pieces_induction (sep : α) {motive : List α → Prop} (nil : motive [])
    (last : ∀ text, sep ∉ text → text ≠ [] → motive text)
    (cons : ∀ a b, sep ∉ a → motive b → motive (a ++ sep :: b)) (text : List α) : motive text := by
  by_cases hmem : sep ∈ text
  · obtain ⟨a, b, heq, hfirst⟩ := List.eq_append_cons_of_mem hmem
    have hshorter : b.length < text.length := by
      rw [heq, List.length_append, List.length_cons]
      omega
    rw [heq]
    exact cons a b hfirst (pieces_induction sep nil last cons b)
  · by_cases hne : text = []
    · rw [hne]
      exact nil
    · exact last text hmem hne
termination_by text.length

/-- What comes after a terminated text adds its own pieces. -/
theorem pieces_append_terminated (a b : List α) :
    pieces sep (a ++ sep :: b) = a.splitOn sep ++ pieces sep b := by
  induction a using pieces_induction sep with
  | nil => exact (pieces_append_cons List.not_mem_nil b).trans (by rw [List.splitOn_nil]; rfl)
  | last a hsep _ =>
    rw [pieces_append_cons hsep, List.splitOn_eq_singleton hsep]
    rfl
  | cons a₁ a₂ hfirst ih =>
    rw [List.append_assoc, List.cons_append, pieces_append_cons hfirst, ih,
      List.splitOn_append_cons_self, List.splitOn_eq_singleton hfirst]
    rfl

/-- The pieces of a text whose last one is not terminated. -/
theorem pieces_of_getLast? {text : List α} (hne : text ≠ []) (hlast : text.getLast? ≠ some sep) :
    pieces sep text = text.splitOn sep := by
  induction text using pieces_induction sep with
  | nil => exact absurd rfl hne
  | last text hsep _ => rw [pieces_of_not_mem hsep hne, List.splitOn_eq_singleton hsep]
  | cons a b hfirst ih =>
    rw [List.getLast?_append, List.getLast?_cons] at hlast
    have hb : b ≠ [] := by
      rintro rfl
      exact hlast rfl
    have hlast' : b.getLast? ≠ some sep := by
      intro h
      rw [h] at hlast
      exact hlast rfl
    rw [pieces_append_cons hfirst, ih hb hlast', List.splitOn_append_cons_self,
      List.splitOn_eq_singleton hfirst]
    rfl

end SepText

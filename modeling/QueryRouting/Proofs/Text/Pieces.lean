import QueryRouting.Text.Blank
import QueryRouting.Text.Numeral
import QueryRouting.Text.Pieces

namespace QueryRouting.Text

theorem takeWhile_dropWhile_iff {p : α → Bool} {l w rest : List α} {a : α} :
    l.takeWhile p = w ∧ l.dropWhile p = a :: rest ↔
      l = w ++ a :: rest ∧ (∀ b ∈ w, p b) ∧ p a = false := by
  constructor
  · rintro ⟨rfl, hd⟩
    refine ⟨?_, ?_, ?_⟩
    · rw [← hd, List.takeWhile_append_dropWhile]
    · exact List.all_eq_true.1 List.all_takeWhile
    · have h := List.head?_dropWhile_not p l
      simpa only [hd, List.head?_cons] using h
  · rintro ⟨rfl, hw, ha⟩
    constructor
    · rw [List.takeWhile_append_of_pos hw, List.takeWhile_cons_of_neg (by simp [ha]),
        List.append_nil]
    · rw [List.dropWhile_append_of_pos hw, List.dropWhile_cons_of_neg (by simp [ha])]

theorem takeWhile_dropWhile_append {p : α → Bool} {w rest : List α} (hw : ∀ b ∈ w, p b)
    (hrest : ∀ a ∈ rest.head?, p a = false) :
    (w ++ rest).takeWhile p = w ∧ (w ++ rest).dropWhile p = rest := by
  cases rest with
  | nil =>
    rw [List.takeWhile_append_of_pos hw, List.dropWhile_append_of_pos hw]
    exact ⟨List.append_nil w, rfl⟩
  | cons a rest => exact takeWhile_dropWhile_iff.2 ⟨rfl, hw, hrest a rfl⟩

section Pieces

variable {α : Type u} [DecidableEq α] {separator : α}

theorem pieces_of_notMem {piece : List α} (h : separator ∉ piece) :
    pieces separator piece = [piece] := by
  induction piece with
  | nil => rfl
  | cons a rest ih =>
    simp only [List.mem_cons, not_or] at h
    rw [pieces, if_neg (Ne.symm h.1), ih h.2]

theorem pieces_append_cons {piece : List α} (h : separator ∉ piece) (rest : List α) :
    pieces separator (piece ++ separator :: rest) = piece :: pieces separator rest := by
  induction piece with
  | nil => simp [pieces]
  | cons a piece ih =>
    simp only [List.mem_cons, not_or] at h
    rw [List.cons_append, pieces, if_neg (Ne.symm h.1), ih h.2]

/-- The separator between two texts keeps their pieces apart. -/
theorem pieces_append_separator (l rest : List α) :
    pieces separator (l ++ separator :: rest) =
      pieces separator l ++ pieces separator rest := by
  induction l with
  | nil => simp [pieces]
  | cons a l ih =>
    rw [List.cons_append, pieces, pieces, ih]
    by_cases ha : a = separator
    · rw [if_pos ha, if_pos ha, List.cons_append]
    · obtain ⟨piece, others, hp⟩ := List.exists_cons_of_ne_nil (pieces_ne_nil separator l)
      rw [if_neg ha, if_neg ha, hp]
      rfl

/-- A text is one piece, or a first piece, a separator and a text with one piece less. -/
theorem pieces_induction (separator : α) {motive : List α → Prop}
    (last : ∀ piece, separator ∉ piece → motive piece)
    (split : ∀ piece rest, separator ∉ piece → motive rest → motive (piece ++ separator :: rest))
    (l : List α) : motive l := by
  have h : ∀ piece, separator ∉ piece → motive (piece ++ l) := by
    induction l with
    | nil =>
      intro piece hp
      rw [List.append_nil]
      exact last piece hp
    | cons a rest ih =>
      intro piece hp
      by_cases ha : a = separator
      · subst ha
        exact split piece rest hp (ih [] List.not_mem_nil)
      · have hpa : separator ∉ piece ++ [a] := by
          simp only [List.mem_append, List.mem_singleton, not_or]
          exact ⟨hp, Ne.symm ha⟩
        rw [List.append_cons]
        exact ih _ hpa
  exact h [] List.not_mem_nil

end Pieces

theorem notMem_intercalate {a : α} {separator : List α} {l : List (List α)} (hs : a ∉ separator)
    (hl : ∀ piece ∈ l, a ∉ piece) : a ∉ separator.intercalate l := by
  induction l with
  | nil => exact List.not_mem_nil
  | cons piece l ih =>
    rw [List.forall_mem_cons] at hl
    cases l with
    | nil =>
      rw [List.intercalate_singleton]
      exact hl.1
    | cons next l =>
      rw [List.intercalate_cons_cons, List.mem_append, List.mem_append]
      exact fun h => h.elim (fun h => h.elim hl.1 hs) (ih hl.2)

theorem trimStart_append {left cs : List Char} (h : ∀ c ∈ left, isBlank c) :
    trimStart (left ++ cs) = trimStart cs :=
  List.dropWhile_append_of_pos h

theorem trimEnd_append {right cs : List Char} (h : ∀ c ∈ right, isBlank c) :
    trimEnd (cs ++ right) = trimEnd cs := by
  have hr : ∀ c ∈ right.reverse, isBlank c := fun c hc => h c (List.mem_reverse.1 hc)
  rw [trimEnd, trimEnd, List.reverse_append, List.dropWhile_append_of_pos hr]

theorem trimStart_eq_self {cs : List Char} (h : ∀ c ∈ cs, isBlank c = false) :
    trimStart cs = cs := by
  cases cs with
  | nil => rfl
  | cons c rest => exact List.dropWhile_cons_of_neg (by simp [h c])

theorem trimEnd_eq_self {cs : List Char} (h : ∀ c ∈ cs, isBlank c = false) :
    trimEnd cs = cs := by
  have hr : cs.reverse.dropWhile isBlank = cs.reverse :=
    trimStart_eq_self fun c hc => h c (List.mem_reverse.1 hc)
  rw [trimEnd, hr, List.reverse_reverse]

/-- Trimming takes off blanks at both ends and nothing else. -/
theorem exists_trim (cs : List Char) :
    ∃ left right, cs = left ++ trim cs ++ right ∧ (∀ c ∈ left, isBlank c) ∧
      ∀ c ∈ right, isBlank c := by
  refine ⟨cs.takeWhile isBlank, ((trimStart cs).reverse.takeWhile isBlank).reverse, ?_,
    List.all_eq_true.1 List.all_takeWhile, ?_⟩
  · have he : trim cs ++ ((trimStart cs).reverse.takeWhile isBlank).reverse = trimStart cs := by
      rw [trim, trimEnd, ← List.reverse_append, List.takeWhile_append_dropWhile,
        List.reverse_reverse]
    rw [List.append_assoc, he, trimStart, List.takeWhile_append_dropWhile]
  · intro c hc
    exact List.all_eq_true.1 List.all_takeWhile c (List.mem_reverse.1 hc)

theorem trim_append {left cs right : List Char} (hl : ∀ c ∈ left, isBlank c)
    (hcs : ∀ c ∈ cs, isBlank c = false) (hr : ∀ c ∈ right, isBlank c) :
    trim (left ++ cs ++ right) = cs := by
  cases cs with
  | nil =>
    have h : ∀ c ∈ left ++ right, isBlank c := by
      intro c hc
      rcases List.mem_append.1 hc with hc | hc
      · exact hl c hc
      · exact hr c hc
    have he : trimStart (left ++ right ++ []) = [] := trimStart_append h
    rw [List.append_nil] at he
    rw [List.append_nil, trim, he]
    rfl
  | cons c rest =>
    have hs : trimStart (c :: rest ++ right) = c :: rest ++ right :=
      List.dropWhile_cons_of_neg (by simp [hcs c])
    rw [trim, List.append_assoc, trimStart_append hl, hs, trimEnd_append hr, trimEnd_eq_self hcs]

/-- The text is `core` with blanks around it. -/
def Padded (cs core : List Char) : Prop :=
  ∃ left right, cs = left ++ core ++ right ∧ (∀ c ∈ left, isBlank c) ∧ ∀ c ∈ right, isBlank c

theorem of_trim_iff {cs : List Char} {p : List Char → Prop}
    (hp : ∀ core, p core → ∀ c ∈ core, isBlank c = false) :
    p (trim cs) ↔ ∃ core, Padded cs core ∧ p core := by
  constructor
  · intro h
    exact ⟨trim cs, exists_trim cs, h⟩
  · rintro ⟨core, ⟨left, right, rfl, hl, hr⟩, h⟩
    rwa [trim_append hl (hp core h) hr]

theorem isBlank_of_isDigit {c : Char} (h : c.isDigit = true) : isBlank c = false := by
  have hb : 48 ≤ c.toNat ∧ c.toNat ≤ 57 := by
    simpa [Char.isDigit, UInt32.le_iff_toNat_le] using h
  simp [isBlank, Ranges.contains, blankRanges]
  omega

end QueryRouting.Text

import QueryRouting.Proofs.Text.Numeral
import QueryRouting.Proofs.Text.Pieces
import QueryRouting.Query.Reference

namespace QueryRouting

open Text

namespace TypeNote

/-- Numerals between commas, with white space around each. -/
inductive ItemsForm : List Char → List (List Char) → Prop
  | last (hl : ∀ c ∈ left, isBlank c) (hd : Numeral.isNumeral digits)
      (hr : ∀ c ∈ right, isBlank c) : ItemsForm (left ++ digits ++ right) [digits]
  | more (hl : ∀ c ∈ left, isBlank c) (hd : Numeral.isNumeral digits)
      (hr : ∀ c ∈ right, isBlank c) (h : ItemsForm rest others) :
      ItemsForm (left ++ digits ++ right ++ ',' :: rest) (digits :: others)

/-- The arguments between parentheses; there may be none. -/
inductive ArgumentsForm : List Char → List (List Char) → Prop
  | none (h : ∀ c ∈ inside, isBlank c) : ArgumentsForm inside []
  | items (h : ItemsForm inside numerals) : ArgumentsForm inside numerals

/-- An annotation between its braces. -/
inductive Form : List Char → TypeNote → Prop
  | bare (hw : Reference.isWord w) : Form w ⟨w, none⟩
  | applied (hw : Reference.isWord w) (ha : ArgumentsForm inside numerals) :
      Form (w ++ '(' :: inside ++ [')']) ⟨w, some numerals⟩

end TypeNote

namespace Reference

/-- Words joined by points. -/
inductive PathForm : List Char → Prop
  | word (hw : isWord w) : PathForm w
  | dotted (hw : isWord w) (hp : PathForm p) : PathForm (w ++ '.' :: p)

/-- A reference with both of its colons. -/
inductive Form : List Char → Reference → Prop
  | plain (hp : PathForm p) : Form (':' :: p ++ [':']) ⟨none, p⟩
  | typed (hn : TypeNote.Form inside n) (hp : PathForm p) :
      Form (':' :: '\x7b' :: inside ++ '\x7d' :: p ++ [':']) ⟨some n, p⟩

theorem isWord_iff {cs : List Char} :
    isWord cs ↔ cs ≠ [] ∧ ∀ c ∈ cs, isWordChar c := by
  simp [isWord]

theorem notMem_of_isWord {w : List Char} {c : Char} (hw : isWord w) (hc : isWordChar c = false) :
    c ∉ w := by
  intro hm
  have h := (isWord_iff.1 hw).2 c hm
  rw [hc] at h
  exact Bool.false_ne_true h

theorem isPath_iff {cs : List Char} : isPath cs ↔ PathForm cs := by
  constructor
  · induction cs using pieces_induction '.' with
    | last w hw =>
      intro h
      rw [isPath, pieces_of_notMem hw, List.all_cons, List.all_nil, Bool.and_true] at h
      exact .word h
    | split w path hw ih =>
      intro h
      rw [isPath, pieces_append_cons hw, List.all_cons, Bool.and_eq_true] at h
      exact .dotted h.1 (ih h.2)
  · intro h
    induction h with
    | word hw =>
      rw [isPath, pieces_of_notMem (notMem_of_isWord hw rfl)]
      simpa using hw
    | dotted hw hp ih =>
      rw [isPath, pieces_append_cons (notMem_of_isWord hw rfl), List.all_cons, Bool.and_eq_true]
      exact ⟨hw, ih⟩

theorem PathForm.isPathChar (h : PathForm p) : ∀ c ∈ p, isPathChar c := by
  have hword {w : List Char} (hw : isWord w) : ∀ c ∈ w, Reference.isPathChar c := by
    intro c hc
    rw [Reference.isPathChar, (isWord_iff.1 hw).2 c hc, Bool.true_or]
  induction h with
  | word hw => exact hword hw
  | dotted hw _ ih =>
    intro c hc
    rcases List.mem_append.1 hc with hc | hc
    · exact hword hw c hc
    · rcases List.mem_cons.1 hc with rfl | hc
      · rfl
      · exact ih c hc

theorem readPath_eq_some_iff {cs path rest : List Char} :
    readPath cs = some (path, rest) ↔ PathForm path ∧ cs = path ++ ':' :: rest := by
  constructor
  · intro h
    unfold readPath at h
    split at h
    · rename_i after hd
      split at h
      · rename_i hp
        obtain ⟨rfl, rfl⟩ : _ ∧ after = rest := by simpa using h
        exact ⟨isPath_iff.1 hp, (takeWhile_dropWhile_iff.1 ⟨rfl, hd⟩).1⟩
      · simp at h
    · simp at h
  · rintro ⟨hp, rfl⟩
    obtain ⟨ht, hd⟩ := takeWhile_dropWhile_iff.2
      ⟨rfl, hp.isPathChar, (rfl : isPathChar ':' = false)⟩
    rw [readPath, hd, ht]
    simp [isPath_iff.2 hp]

end Reference

namespace TypeNote

theorem notMem_item {left digits right : List Char} {c : Char} (hl : ∀ c ∈ left, isBlank c)
    (hd : Numeral.isNumeral digits) (hr : ∀ c ∈ right, isBlank c) (hb : isBlank c = false)
    (hc : c.isDigit = false) : c ∉ left ++ digits ++ right := by
  intro hm
  rcases List.mem_append.1 hm with hm | hm
  · rcases List.mem_append.1 hm with hm | hm
    · exact Bool.false_ne_true (hb.symm.trans (hl c hm))
    · exact Numeral.notMem_of_isNumeral hd hc hm
  · exact Bool.false_ne_true (hb.symm.trans (hr c hm))

theorem trim_item {left digits right : List Char} (hl : ∀ c ∈ left, isBlank c)
    (hd : Numeral.isNumeral digits) (hr : ∀ c ∈ right, isBlank c) :
    trim (left ++ digits ++ right) = digits :=
  trim_append hl (fun c hc => isBlank_of_isDigit ((Numeral.isNumeral_iff.1 hd).2 c hc)) hr

theorem ItemsForm.of_pieces {inside : List Char}
    (h : ∀ piece ∈ pieces ',' inside, Numeral.isNumeral (trim piece)) :
    ItemsForm inside ((pieces ',' inside).map trim) := by
  induction inside using pieces_induction ',' with
  | last piece hp =>
    rw [pieces_of_notMem hp] at h ⊢
    obtain ⟨left, right, he, hl, hr⟩ := exists_trim piece
    have hd := h piece (List.mem_singleton_self piece)
    have hf := ItemsForm.last hl hd hr
    rwa [← he] at hf
  | split piece rest hp ih =>
    rw [pieces_append_cons hp] at h ⊢
    obtain ⟨left, right, he, hl, hr⟩ := exists_trim piece
    have hd := h piece List.mem_cons_self
    have hf := ItemsForm.more hl hd hr (ih fun q hq => h q (List.mem_cons_of_mem _ hq))
    rwa [← he] at hf

theorem ItemsForm.pieces (h : ItemsForm inside numerals) :
    (Text.pieces ',' inside).map trim = numerals ∧ ∀ d ∈ numerals, Numeral.isNumeral d := by
  induction h with
  | last hl hd hr =>
    rw [pieces_of_notMem (notMem_item hl hd hr rfl rfl)]
    simp only [List.map_cons, List.map_nil, trim_item hl hd hr, List.mem_singleton,
      forall_eq, true_and]
    exact hd
  | more hl hd hr _ ih =>
    rw [pieces_append_cons (notMem_item hl hd hr rfl rfl)]
    refine ⟨?_, ?_⟩
    · rw [List.map_cons, trim_item hl hd hr, ih.1]
    · intro d hm
      rcases List.mem_cons.1 hm with rfl | hm
      · exact hd
      · exact ih.2 d hm

theorem ItemsForm.not_blank (h : ItemsForm inside numerals) : inside.all isBlank = false := by
  have hdigit {left digits rest : List Char} (hd : Numeral.isNumeral digits) :
      (left ++ digits ++ rest).all isBlank = false := by
    obtain ⟨hne, hall⟩ := Numeral.isNumeral_iff.1 hd
    obtain ⟨c, hc⟩ := List.exists_mem_of_ne_nil digits hne
    refine List.all_eq_false.2 ⟨c, ?_, ?_⟩
    · exact List.mem_append_left _ (List.mem_append_right _ hc)
    · rw [isBlank_of_isDigit (hall c hc)]
      exact Bool.false_ne_true
  cases h with
  | last hl hd hr => exact hdigit hd
  | more hl hd hr h =>
    rw [List.append_assoc]
    exact hdigit hd

theorem ArgumentsForm.notMem (h : ArgumentsForm inside numerals) : ')' ∉ inside := by
  cases h with
  | none hb =>
    intro hm
    exact Bool.false_ne_true (hb ')' hm)
  | items h =>
    induction h with
    | last hl hd hr => exact notMem_item hl hd hr rfl rfl
    | more hl hd hr _ ih =>
      intro hm
      rcases List.mem_append.1 hm with hm | hm
      · exact notMem_item hl hd hr rfl rfl hm
      · rcases List.mem_cons.1 hm with he | hm
        · exact absurd he (by decide)
        · exact ih hm

end TypeNote

namespace Reference

theorem readArgs_eq_some_iff {inside : List Char} {numerals : List (List Char)} :
    readArgs inside = some numerals ↔ TypeNote.ArgumentsForm inside numerals := by
  unfold readArgs
  constructor
  · intro h
    split at h
    · rename_i hb
      rw [← Option.some.inj h]
      exact .none (List.all_eq_true.1 hb)
    · dsimp only at h
      split at h
      · rename_i hn
        rw [List.all_map, List.all_eq_true] at hn
        rw [← Option.some.inj h]
        exact .items (.of_pieces hn)
      · simp at h
  · intro h
    cases h with
    | none hb => rw [if_pos (List.all_eq_true.2 hb)]
    | items h =>
      obtain ⟨hp, hn⟩ := h.pieces
      rw [if_neg (by simp [h.not_blank]), hp, if_pos (List.all_eq_true.2 hn)]

theorem readNote_eq_some_iff {cs rest : List Char} {note : TypeNote} :
    readNote cs = some (note, rest) ↔
      ∃ inside, TypeNote.Form inside note ∧ cs = inside ++ '\x7d' :: rest := by
  constructor
  · intro h
    unfold readNote at h
    split at h
    · simp at h
    · rename_i hne
      have hword : isWord (cs.takeWhile isWordChar) :=
        isWord_iff.2 ⟨by simpa using hne, List.all_eq_true.1 List.all_takeWhile⟩
      split at h
      · rename_i after hd
        obtain ⟨rfl, rfl⟩ : _ ∧ after = rest := by simpa using h
        exact ⟨_, .bare hword, (takeWhile_dropWhile_iff.1 ⟨rfl, hd⟩).1⟩
      · rename_i inside hd
        have hcs := (takeWhile_dropWhile_iff.1 ⟨rfl, hd⟩).1
        split at h
        · rename_i after hp
          have hin := (takeWhile_dropWhile_iff.1 ⟨rfl, hp⟩).1
          simp only [Option.map_eq_some_iff, Prod.mk.injEq] at h
          obtain ⟨numerals, ha, rfl, rfl⟩ := h
          refine ⟨_, .applied hword (readArgs_eq_some_iff.1 ha), ?_⟩
          rw [hin] at hcs
          simpa using hcs
        · simp at h
      · simp at h
  · rintro ⟨inside, hf, rfl⟩
    cases hf with
    | bare hw =>
      obtain ⟨ht, hd⟩ := takeWhile_dropWhile_iff.2
        ⟨(rfl : inside ++ '\x7d' :: rest = _), (isWord_iff.1 hw).2,
          (rfl : isWordChar '\x7d' = false)⟩
      rw [readNote, hd, ht]
      simp [(isWord_iff.1 hw).1]
    | @applied w inside numerals hw ha =>
      have he : w ++ '(' :: inside ++ [')'] ++ '\x7d' :: rest =
          w ++ '(' :: (inside ++ ')' :: '\x7d' :: rest) := by simp
      obtain ⟨ht, hd⟩ := takeWhile_dropWhile_iff.2
        ⟨he, (isWord_iff.1 hw).2, (rfl : isWordChar '(' = false)⟩
      have hne : ∀ c ∈ inside, (c != ')') = true := by
        intro c hc
        simp only [bne_iff_ne]
        rintro rfl
        exact ha.notMem hc
      obtain ⟨ht', hd'⟩ := takeWhile_dropWhile_iff.2
        ⟨(rfl : inside ++ ')' :: '\x7d' :: rest = _), hne, (rfl : (')' != ')') = false)⟩
      rw [readNote, hd, ht]
      simp [(isWord_iff.1 hw).1, hd', ht', readArgs_eq_some_iff.2 ha]

theorem PathForm.head_ne (h : PathForm p) (rest inside : List Char) :
    p ++ rest ≠ '\x7b' :: inside := by
  have hword {w : List Char} (hw : isWord w) (tail : List Char) : w ++ tail ≠ '\x7b' :: inside := by
    obtain ⟨hne, hall⟩ := isWord_iff.1 hw
    cases w with
    | nil => exact absurd rfl hne
    | cons c w =>
      intro he
      obtain ⟨rfl, -⟩ := List.cons.inj he
      exact Bool.false_ne_true (hall _ List.mem_cons_self)
  cases h with
  | word hw => exact hword hw rest
  | dotted hw hp =>
    rw [List.append_assoc]
    exact hword hw _

theorem read_of_ne {cs : List Char} (h : ∀ inside, cs ≠ '\x7b' :: inside) :
    read cs = (readPath cs).map fun (path, rest) => (⟨none, path⟩, rest) := by
  unfold read
  split
  · rename_i inside
    exact absurd rfl (h inside)
  · rfl

/-- Reading finds exactly the written references. -/
theorem read_eq_some_iff {cs rest : List Char} {r : Reference} :
    read cs = some (r, rest) ↔ ∃ w, Form w r ∧ ':' :: cs = w ++ rest := by
  constructor
  · intro h
    unfold read at h
    split at h
    · simp only [Option.bind_eq_some_iff, Option.map_eq_some_iff, Prod.exists,
        Prod.mk.injEq] at h
      obtain ⟨note, after, hn, path, rest, hp, rfl, rfl⟩ := h
      obtain ⟨inside, hf, rfl⟩ := readNote_eq_some_iff.1 hn
      obtain ⟨hform, rfl⟩ := readPath_eq_some_iff.1 hp
      exact ⟨_, .typed hf hform, by simp⟩
    · simp only [Option.map_eq_some_iff, Prod.exists, Prod.mk.injEq] at h
      obtain ⟨path, rest, hp, rfl, rfl⟩ := h
      obtain ⟨hform, rfl⟩ := readPath_eq_some_iff.1 hp
      exact ⟨_, .plain hform, by simp⟩
  · rintro ⟨w, hf, he⟩
    cases hf with
    | @plain p hp =>
      have hcs : cs = p ++ ':' :: rest := by simpa using he
      subst hcs
      rw [read_of_ne (hp.head_ne _), readPath_eq_some_iff.2 ⟨hp, rfl⟩]
      rfl
    | @typed inside n p hn hp =>
      have hcs : cs = '\x7b' :: (inside ++ '\x7d' :: (p ++ ':' :: rest)) := by simpa using he
      subst hcs
      simp only [read, readNote_eq_some_iff.2 ⟨inside, hn, rfl⟩,
        readPath_eq_some_iff.2 ⟨hp, rfl⟩, Option.bind_some, Option.map_some]

theorem Form.unique (h : Form w r) (h' : Form w' r') (he : w ++ rest = w' ++ rest') :
    w = w' ∧ r = r' := by
  have hc : ∃ cs, w ++ rest = ':' :: cs := by
    cases h <;> exact ⟨_, rfl⟩
  obtain ⟨cs, hcs⟩ := hc
  have hr := read_eq_some_iff.2 ⟨w, h, hcs.symm⟩
  have hr' := read_eq_some_iff.2 ⟨w', h', hcs.symm.trans he⟩
  rw [hr] at hr'
  obtain ⟨rfl, rfl⟩ : r = r' ∧ rest = rest' := by simpa using hr'
  exact ⟨List.append_cancel_right he, rfl⟩

end Reference

end QueryRouting

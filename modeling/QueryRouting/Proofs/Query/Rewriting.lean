import QueryRouting.Proofs.Query.Description
import QueryRouting.Query.Placeholder

namespace QueryRouting.Placeholder

open Text

/-- A placeholder that lacks its closing mark. -/
def opened (digits : List Char) : List Char :=
  '?' :: 'v' :: digits

def written (digits : List Char) : List Char :=
  opened digits ++ ['?']

def Begins (cs : List Char) : Prop :=
  ∃ digits, Numeral.isNumeral digits ∧ written digits <+: cs

def Holds (cs : List Char) : Prop :=
  ∃ digits, Numeral.isNumeral digits ∧ written digits <:+: cs

def EndsOpen (cs : List Char) : Prop :=
  ∃ digits, Numeral.isNumeral digits ∧ opened digits <:+ cs

/-- Literal stretches that cannot be mistaken for placeholders. -/
def Safe (gaps : List (List Char)) : Prop :=
  (∀ g ∈ gaps, ¬ Holds g) ∧ ∀ g ∈ gaps.dropLast, ¬ EndsOpen g

theorem mark_notMem_opened {digits : List Char} (h : Numeral.isNumeral digits) :
    '?' ∉ 'v' :: digits := by
  intro hm
  rcases List.mem_cons.1 hm with he | hm
  · exact absurd he (by decide)
  · exact Numeral.notMem_of_isNumeral h rfl hm

theorem read_eq_some_iff {cs digits rest : List Char} :
    read cs = some (digits, rest) ↔
      Numeral.isNumeral digits ∧ '?' :: cs = written digits ++ rest := by
  constructor
  · intro h
    unfold read at h
    split at h
    · rename_i tail
      split at h
      · rename_i after hd
        split at h
        · cases h
        · rename_i hne
          obtain ⟨rfl, rfl⟩ : _ ∧ after = rest := by simpa using h
          refine ⟨?_, ?_⟩
          · exact Numeral.isNumeral_iff.2
              ⟨by simpa using hne, List.all_eq_true.1 List.all_takeWhile⟩
          · have ht := (takeWhile_dropWhile_iff.1 ⟨rfl, hd⟩).1
            simp only [written, opened, List.cons_append, List.append_assoc, List.nil_append]
            rw [← ht]
      · cases h
    · cases h
  · rintro ⟨hd, he⟩
    obtain ⟨hne, hall⟩ := Numeral.isNumeral_iff.1 hd
    have hcs : cs = 'v' :: (digits ++ '?' :: rest) := by simpa [written, opened] using he
    obtain ⟨ht, hdrop⟩ := takeWhile_dropWhile_iff.2
      ⟨(rfl : digits ++ '?' :: rest = _), hall, (rfl : Char.isDigit '?' = false)⟩
    rw [hcs, read, hdrop, ht]
    simp [hne]

section Replace

variable {f : List Char → List Char} {c : Char} {digits g rest tail : List Char}

theorem written_append (digits rest : List Char) :
    written digits ++ rest = '?' :: ('v' :: digits ++ '?' :: rest) := by
  simp [written, opened]

theorem replace_written (hd : Numeral.isNumeral digits) (rest : List Char) :
    replace f (written digits ++ rest) = f digits ++ replace f rest := by
  have hr : read ('v' :: digits ++ '?' :: rest) = some (digits, rest) :=
    read_eq_some_iff.2 ⟨hd, (written_append digits rest).symm⟩
  rw [written_append, replace, if_pos rfl]
  split
  · rename_i digits' after hr'
    cases hr'.symm.trans hr
    rfl
  · rename_i hn
    cases hn.symm.trans hr

theorem replace_cons (h : ¬ Begins (c :: rest)) : replace f (c :: rest) = c :: replace f rest := by
  rw [replace]
  split
  · rename_i hc
    subst hc
    split
    · rename_i digits after hr
      obtain ⟨hd, he⟩ := read_eq_some_iff.1 hr
      exact absurd ⟨digits, hd, after, he.symm⟩ h
    · rfl
  · rfl

theorem replace_append_of_notMem (h : '?' ∉ g) (rest : List Char) :
    replace f (g ++ rest) = g ++ replace f rest := by
  induction g with
  | nil => rfl
  | cons c g ih =>
    rw [List.mem_cons, not_or] at h
    rw [List.cons_append, replace, if_neg (Ne.symm h.1), ih h.2, List.cons_append]

theorem holds_cons_iff : Holds (c :: g) ↔ Begins (c :: g) ∨ Holds g := by
  simp only [Holds, Begins, List.infix_cons_iff, and_or_left, exists_or]

theorem begins_append_iff :
    Begins (c :: g ++ '?' :: tail) ↔
      Begins (c :: g) ∨ ∃ digits, Numeral.isNumeral digits ∧ opened digits = c :: g := by
  constructor
  · rintro ⟨digits, hd, after, he⟩
    rw [written, List.append_assoc] at he
    rcases List.append_eq_append_iff.1 he with ⟨as, hg, ha⟩ | ⟨as, ho, ha⟩
    · cases as with
      | nil => exact .inr ⟨digits, hd, by rw [hg, List.append_nil]⟩
      | cons a as =>
        obtain ⟨rfl, -⟩ := List.cons.inj ha
        exact .inl ⟨digits, hd, as, by rw [hg, written, List.append_assoc]; rfl⟩
    · cases as with
      | nil => exact .inr ⟨digits, hd, by rw [ho, List.append_nil]⟩
      | cons a as =>
        -- The mark would be one of the digits.
        obtain ⟨rfl, -⟩ := List.cons.inj ha
        obtain ⟨-, ho⟩ := List.cons.inj ho
        apply absurd _ (mark_notMem_opened hd)
        rw [ho]
        exact List.mem_append_right _ List.mem_cons_self
  · rintro (⟨digits, hd, hp⟩ | ⟨digits, hd, ho⟩)
    · exact ⟨digits, hd, hp.trans (List.prefix_append _ _)⟩
    · exact ⟨digits, hd, tail, by rw [← ho, written, List.append_assoc]; rfl⟩

/-- What may be mistaken in a stretch with a placeholder behind it. -/
theorem holds_or_endsOpen_cons_iff (tail : List Char) :
    Holds (c :: g) ∨ EndsOpen (c :: g) ↔
      Begins (c :: g ++ '?' :: tail) ∨ Holds g ∨ EndsOpen g := by
  have he : EndsOpen (c :: g) ↔
      (∃ digits, Numeral.isNumeral digits ∧ opened digits = c :: g) ∨ EndsOpen g := by
    simp only [EndsOpen, List.suffix_cons_iff, and_or_left, exists_or]
  rw [holds_cons_iff, he, begins_append_iff, or_or_or_comm]

theorem not_holds_nil : ¬ Holds [] := by
  rintro ⟨digits, -, hi⟩
  cases List.infix_nil.1 hi

theorem not_endsOpen_nil : ¬ EndsOpen [] := by
  rintro ⟨digits, -, hs⟩
  cases List.suffix_nil.1 hs

theorem replace_of_not_holds (h : ¬ Holds g) : replace f g = g := by
  induction g with
  | nil => rw [replace]
  | cons c g ih =>
    rw [holds_cons_iff, not_or] at h
    rw [replace_cons h.1, ih h.2]

theorem replace_append_written (hd : Numeral.isNumeral digits) (hg : ¬ (Holds g ∨ EndsOpen g))
    (rest : List Char) :
    replace f (g ++ (written digits ++ rest)) = g ++ (f digits ++ replace f rest) := by
  induction g with
  | nil => exact replace_written hd rest
  | cons c g ih =>
    rw [holds_or_endsOpen_cons_iff ('v' :: digits ++ '?' :: rest), ← written_append, not_or,
      List.cons_append] at hg
    rw [List.cons_append, replace_cons hg.1, ih hg.2, List.cons_append]

variable {mark expected : List Char}

theorem not_begins_of_replace (hm : mark ≠ []) (hq : mark.head? ≠ some '?')
    (h : (replace (mark ++ ·) g).head? = g.head?) : ¬ Begins g := by
  rintro ⟨digits, hd, rest, rfl⟩
  rw [replace_written hd, written_append, List.append_assoc,
    List.head?_append_of_ne_nil _ hm] at h
  exact hq h

theorem not_holds_of_replace (hm : mark ≠ []) (hq : mark.head? ≠ some '?')
    (h : replace (mark ++ ·) g = g) : ¬ Holds g := by
  induction g with
  | nil => exact not_holds_nil
  | cons c g ih =>
    have hb : ¬ Begins (c :: g) := not_begins_of_replace hm hq (congrArg List.head? h)
    rw [replace_cons hb] at h
    rw [holds_cons_iff, not_or]
    exact ⟨hb, ih (List.cons.inj h).2⟩

theorem of_replace_append_written (hd : Numeral.isNumeral digits) (hm : mark ≠ [])
    (hq : mark.head? ≠ some '?')
    (h : replace (mark ++ ·) (g ++ (written digits ++ rest)) = g ++ (mark ++ digits ++ expected)) :
    ¬ (Holds g ∨ EndsOpen g) ∧ replace (mark ++ ·) rest = expected := by
  induction g with
  | nil =>
    rw [List.nil_append, replace_written hd] at h
    refine ⟨?_, List.append_cancel_left h⟩
    rw [not_or]
    exact ⟨not_holds_nil, not_endsOpen_nil⟩
  | cons c g ih =>
    rw [List.cons_append, List.cons_append] at h
    have hb : ¬ Begins (c :: (g ++ (written digits ++ rest))) :=
      not_begins_of_replace hm hq (by rw [h]; rfl)
    rw [replace_cons hb] at h
    obtain ⟨hg, hr⟩ := ih (List.cons.inj h).2
    refine ⟨?_, hr⟩
    rw [holds_or_endsOpen_cons_iff ('v' :: digits ++ '?' :: rest), ← written_append, not_or]
    exact ⟨hb, hg⟩

end Replace

section Weave

open Occurrence

variable {f : List Char → List Char} {g : List Char} {gaps numerals : List (List Char)}

theorem mem_opened (digits : List Char) : '?' ∈ opened digits :=
  List.mem_cons_self

theorem safe_of_notMem (h : ∀ g ∈ gaps, '?' ∉ g) : Safe gaps := by
  constructor
  · rintro g hg ⟨digits, -, hi⟩
    exact h g hg (hi.subset (List.mem_append_left _ (mem_opened digits)))
  · rintro g hg ⟨digits, -, hs⟩
    exact h g (List.dropLast_subset _ hg) (hs.subset (mem_opened digits))

theorem safe_singleton : Safe [g] ↔ ¬ Holds g := by
  simp [Safe]

theorem safe_cons_cons {next : List Char} :
    Safe (g :: next :: gaps) ↔ ¬ (Holds g ∨ EndsOpen g) ∧ Safe (next :: gaps) := by
  simp only [Safe, List.dropLast_cons_cons, List.forall_mem_cons, not_or]
  exact and_and_and_comm

/-- In safe text, each placeholder alone is replaced. -/
theorem replace_weave (hl : gaps.length = numerals.length + 1)
    (hn : ∀ digits ∈ numerals, Numeral.isNumeral digits) (hs : Safe gaps) :
    replace f (weave gaps (numerals.map written)) = weave gaps (numerals.map f) := by
  induction numerals generalizing gaps with
  | nil =>
    obtain ⟨g, rfl⟩ := List.length_eq_one_iff.1 hl
    simpa [weave] using replace_of_not_holds (safe_singleton.1 hs)
  | cons digits numerals ih =>
    rw [List.forall_mem_cons] at hn
    obtain ⟨g, rest, rfl⟩ := List.exists_of_length_succ _ hl
    obtain ⟨next, gaps, rfl⟩ := List.exists_of_length_succ _ (Nat.succ.inj hl)
    rw [safe_cons_cons] at hs
    rw [List.map_cons, List.map_cons, weave, weave, List.append_assoc, List.append_assoc,
      replace_append_written hn.1 hs.1, ih (Nat.succ.inj hl) hn.2 hs.2]

theorem safe_of_replace_weave {mark : List Char} (hm : mark ≠ []) (hq : mark.head? ≠ some '?')
    (hl : gaps.length = numerals.length + 1)
    (hn : ∀ digits ∈ numerals, Numeral.isNumeral digits)
    (h : replace (mark ++ ·) (weave gaps (numerals.map written)) =
      weave gaps (numerals.map (mark ++ ·))) : Safe gaps := by
  induction numerals generalizing gaps with
  | nil =>
    obtain ⟨g, rfl⟩ := List.length_eq_one_iff.1 hl
    rw [safe_singleton]
    exact not_holds_of_replace hm hq (by simpa [weave] using h)
  | cons digits numerals ih =>
    rw [List.forall_mem_cons] at hn
    obtain ⟨g, rest, rfl⟩ := List.exists_of_length_succ _ hl
    obtain ⟨next, gaps, rfl⟩ := List.exists_of_length_succ _ (Nat.succ.inj hl)
    rw [List.map_cons, List.map_cons, weave, weave, List.append_assoc, List.append_assoc] at h
    obtain ⟨hg, hr⟩ := of_replace_append_written hn.1 hm hq h
    rw [safe_cons_cons]
    exact ⟨hg, ih (Nat.succ.inj hl) hn.2 hr⟩

end Weave

def positions (count : Nat) : List (List Char) :=
  (List.range count).map fun i => decimal (i + 1)

theorem length_positions (count : Nat) : (positions count).length = count := by
  rw [positions, List.length_map, List.length_range]

theorem isNumeral_of_mem_positions {count : Nat} {digits : List Char}
    (h : digits ∈ positions count) : Numeral.isNumeral digits := by
  obtain ⟨i, -, rfl⟩ := List.mem_map.1 h
  exact Numeral.isNumeral_decimal (i + 1)

theorem map_written_positions (count : Nat) :
    (positions count).map written = Template.placeholders count := by
  rw [positions, List.map_map]
  rfl

section Text

open Occurrence

variable (t : Template)

theorem length_literals : t.literals.length = (positions t.references.length).length + 1 := by
  rw [length_positions, Template.literals, Template.references, List.length_cons, List.length_map,
    List.length_map]

theorem toList_text :
    t.text.toList = weave t.literals ((positions t.references.length).map written) := by
  rw [Template.text_eq_weave, String.toList_ofList, map_written_positions]

/-- The text with a parameter of this mark in the place of each reference. -/
def parametrized (gaps : List (List Char)) (count : Nat) (mark : String) : String :=
  String.ofList (weave gaps ((positions count).map (mark.toList ++ ·)))

theorem numbered_text (h : Safe t.literals) (mark : String) :
    numbered t.text mark = parametrized t.literals t.references.length mark := by
  rw [numbered, toList_text, parametrized]
  congr 1
  exact replace_weave (length_literals t) (fun _ => isNumeral_of_mem_positions) h

theorem positional_text (h : Safe t.literals) :
    positional t.text =
      String.ofList (weave t.literals (List.replicate t.references.length ['?'])) := by
  rw [positional, toList_text]
  congr 1
  rw [replace_weave (length_literals t) (fun _ => isNumeral_of_mem_positions) h, List.map_const',
    length_positions]

/-- A mark that cannot begin a placeholder shows whether text is safe. -/
theorem safe_of_numbered_text {mark : String} (hm : mark ≠ "")
    (hq : mark.toList.head? ≠ some '?')
    (h : numbered t.text mark = parametrized t.literals t.references.length mark) :
    Safe t.literals := by
  rw [numbered, toList_text, parametrized, String.ofList_inj] at h
  refine safe_of_replace_weave ?_ hq (length_literals t)
    (fun _ => isNumeral_of_mem_positions) h
  simpa using hm

end Text

open Occurrence in
/--
Numbering puts a parameter in the place of each reference, whatever its mark is, if and only if the
template is safe, and a single mark that does not begin with `?` decides this. In a safe template
each reference becomes a `?` where parameters go by position, and the values come in their order.
-/
theorem numbered_iff_safe {s : String} {cx : Context} {d : Descriptor}
    (h : (Template.ofString s).describe cx.lookup = .ok d) :
    ∃ os, Leftmost s.toList 0 os ∧ (∀ os', Leftmost s.toList 0 os' → os' = os) ∧
      stretches s.toList 0 os = (Template.ofString s).literals ∧
      d.values.map .ok = os.map (·.reference.resolve cx.lookup) ∧
      ((∀ mark, numbered d.text mark = parametrized (stretches s.toList 0 os) os.length mark) ↔
        Safe (stretches s.toList 0 os)) ∧
      (∀ mark, mark ≠ "" → mark.toList.head? ≠ some '?' →
        (numbered d.text mark = parametrized (stretches s.toList 0 os) os.length mark ↔
          Safe (stretches s.toList 0 os))) ∧
      (Safe (stretches s.toList 0 os) → positional d.text =
        String.ofList (weave (stretches s.toList 0 os) (List.replicate os.length ['?']))) := by
  obtain ⟨os, hdiv⟩ := Template.divides_scan true [] s.toList (by simp)
  have hrefs : (Template.ofString s).references = os.map (·.reference) := hdiv.references
  have hlits : (Template.ofString s).literals = stretches s.toList 0 os := hdiv.literals
  obtain ⟨htext, hvalues, -⟩ := Template.describe_eq_ok h
  have hcount : (Template.ofString s).references.length = os.length := by
    rw [hrefs, List.length_map]
  rw [hrefs, List.map_map] at hvalues
  have hsafe := numbered_text (Template.ofString s)
  have hpos := positional_text (Template.ofString s)
  have hconv := @safe_of_numbered_text (Template.ofString s)
  rw [← htext, hlits, hcount] at hsafe hpos hconv
  refine ⟨os, hdiv.leftmost, fun os' h' => h'.unique hdiv.leftmost, hlits.symm, hvalues, ?_, ?_,
    hpos⟩
  · constructor
    · intro hall
      -- A dollar begins no placeholder, so what it replaces shows where there was one.
      exact hconv (by decide) (by decide) (hall "$")
    · exact hsafe
  · intro mark hm hq
    exact ⟨hconv hm hq, fun hs => hsafe hs mark⟩

/-- What steps see first of a request that says nothing but its method. -/
def plainContext : Context :=
  .ofView (.ofTarget Method.get "/") ""

open Occurrence in
/-- Behind `?v1` the wrong placeholder is found; behind other text it is the right one. -/
theorem numbered_of_opened_and_plain :
    (Template.ofString "?v1:method:").describe plainContext.lookup =
        .ok ⟨"?v1?v1?", [.str "GET"], [none]⟩ ∧
      numbered "?v1?v1?" "$" ≠ "?v1$1" ∧
    (Template.ofString "a = :method:").describe plainContext.lookup =
        .ok ⟨"a = ?v1?", [.str "GET"], [none]⟩ ∧
      numbered "a = ?v1?" "@v" = "a = @v1" ∧ positional "a = ?v1?" = "a = ?" := by
  have ht : Template.ofString "?v1:method:" =
      ⟨"?v1".toList, [(⟨none, "method".toList⟩, [])]⟩ := by decide +kernel
  have ht' : Template.ofString "a = :method:" =
      ⟨"a = ".toList, [(⟨none, "method".toList⟩, [])]⟩ := by decide +kernel
  have hd : (Template.ofString "?v1:method:").describe plainContext.lookup =
      .ok ⟨"?v1?v1?", [.str "GET"], [none]⟩ := by
    rw [ht]
    rfl
  have hd' : (Template.ofString "a = :method:").describe plainContext.lookup =
      .ok ⟨"a = ?v1?", [.str "GET"], [none]⟩ := by
    rw [ht']
    rfl
  obtain ⟨os, -, -, hg, -, -, hone, -⟩ := numbered_iff_safe hd
  obtain ⟨os', -, -, hg', -, hall, -, hpos⟩ := numbered_iff_safe hd'
  have hn := length_stretches "?v1:method:".toList 0 os
  have hn' := length_stretches "a = :method:".toList 0 os'
  rw [hg, ht] at hn hone
  rw [hg', ht'] at hn' hall hpos
  rw [← Nat.succ.inj hn] at hone
  rw [← Nat.succ.inj hn'] at hall hpos
  have hs : Safe (Template.literals ⟨"a = ".toList, [(⟨none, "method".toList⟩, [])]⟩) :=
    safe_of_notMem (by decide)
  refine ⟨hd, fun he => ?_, hd', ?_, ?_⟩
  · have hs := (hone "$" (by decide) (by decide)).1 (he.trans (by decide +kernel))
    apply hs.2 _ List.mem_cons_self
    exact ⟨['1'], by decide, List.suffix_rfl⟩
  · rw [hall.2 hs]
    decide +kernel
  · rw [hpos hs]
    decide +kernel

end QueryRouting.Placeholder

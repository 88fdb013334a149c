import QueryRouting.Proofs.Query.Description

namespace QueryRouting

open Text

/-- The type as annotations write it; an empty list of arguments still has its parentheses. -/
def ParameterType.write (t : ParameterType) : String :=
  match t.args with
  | none => t.name
  | some args => t.name ++ "(" ++ ", ".intercalate (args.map toString) ++ ")"

/-- The path between colons, behind an annotation in braces if there is one. -/
def Reference.write (note : Option String) (path : String) : String :=
  match note with
  | none => ":" ++ path ++ ":"
  | some note => ":\x7b" ++ note ++ "\x7d" ++ path ++ ":"

namespace TypeNote

theorem toList_decimals (ns : List Nat) :
    (", ".intercalate (ns.map toString)).toList = [',', ' '].intercalate (ns.map decimal) := by
  have hd (n : Nat) : (toString n).toList = decimal n := by
    rw [Nat.toString_eq_ofList_toDigits, String.toList_ofList, decimal]
  rw [String.toList_intercalate, List.map_map]
  exact congrArg _ (List.map_congr_left fun n _ => hd n)

theorem itemsForm_decimals (left : List Char) (hl : ∀ c ∈ left, isBlank c) (n : Nat)
    (ns : List Nat) :
    ItemsForm (left ++ [',', ' '].intercalate ((n :: ns).map decimal))
      ((n :: ns).map decimal) := by
  have hnone : ∀ c ∈ ([] : List Char), isBlank c := nofun
  have hblank : ∀ c ∈ [' '], isBlank c := List.forall_mem_singleton.2 rfl
  -- The blank behind a comma stands before the next number.
  induction ns generalizing left n with
  | nil =>
    have h := ItemsForm.last hl (Numeral.isNumeral_decimal n) hnone
    rw [List.append_nil] at h
    rwa [List.map_singleton, List.intercalate_singleton]
  | cons m ns ih =>
    have h := ItemsForm.more hl (Numeral.isNumeral_decimal n) hnone (ih _ hblank m)
    rw [List.append_nil, List.append_assoc] at h
    exact h

theorem argumentsForm_decimals (ns : List Nat) :
    ArgumentsForm (", ".intercalate (ns.map toString)).toList (ns.map decimal) := by
  rw [toList_decimals]
  cases ns with
  | nil => exact .none nofun
  | cons n ns => exact .items (itemsForm_decimals [] nofun n ns)

end TypeNote

namespace Reference

variable {name path inside : String} {numerals : List (List Char)}

theorem resolve_toList (note : Option TypeNote) (path : String) (lookup : Lookup) :
    resolve ⟨note, path.toList⟩ lookup = lookup path := by
  rw [resolve, String.ofList_toList]

theorem form_plain (hp : PathForm path.toList) :
    Form (write none path).toList ⟨none, path.toList⟩ := by
  have h := Form.plain hp
  rwa [write, String.toList_append, String.toList_append]

theorem form_bare (hn : isWord name.toList) (hp : PathForm path.toList) :
    Form (write (some name) path).toList ⟨some ⟨name.toList, none⟩, path.toList⟩ := by
  have h := Form.typed (.bare hn) hp
  simpa [write] using h

theorem form_applied (hn : isWord name.toList)
    (ha : TypeNote.ArgumentsForm inside.toList numerals) (hp : PathForm path.toList) :
    Form (write (some (name ++ "(" ++ inside ++ ")")) path).toList
      ⟨some ⟨name.toList, some numerals⟩, path.toList⟩ := by
  have h := Form.typed (.applied hn ha) hp
  simpa [write] using h

end Reference

namespace Template

variable {s : String} {r : Reference} {lookup : Lookup} {v : Json}

theorem ofString_of_form (h : Reference.Form s.toList r) : ofString s = ⟨[], [(r, [])]⟩ := by
  obtain ⟨cs, hs⟩ := Occurrence.written_cons h
  have hr : Reference.read cs = some (r, []) :=
    Reference.read_eq_some_iff.2 ⟨_, h, by rw [hs, List.append_nil]⟩
  have hnil : scan false [] = ⟨[], []⟩ := by rw [scan]
  rw [ofString, hs, scan, if_pos ⟨rfl, rfl⟩]
  split
  · rename_i r' after hr'
    obtain ⟨rfl, rfl⟩ := Prod.mk.inj (Option.some.inj (hr.symm.trans hr'))
    rw [hnil]
    rfl
  · rename_i hr'
    rw [hr] at hr'
    cases hr'

theorem describe_of_form (h : Reference.Form s.toList r) (lookup : Lookup) :
    (ofString s).describe lookup =
      (bindReference lookup r).map fun b => ⟨"?v1?", [b.1], [b.2]⟩ := by
  rw [ofString_of_form h, describe_eq_map]
  simp only [references, List.map_cons, List.map_nil, List.mapM_cons, List.mapM_nil]
  cases bindReference lookup r <;> rfl

theorem describe_of_binds (h : Reference.Form s.toList r) (hv : r.resolve lookup = .ok v)
    (hr : ∀ note, r.note = some note → note.InRange) :
    (ofString s).describe lookup = .ok ⟨"?v1?", [v], [r.declared]⟩ := by
  have hb : bindReference lookup r = .ok (v, r.declared) :=
    bindReference_eq_ok_iff.2 ⟨hv, hr, rfl⟩
  rw [describe_of_form h, hb]
  rfl

theorem describe_of_fails (h : Reference.Form s.toList r) {e : TemplateError}
    (he : r.Fails lookup e) : (ofString s).describe lookup = .error e := by
  rw [describe_of_form h, bindReference_eq_error_iff.2 he]
  rfl

variable {cx : Context} {name path inside : String} {numerals : List (List Char)}

theorem describe_applied (hn : Reference.isWord name.toList)
    (hp : Reference.PathForm path.toList) (hv : cx.lookup path = .ok v)
    (ha : TypeNote.ArgumentsForm inside.toList numerals)
    (hr : ∀ d ∈ numerals, Numeral.value d < 4294967296) :
    (ofString (Reference.write (some (name ++ "(" ++ inside ++ ")")) path)).describe cx.lookup =
      .ok ⟨"?v1?", [v], [some ⟨name, some (numerals.map Numeral.value)⟩]⟩ := by
  have h := describe_of_binds (Reference.form_applied hn ha hp)
    ((Reference.resolve_toList _ _ _).trans hv) (by rintro _ ⟨⟩ _ ⟨⟩; exact hr)
  rwa [Reference.declared, Option.map_some, TypeNote.declared, String.ofList_toList] at h

/--
Under a path that resolves, an annotation declares what is written in it. The arguments between its
parentheses, with white space wherever it may stand, are read as their decimal values if all of
them have 32 bits; otherwise the first one that is too large is reported, as it is written. Without
parentheses there is no list of arguments, with blank parentheses it is empty, and without an
annotation there is no type. A type with 32-bit arguments is read back from what is written for it.
-/
theorem describe_annotated (hn : Reference.isWord name.toList)
    (hp : Reference.PathForm path.toList) (hv : cx.lookup path = .ok v) :
    (∀ (inside : String) (numerals : List (List Char)),
      TypeNote.ArgumentsForm inside.toList numerals →
      ((∀ d ∈ numerals, Numeral.value d < 4294967296) →
        (ofString (Reference.write (some (name ++ "(" ++ inside ++ ")")) path)).describe cx.lookup =
          .ok ⟨"?v1?", [v], [some ⟨name, some (numerals.map Numeral.value)⟩]⟩) ∧
      ∀ before digits after, numerals = before ++ digits :: after →
        (∀ d ∈ before, Numeral.value d < 4294967296) → 4294967296 ≤ Numeral.value digits →
        (ofString (Reference.write (some (name ++ "(" ++ inside ++ ")")) path)).describe cx.lookup =
          .error (.typeArgument name (String.ofList digits))) ∧
    (ofString (Reference.write (some name) path)).describe cx.lookup =
      .ok ⟨"?v1?", [v], [some ⟨name, none⟩]⟩ ∧
    (∀ inside : String, (∀ c ∈ inside.toList, isBlank c) →
      (ofString (Reference.write (some (name ++ "(" ++ inside ++ ")")) path)).describe cx.lookup =
        .ok ⟨"?v1?", [v], [some ⟨name, some []⟩]⟩) ∧
    (ofString (Reference.write none path)).describe cx.lookup = .ok ⟨"?v1?", [v], [none]⟩ ∧
    ∀ args : Option (List UInt32),
      (ofString (Reference.write (some (ParameterType.write ⟨name, args.map (·.map (·.toNat))⟩))
        path)).describe cx.lookup =
          .ok ⟨"?v1?", [v], [some ⟨name, args.map (·.map (·.toNat))⟩]⟩ := by
  have hres (note : Option TypeNote) :
      Reference.resolve ⟨note, path.toList⟩ cx.lookup = .ok v :=
    (Reference.resolve_toList note path cx.lookup).trans hv
  have hbare : (ofString (Reference.write (some name) path)).describe cx.lookup =
      .ok ⟨"?v1?", [v], [some ⟨name, none⟩]⟩ := by
    have h := describe_of_binds (Reference.form_bare hn hp) (hres _) (by rintro _ ⟨⟩ _ ⟨⟩)
    rwa [Reference.declared, Option.map_some, TypeNote.declared, String.ofList_toList] at h
  refine ⟨fun inside numerals ha => ⟨describe_applied hn hp hv ha, ?_⟩, hbare, ?_, ?_, ?_⟩
  · rintro before digits after rfl hb hd
    have h := describe_of_fails (Reference.form_applied hn ha hp)
      (.note (hres _) rfl ⟨before, after, rfl, hb, hd⟩)
    rwa [String.ofList_toList] at h
  · intro inside hblank
    have hr : ∀ d ∈ ([] : List (List Char)), Numeral.value d < 4294967296 :=
      List.forall_mem_nil _
    exact describe_applied hn hp hv (.none hblank) hr
  · exact describe_of_binds (Reference.form_plain hp) (hres _) (by rintro _ ⟨⟩)
  · intro args
    cases args with
    | none => exact hbare
    | some args =>
      have h := describe_applied hn hp hv
        (TypeNote.argumentsForm_decimals (args.map (·.toNat))) (by
          intro d hd
          obtain ⟨n, hn, rfl⟩ := List.mem_map.1 hd
          obtain ⟨a, -, rfl⟩ := List.mem_map.1 hn
          rw [Numeral.value_decimal]
          exact a.toNat_lt)
      rwa [Numeral.map_value_decimal] at h

/-- Leading zeros and white space leave no trace, but an argument of `2^32` is reported. -/
theorem describe_annotated_decimal :
    let cx := Context.ofView ((RequestView.ofTarget Method.get "/").setLocal "price" (.int 5)) ""
    (ofString ":\x7bDecimal( 010 ,5)\x7dprice:").describe cx.lookup =
        .ok ⟨"?v1?", [.int 5], [some ⟨"Decimal", some [10, 5]⟩]⟩ ∧
      (ofString ":\x7bDecimal( 04294967296 ,5)\x7dprice:").describe cx.lookup =
        .error (.typeArgument "Decimal" "04294967296") := by
  intro cx
  have hblank : ∀ c ∈ [' '], isBlank c := List.forall_mem_singleton.2 rfl
  have hform {inside : String} {digits : List Char} (hd : Numeral.isNumeral digits)
      (he : inside.toList = [' '] ++ digits ++ [' '] ++ [',', '5']) :
      TypeNote.ArgumentsForm inside.toList [digits, ['5']] := by
    have hfive : TypeNote.ItemsForm ([] ++ ['5'] ++ []) [['5']] := .last nofun rfl nofun
    rw [he]
    exact .items (.more hblank hd hblank hfive)
  have hn : Reference.isWord "Decimal".toList := by decide
  have hp : Reference.PathForm "price".toList := .word (by decide)
  have hv : cx.lookup "price" = .ok (.int 5) := rfl
  obtain ⟨h, -⟩ := describe_annotated hn hp hv
  constructor
  · have ha : TypeNote.ArgumentsForm " 010 ,5".toList ["010".toList, ['5']] :=
      hform (by decide) (by decide)
    exact (h _ _ ha).1 (by decide)
  · have ha : TypeNote.ArgumentsForm " 04294967296 ,5".toList ["04294967296".toList, ['5']] :=
      hform (by decide) (by decide)
    exact (h _ _ ha).2 [] _ _ rfl nofun (by decide)

end Template

end QueryRouting

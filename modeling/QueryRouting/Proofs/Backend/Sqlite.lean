import Mathlib.Algebra.Group.Int.Defs
import Mathlib.Data.List.TakeWhile
import QueryRouting.Backend.Sqlite
import QueryRouting.Proofs.Keyed
import QueryRouting.Proofs.Query.Rewriting

namespace QueryRouting.Sqlite

open Placeholder Text

namespace Token

variable {c d : Char} {name rest after : List Char} {t : Token}

/-- What is read as one word before anything that cannot go on with it. -/
def IsWord (name : List Char) : Prop :=
  ∃ c cs, name = c :: cs ∧ isNameStart c ∧ ∀ d ∈ cs, isNameChar d

theorem isWord_iff : IsWord name ↔
    (name.head?.any isNameStart && name.tail.all isNameChar) = true := by
  rw [Bool.and_eq_true]
  constructor
  · rintro ⟨c, cs, rfl, hc, hcs⟩
    exact ⟨hc, List.all_eq_true.2 hcs⟩
  · rintro ⟨hc, hcs⟩
    cases name with
    | nil => exact absurd hc Bool.false_ne_true
    | cons c cs => exact ⟨c, cs, rfl, hc, List.all_eq_true.1 hcs⟩

instance (name : List Char) : Decidable (IsWord name) :=
  decidable_of_iff' _ isWord_iff

/-- A word ends here. -/
def EndsWord (rest : List Char) : Prop :=
  ∀ c ∈ rest.head?, isNameChar c = false ∧ c ≠ '\''

theorem IsWord.chars (h : IsWord name) : ∀ d ∈ name, isNameChar d := by
  obtain ⟨c, cs, rfl, hc, hcs⟩ := h
  intro d hd
  rcases List.mem_cons.1 hd with rfl | hd
  · simp [isNameChar, hc]
  · exact hcs d hd

theorem IsWord.notMem (h : IsWord name) (hd : isNameChar d = false) : d ∉ name := by
  intro hm
  exact Bool.false_ne_true (hd.symm.trans (h.chars d hm))

theorem isSpace_of_isNameStart (h : isNameStart c) : isSpace c = false := by
  by_contra hs
  simp only [isSpace, Bool.not_eq_false, Bool.or_eq_true, beq_iff_eq] at hs
  obtain ((((rfl | rfl) | rfl) | rfl) | rfl) | rfl := hs <;> exact absurd h (by decide)

theorem ne_of_isNameStart (h : isNameStart c) (hd : isNameStart d = false) : c ≠ d := by
  intro he
  subst he
  exact Bool.false_ne_true (hd.symm.trans h)

theorem scan_blank (rest : List Char) : scan (' ' :: rest) = scan rest := by
  rw [scan, if_pos (by decide)]

theorem scan_cons (hs : isSpace c = false) (hr : read c rest = some (t, after)) :
    scan (c :: rest) = (scan after).map (t :: ·) := by
  rw [scan, if_neg (by simp [hs])]
  split
  · rename_i hn
    cases hn.symm.trans hr
  · rename_i hn
    cases hn.symm.trans hr
    rfl

theorem read_word {cs : List Char} (hc : isNameStart c) (hcs : ∀ d ∈ cs, isNameChar d)
    (hrest : EndsWord rest) : read c (cs ++ rest) = some (.word (c :: cs), rest) := by
  have htake := takeWhile_dropWhile_append hcs fun d hd => (hrest d hd).1
  have hquote : ∀ quoted, cs ++ rest ≠ '\'' :: quoted := by
    intro quoted he
    cases cs with
    | nil =>
      rw [List.nil_append] at he
      exact (hrest '\'' (by rw [he]; rfl)).2 rfl
    | cons d cs =>
      obtain ⟨rfl, -⟩ := List.cons.inj he
      exact absurd (hcs _ List.mem_cons_self) (by decide)
  rw [Token.read.eq_def, if_neg (ne_of_isNameStart hc rfl), if_neg (ne_of_isNameStart hc rfl),
    if_neg (ne_of_isNameStart hc rfl), if_neg (ne_of_isNameStart hc rfl), if_pos hc, htake.1,
    htake.2]
  split
  · split
    · rename_i quoted he
      exact absurd he (hquote quoted)
    · rfl
  · rfl

theorem scan_word (h : IsWord name) (hrest : EndsWord rest) :
    scan (name ++ rest) = (scan rest).map (.word name :: ·) := by
  obtain ⟨c, cs, rfl, hc, hcs⟩ := h
  exact scan_cons (isSpace_of_isNameStart hc) (read_word hc hcs hrest)

end Token

/-- A name that stands in a statement without quotes. -/
structure IsColumnName (name : String) : Prop where
  word : Token.IsWord name.toList
  unreserved : (Token.word name.toList).isReserved = false

theorem isColumnName_iff {name : String} : IsColumnName name ↔
    Token.IsWord name.toList ∧ (Token.word name.toList).isReserved = false :=
  ⟨fun h => ⟨h.word, h.unreserved⟩, fun h => ⟨h.1, h.2⟩⟩

instance (name : String) : Decidable (IsColumnName name) :=
  decidable_of_iff' _ isColumnName_iff

/-- The text that selects a parameter under each name. -/
def selectText (names : List String) : String :=
  "SELECT " ++ ", ".intercalate
    (names.mapIdx fun i name => String.ofList (placeholder (i + 1)) ++ " AS " ++ name)

section Statement

variable {name : String} {names : List String} {rest : List Char}

/-- A column with its placeholder. -/
def neutralColumn (digits : List Char) (name : String) : List Char :=
  written digits ++ ([' ', 'A', 'S', ' '] ++ name.toList)

/-- A column as the database reads it. -/
def columnText (name : String) : List Char :=
  '?' :: ([' ', 'A', 'S', ' '] ++ name.toList)

def columnTokens (name : String) : List Token :=
  [.parameter, .word ['A', 'S'], .word name.toList]

theorem replace_neutralColumn (h : IsColumnName name) {digits : List Char}
    (hd : Numeral.isNumeral digits) (rest : List Char) :
    replace (fun _ => ['?']) (neutralColumn digits name ++ rest) =
      columnText name ++ replace (fun _ => ['?']) rest := by
  have hmark : '?' ∉ [' ', 'A', 'S', ' '] ++ name.toList := by
    rw [List.mem_append, not_or]
    exact ⟨by decide, h.word.notMem rfl⟩
  rw [neutralColumn, List.append_assoc, replace_written hd, replace_append_of_notMem hmark]
  rfl

theorem replace_neutralColumns (hn : ∀ name ∈ names, IsColumnName name)
    {digits : Nat → List Char} (hd : ∀ i, Numeral.isNumeral (digits i)) :
    replace (fun _ => ['?'])
        ([',', ' '].intercalate (names.mapIdx fun i name => neutralColumn (digits i) name)) =
      [',', ' '].intercalate (names.map columnText) := by
  induction names generalizing digits with
  | nil =>
    rw [List.mapIdx_nil, List.map_nil, List.intercalate_nil, replace]
  | cons name names ih =>
    rw [List.forall_mem_cons] at hn
    rw [List.mapIdx_cons, List.map_cons]
    cases names with
    | nil =>
      have hcolumn := replace_neutralColumn hn.1 (hd 0) []
      rw [List.append_nil, replace, List.append_nil] at hcolumn
      rw [List.mapIdx_nil, List.map_nil, List.intercalate_singleton, List.intercalate_singleton,
        hcolumn]
    | cons next names =>
      have hrest := ih hn.2 fun i => hd (i + 1)
      rw [List.intercalate_cons_of_ne_nil (by simp), List.intercalate_cons_of_ne_nil (by simp),
        List.append_assoc, List.append_assoc, replace_neutralColumn hn.1 (hd 0),
        replace_append_of_notMem (by decide), hrest]

theorem toList_positional_selectText (hn : ∀ name ∈ names, IsColumnName name) :
    (positional (selectText names)).toList =
      "SELECT ".toList ++ [',', ' '].intercalate (names.map columnText) := by
  have hcolumn (i : Nat) (name : String) :
      (String.ofList (placeholder (i + 1)) ++ " AS " ++ name).toList =
        neutralColumn (decimal (i + 1)) name := by
    rw [String.toList_append, String.toList_append, String.toList_ofList, List.append_assoc]
    rfl
  have hcolumns : ((names.mapIdx fun i name =>
      String.ofList (placeholder (i + 1)) ++ " AS " ++ name).map String.toList) =
        names.mapIdx fun i name => neutralColumn (decimal (i + 1)) name := by
    simp only [List.mapIdx_eq_zipIdx_map, List.map_map, Function.comp_def, hcolumn]
  rw [positional, String.toList_ofList, selectText, String.toList_append,
    String.toList_intercalate, hcolumns, replace_append_of_notMem (by decide)]
  congr 1
  exact replace_neutralColumns hn fun i => Numeral.isNumeral_decimal (i + 1)

theorem endsWord_cons {c : Char} (hc : Token.isNameChar c = false) (hq : c ≠ '\'')
    (rest : List Char) : Token.EndsWord (c :: rest) := by
  intro d hd
  cases hd
  exact ⟨hc, hq⟩

theorem scan_column (h : IsColumnName name) (hrest : Token.EndsWord rest) :
    Token.scan (columnText name ++ rest) = (Token.scan rest).map (columnTokens name ++ ·) := by
  have hmark (after : List Char) :
      Token.scan ('?' :: after) = (Token.scan after).map (Token.parameter :: ·) :=
    Token.scan_cons rfl (by rw [Token.read.eq_def, if_pos rfl])
  have hword : Token.IsWord ['A', 'S'] := by decide
  have has (after : List Char) :
      Token.scan ('A' :: 'S' :: ' ' :: after) =
        (Token.scan after).map (Token.word ['A', 'S'] :: ·) := by
    rw [← Token.scan_blank after]
    exact Token.scan_word hword (endsWord_cons rfl (by decide) after)
  have hcolumn : columnText name ++ rest =
      '?' :: ' ' :: 'A' :: 'S' :: ' ' :: (name.toList ++ rest) := by
    simp [columnText]
  rw [hcolumn, hmark, Token.scan_blank, has, Token.scan_word h.word hrest, Option.map_map,
    Option.map_map]
  rfl

theorem scan_columns (hne : names ≠ []) (hn : ∀ name ∈ names, IsColumnName name) :
    Token.scan ([',', ' '].intercalate (names.map columnText)) =
      some ([Token.comma].intercalate (names.map columnTokens)) := by
  induction names with
  | nil => exact absurd rfl hne
  | cons name names ih =>
    rw [List.forall_mem_cons] at hn
    rw [List.map_cons, List.map_cons]
    cases names with
    | nil =>
      have hcolumn := scan_column hn.1 (fun _ h => nomatch h : Token.EndsWord [])
      rw [List.append_nil, Token.scan, Option.map_some, List.append_nil] at hcolumn
      rw [List.map_nil, List.map_nil, List.intercalate_singleton, List.intercalate_singleton,
        hcolumn]
    | cons next names =>
      have hcomma (after : List Char) :
          Token.scan (',' :: ' ' :: after) = (Token.scan after).map (Token.comma :: ·) := by
        rw [← Token.scan_blank after]
        exact Token.scan_cons rfl (by rw [Token.read.eq_def, if_neg (by decide), if_pos rfl])
      have hends (after : List Char) : Token.EndsWord ([',', ' '] ++ after) :=
        endsWord_cons rfl (by decide) _
      rw [List.intercalate_cons_of_ne_nil (by simp), List.intercalate_cons_of_ne_nil (by simp),
        List.append_assoc, List.append_assoc, scan_column hn.1 (hends _), List.cons_append,
        List.cons_append, List.nil_append, hcomma, ih (by simp) hn.2]
      rfl

/-- Fuel for one column a token is more than enough. -/
theorem length_le_length_columnTokens (names : List String) :
    names.length ≤ ([Token.comma].intercalate (names.map columnTokens)).length := by
  induction names with
  | nil => exact Nat.le_refl 0
  | cons name names ih =>
    rw [List.map_cons]
    cases names with
    | nil => exact Nat.le_add_left 1 2
    | cons next names =>
      rw [List.intercalate_cons_of_ne_nil (by simp), List.length_append, List.length_append,
        List.length_cons]
      simp only [columnTokens, List.length_cons, List.length_nil] at ih ⊢
      omega

theorem readColumns_columnTokens (hne : names ≠ []) (hn : ∀ name ∈ names, IsColumnName name)
    {fuel : Nat} (hfuel : names.length ≤ fuel) :
    readColumns fuel ([Token.comma].intercalate (names.map columnTokens)) =
      some (names.map (Column.mk .parameter)) := by
  induction names generalizing fuel with
  | nil => exact absurd rfl hne
  | cons name names ih =>
    rw [List.forall_mem_cons] at hn
    obtain ⟨fuel, rfl⟩ := Nat.exists_eq_add_of_le' (Nat.le_trans (Nat.le_add_left 1 _) hfuel)
    have has : (Token.word ['A', 'S']).isKeyword "AS" = true := by decide
    have hreserved : ((Token.word ['A', 'S']).isKeyword "AS" &&
        !(Token.word name.toList).isReserved) = true := by
      rw [has, hn.1.unreserved]
      rfl
    rw [List.map_cons, List.map_cons]
    cases names with
    | nil =>
      rw [List.map_nil, List.intercalate_singleton, columnTokens, readColumns.eq_def]
      simp only [readItem, hreserved, if_true, String.ofList_toList, List.map_nil]
    | cons next names =>
      have hrest := ih (by simp) hn.2 (Nat.le_of_succ_le_succ hfuel)
      rw [List.intercalate_cons_of_ne_nil (by simp), columnTokens, readColumns.eq_def]
      simp only [List.cons_append, List.nil_append, readItem, hreserved, if_true,
        String.ofList_toList, hrest, Option.map_some]

theorem parse_selectText (hne : names ≠ []) (hn : ∀ name ∈ names, IsColumnName name)
    (hmax : names.length ≤ maxColumns) :
    parse (positional (selectText names)) = some (names.map (Column.mk .parameter)) := by
  have hnul : '\x00' ∉ [',', ' '].intercalate (names.map columnText) := by
    apply notMem_intercalate (by decide)
    intro column hm
    obtain ⟨name, hname, rfl⟩ := List.mem_map.1 hm
    rw [columnText, List.mem_cons, List.mem_append, not_or, not_or]
    exact ⟨by decide, by decide, (hn name hname).word.notMem rfl⟩
  have hwhole : (positional (selectText names)).toList.takeWhile (· != '\x00') =
      "SELECT ".toList ++ [',', ' '].intercalate (names.map columnText) := by
    rw [toList_positional_selectText hn]
    apply List.takeWhile_eq_self_iff.2
    intro c hc
    rw [bne_iff_ne]
    rintro rfl
    rcases List.mem_append.1 hc with hc | hc
    · exact absurd hc (by decide)
    · exact hnul hc
  have hword : Token.IsWord "SELECT".toList := by decide
  have hselect (after : List Char) : Token.scan ("SELECT ".toList ++ after) =
      (Token.scan after).map (Token.word "SELECT".toList :: ·) := by
    rw [← Token.scan_blank after]
    exact Token.scan_word hword (endsWord_cons rfl (by decide) after)
  have hcolumns := readColumns_columnTokens hne hn
    (Nat.le_succ_of_le (length_le_length_columnTokens names))
  have hkeyword : (Token.word "SELECT".toList).isKeyword "SELECT" = true := by decide
  rw [parse, hwhole, hselect, scan_columns hne hn]
  simp only [Option.map_some, Option.bind_eq_bind, Option.bind_some, hkeyword, if_true, hcolumns,
    Option.filter_some, List.length_map, hmax, decide_true]

end Statement

/-- What a value is read back as, once it is bound. -/
inductive ComesBack : Json → Json → Prop
  | null : ComesBack .null .null
  | bool (b : Bool) : ComesBack (.bool b) (.int (if b then 1 else 0))
  | int {n : Int} (hmin : -2 ^ 63 ≤ n) (hmax : n < 2 ^ 63) : ComesBack (.int n) (.int n)
  | digits {n : Nat} (hmin : 2 ^ 63 ≤ n) (hmax : n < 2 ^ 64) :
    ComesBack (.int n) (.str (String.ofList (decimal n)))
  | double (x : Double) : ComesBack (.double x) (.double x)
  | str (s : String) : ComesBack (.str s) (.str s)
  | arr (items : List Json) : ComesBack (.arr items) (.str (Json.arr items).text)
  | obj (fields : List (String × Json)) : ComesBack (.obj fields) (.str (Json.obj fields).text)

section Cells

variable {v w : Json}

theorem isInt64_iff {n : Int} : Word.isInt64 n ↔ -2 ^ 63 ≤ n ∧ n < 2 ^ 63 := by
  rw [Word.isInt64, Bool.and_eq_true, decide_eq_true_iff, decide_eq_true_iff]
  rfl

theorem ComesBack.toJson_ofJson (h : ComesBack v w) : (Cell.ofJson v).toJson = w := by
  cases h with
  | int hmin hmax =>
    rw [Cell.ofJson, if_pos (isInt64_iff.2 ⟨hmin, hmax⟩)]
    rfl
  | @digits n hmin hmax =>
    have hwide : ¬ Word.isInt64 n := by
      rw [isInt64_iff]
      omega
    rw [Cell.ofJson, if_neg hwide]
    rfl
  | _ => rfl

end Cells

theorem evaluate_parameters {names : List String} {values : List Json}
    (hl : values.length = names.length) :
    evaluate (names.map (Column.mk .parameter)) values = names.zip (values.map Cell.ofJson) := by
  induction names generalizing values with
  | nil => rfl
  | cons name names ih =>
    obtain ⟨v, values, rfl⟩ := List.exists_of_length_succ _ hl
    rw [List.map_cons, evaluate, List.tail_cons, ih (Nat.succ.inj hl)]
    rfl

theorem rows_parameters {names : List String} {values : List Json} (hne : names ≠ [])
    (hl : values.length = names.length) :
    rows (names.map (Column.mk .parameter)) values =
      [.obj (Keyed.ofList (names.zip (values.map fun v => (Cell.ofJson v).toJson)))] := by
  have hcells : names.zip (values.map fun v => (Cell.ofJson v).toJson) =
      (names.zip (values.map Cell.ofJson)).map (Prod.map id Cell.toJson) := by
    rw [← List.zip_map_right, List.map_map]
    rfl
  rw [rows, if_neg (by simpa using hne), evaluate_parameters hl, hcells]
  rfl

/--
Each value comes back under the name at its own position, whatever parameter types the query
declares.
-/
theorem execute_selectText {names : List String} {values : List Json} (hne : values ≠ [])
    (hl : values.length = names.length) (hmax : names.length ≤ maxColumns)
    (hn : ∀ name ∈ names, IsColumnName name) (hd : names.Nodup)
    (types : List (Option ParameterType)) :
    ∃ fields : Keyed Json,
      (executor.execute ⟨selectText names, values, types⟩).result = .ok (.arr [.obj fields]) ∧
      fields.Ascending ∧ (fields.map (·.1)).Perm names ∧
      ∀ (i : Nat) name v w, names[i]? = some name → values[i]? = some v → ComesBack v w →
        fields.find? name = some w := by
  have hne' : names ≠ [] := by
    rintro rfl
    exact hne (List.length_eq_zero_iff.1 hl)
  have hkeys : (names.zip (values.map fun v => (Cell.ofJson v).toJson)).map (·.1) = names := by
    apply List.map_fst_zip
    rw [List.length_map, hl]
  have hk := hkeys.symm ▸ hd
  refine ⟨.ofList (names.zip (values.map fun v => (Cell.ofJson v).toJson)), ?_,
    Keyed.ascending_ofList _, ?_, ?_⟩
  · have hrun (query : Descriptor) : (executor.execute query).result = run query := rfl
    rw [hrun, run, parse_selectText hne' hn hmax, ← rows_parameters hne' hl]
  · have hp := (Keyed.ofList_perm hk).map (·.1)
    rwa [hkeys] at hp
  · intro i name v w hname hv hw
    rw [Keyed.find?_ofList_eq_some_iff hk]
    have hget : (names.zip (values.map fun v => (Cell.ofJson v).toJson))[i]? = some (name, w) := by
      rw [List.getElem?_zip_eq_some, List.getElem?_map, hv, Option.map_some, hw.toJson_ofJson]
      exact ⟨hname, rfl⟩
    exact List.mem_of_getElem? hget

/-- A value of each kind, with integers at the ends of their ranges. -/
def assorted : List Json :=
  [.str "", .int (2 ^ 64 - 1), .null, .int (2 ^ 63), .bool true, .int (-2 ^ 63),
    .double (.zero true), .arr [.int 1, .bool false], .int (2 ^ 63 - 1), .obj [("a", .null)]]

def assortedNames : List String :=
  ["x", "größe", "_", "A", "a", "b$1", "selected", "as_", "v1", "Z"]

example : selectText ["id", "größe"] = "SELECT ?v1? AS id, ?v2? AS größe" := by decide

theorem execute_selectText_assorted :
    assorted ≠ [] ∧ assorted.length = assortedNames.length ∧
      assortedNames.length ≤ maxColumns ∧ (∀ name ∈ assortedNames, IsColumnName name) ∧
      assortedNames.Nodup ∧ ∃ fields : Keyed Json,
        (executor.execute ⟨selectText assortedNames, assorted, []⟩).result =
          .ok (.arr [.obj fields]) ∧
        fields.find? "größe" = some (.str "18446744073709551615") ∧
        fields.find? "A" = some (.str "9223372036854775808") ∧
        fields.find? "a" = some (.int 1) ∧
        fields.find? "b$1" = some (.int (-9223372036854775808)) ∧
        fields.find? "as_" = some (.str "[1,false]") := by
  have hne : assorted ≠ [] := by simp [assorted]
  have hn : ∀ name ∈ assortedNames, IsColumnName name := by decide
  have hd : assortedNames.Nodup := by decide
  refine ⟨hne, rfl, by decide, hn, hd, ?_⟩
  obtain ⟨fields, hrun, -, -, hfind⟩ := execute_selectText hne rfl (by decide) hn hd []
  refine ⟨fields, hrun, ?_, ?_, ?_, ?_, ?_⟩
  · exact hfind 1 _ _ _ rfl rfl (.digits (by decide) (by decide))
  · exact hfind 3 _ _ _ rfl rfl (.digits (by decide) (by decide))
  · exact hfind 4 _ _ _ rfl rfl (.bool true)
  · exact hfind 5 _ _ _ rfl rfl (.int (by decide) (by decide))
  · exact hfind 7 _ _ _ rfl rfl (.arr _)

end QueryRouting.Sqlite

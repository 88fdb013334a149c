import QueryRouting.Backend.Postgres
import QueryRouting.Proofs.Json.Reading
import QueryRouting.Proofs.Number.Literal

namespace QueryRouting.Postgres

open Text

/-- The words for truth values, in lower case. -/
def words : List (String × Bool) :=
  [("true", true), ("t", true), ("1", true), ("yes", true), ("on", true),
    ("false", false), ("f", false), ("0", false), ("no", false), ("off", false)]

/-- What a text says as a value of a type. -/
inductive Says (text : List Char) : String → Json → Prop
  | integer {type : String} {core : List Char} {n : Int} (ht : type ∈ ["INT2", "INT4", "INT8"])
    (hp : Padded text core) (hn : Numeral.Signed core n) (hmin : -2 ^ 63 ≤ n) (hmax : n < 2 ^ 63) :
    Says text type (.int n)
  | real {type : String} {core : List Char} {literal : Number.Literal} {x : Double}
    (ht : type ∈ ["FLOAT4", "FLOAT8", "NUMERIC"]) (hp : Padded text core)
    (hl : literal.Written core) (hfinite : literal.magnitude < Double.limit)
    (hx : literal.nearest? = some x) : Says text type (.double x)
  | boolean {core : List Char} {word : String} {b : Bool} (hp : Padded text core)
    (hw : (word, b) ∈ words) (hc : core.map Char.toLower = word.toList) :
    Says text "BOOL" (.bool b)
  | json {type : String} {v : Json} (ht : type ∈ ["JSON", "JSONB"])
    (hv : Json.IsText Json.maxDepth text v) : Says text type v

namespace Family

def names : Family → List String
  | integer => ["INT2", "INT4", "INT8"]
  | real => ["FLOAT4", "FLOAT8", "NUMERIC"]
  | boolean => ["BOOL"]
  | json => ["JSON", "JSONB"]

end Family

theorem family?_eq_some_iff {type : String} {family : Family} :
    family? type = some family ↔ type ∈ family.names := by
  unfold family?
  split
  all_goals cases family <;> simp_all [Family.names]

section Reading

variable {cs : List Char} {v : Json}

theorem read?_integer_iff : Family.integer.read? cs = some v ↔
    ∃ n : Int, (∃ core, Padded cs core ∧ Numeral.Signed core n ∧ -2 ^ 63 ≤ n ∧ n < 2 ^ 63) ∧
      .int n = v := by
  have hok (n : Int) : (Numeral.int64 (trim cs)).toOption = some n ↔
      ∃ core, Padded cs core ∧ Numeral.Signed core n ∧ -2 ^ 63 ≤ n ∧ n < 2 ^ 63 := by
    rw [← of_trim_iff fun core h => h.1.isBlank, ← Numeral.int64_eq_ok_iff]
    cases Numeral.int64 (trim cs) <;> simp [Except.toOption]
  rw [Family.read?, Option.map_eq_some_iff]
  exact exists_congr fun n => and_congr_left' (hok n)

theorem read?_real_iff : Family.real.read? cs = some v ↔
    ∃ x : Double, (∃ core, Padded cs core ∧ ∃ literal : Number.Literal, literal.Written core ∧
      literal.nearest? = some x) ∧ .double x = v := by
  have hok (x : Double) : Number.nearest? (trim cs) = some x ↔
      ∃ core, Padded cs core ∧ ∃ literal : Number.Literal, literal.Written core ∧
        literal.nearest? = some x := by
    have hblank : ∀ core : List Char,
        (∃ literal : Number.Literal, literal.Written core ∧ literal.nearest? = some x) →
          ∀ c ∈ core, isBlank c = false := by
      rintro core ⟨literal, hl, -⟩
      exact hl.isBlank
    rw [← of_trim_iff hblank, Number.nearest?, Option.bind_eq_some_iff]
    simp only [Number.ofChars?_eq_some_iff]
  rw [Family.read?, Option.map_eq_some_iff]
  exact exists_congr fun x => and_congr_left' (hok x)

theorem mem_words_iff {word : String} {b : Bool} :
    (word, b) ∈ words ↔ word ∈ if b then trueWords else falseWords := by
  have hwords : words = trueWords.map (·, true) ++ falseWords.map (·, false) := rfl
  rw [hwords, List.mem_append, List.mem_map, List.mem_map]
  cases b <;> simp

theorem boolean?_eq_some_iff {b : Bool} : boolean? cs = some b ↔
    ∃ word, (word, b) ∈ words ∧ cs.map Char.toLower = word.toList := by
  have hspelled (word : String) :
      cs.map Char.toLower = word.toList ↔ word = String.ofList (cs.map Char.toLower) := by
    rw [← String.toList_inj, String.toList_ofList, eq_comm]
  have hapart : ∀ word ∈ falseWords, word ∉ trueWords := by decide
  simp only [hspelled, exists_eq_right, mem_words_iff]
  unfold boolean?
  dsimp only
  generalize String.ofList (cs.map Char.toLower) = word
  by_cases htrue : word ∈ trueWords
  · have hfalse : word ∉ falseWords := fun hf => hapart word hf htrue
    cases b <;> simp [htrue, hfalse]
  · by_cases hfalse : word ∈ falseWords <;> cases b <;> simp [htrue, hfalse]

theorem isBlank_of_mem_word {word : String} {b : Bool} (h : (word, b) ∈ words) :
    ∀ c ∈ word.toList, isBlank c = false := by
  have hall : words.all (·.1.toList.all (!isBlank ·)) = true := by decide
  intro c hc
  simpa using List.all_eq_true.1 (List.all_eq_true.1 hall _ h) c hc

theorem toLower_eq_self_of_isBlank {c : Char} (h : isBlank c) : c.toLower = c := by
  have hupper : ¬ (65 ≤ c.toNat ∧ c.toNat ≤ 90) := by
    simp [isBlank, Ranges.contains, blankRanges] at h
    omega
  apply dif_neg
  simpa [UInt32.le_iff_toNat_le] using hupper

theorem isBlank_of_map_toLower {word : String} {b : Bool} (hw : (word, b) ∈ words)
    (hc : cs.map Char.toLower = word.toList) : ∀ c ∈ cs, isBlank c = false := by
  intro c hm
  by_contra hb
  rw [Bool.not_eq_false] at hb
  have hlower : c.toLower ∈ word.toList := hc ▸ List.mem_map_of_mem hm
  rw [toLower_eq_self_of_isBlank hb] at hlower
  exact Bool.false_ne_true ((isBlank_of_mem_word hw c hlower).symm.trans hb)

theorem read?_boolean_iff : Family.boolean.read? cs = some v ↔
    ∃ b, (∃ core, Padded cs core ∧
      ∃ word, (word, b) ∈ words ∧ core.map Char.toLower = word.toList) ∧ .bool b = v := by
  have hok (b : Bool) : boolean? (trim cs) = some b ↔ ∃ core, Padded cs core ∧
      ∃ word, (word, b) ∈ words ∧ core.map Char.toLower = word.toList := by
    have hblank : ∀ core : List Char,
        (∃ word, (word, b) ∈ words ∧ core.map Char.toLower = word.toList) →
          ∀ c ∈ core, isBlank c = false := by
      rintro core ⟨word, hw, hc⟩
      exact isBlank_of_map_toLower hw hc
    rw [← of_trim_iff hblank, boolean?_eq_some_iff]
  rw [Family.read?, Option.map_eq_some_iff]
  exact exists_congr fun b => and_congr_left' (hok b)

/-- What is read in the family of a type is what the text says there. -/
theorem read?_eq_some_iff {type : String} :
    (family? type).bind (·.read? cs) = some v ↔ Says cs type v := by
  rw [Option.bind_eq_some_iff]
  constructor
  · rintro ⟨family, hf, hr⟩
    rw [family?_eq_some_iff] at hf
    cases family with
    | integer =>
      obtain ⟨n, ⟨core, hp, hn, hmin, hmax⟩, rfl⟩ := read?_integer_iff.1 hr
      exact .integer hf hp hn hmin hmax
    | real =>
      obtain ⟨x, ⟨core, hp, literal, hl, hx⟩, rfl⟩ := read?_real_iff.1 hr
      exact .real hf hp hl (Number.Literal.exists_nearest?_iff.1 ⟨x, hx⟩) hx
    | boolean =>
      obtain ⟨b, ⟨core, hp, word, hw, hc⟩, rfl⟩ := read?_boolean_iff.1 hr
      rw [List.mem_singleton.1 hf]
      exact .boolean hp hw hc
    | json => exact .json hf (Json.parse?_eq_some_iff.1 hr)
  · intro h
    cases h with
    | integer ht hp hn hmin hmax =>
      exact ⟨.integer, family?_eq_some_iff.2 ht,
        read?_integer_iff.2 ⟨_, ⟨_, hp, hn, hmin, hmax⟩, rfl⟩⟩
    | real ht hp hl _ hx =>
      exact ⟨.real, family?_eq_some_iff.2 ht, read?_real_iff.2 ⟨_, ⟨_, hp, _, hl, hx⟩, rfl⟩⟩
    | boolean hp hw hc =>
      exact ⟨.boolean, rfl, read?_boolean_iff.2 ⟨_, ⟨_, hp, _, hw, hc⟩, rfl⟩⟩
    | json ht hv => exact ⟨.json, family?_eq_some_iff.2 ht, Json.parse?_eq_some_iff.2 hv⟩

end Reading

section Positions

variable {values : List Json} {types : List String}

theorem getElem?_coerceAll (values : List Json) (types : List String) (i : Nat) :
    (coerceAll values types)[i]? = values[i]?.map (coerce · types[i]?) := by
  induction values generalizing types i with
  | nil => rfl
  | cons value values ih =>
    cases i with
    | zero =>
      rw [coerceAll, List.getElem?_cons_zero, List.getElem?_cons_zero, List.head?_eq_getElem?]
      rfl
    | succ i =>
      rw [coerceAll, List.getElem?_cons_succ, List.getElem?_cons_succ, ih, List.getElem?_tail]

theorem coerceText_eq_iff {text type : String} {w : Json} :
    coerceText text type = w ↔ Says text.toList type w ∨
      w = .str text ∧ ∀ v, ¬ Says text.toList type v := by
  rw [coerceText]
  cases hr : (family? type).bind (·.read? text.toList) with
  | none =>
    have hnone (v : Json) : ¬ Says text.toList type v := by
      rw [← read?_eq_some_iff, hr]
      exact nofun
    rw [Option.getD_none]
    constructor
    · rintro rfl
      exact .inr ⟨rfl, hnone⟩
    · rintro (hs | ⟨rfl, -⟩)
      · exact absurd hs (hnone w)
      · rfl
  | some v =>
    rw [Option.getD_some]
    constructor
    · rintro rfl
      exact .inl (read?_eq_some_iff.1 hr)
    · rintro (hs | ⟨-, hnone⟩)
      · rw [← read?_eq_some_iff, hr] at hs
        exact Option.some.inj hs
      · exact absurd (read?_eq_some_iff.1 hr) (hnone v)

theorem length_coerceAll : (coerceAll values types).length = values.length := by
  induction values generalizing types with
  | nil => rfl
  | cons value values ih => rw [coerceAll, List.length_cons, List.length_cons, ih]

theorem coerce_of_ne {value : Json} {type : Option String} (h : coerce value type ≠ value) :
    ∃ text name, value = .str text ∧ type = some name := by
  unfold coerce at h
  split at h
  · exact ⟨_, _, rfl, rfl⟩
  · exact absurd rfl h

end Positions

/--
Each position is converted on its own: a string of a type becomes what it says there, or stays as
it is if it says nothing; everything else stays.
-/
theorem coerceAll_positions (values : List Json) (types : List String) :
    (coerceAll values types).length = values.length ∧
      (∀ i : Nat, (coerceAll values types)[i]? ≠ values[i]? →
        ∃ text type, values[i]? = some (.str text) ∧ types[i]? = some type) ∧
      (∀ (i : Nat) text type, values[i]? = some (.str text) → types[i]? = some type →
        ∀ w, (coerceAll values types)[i]? = some w ↔
          Says text.toList type w ∨ w = .str text ∧ ∀ v, ¬ Says text.toList type v) ∧
      ∀ (i : Nat) value, values[i]? = some value →
        (coerceAll values types)[i]? = (coerceAll [value] types[i]?.toList).head? := by
  refine ⟨length_coerceAll, ?_, ?_, ?_⟩
  · intro i h
    rw [getElem?_coerceAll] at h
    cases hv : values[i]? with
    | none =>
      rw [hv] at h
      exact absurd rfl h
    | some value =>
      rw [hv, Option.map_some] at h
      obtain ⟨text, type, rfl, ht⟩ := coerce_of_ne fun he => h (congrArg some he)
      exact ⟨text, type, rfl, ht⟩
  · intro i text type hv ht w
    rw [getElem?_coerceAll, hv, ht, Option.map_some, Option.some_inj, ← coerceText_eq_iff]
    rfl
  · intro i value hv
    rw [getElem?_coerceAll, hv]
    cases types[i]? <;> rfl

example : coerceAll [.str "\u00a0+007", .str "Yes ", .str " 9223372036854775808", .str "1"]
    ["INT2", "BOOL", "INT8"] =
      [.int 7, .bool true, .str " 9223372036854775808", .str "1"] := rfl

/-- Arrays nested one deeper than is read are JSON text all the same, and stay a string. -/
theorem coerceAll_ne_of_nested :
    Json.IsText (Json.maxDepth + 1) (Json.nestedText 127) (Json.nested 127) ∧
      coerceAll [.str (String.ofList (Json.nestedText 127))] ["JSON"] ≠ [Json.nested 127] ∧
      coerceAll [.str (String.ofList (Json.nestedText 127))] ["JSON"] =
        [.str (String.ofList (Json.nestedText 127))] := by
  have hkept : coerceAll [.str (String.ofList (Json.nestedText 127))] ["JSON"] =
      [.str (String.ofList (Json.nestedText 127))] := by
    have hnone : Json.parse? (Json.nestedText 127) = none :=
      Json.parse?_eq_none_of_replicate (Nat.le_refl 127) _
    have hfamily : family? "JSON" = some .json := rfl
    rw [coerceAll, coerceAll, List.head?_cons, coerce, coerceText, hfamily, Option.bind_some,
      Family.read?, String.toList_ofList, hnone, Option.getD_none]
  refine ⟨Json.isText_nested 127, ?_, hkept⟩
  rw [hkept]
  exact nofun

end QueryRouting.Postgres

import QueryRouting.Text.Numeral

/-!
Quoted text of TOML: basic and literal strings, on one line or on several.

The readers begin after the opening quotes and give the text and what follows the closing ones.
-/

namespace QueryRouting.Toml

/-- Characters that may stand in comments and strings. -/
def isPlain (c : Char) : Bool :=
  c == '\t' || (0x20 ≤ c.toNat && c.toNat ≠ 0x7f)

def isBlank (c : Char) : Bool :=
  c == ' ' || c == '\t'

def newline? : List Char → Option (List Char)
  | '\n' :: rest => some rest
  | '\r' :: '\n' :: rest => some rest
  | _ => none

/-- The scalar value that exactly so many hexadecimal digits name. -/
def scalarValue? (width : Nat) (cs : List Char) : Option Char :=
  let digits := cs.take width
  let n := Text.Numeral.valueIn 16 digits
  if digits.length = width ∧ digits.all (Text.Numeral.isDigitIn 16)
      ∧ (n < 0xd800 ∨ (0xdfff < n ∧ n < 0x110000)) then
    some (Char.ofNat n)
  else none

/-- What a backslash and this character stand for. -/
def simpleEscape? : Char → Option Char
  | 'b' => some '\x08'
  | 't' => some '\t'
  | 'n' => some '\n'
  | 'f' => some '\x0c'
  | 'r' => some '\r'
  | '"' => some '"'
  | '\\' => some '\\'
  | _ => none

/-- An escape after its backslash, and what follows it. -/
def escape? : List Char → Option (Char × List Char)
  | 'u' :: rest => (scalarValue? 4 rest).map (·, rest.drop 4)
  | 'U' :: rest => (scalarValue? 8 rest).map (·, rest.drop 8)
  | c :: rest => (simpleEscape? c).map (·, rest)
  | [] => none

theorem length_escape {cs rest : List Char} {c : Char} (h : escape? cs = some (c, rest)) :
    rest.length < cs.length := by
  unfold escape? at h
  split at h <;> simp only [Option.map_eq_some_iff, Prod.mk.injEq, reduceCtorEq] at h
  all_goals
    obtain ⟨_, _, _, rfl⟩ := h
    simp
    try omega

def basic (read : List Char) (cs : List Char) : Option (List Char × List Char) :=
  match cs with
  | [] => none
  | '"' :: rest => some (read.reverse, rest)
  | '\\' :: rest =>
    match h : escape? rest with
    | none => none
    | some (c, after) =>
      have := length_escape h
      basic (c :: read) after
  | c :: rest => if isPlain c then basic (c :: read) rest else none
termination_by cs.length

def literal (read : List Char) : List Char → Option (List Char × List Char)
  | [] => none
  | '\'' :: rest => some (read.reverse, rest)
  | c :: rest => if isPlain c then literal (c :: read) rest else none

def skipSpace (cs : List Char) : List Char :=
  match cs with
  | '\r' :: '\n' :: rest => skipSpace rest
  | c :: rest => if c == '\n' || isBlank c then skipSpace rest else c :: rest
  | [] => []

theorem length_skipSpace (cs : List Char) : (skipSpace cs).length ≤ cs.length := by
  fun_induction skipSpace cs <;> simp_all <;> omega

/-- What is left of a line whose backslash is its last character but for blanks. -/
def lineEnd? (cs : List Char) : Option (List Char) :=
  (newline? (cs.dropWhile isBlank)).map skipSpace

theorem length_newline {cs rest : List Char} (h : newline? cs = some rest) :
    rest.length < cs.length := by
  unfold newline? at h
  split at h <;> simp only [Option.some.injEq, reduceCtorEq] at h
  all_goals
    subst h
    simp
    try omega

theorem length_lineEnd {cs rest : List Char} (h : lineEnd? cs = some rest) :
    rest.length < cs.length := by
  simp only [lineEnd?, Option.map_eq_some_iff] at h
  obtain ⟨r, hr, rfl⟩ := h
  have := length_newline hr
  have := length_skipSpace r
  have := (List.dropWhile_sublist isBlank (l := cs)).length_le
  omega

/--
A run of quotes in text on several lines: three end it, and up to two before these belong to it.
Gives the quotes that belong to the text, and whether it ends.
-/
def closing (quotes : Nat) : Nat × Bool :=
  if quotes < 3 then (quotes, false) else (min (quotes - 3) 2, true)

def quoteRun (quote : Char) (cs : List Char) : Nat :=
  (cs.takeWhile (· == quote)).length

/-- Text on several lines; a carriage return in a line end is dropped. -/
def multiline (quote : Char) (escapes : Bool) (read : List Char) (cs : List Char) :
    Option (List Char × List Char) :=
  match cs with
  | [] => none
  | c :: rest =>
    if c = quote then
      let (kept, ends) := closing (quoteRun quote (c :: rest))
      if ends then some ((List.replicate kept quote ++ read).reverse, rest.drop (kept + 2))
      else multiline quote escapes (c :: read) rest
    else if c = '\\' ∧ escapes then
      match h : lineEnd? rest with
      | some after =>
        have := length_lineEnd h
        multiline quote escapes read after
      | none =>
        match h : escape? rest with
        | none => none
        | some (c, after) =>
          have := length_escape h
          multiline quote escapes (c :: read) after
    else
      match h : newline? (c :: rest) with
      | some after =>
        have := length_newline h
        multiline quote escapes ('\n' :: read) after
      | none => if isPlain c then multiline quote escapes (c :: read) rest else none
termination_by cs.length
decreasing_by all_goals (simp only [List.length_cons] at *; omega)

/-- A line end right after the opening quotes does not belong to the text. -/
def openMultiline (quote : Char) (escapes : Bool) (cs : List Char) :
    Option (List Char × List Char) :=
  multiline quote escapes [] ((newline? cs).getD cs)

/-- Quoted text on one line, if the characters begin with a quote. -/
def quoted? : List Char → Option (Option (List Char × List Char))
  | '"' :: rest => some (basic [] rest)
  | '\'' :: rest => some (literal [] rest)
  | _ => none

/-- Quoted text on one or several lines. -/
def string? : List Char → Option (Option (List Char × List Char))
  | '"' :: '"' :: '"' :: rest => some (openMultiline '"' true rest)
  | '\'' :: '\'' :: '\'' :: rest => some (openMultiline '\'' false rest)
  | cs => quoted? cs

end QueryRouting.Toml

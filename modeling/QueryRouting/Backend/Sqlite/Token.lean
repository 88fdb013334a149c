import QueryRouting.Backend.Sqlite.Numeral

/-!
The tokens of a statement, and its keywords.
-/

namespace QueryRouting.Sqlite

inductive Token
  | word (name : List Char)
  | parameter
  | comma
  | minus
  | number (n : Numeral)
  | literal (cell : Cell)
  deriving DecidableEq, Repr

namespace Token

/-- Between tokens a byte order mark is space; within a name it is part of it. -/
def byteOrderMark : Char := '\ufeff'

def isSpace (c : Char) : Bool :=
  c == ' ' || c == '\t' || c == '\n' || c == '\x0c' || c == '\r' || c == byteOrderMark

def isNameStart (c : Char) : Bool :=
  c.isAlpha || c == '_' || (0x7f < c.toNat && c != byteOrderMark)

def isNameChar (c : Char) : Bool :=
  isNameStart c || c.isDigit || c == '$' || c == byteOrderMark

/-- The rest of a text literal after its opening quote; a quote in it is written twice. -/
def readText (read : List Char) : List Char → Option (List Char × List Char)
  | '\'' :: '\'' :: rest => readText ('\'' :: read) rest
  | '\'' :: rest => some (read.reverse, rest)
  | c :: rest => readText (c :: read) rest
  | [] => none

def hexBytes : List Char → Option Bytes
  | [] => some []
  | a :: b :: rest => do
    let high ← Text.Numeral.hexValue? a
    let low ← Text.Numeral.hexValue? b
    return UInt8.ofNat (16 * high + low) :: (← hexBytes rest)
  | _ => none

def isExponentSign (before : Char) (c : Char) : Bool :=
  (c == '-' || c == '+') && (before == 'e' || before == 'E')

/-- The longest text that can belong to a number. -/
def numberLexeme (before : Char) : List Char → List Char × List Char
  | [] => ([], [])
  | c :: rest =>
    if isNameChar c || c == '.' || isExponentSign before c then
      let (lexeme, after) := numberLexeme c rest
      (c :: lexeme, after)
    else ([], c :: rest)

/-- The token that begins with `c`, and what follows it. -/
def read (c : Char) (rest : List Char) : Option (Token × List Char) :=
  if c = '?' then some (.parameter, rest)
  else if c = ',' then some (.comma, rest)
  else if c = '-' then some (.minus, rest)
  else if c = '\'' then
    (readText [] rest).map fun (s, after) => (.literal (.text (String.ofList s)), after)
  else if c = 'x' ∨ c = 'X' then
    match rest with
    | '\'' :: quoted =>
      (readText [] quoted).bind fun (digits, after) =>
        (hexBytes digits).map fun bytes => (.literal (.blob bytes), after)
    | _ => some (.word (c :: rest.takeWhile isNameChar), rest.dropWhile isNameChar)
  else if isNameStart c then
    some (.word (c :: rest.takeWhile isNameChar), rest.dropWhile isNameChar)
  else if c.isDigit ∨ c = '.' then
    (Numeral.ofChars? (c :: (numberLexeme c rest).1)).map fun n =>
      (.number n, (numberLexeme c rest).2)
  else none

theorem length_readText {cs read s rest : List Char} (h : readText read cs = some (s, rest)) :
    rest.length ≤ cs.length := by
  fun_induction readText read cs with
  | case1 read cs ih =>
    have := ih h
    simp
    omega
  | case2 => simp_all
  | case3 read c cs _ _ ih =>
    have := ih h
    simp
    omega
  | case4 => simp at h

theorem length_numberLexeme (before : Char) (cs : List Char) :
    (numberLexeme before cs).2.length ≤ cs.length := by
  fun_induction numberLexeme before cs with
  | case1 => simp
  | case2 before c rest _ lexeme after h ih =>
    rw [h] at ih
    simp at ih ⊢
    omega
  | case3 => simp

theorem length_read {c : Char} {cs rest : List Char} {t : Token}
    (h : read c cs = some (t, rest)) : rest.length ≤ cs.length := by
  have hd := (List.dropWhile_sublist isNameChar (l := cs)).length_le
  have hn := length_numberLexeme c cs
  unfold read at h
  repeat' split at h
  all_goals
    simp only [Option.some.injEq, Prod.mk.injEq, Option.map_eq_some_iff, Option.bind_eq_some_iff,
      Prod.exists, reduceCtorEq] at h
  all_goals try (obtain ⟨_, rfl⟩ := h; first | exact hd | exact Nat.le_refl _)
  · obtain ⟨_, _, hs, _, rfl⟩ := h
    exact length_readText hs
  · obtain ⟨_, _, hs, _, _, _, rfl⟩ := h
    have := length_readText hs
    simp
    omega
  · obtain ⟨_, _, _, rfl⟩ := h
    exact hn

def scan (cs : List Char) : Option (List Token) :=
  match cs with
  | [] => some []
  | c :: cs =>
    if isSpace c then scan cs
    else
      match h : read c cs with
      | none => none
      | some (token, rest) =>
        have := length_read h
        (scan rest).map (token :: ·)
termination_by cs.length

/-- Whether a token is a keyword, in any case. -/
def isKeyword (keyword : String) : Token → Bool
  | .word name => name.map Char.toUpper == keyword.toList
  | _ => false

def reserved : List String :=
  ["ADD", "ALL", "ALTER", "AND", "AS", "AUTOINCREMENT", "BETWEEN", "CASE", "CHECK", "COLLATE",
    "COMMIT", "CONSTRAINT", "CREATE", "DEFAULT", "DEFERRABLE", "DELETE", "DISTINCT", "DROP", "ELSE",
    "ESCAPE", "EXCEPT", "EXISTS", "FOREIGN", "FROM", "GROUP", "HAVING", "IN", "INDEX", "INSERT",
    "INTERSECT", "INTO", "IS", "ISNULL", "JOIN", "LIMIT", "NOT", "NOTHING", "NOTNULL", "NULL", "ON",
    "OR", "ORDER", "PRIMARY", "REFERENCES", "RETURNING", "SELECT", "SET", "TABLE", "THEN", "TO",
    "TRANSACTION", "UNION", "UNIQUE", "UPDATE", "USING", "VALUES", "WHEN", "WHERE"]

def isReserved (token : Token) : Bool :=
  reserved.any fun keyword => token.isKeyword keyword

end Token

end QueryRouting.Sqlite

import QueryRouting.Json.Number

/-!
The tokens of JSON text.
-/

namespace QueryRouting.Json

inductive Token
  | arrayOpen
  | arrayClose
  | objectOpen
  | objectClose
  | comma
  | colon
  | str (value : String)
  /-- A number, `true`, `false` or `null`. -/
  | scalar (value : Json)
  deriving Inhabited

namespace Token

def isSpace (c : Char) : Bool :=
  c == ' ' || c == '\t' || c == '\n' || c == '\r'

/-- The value of exactly four hexadecimal digits. -/
def unit? (digits : List Char) : Option Nat :=
  if digits.length = 4 ∧ digits.all (Text.Numeral.isDigitIn 16) then
    some (Text.Numeral.valueIn 16 digits)
  else none

def simpleEscape? : Char → Option Char
  | '"' => some '"'
  | '\\' => some '\\'
  | '/' => some '/'
  | 'b' => some '\x08'
  | 'f' => some '\x0c'
  | 'n' => some '\n'
  | 'r' => some '\r'
  | 't' => some '\t'
  | _ => none

def isHighSurrogate (u : Nat) : Bool :=
  0xd800 ≤ u && u < 0xdc00

def isLowSurrogate (u : Nat) : Bool :=
  0xdc00 ≤ u && u < 0xe000

/--
The character of an escape whose four digits begin here, and how many characters it takes. A
surrogate counts only as the first half of a pair whose second half follows.
-/
def unicodeEscape? (cs : List Char) : Option (Char × Nat) := do
  let u ← unit? (cs.take 4)
  if isHighSurrogate u then
    match cs.drop 4 with
    | '\\' :: 'u' :: rest =>
      let low ← unit? (rest.take 4)
      if isLowSurrogate low then
        some (Char.ofNat (0x10000 + (u - 0xd800) * 0x400 + (low - 0xdc00)), 10)
      else none
    | _ => none
  else if isLowSurrogate u then none
  else some (Char.ofNat u, 4)

/-- The rest of a string after its opening quote: what it denotes, and what follows it. -/
def readString (read : List Char) : List Char → Option (List Char × List Char)
  | [] => none
  | '"' :: rest => some (read.reverse, rest)
  | '\\' :: 'u' :: rest => do
    let (c, n) ← unicodeEscape? rest
    readString (c :: read) (rest.drop n)
  | '\\' :: e :: rest => do readString ((← simpleEscape? e) :: read) rest
  | c :: rest => if c.toNat < 0x20 then none else readString (c :: read) rest
termination_by cs => cs.length
decreasing_by all_goals (simp only [List.length_cons, List.length_drop]; omega)

/-- Digits of one or more, and what follows them. -/
def digits? (cs : List Char) : Option (List Char × List Char) :=
  let digits := cs.takeWhile Char.isDigit
  if digits.isEmpty then none else some (digits, cs.dropWhile Char.isDigit)

def readFraction (cs : List Char) : Option (Option (List Char) × List Char) :=
  match cs with
  | '.' :: rest => (digits? rest).map fun (digits, rest) => (some digits, rest)
  | _ => some (none, cs)

def readExponent (cs : List Char) : Option (Option (Bool × List Char) × List Char) :=
  match cs with
  | c :: rest =>
    if c = 'e' ∨ c = 'E' then
      match rest with
      | '-' :: rest => (digits? rest).map fun (digits, rest) => (some (true, digits), rest)
      | '+' :: rest => (digits? rest).map fun (digits, rest) => (some (false, digits), rest)
      | _ => (digits? rest).map fun (digits, rest) => (some (false, digits), rest)
    else some (none, cs)
  | [] => some (none, cs)

/-- A number after its sign; its whole part has no leading zero. -/
def readMagnitude (negative : Bool) (cs : List Char) : Option (NumberText × List Char) :=
  (digits? cs).bind fun (whole, cs) =>
    if whole.head? = some '0' ∧ 1 < whole.length then none
    else
      (readFraction cs).bind fun (fraction, cs) =>
        (readExponent cs).map fun (exponent, cs) => (⟨negative, whole, fraction, exponent⟩, cs)

def readNumber : List Char → Option (NumberText × List Char)
  | '-' :: rest => readMagnitude true rest
  | cs => readMagnitude false cs

def readScalar (cs : List Char) : Option (Token × List Char) :=
  match cs with
  | 'n' :: 'u' :: 'l' :: 'l' :: rest => some (.scalar .null, rest)
  | 't' :: 'r' :: 'u' :: 'e' :: rest => some (.scalar (.bool true), rest)
  | 'f' :: 'a' :: 'l' :: 's' :: 'e' :: rest => some (.scalar (.bool false), rest)
  | _ => (readNumber cs).bind fun (number, rest) => number.value?.map fun v => (.scalar v, rest)

/-- The token that begins with `c`, and what follows it. -/
def read (c : Char) (rest : List Char) : Option (Token × List Char) :=
  match c with
  | '[' => some (.arrayOpen, rest)
  | ']' => some (.arrayClose, rest)
  | '\x7b' => some (.objectOpen, rest)
  | '\x7d' => some (.objectClose, rest)
  | ',' => some (.comma, rest)
  | ':' => some (.colon, rest)
  | '"' => (readString [] rest).map fun (s, rest) => (.str (String.ofList s), rest)
  | _ => readScalar (c :: rest)

theorem length_readString {cs read s rest : List Char} (h : readString read cs = some (s, rest)) :
    rest.length < cs.length := by
  fun_induction readString read cs with
  | case1 => simp at h
  | case2 => simp_all
  | case3 read cs ih =>
    simp only [bind, Option.bind] at h
    split at h
    · simp at h
    · have := ih _ _ h
      simp at this ⊢
      omega
  | case4 read e cs _ ih =>
    simp only [bind, Option.bind] at h
    split at h
    · simp at h
    · have := ih _ h
      simp at this ⊢
      omega
  | case5 => simp at h
  | case6 read c cs _ _ _ _ ih =>
    have := ih h
    simp at this ⊢
    omega

theorem length_dropWhile_lt {p : Char → Bool} {cs : List Char}
    (h : (cs.takeWhile p).isEmpty = false) : (cs.dropWhile p).length < cs.length := by
  cases cs with
  | nil => simp at h
  | cons c cs =>
    by_cases hc : p c = true
    · simpa [List.dropWhile, hc] using Nat.lt_succ_of_le (List.dropWhile_sublist p).length_le
    · simp [List.takeWhile, hc] at h

theorem length_digits {cs digits rest : List Char} (h : digits? cs = some (digits, rest)) :
    rest.length < cs.length := by
  simp only [digits?] at h
  split at h
  · simp at h
  · rename_i hd
    simp only [Option.some.injEq, Prod.mk.injEq] at h
    exact h.2 ▸ length_dropWhile_lt (by simpa using hd)

theorem length_readFraction {cs rest : List Char} {f : Option (List Char)}
    (h : readFraction cs = some (f, rest)) : rest.length ≤ cs.length := by
  unfold readFraction at h
  split at h
  · simp only [Option.map_eq_some_iff, Prod.exists, Prod.mk.injEq] at h
    obtain ⟨ds, r, hd, -, rfl⟩ := h
    have := length_digits hd
    simp
    omega
  · simp_all

theorem length_readExponent {cs rest : List Char} {e : Option (Bool × List Char)}
    (h : readExponent cs = some (e, rest)) : rest.length ≤ cs.length := by
  unfold readExponent at h
  split at h
  · split at h
    · split at h <;>
      · simp only [Option.map_eq_some_iff, Prod.exists, Prod.mk.injEq] at h
        obtain ⟨ds, r, hd, -, rfl⟩ := h
        have := length_digits hd
        simp at *
        omega
    · simp_all
  · simp_all

theorem length_readMagnitude {negative : Bool} {cs rest : List Char} {t : NumberText}
    (h : readMagnitude negative cs = some (t, rest)) : rest.length < cs.length := by
  simp only [readMagnitude, Option.bind_eq_some_iff, Prod.exists] at h
  obtain ⟨whole, cs₁, hw, h⟩ := h
  split at h
  · simp at h
  · simp only [Option.bind_eq_some_iff, Option.map_eq_some_iff, Prod.exists, Prod.mk.injEq] at h
    obtain ⟨_, cs₂, hf, _, cs₃, he, -, rfl⟩ := h
    have := length_digits hw
    have := length_readFraction hf
    have := length_readExponent he
    omega

theorem length_readNumber {cs rest : List Char} {t : NumberText}
    (h : readNumber cs = some (t, rest)) : rest.length < cs.length := by
  unfold readNumber at h
  split at h
  · exact Nat.lt_succ_of_lt (length_readMagnitude h)
  · exact length_readMagnitude h

theorem length_readScalar {cs rest : List Char} {t : Token}
    (h : readScalar cs = some (t, rest)) : rest.length < cs.length := by
  unfold readScalar at h
  split at h
  case h_4 =>
    simp only [Option.bind_eq_some_iff, Option.map_eq_some_iff, Prod.exists, Prod.mk.injEq] at h
    obtain ⟨n, cs₁, hn, v, hv, -, rfl⟩ := h
    exact length_readNumber hn
  all_goals
    simp only [Option.some.injEq, Prod.mk.injEq] at h
    simp [← h.2]
    omega

theorem length_read {c : Char} {cs rest : List Char} {t : Token}
    (h : read c cs = some (t, rest)) : rest.length ≤ cs.length := by
  unfold read at h
  split at h <;> try (simp_all; done)
  · simp only [Option.map_eq_some_iff, Prod.exists, Prod.mk.injEq] at h
    obtain ⟨s, r, hs, -, rfl⟩ := h
    exact Nat.le_of_lt (length_readString hs)
  · have := length_readScalar h
    simp at this
    omega

/-- Runs a machine over the tokens of a text; `none` if it stops or a token is malformed. -/
def foldM? (step : σ → Token → Option σ) (state : σ) : List Char → Option σ
  | [] => some state
  | c :: cs =>
    if isSpace c then foldM? step state cs
    else
      match h : read c cs with
      | none => none
      | some (token, rest) =>
        have := length_read h
        match step state token with
        | none => none
        | some next => foldM? step next rest
termination_by cs => cs.length

end Token

end QueryRouting.Json

import QueryRouting.Json.Token
import QueryRouting.Proofs.Text.Numeral

namespace QueryRouting.Json

open Text

namespace Token

/-- Four hexadecimal digits and the code unit they stand for. -/
def IsUnit (digits : List Char) (unit : Nat) : Prop :=
  digits.length = 4 ∧ digits.all (Numeral.isDigitIn 16) ∧ Numeral.valueIn 16 digits = unit

/-- The escapes of one character. -/
def escapes : List (Char × Char) :=
  [('"', '"'), ('\\', '\\'), ('/', '/'), ('b', '\x08'), ('f', '\x0c'), ('n', '\n'), ('r', '\r'),
    ('t', '\t')]

/-- What stands between quotes, and the characters that it denotes. -/
inductive StringBody : List Char → List Char → Prop
  | nil : StringBody [] []
  | plain {c : Char} {body s : List Char} (hquote : c ≠ '"') (hescape : c ≠ '\\')
    (hcontrol : 0x20 ≤ c.toNat) (h : StringBody body s) : StringBody (c :: body) (c :: s)
  | escape {e c : Char} {body s : List Char} (he : (e, c) ∈ escapes) (h : StringBody body s) :
    StringBody ('\\' :: e :: body) (c :: s)
  | unit {digits body s : List Char} {u : Nat} (hu : IsUnit digits u)
    (hlone : isHighSurrogate u = false ∧ isLowSurrogate u = false) (h : StringBody body s) :
    StringBody ('\\' :: 'u' :: (digits ++ body)) (Char.ofNat u :: s)
  | pair {first second body s : List Char} {high low : Nat} (hf : IsUnit first high)
    (hs : IsUnit second low) (hhigh : isHighSurrogate high) (hlow : isLowSurrogate low)
    (h : StringBody body s) :
    StringBody ('\\' :: 'u' :: (first ++ '\\' :: 'u' :: (second ++ body)))
      (Char.ofNat (0x10000 + (high - 0xd800) * 0x400 + (low - 0xdc00)) :: s)

section String

variable {cs body read s rest : List Char} {c e : Char}

theorem simpleEscape?_eq_some_iff : simpleEscape? e = some c ↔ (e, c) ∈ escapes := by
  unfold simpleEscape?
  split
  all_goals simp_all [escapes, eq_comm]

theorem unit?_eq_some_iff {u : Nat} : unit? cs = some u ↔ IsUnit cs u := by
  unfold unit? IsUnit
  split
  · rename_i h
    rw [Option.some_inj]
    exact ⟨fun hu => ⟨h.1, h.2, hu⟩, fun hu => hu.2.2⟩
  · rename_i h
    simp only [reduceCtorEq, false_iff]
    exact fun hu => h ⟨hu.1, hu.2.1⟩

theorem unicodeEscape?_of_unit {digits : List Char} {u : Nat} (hu : IsUnit digits u)
    (hlone : isHighSurrogate u = false ∧ isLowSurrogate u = false) (rest : List Char) :
    unicodeEscape? (digits ++ rest) = some (Char.ofNat u, 4) := by
  have htake : (digits ++ rest).take 4 = digits := List.take_left' hu.1
  unfold unicodeEscape?
  rw [htake, unit?_eq_some_iff.2 hu]
  simp [hlone]

theorem unicodeEscape?_of_pair {first second : List Char} {high low : Nat} (hf : IsUnit first high)
    (hs : IsUnit second low) (hhigh : isHighSurrogate high) (hlow : isLowSurrogate low)
    (rest : List Char) :
    unicodeEscape? (first ++ '\\' :: 'u' :: (second ++ rest)) =
      some (Char.ofNat (0x10000 + (high - 0xd800) * 0x400 + (low - 0xdc00)), 10) := by
  have htake : (first ++ '\\' :: 'u' :: (second ++ rest)).take 4 = first := List.take_left' hf.1
  have hdrop : (first ++ '\\' :: 'u' :: (second ++ rest)).drop 4 =
      '\\' :: 'u' :: (second ++ rest) := List.drop_left' hf.1
  have htake' : (second ++ rest).take 4 = second := List.take_left' hs.1
  unfold unicodeEscape?
  rw [htake, hdrop, unit?_eq_some_iff.2 hf]
  simp [hhigh, hlow, htake', unit?_eq_some_iff.2 hs]

theorem exists_of_unicodeEscape? {n : Nat} (h : unicodeEscape? cs = some (c, n)) :
    (∃ digits u, cs = digits ++ cs.drop n ∧ IsUnit digits u ∧
      (isHighSurrogate u = false ∧ isLowSurrogate u = false) ∧ c = Char.ofNat u) ∨
      ∃ first second high low, cs = first ++ '\\' :: 'u' :: (second ++ cs.drop n) ∧
        IsUnit first high ∧ IsUnit second low ∧ isHighSurrogate high ∧ isLowSurrogate low ∧
        c = Char.ofNat (0x10000 + (high - 0xd800) * 0x400 + (low - 0xdc00)) := by
  unfold unicodeEscape? at h
  rw [Option.bind_eq_bind, Option.bind_eq_some_iff] at h
  obtain ⟨u, hu, h⟩ := h
  rw [unit?_eq_some_iff] at hu
  have hcs : cs = cs.take 4 ++ cs.drop 4 := (List.take_append_drop 4 cs).symm
  split at h
  · rename_i hhigh
    split at h
    · rename_i rest hrest
      rw [Option.bind_eq_some_iff] at h
      obtain ⟨low, hlow, h⟩ := h
      rw [unit?_eq_some_iff] at hlow
      rw [Option.ite_none_right_eq_some] at h
      obtain ⟨hl, h⟩ := h
      obtain ⟨rfl, rfl⟩ := Prod.mk.inj (Option.some.inj h)
      have hdrop : cs.drop 10 = rest.drop 4 := by
        have h6 : cs.drop 10 = (cs.drop 4).drop 6 := by rw [List.drop_drop]
        rw [h6, hrest]
        rfl
      refine .inr ⟨cs.take 4, rest.take 4, u, low, ?_, hu, hlow, hhigh, hl, rfl⟩
      rw [hdrop, List.take_append_drop, ← hrest]
      exact hcs
    · cases h
  · rename_i hhigh
    rw [Option.ite_none_left_eq_some] at h
    obtain ⟨hlow, h⟩ := h
    obtain ⟨rfl, rfl⟩ := Prod.mk.inj (Option.some.inj h)
    exact .inl ⟨cs.take 4, u, hcs, hu, ⟨by simpa using hhigh, by simpa using hlow⟩, rfl⟩

theorem reverse_cons_append (c : Char) (l t : List Char) :
    (c :: l).reverse ++ t = l.reverse ++ c :: t := by
  rw [List.reverse_cons, List.append_assoc, List.singleton_append]

theorem readString_plain (hquote : c ≠ '"') (hescape : c ≠ '\\') (hcontrol : 0x20 ≤ c.toNat)
    (cs : List Char) : readString read (c :: cs) = readString (c :: read) cs := by
  rw [readString, if_neg (Nat.not_lt.2 hcontrol)]
  · exact hquote
  · rintro rest rfl
    exact absurd rfl hescape
  · rintro e rest rfl
    exact absurd rfl hescape

theorem readString_escape (he : (e, c) ∈ escapes) (cs : List Char) :
    readString read ('\\' :: e :: cs) = readString (c :: read) cs := by
  rw [readString, simpleEscape?_eq_some_iff.2 he]
  · rfl
  · rintro rfl
    exact absurd he (by simp [escapes])

theorem readString_unicode {n : Nat} (h : unicodeEscape? cs = some (c, n)) :
    readString read ('\\' :: 'u' :: cs) = readString (c :: read) (cs.drop n) := by
  rw [readString, h]
  rfl

theorem StringBody.readString (h : StringBody body s) (read rest : List Char) :
    readString read (body ++ '"' :: rest) = some (read.reverse ++ s, rest) := by
  induction h generalizing read with
  | nil => rw [List.nil_append, Token.readString, List.append_nil]
  | plain hquote hescape hcontrol _ ih =>
    rw [List.cons_append, readString_plain hquote hescape hcontrol, ih,
      reverse_cons_append]
  | escape he _ ih =>
    rw [List.cons_append, List.cons_append, readString_escape he, ih,
      reverse_cons_append]
  | unit hu hlone _ ih =>
    rw [List.cons_append, List.cons_append, List.append_assoc,
      readString_unicode (unicodeEscape?_of_unit hu hlone _), List.drop_left' hu.1, ih,
      reverse_cons_append]
  | @pair first second body s high low hf hs hhigh hlow _ ih =>
    have hdrop : (first ++ '\\' :: 'u' :: (second ++ (body ++ '"' :: rest))).drop 10 =
        body ++ '"' :: rest := by
      have hlength : (first ++ '\\' :: 'u' :: second).length = 10 := by
        rw [List.length_append, List.length_cons, List.length_cons, hf.1, hs.1]
      have h : ((first ++ '\\' :: 'u' :: second) ++ (body ++ '"' :: rest)).drop 10 =
          body ++ '"' :: rest := List.drop_left' hlength
      rwa [List.append_assoc] at h
    rw [List.cons_append, List.cons_append, List.append_assoc, List.cons_append, List.cons_append,
      List.append_assoc, readString_unicode (unicodeEscape?_of_pair hf hs hhigh hlow _), hdrop, ih,
      reverse_cons_append]

theorem exists_of_readString (h : readString read cs = some (s, rest)) :
    ∃ body t, cs = body ++ '"' :: rest ∧ StringBody body t ∧ s = read.reverse ++ t := by
  fun_induction readString read cs with
  | case1 => cases h
  | case2 =>
    cases h
    exact ⟨[], [], rfl, .nil, (List.append_nil _).symm⟩
  | case3 read cs ih =>
    rw [Option.bind_eq_bind, Option.bind_eq_some_iff] at h
    obtain ⟨⟨c, n⟩, hc, h⟩ := h
    obtain ⟨body, t, hcs, hbody, rfl⟩ := ih c n h
    rw [reverse_cons_append]
    obtain ⟨digits, u, hdigits, hu, hlone, hchar⟩ |
      ⟨first, second, high, low, hdigits, hf, hs, hhigh, hlow, hchar⟩ :=
        exists_of_unicodeEscape? hc
    · rw [hcs] at hdigits
      refine ⟨_, _, ?_, .unit hu hlone hbody, by rw [hchar]⟩
      rw [hdigits, List.cons_append, List.cons_append, List.append_assoc]
    · rw [hcs] at hdigits
      refine ⟨_, _, ?_, .pair hf hs hhigh hlow hbody, by rw [hchar]⟩
      rw [hdigits, List.cons_append, List.cons_append, List.append_assoc, List.cons_append,
        List.cons_append, List.append_assoc]
  | case4 read e cs _ ih =>
    rw [Option.bind_eq_bind, Option.bind_eq_some_iff] at h
    obtain ⟨c, hc, h⟩ := h
    obtain ⟨body, t, rfl, hbody, rfl⟩ := ih c h
    rw [reverse_cons_append]
    exact ⟨_, _, rfl, .escape (simpleEscape?_eq_some_iff.1 hc) hbody, rfl⟩
  | case5 => cases h
  | case6 read c cs hquote _ hescape hcontrol ih =>
    obtain ⟨body, t, rfl, hbody, rfl⟩ := ih h
    rw [reverse_cons_append]
    refine ⟨_, _, rfl, .plain hquote ?_ (Nat.not_lt.1 hcontrol) hbody, rfl⟩
    rintro rfl
    cases body with
    | nil => exact hescape _ _ rfl rfl
    | cons => exact hescape _ _ rfl rfl

theorem StringBody.length_le (h : StringBody body s) : s.length ≤ body.length := by
  induction h with
  | nil => exact Nat.le_refl 0
  | _ =>
    simp only [List.length_cons, List.length_append]
    omega

end String

/-- The digits behind a point, if there is one. -/
inductive IsFraction : List Char → Option (List Char) → Prop
  | absent : IsFraction [] none
  | point {digits : List Char} (hd : Numeral.isNumeral digits) :
    IsFraction ('.' :: digits) (some digits)

/-- The digits of an exponent, if there is one, and whether it is negative. -/
inductive IsPower : List Char → Option (Bool × List Char) → Prop
  | absent : IsPower [] none
  | marked {mark : Char} {sign digits : List Char} {negative : Bool} (hm : mark = 'e' ∨ mark = 'E')
    (hs : Numeral.IsSign sign negative) (hd : Numeral.isNumeral digits) :
    IsPower (mark :: (sign ++ digits)) (some (negative, digits))

/-- A number without its sign; a whole part that begins with a zero is that zero alone. -/
inductive IsMagnitude :
    List Char → List Char → Option (List Char) → Option (Bool × List Char) → Prop
  | intro {whole fraction power : List Char} {f : Option (List Char)}
    {e : Option (Bool × List Char)} (hw : Numeral.isNumeral whole)
    (hzero : whole.head? = some '0' → whole = ['0']) (hf : IsFraction fraction f)
    (he : IsPower power e) : IsMagnitude (whole ++ (fraction ++ power)) whole f e

inductive IsNumber : List Char → NumberText → Prop
  | positive {cs whole : List Char} {f : Option (List Char)} {e : Option (Bool × List Char)}
    (h : IsMagnitude cs whole f e) : IsNumber cs ⟨false, whole, f, e⟩
  | negative {cs whole : List Char} {f : Option (List Char)} {e : Option (Bool × List Char)}
    (h : IsMagnitude cs whole f e) : IsNumber ('-' :: cs) ⟨true, whole, f, e⟩

/-- No number goes on here. -/
def EndsNumber (rest : List Char) : Prop :=
  ∀ c ∈ rest.head?, c.isDigit = false ∧ c ≠ '.' ∧ c ≠ 'e' ∧ c ≠ 'E'

section Number

variable {cs digits text rest whole : List Char} {f : Option (List Char)}
  {e : Option (Bool × List Char)} {t : NumberText} {negative : Bool}

theorem digits?_append (hd : Numeral.isNumeral digits)
    (hrest : ∀ c ∈ rest.head?, c.isDigit = false) :
    digits? (digits ++ rest) = some (digits, rest) := by
  obtain ⟨hne, hall⟩ := Numeral.isNumeral_iff.1 hd
  obtain ⟨htake, hdrop⟩ := takeWhile_dropWhile_append hall hrest
  unfold digits?
  rw [htake, hdrop]
  simp [hne]

theorem of_digits? (h : digits? cs = some (digits, rest)) :
    cs = digits ++ rest ∧ Numeral.isNumeral digits := by
  unfold digits? at h
  dsimp only at h
  split at h
  · cases h
  · rename_i hne
    cases h
    refine ⟨List.takeWhile_append_dropWhile.symm, Numeral.isNumeral_iff.2 ⟨?_, ?_⟩⟩
    · simpa using hne
    · exact List.all_eq_true.1 List.all_takeWhile

theorem readFraction_append (hf : IsFraction text f)
    (hrest : ∀ c ∈ rest.head?, c.isDigit = false ∧ c ≠ '.') :
    readFraction (text ++ rest) = some (f, rest) := by
  cases hf with
  | absent =>
    unfold readFraction
    split
    · rename_i h
      rw [List.nil_append] at h
      exact absurd rfl (hrest '.' (by rw [h]; rfl)).2
    · rfl
  | point hd =>
    rw [List.cons_append, readFraction, digits?_append hd fun c hc => (hrest c hc).1]
    rfl

theorem of_readFraction (h : readFraction cs = some (f, rest)) :
    ∃ text, cs = text ++ rest ∧ IsFraction text f := by
  unfold readFraction at h
  split at h
  · rw [Option.map_eq_some_iff] at h
    obtain ⟨⟨digits, after⟩, hd, h⟩ := h
    cases h
    obtain ⟨rfl, hn⟩ := of_digits? hd
    exact ⟨_, rfl, .point hn⟩
  · cases h
    exact ⟨[], rfl, .absent⟩

theorem readExponent_append (he : IsPower text e)
    (hrest : ∀ c ∈ rest.head?, c.isDigit = false ∧ c ≠ 'e' ∧ c ≠ 'E') :
    readExponent (text ++ rest) = some (e, rest) := by
  cases he with
  | absent =>
    unfold readExponent
    split
    · rename_i c after h
      rw [List.nil_append] at h
      rw [if_neg (not_or.2 (hrest c (by rw [h]; rfl)).2), List.nil_append]
    · rename_i h
      rw [List.nil_append] at h
      rw [h]
      rfl
  | @marked mark sign digits negative hm hs hd =>
    have hdigits := digits?_append hd fun c hc => (hrest c hc).1
    rw [List.cons_append, List.append_assoc]
    cases hs with
    | plus =>
      rw [List.singleton_append, readExponent, if_pos hm, hdigits]
      rfl
    | minus =>
      rw [List.singleton_append, readExponent, if_pos hm, hdigits]
      rfl
    | absent =>
      have hsign {c : Char} (hc : c.isDigit = false) (after : List Char) :
          digits ++ rest ≠ c :: after := by
        intro h
        obtain ⟨d, ds, rfl⟩ := List.exists_cons_of_ne_nil (Numeral.isNumeral_iff.1 hd).1
        obtain ⟨rfl, -⟩ := List.cons.inj h
        exact Numeral.not_isNumeral_cons hc hd
      rw [List.nil_append, readExponent, if_pos hm, hdigits]
      · rfl
      · exact hsign rfl
      · exact hsign rfl

theorem of_readExponent (h : readExponent cs = some (e, rest)) :
    ∃ text, cs = text ++ rest ∧ IsPower text e := by
  unfold readExponent at h
  split at h
  · split at h
    · rename_i hm
      split at h
      all_goals
        rw [Option.map_eq_some_iff] at h
        obtain ⟨⟨digits, after⟩, hd, h⟩ := h
        cases h
        obtain ⟨rfl, hn⟩ := of_digits? hd
      · exact ⟨_, rfl, .marked hm .minus hn⟩
      · exact ⟨_, rfl, .marked hm .plus hn⟩
      · exact ⟨_, rfl, .marked hm .absent hn⟩
    · cases h
      exact ⟨[], rfl, .absent⟩
  · cases h
    exact ⟨[], rfl, .absent⟩

theorem IsPower.head (he : IsPower text e) (hrest : EndsNumber rest) :
    ∀ c ∈ (text ++ rest).head?, c.isDigit = false ∧ c ≠ '.' := by
  cases he with
  | absent => exact fun c hc => ⟨(hrest c hc).1, (hrest c hc).2.1⟩
  | marked hm _ _ =>
    rintro c ⟨⟩
    rcases hm with rfl | rfl <;> exact ⟨rfl, by decide⟩

theorem IsFraction.head (hf : IsFraction text f) (hrest : ∀ c ∈ rest.head?, c.isDigit = false) :
    ∀ c ∈ (text ++ rest).head?, c.isDigit = false := by
  cases hf with
  | absent => exact hrest
  | point _ =>
    rintro c ⟨⟩
    rfl

theorem readMagnitude_append (h : IsMagnitude text whole f e) (hrest : EndsNumber rest)
    (negative : Bool) :
    readMagnitude negative (text ++ rest) = some (⟨negative, whole, f, e⟩, rest) := by
  cases h with
  | @intro _ fraction power _ _ hw hzero hf he =>
    have hpower := he.head hrest
    have hwhole := digits?_append hw (hf.head fun c hc => (hpower c hc).1)
    have hlead : ¬ (whole.head? = some '0' ∧ 1 < whole.length) := by
      rintro ⟨hz, hlength⟩
      rw [hzero hz] at hlength
      exact absurd hlength (by decide)
    rw [List.append_assoc, List.append_assoc]
    simp only [readMagnitude, hwhole, Option.bind_some, if_neg hlead, readFraction_append hf hpower,
      readExponent_append he fun c hc => ⟨(hrest c hc).1, (hrest c hc).2.2⟩, Option.map_some]

theorem of_readMagnitude (h : readMagnitude negative cs = some (t, rest)) :
    ∃ text whole f e, cs = text ++ rest ∧ IsMagnitude text whole f e ∧
      t = ⟨negative, whole, f, e⟩ := by
  unfold readMagnitude at h
  rw [Option.bind_eq_some_iff] at h
  obtain ⟨⟨whole, afterWhole⟩, hwhole, h⟩ := h
  dsimp only at h
  rw [Option.ite_none_left_eq_some, Option.bind_eq_some_iff] at h
  obtain ⟨hlead, ⟨f, afterFraction⟩, hfraction, h⟩ := h
  rw [Option.map_eq_some_iff] at h
  obtain ⟨⟨e, afterPower⟩, hpower, h⟩ := h
  cases h
  obtain ⟨rfl, hw⟩ := of_digits? hwhole
  obtain ⟨fraction, rfl, hf⟩ := of_readFraction hfraction
  obtain ⟨power, rfl, he⟩ := of_readExponent hpower
  refine ⟨whole ++ (fraction ++ power), whole, f, e, ?_, .intro hw ?_ hf he, rfl⟩
  · rw [List.append_assoc, List.append_assoc]
  · intro hz
    obtain ⟨ds, rfl⟩ : ∃ ds, whole = '0' :: ds := List.head?_eq_some_iff.1 hz
    cases ds with
    | nil => rfl
    | cons d ds => exact absurd ⟨hz, by simp⟩ hlead

theorem IsMagnitude.exists_cons (h : IsMagnitude text whole f e) :
    ∃ c cs, text = c :: cs ∧ c.isDigit := by
  cases h with
  | intro hw _ _ _ =>
    obtain ⟨hne, hall⟩ := Numeral.isNumeral_iff.1 hw
    obtain ⟨c, cs, rfl⟩ := List.exists_cons_of_ne_nil hne
    exact ⟨c, _, rfl, hall c List.mem_cons_self⟩

theorem readNumber_append (h : IsNumber text t) (hrest : EndsNumber rest) :
    readNumber (text ++ rest) = some (t, rest) := by
  cases h with
  | positive h =>
    obtain ⟨c, cs, rfl, hc⟩ := h.exists_cons
    rw [readNumber]
    · exact readMagnitude_append h hrest false
    · rintro after he
      obtain ⟨rfl, -⟩ := List.cons.inj he
      exact absurd hc (by decide)
  | negative h => exact readMagnitude_append h hrest true

theorem of_readNumber (h : readNumber cs = some (t, rest)) :
    ∃ text, cs = text ++ rest ∧ IsNumber text t := by
  unfold readNumber at h
  split at h
  · obtain ⟨text, whole, f, e, rfl, hm, rfl⟩ := of_readMagnitude h
    exact ⟨'-' :: text, rfl, .negative hm⟩
  · obtain ⟨text, whole, f, e, rfl, hm, rfl⟩ := of_readMagnitude h
    exact ⟨text, rfl, .positive hm⟩

end Number

/-- A token as it is written. -/
inductive Written : List Char → Token → Prop
  | arrayOpen : Written ['['] .arrayOpen
  | arrayClose : Written [']'] .arrayClose
  | objectOpen : Written ['\x7b'] .objectOpen
  | objectClose : Written ['\x7d'] .objectClose
  | comma : Written [','] .comma
  | colon : Written [':'] .colon
  | str {body s : List Char} (h : StringBody body s) :
    Written ('"' :: (body ++ ['"'])) (.str (String.ofList s))
  | nullWord : Written ['n', 'u', 'l', 'l'] (.scalar .null)
  | trueWord : Written ['t', 'r', 'u', 'e'] (.scalar (.bool true))
  | falseWord : Written ['f', 'a', 'l', 's', 'e'] (.scalar (.bool false))
  | number {cs : List Char} {t : NumberText} {v : Json} (h : IsNumber cs t)
    (hv : t.value? = some v) : Written cs (.scalar v)

/-- A text as a sequence of tokens, with space before and after any of them. -/
inductive Lexes : List Char → List Token → Prop
  | nil : Lexes [] []
  | space {c : Char} {rest : List Char} {tokens : List Token} (hc : isSpace c)
    (h : Lexes rest tokens) : Lexes (c :: rest) tokens
  | token {cs rest : List Char} {token : Token} {tokens : List Token} (ht : Written cs token)
    (h : Lexes rest tokens) : Lexes (cs ++ rest) (token :: tokens)

section Reading

variable {cs text rest after : List Char} {c : Char} {t : Token} {v : Json}

theorem of_readScalar (h : readScalar cs = some (t, rest)) :
    ∃ text, cs = text ++ rest ∧ Written text t := by
  unfold readScalar at h
  split at h
  · cases h
    exact ⟨_, rfl, .nullWord⟩
  · cases h
    exact ⟨_, rfl, .trueWord⟩
  · cases h
    exact ⟨_, rfl, .falseWord⟩
  · rw [Option.bind_eq_some_iff] at h
    obtain ⟨⟨number, after⟩, hn, h⟩ := h
    rw [Option.map_eq_some_iff] at h
    obtain ⟨v, hv, h⟩ := h
    cases h
    obtain ⟨text, rfl, hnumber⟩ := of_readNumber hn
    exact ⟨text, rfl, .number hnumber hv⟩

theorem IsNumber.exists_cons {number : NumberText} (h : IsNumber text number) :
    ∃ c cs, text = c :: cs ∧ (c = '-' ∨ c.isDigit) := by
  cases h with
  | positive h =>
    obtain ⟨c, cs, rfl, hc⟩ := h.exists_cons
    exact ⟨c, cs, rfl, .inr hc⟩
  | negative _ => exact ⟨_, _, rfl, .inl rfl⟩

theorem readScalar_append {number : NumberText} (h : IsNumber text number)
    (hv : number.value? = some v) (hrest : EndsNumber rest) :
    readScalar (text ++ rest) = some (.scalar v, rest) := by
  have hword {d : Char} (hd : ¬ (d = '-' ∨ d.isDigit)) (word : List Char) :
      text ++ rest ≠ d :: word := by
    obtain ⟨c, cs, rfl, hc⟩ := h.exists_cons
    intro he
    obtain ⟨rfl, -⟩ := List.cons.inj he
    exact hd hc
  rw [readScalar, readNumber_append h hrest]
  · simp [hv]
  · exact fun after => hword (by decide) _
  · exact fun after => hword (by decide) _
  · exact fun after => hword (by decide) _

/-- What is read is a token as it is written. -/
theorem of_read (h : read c cs = some (t, rest)) :
    ∃ text, c :: cs = text ++ rest ∧ Written text t := by
  unfold read at h
  split at h
  · cases h
    exact ⟨_, rfl, .arrayOpen⟩
  · cases h
    exact ⟨_, rfl, .arrayClose⟩
  · cases h
    exact ⟨_, rfl, .objectOpen⟩
  · cases h
    exact ⟨_, rfl, .objectClose⟩
  · cases h
    exact ⟨_, rfl, .comma⟩
  · cases h
    exact ⟨_, rfl, .colon⟩
  · rw [Option.map_eq_some_iff] at h
    obtain ⟨⟨s, after⟩, hs, h⟩ := h
    cases h
    obtain ⟨body, t, rfl, hbody, rfl⟩ := exists_of_readString hs
    exact ⟨'"' :: (body ++ ['"']), by simp, .str hbody⟩
  · exact of_readScalar h

/-- A token is read off the text in front of which it stands, if no number goes on there. -/
theorem read_of_written (h : Written text t) (hend : (∃ v, t = .scalar v) → EndsNumber rest) :
    ∃ c cs, text = c :: cs ∧ isSpace c = false ∧ read c (cs ++ rest) = some (t, rest) := by
  cases h with
  | str h =>
    refine ⟨_, _, rfl, rfl, ?_⟩
    rw [List.append_assoc, List.singleton_append, read, h.readString]
    rfl
  | number h hv =>
    obtain ⟨c, cs, rfl, hc⟩ := h.exists_cons
    have hread := readScalar_append h hv (hend ⟨_, rfl⟩)
    have hne {d : Char} (hd : ¬ (d = '-' ∨ d.isDigit)) : c ≠ d := by
      rintro rfl
      exact hd hc
    refine ⟨c, cs, rfl, ?_, ?_⟩
    · have hblank : ¬ isSpace c := by
        simp only [isSpace, Bool.or_eq_true, beq_iff_eq, not_or]
        exact ⟨⟨⟨hne (by decide), hne (by decide)⟩, hne (by decide)⟩, hne (by decide)⟩
      simpa using hblank
    · rw [read]
      · exact hread
      all_goals exact hne (by decide)
  | _ => exact ⟨_, _, rfl, rfl, rfl⟩

end Reading

/-- What may stand behind a member of an array or object. -/
def endsMember : Token → Bool
  | .arrayClose | .objectClose | .comma => true
  | _ => false

section Machine

variable {σ : Type u} {step : σ → Token → Option σ} {state final : σ} {cs : List Char}
  {tokens : List Token}

theorem endsNumber_of_lexes (h : Lexes cs tokens) (ht : ∀ t ∈ tokens.head?, t.endsMember) :
    EndsNumber cs := by
  cases h with
  | nil => exact nofun
  | @space c _ _ hc _ =>
    rintro d ⟨⟩
    simp only [isSpace, Bool.or_eq_true, beq_iff_eq] at hc
    obtain ((rfl | rfl) | rfl) | rfl := hc <;> decide
  | token hw _ =>
    have hend := ht _ rfl
    cases hw with
    | arrayClose | objectClose | comma =>
      rintro d ⟨⟩
      decide
    | _ => cases hend

theorem foldM?_of_read {c : Char} {rest : List Char} {t : Token} (hc : isSpace c = false)
    (ht : read c cs = some (t, rest)) :
    foldM? step state (c :: cs) = (step state t).bind (foldM? step · rest) := by
  rw [foldM?, if_neg (by simp [hc])]
  split
  · rename_i hn
    cases ht.symm.trans hn
  · rename_i hn
    cases ht.symm.trans hn
    cases step state t <;> rfl

/-- What a machine makes of a text, it makes of the tokens that the text consists of. -/
theorem exists_of_foldM? (h : foldM? step state cs = some final) :
    ∃ tokens, Lexes cs tokens ∧ tokens.foldlM step state = some final := by
  fun_induction foldM? step state cs with
  | case1 => exact ⟨[], .nil, h⟩
  | case2 state c cs hc ih =>
    obtain ⟨tokens, hl, hf⟩ := ih h
    exact ⟨tokens, .space hc hl, hf⟩
  | case3 => cases h
  | case4 => cases h
  | case5 state c cs hc token rest hread _ next hstep ih =>
    obtain ⟨tokens, hl, hf⟩ := ih h
    obtain ⟨text, hcs, hw⟩ := of_read hread
    refine ⟨token :: tokens, hcs ▸ .token hw hl, ?_⟩
    rw [List.foldlM_cons, hstep]
    exact hf

/--
A machine that takes no token behind a scalar but the end of a member runs over a text as it runs
over its tokens: no number is read further than it is written.
-/
theorem foldM?_of_lexes
    (hscalar : ∀ {state next next' : σ} {v : Json} {t : Token}, step state (.scalar v) = some next →
      step next t = some next' → t.endsMember)
    (hl : Lexes cs tokens) (hf : tokens.foldlM step state = some final) :
    foldM? step state cs = some final := by
  induction hl generalizing state with
  | nil =>
    rw [foldM?]
    exact hf
  | space hc _ ih =>
    rw [foldM?, if_pos hc]
    exact ih hf
  | @token text rest t tokens hw hl ih =>
    rw [List.foldlM_cons, Option.bind_eq_bind, Option.bind_eq_some_iff] at hf
    obtain ⟨next, hnext, hf⟩ := hf
    have hend : (∃ v, t = .scalar v) → EndsNumber rest := by
      rintro ⟨v, rfl⟩
      apply endsNumber_of_lexes hl
      intro t ht
      cases tokens with
      | nil => cases ht
      | cons t' tokens =>
        cases ht
        rw [List.foldlM_cons, Option.bind_eq_bind, Option.bind_eq_some_iff] at hf
        obtain ⟨next', hnext', -⟩ := hf
        exact hscalar hnext hnext'
    obtain ⟨c, cs, rfl, hspace, hread⟩ := read_of_written hw hend
    rw [List.cons_append, foldM?_of_read hspace hread, hnext]
    exact ih hf

end Machine

end Token

end QueryRouting.Json

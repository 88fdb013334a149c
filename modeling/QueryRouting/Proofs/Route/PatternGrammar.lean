import Mathlib.Data.List.Forall2
import QueryRouting.Proofs.Text.Pieces
import QueryRouting.Route.Pattern

namespace QueryRouting.Pattern

open Text

/-- A mark that may stand in a name behind its first one. -/
def Mark.Inner (m : Mark) : Prop :=
  m.closes = false ∧ m.char ≠ '*' ∧ m.char ≠ '/'

/-- What may stand between braces, and the part that it names. -/
inductive NameForm : List Mark → PatternPart → Prop
  | parameter (hc : first.char ≠ '\x7d') (hw : first.char ≠ '*') (hb : ∀ m ∈ body, Mark.Inner m) :
      NameForm (first :: body) (.parameter (String.ofList (first.char :: body.map (·.char))))
  | wildcard (hw : first.char = '*') (hne : body ≠ []) (hb : ∀ m ∈ body, Mark.Inner m) :
      NameForm (first :: body) (.wildcard (String.ofList (body.map (·.char))))

/-- A part is the last of its pattern, or a parameter and the last of its segment. -/
inductive Follows : PatternPart → List Mark → Prop
  | last : Follows part []
  | slash (h : next.char = '/') : Follows (.parameter name) (next :: rest)

inductive Form : List Mark → Pattern → Prop
  | nil : Form [] []
  | literal (ho : m.opens = false) (hc : m.closes = false) (h : Form ms p) :
      Form (m :: ms) (.literal m.char :: p)
  | part (ho : opening.opens) (hn : NameForm name part) (hc : closing.closes)
      (hf : Follows part after) (h : Form after p) :
      Form (opening :: (name ++ closing :: after)) (part :: p)

theorem mayFollow_iff {part : PatternPart} {after : List Mark} :
    mayFollow part after ↔ Follows part after := by
  constructor
  · intro h
    cases after with
    | nil => exact .last
    | cons next rest =>
      cases part with
      | parameter name => exact .slash (beq_iff_eq.1 h)
      | literal _ | wildcard _ => cases h
  · intro h
    cases h with
    | last => rfl
    | slash h => exact beq_iff_eq.2 h

theorem partOfName_eq_some_iff {first : Mark} {body : List Mark} {part : PatternPart}
    (hb : ∀ m ∈ body, m.closes = false) :
    partOfName first.char (body.map (·.char)) = some part ↔ NameForm (first :: body) part := by
  have hi : (body.map (·.char)).any (fun c => c == '*' || c == '/') = false ↔
      ∀ m ∈ body, Mark.Inner m := by
    simp only [List.any_eq_false, List.forall_mem_map, Bool.or_eq_true, beq_iff_eq, not_or]
    constructor
    · intro h m hm
      exact ⟨hb m hm, h m hm⟩
    · intro h m hm
      exact (h m hm).2
  unfold partOfName
  constructor
  · intro h
    split at h
    · cases h
    · rename_i hn
      rw [not_or, Bool.not_eq_true, hi] at hn
      split at h
      · rename_i hw
        split at h
        · cases h
        · rename_i hne
          cases h
          refine .wildcard hw ?_ hn.2
          simpa using hne
      · rename_i hw
        cases h
        exact .parameter hn.1 hw hn.2
  · intro h
    cases h with
    | parameter hc hw hb =>
      rw [if_neg (by rw [not_or, Bool.not_eq_true, hi]; exact ⟨hc, hb⟩), if_neg hw]
    | wildcard hw hne hb =>
      have hc : first.char ≠ '\x7d' := by
        rw [hw]
        decide
      rw [if_neg (by rw [not_or, Bool.not_eq_true, hi]; exact ⟨hc, hb⟩), if_pos hw, if_neg]
      simpa using hne

theorem NameForm.exists_cons {name : List Mark} {part : PatternPart} (h : NameForm name part) :
    ∃ first body, name = first :: body ∧ ∀ m ∈ body, m.closes = false := by
  cases h with
  | parameter _ _ hb | wildcard _ _ hb => exact ⟨_, _, rfl, fun m hm => (hb m hm).1⟩

theorem readPart_eq_some_iff {ms after : List Mark} {part : PatternPart} :
    readPart ms = some (part, after) ↔ ∃ name closing, ms = name ++ closing :: after ∧
      NameForm name part ∧ closing.closes ∧ Follows part after := by
  constructor
  · intro h
    cases ms with
    | nil => cases h
    | cons first rest =>
      rw [readPart] at h
      split at h
      · cases h
      · rename_i closing after' hd
        obtain ⟨hr, hb, hc⟩ := takeWhile_dropWhile_iff.1 ⟨rfl, hd⟩
        obtain ⟨part', hp, h⟩ := Option.bind_eq_some_iff.1 h
        split at h
        · rename_i hf
          cases h
          refine ⟨first :: rest.takeWhile (!·.closes), closing, by rw [List.cons_append, ← hr],
            (partOfName_eq_some_iff fun m hm => ?_).1 hp, by simpa using hc, mayFollow_iff.1 hf⟩
          simpa using hb m hm
        · cases h
  · intro h
    obtain ⟨name, closing, rfl, hn, hc, hf⟩ := h
    obtain ⟨first, body, rfl, hb⟩ := hn.exists_cons
    obtain ⟨ht, hd⟩ := (takeWhile_dropWhile_iff (p := (!·.closes))).2
      ⟨(rfl : body ++ closing :: after = _), by simpa using hb, by simpa using hc⟩
    rw [List.cons_append, readPart, hd, ht]
    simp only [(partOfName_eq_some_iff hb).2 hn, Option.bind_some, mayFollow_iff.2 hf, if_true]

theorem Mark.closes_of_opens {m : Mark} (h : m.opens) : m.closes = false := by
  have hc : m.char = '\x7b' := by
    rw [Mark.opens, Bool.and_eq_true, beq_iff_eq] at h
    exact h.1
  rw [Mark.closes, hc]
  rfl

theorem ofMarks_eq_some_iff {ms : List Mark} {p : Pattern} :
    ofMarks ms = some p ↔ Form ms p := by
  constructor
  · intro h
    fun_induction ofMarks ms generalizing p with
    | case1 =>
      cases h
      exact .nil
    | case2 => cases h
    | case3 => cases h
    | case4 m rest hc ho part after hr _ ih =>
      obtain ⟨q, hq, rfl⟩ := Option.map_eq_some_iff.1 h
      obtain ⟨name, closing, rfl, hn, hcl, hf⟩ := readPart_eq_some_iff.1 hr
      exact .part ho hn hcl hf (ih hq)
    | case5 m rest hc ho ih =>
      obtain ⟨q, hq, rfl⟩ := Option.map_eq_some_iff.1 h
      exact .literal (by simpa using ho) (by simpa using hc) (ih hq)
  · intro h
    induction h with
    | nil => rw [ofMarks]
    | literal ho hc _ ih =>
      rw [ofMarks, if_neg (by simp [hc]), if_neg (by simp [ho]), ih]
      rfl
    | part ho hn hc hf _ ih =>
      have hr := readPart_eq_some_iff.2 ⟨_, _, rfl, hn, hc, hf⟩
      rw [ofMarks, if_neg (by simp [Mark.closes_of_opens ho]), if_pos ho]
      split
      · rename_i hr'
        cases hr.symm.trans hr'
      · rename_i hr'
        cases hr.symm.trans hr'
        rw [ih]
        rfl

/-- The pattern that a path is written for. -/
structure WrittenAs (path : String) (p : Pattern) : Prop where
  form : Form (marks path.toList) p
  few : p.countP isParameter < 26

theorem ofString?_eq_some_iff {path : String} {p : Pattern} :
    ofString? path = some p ↔ WrittenAs path p := by
  rw [ofString?, Option.filter_eq_some_iff, ofMarks_eq_some_iff, decide_eq_true_iff]
  constructor
  · intro h
    exact ⟨h.1, h.2⟩
  · intro h
    exact ⟨h.form, h.few⟩

def Written (path : String) : Prop :=
  ∃ p, WrittenAs path p

theorem written_iff {path : String} : Written path ↔ (ofString? path).isSome := by
  rw [Option.isSome_iff_exists]
  exact exists_congr fun p => ofString?_eq_some_iff.symm

instance (path : String) : Decidable (Written path) :=
  decidable_of_iff' _ written_iff

theorem WrittenAs.unique {path : String} {p q : Pattern} (hp : WrittenAs path p)
    (hq : WrittenAs path q) : p = q := by
  rw [← ofString?_eq_some_iff] at hp hq
  exact Option.some.inj (hp.symm.trans hq)

/-- Parts alike but for their names. -/
inductive Alike : PatternPart → PatternPart → Prop
  | literal : Alike (.literal c) (.literal c)
  | parameter : Alike (.parameter name) (.parameter name')
  | wildcard : Alike (.wildcard name) (.wildcard name')

/-- A wildcard and another part that is no literal. -/
inductive Crosses : PatternPart → PatternPart → Prop
  | wildcards : Crosses (.wildcard name) (.wildcard name')
  | left : Crosses (.wildcard name) (.parameter name')
  | right : Crosses (.parameter name) (.wildcard name')

/-- Patterns that cannot be told apart: all their parts are alike, or all until two that cross. -/
inductive Clash : Pattern → Pattern → Prop
  | alike (h : List.Forall₂ Alike p q) : Clash p q
  | crossing (h : List.Forall₂ Alike before before') (hx : Crosses x x') :
      Clash (before ++ x :: after) (before' ++ x' :: after')

theorem Alike.symm {x y : PatternPart} (h : Alike x y) : Alike y x := by
  cases h with
  | literal => exact .literal
  | parameter => exact .parameter
  | wildcard => exact .wildcard

theorem Crosses.symm {x y : PatternPart} (h : Crosses x y) : Crosses y x := by
  cases h with
  | wildcards => exact .wildcards
  | left => exact .right
  | right => exact .left

theorem Clash.refl (p : Pattern) : Clash p p := by
  apply Clash.alike
  apply List.forall₂_same.2
  intro part _
  cases part with
  | literal => exact .literal
  | parameter => exact .parameter
  | wildcard => exact .wildcard

theorem Clash.symm {p q : Pattern} (h : Clash p q) : Clash q p := by
  cases h with
  | alike h => exact .alike (h.flip.imp fun _ _ => Alike.symm)
  | crossing h hx => exact .crossing (h.flip.imp fun _ _ => Alike.symm) hx.symm

theorem Clash.cons {x y : PatternPart} {p q : Pattern} (hx : Alike x y) (h : Clash p q) :
    Clash (x :: p) (y :: q) := by
  cases h with
  | alike h => exact .alike (.cons hx h)
  | crossing h hc => exact .crossing (.cons hx h) hc

theorem conflicts_of_crosses {x y : PatternPart} (h : Crosses x y) (p q : Pattern) :
    conflicts (x :: p) (y :: q) := by
  cases h with
  | wildcards | left | right => rfl

theorem conflicts_cons {x y : PatternPart} {p q : Pattern} (h : Alike x y)
    (hc : conflicts p q) : conflicts (x :: p) (y :: q) := by
  cases h with
  | literal => rw [conflicts, hc, beq_self_eq_true, Bool.and_self]
  | parameter => exact hc
  | wildcard => rfl

theorem conflicts_iff {p q : Pattern} : conflicts p q ↔ Clash p q := by
  constructor
  · intro h
    fun_induction conflicts p q with
    | case1 => exact .alike .nil
    | case2 c p d q ih =>
      rw [Bool.and_eq_true, beq_iff_eq] at h
      obtain ⟨rfl, hc⟩ := h
      exact (ih hc).cons .literal
    | case3 _ p _ q ih => exact (ih h).cons .parameter
    | case4 => exact .crossing .nil .wildcards
    | case5 => exact .crossing .nil .left
    | case6 => exact .crossing .nil .right
    | case7 => cases h
  · intro h
    cases h with
    | alike h =>
      induction h with
      | nil => rfl
      | cons hx _ ih => exact conflicts_cons hx ih
    | crossing h hc =>
      induction h with
      | nil => exact conflicts_of_crosses hc _ _
      | cons hx _ ih => exact conflicts_cons hx ih

/-- Paths whose patterns can be told apart. -/
def Apart (path path' : String) : Prop :=
  ∀ p q, WrittenAs path p → WrittenAs path' q → ¬ Clash p q

instance : Std.Symm Apart where
  symm _ _ h p q hp hq hc := h q p hq hp hc.symm

theorem WrittenAs.apart_iff {path path' : String} {p q : Pattern} (hp : WrittenAs path p)
    (hq : WrittenAs path' q) : Apart path path' ↔ ¬ Clash p q := by
  constructor
  · intro h
    exact h p q hp hq
  · intro h p' q' hp' hq'
    rwa [hp'.unique hp, hq'.unique hq]

theorem apart_iff {path path' : String} : Apart path path' ↔
    ∀ p ∈ ofString? path, ∀ q ∈ ofString? path', conflicts p q = false := by
  simp only [Apart, Option.mem_def, ofString?_eq_some_iff, ← Bool.not_eq_true, conflicts_iff]
  constructor
  · intro h p hp q hq
    exact h p q hp hq
  · intro h p q hp hq
    exact h p hp q hq

instance (path path' : String) : Decidable (Apart path path') :=
  decidable_of_iff' _ apart_iff

end QueryRouting.Pattern

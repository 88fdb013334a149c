import QueryRouting.Chain.Context
import QueryRouting.Proofs.Query.Division
import QueryRouting.Proofs.Traversal

namespace QueryRouting

open Text Traversal

/-- The values that paths refer to. -/
abbrev Lookup := String → Except ResolveError Json

namespace TypeNote

def declared (note : TypeNote) : ParameterType :=
  ⟨String.ofList note.name, note.args.map (·.map Numeral.value)⟩

/-- Every argument is a number of 32 bits. -/
def InRange (note : TypeNote) : Prop :=
  ∀ args, note.args = some args → ∀ digits ∈ args, Numeral.value digits < 4294967296

/-- The first argument that is too large, as it is written. -/
def FirstTooLarge (note : TypeNote) (digits : List Char) : Prop :=
  ∃ before after, note.args = some (before ++ digits :: after) ∧
    (∀ d ∈ before, Numeral.value d < 4294967296) ∧ 4294967296 ≤ Numeral.value digits

theorem decodeArg_eq_ok_iff (name digits : List Char) (n : Nat) :
    decodeArg name digits = .ok n ↔
      Numeral.value digits < 4294967296 ∧ n = Numeral.value digits := by
  unfold decodeArg
  by_cases h : Numeral.value digits < argumentBound
  · rw [if_pos h, Except.ok.injEq, eq_comm]
    exact ⟨fun he => ⟨h, he⟩, And.right⟩
  · rw [if_neg h]
    exact ⟨(nomatch ·), fun he => absurd he.1 h⟩

theorem decodeArg_eq_error_iff {name digits : List Char} {e : TemplateError} :
    decodeArg name digits = .error e ↔ 4294967296 ≤ Numeral.value digits ∧
      e = .typeArgument (String.ofList name) (String.ofList digits) := by
  unfold decodeArg
  by_cases h : Numeral.value digits < argumentBound
  · rw [if_pos h]
    exact ⟨(nomatch ·), fun he => absurd h (Nat.not_lt.2 he.1)⟩
  · rw [if_neg h, Except.error.injEq, eq_comm]
    exact ⟨fun he => ⟨Nat.not_lt.1 h, he⟩, And.right⟩

theorem decodeArgs_eq_mapM (name : List Char) (args : List (List Char)) :
    decodeArgs name args = args.mapM (decodeArg name) := by
  induction args with
  | nil => rfl
  | cons digits rest ih => rw [decodeArgs, List.mapM_cons, ih]

theorem decode_none (name : List Char) :
    decode ⟨name, none⟩ = .ok ⟨String.ofList name, none⟩ := rfl

theorem decode_some (name : List Char) (args : List (List Char)) :
    decode ⟨name, some args⟩ =
      (args.mapM (decodeArg name)).map fun ns => ⟨String.ofList name, some ns⟩ := by
  rw [← decodeArgs_eq_mapM]
  rfl

theorem decode_eq_ok_iff {note : TypeNote} {t : ParameterType} :
    note.decode = .ok t ↔ note.InRange ∧ t = note.declared := by
  obtain ⟨name, args⟩ := note
  cases args with
  | none => simp [decode_none, InRange, declared, eq_comm]
  | some args =>
    have hm (ns : List Nat) : args.mapM (decodeArg name) = .ok ns ↔
        (∀ d ∈ args, Numeral.value d < 4294967296) ∧ ns = args.map Numeral.value :=
      mapM_eq_ok_map_iff (decodeArg_eq_ok_iff name)
    simp only [decode_some, map_eq_ok_iff, hm, InRange, declared, Option.some.injEq]
    constructor
    · rintro ⟨ns, ⟨hr, rfl⟩, rfl⟩
      exact ⟨by rintro _ rfl; exact hr, rfl⟩
    · rintro ⟨hr, rfl⟩
      exact ⟨_, ⟨hr _ rfl, rfl⟩, rfl⟩

theorem decode_eq_error_iff {note : TypeNote} {e : TemplateError} :
    note.decode = .error e ↔ ∃ digits, note.FirstTooLarge digits ∧
      e = .typeArgument (String.ofList note.name) (String.ofList digits) := by
  obtain ⟨name, args⟩ := note
  cases args with
  | none => simp [decode_none, FirstTooLarge]
  | some args =>
    simp only [decode_some, map_eq_error_iff, mapM_eq_error_iff, FirstTooLarge,
      decodeArg_eq_ok_iff, decodeArg_eq_error_iff, Option.some.injEq]
    constructor
    · rintro ⟨before, digits, after, rfl, hb, hd, rfl⟩
      refine ⟨digits, ⟨before, after, rfl, fun d hd => ?_, hd⟩, rfl⟩
      obtain ⟨n, hn, -⟩ := hb d hd
      exact hn
    · rintro ⟨digits, ⟨before, after, rfl, hb, hd⟩, rfl⟩
      exact ⟨before, digits, after, rfl, fun d hd => ⟨_, hb d hd, rfl⟩, hd, rfl⟩

end TypeNote

namespace Reference

def declared (r : Reference) : Option ParameterType :=
  r.note.map (·.declared)

def resolve (r : Reference) (lookup : Lookup) : Except ResolveError Json :=
  lookup (String.ofList r.path)

/-- The path resolves and the annotation is in range. -/
def Binds (r : Reference) (lookup : Lookup) : Prop :=
  (∃ v, r.resolve lookup = .ok v) ∧ ∀ note, r.note = some note → note.InRange

/-- Why a reference cannot be bound: its path counts before its annotation. -/
inductive Fails (lookup : Lookup) (r : Reference) : TemplateError → Prop
  | path (h : r.resolve lookup = .error e) : Fails lookup r (.resolve e)
  | note (hv : r.resolve lookup = .ok v) (hn : r.note = some n)
      (hd : n.FirstTooLarge digits) :
      Fails lookup r (.typeArgument (String.ofList n.name) (String.ofList digits))

end Reference

/-- The error of the first reference that cannot be bound. -/
def FirstFailure (lookup : Lookup) (rs : List Reference) (e : TemplateError) : Prop :=
  ∃ before r after, rs = before ++ r :: after ∧ (∀ x ∈ before, x.Binds lookup) ∧ r.Fails lookup e

namespace Template

open Occurrence

theorem bindReference_eq_ok_iff {lookup : Lookup} {r : Reference}
    {b : Json × Option ParameterType} :
    bindReference lookup r = .ok b ↔ r.resolve lookup = .ok b.1 ∧
      (∀ note, r.note = some note → note.InRange) ∧ b.2 = r.declared := by
  obtain ⟨note, path⟩ := r
  obtain ⟨v, t⟩ := b
  simp only [bindReference, bind_eq_ok_iff, mapError_eq_ok_iff, Reference.resolve,
    Reference.declared]
  cases note with
  | none =>
    constructor
    · rintro ⟨w, hw, he⟩
      obtain ⟨rfl, rfl⟩ := Prod.mk.inj (Except.ok.inj he)
      exact ⟨hw, nofun, rfl⟩
    · rintro ⟨hv, -, rfl⟩
      exact ⟨v, hv, rfl⟩
  | some note =>
    simp only [bind_eq_ok_iff, TypeNote.decode_eq_ok_iff, Option.map_some]
    constructor
    · rintro ⟨w, hw, t, ⟨hr, rfl⟩, he⟩
      obtain ⟨rfl, rfl⟩ := Prod.mk.inj (Except.ok.inj he)
      exact ⟨hw, by rintro _ ⟨⟩; exact hr, rfl⟩
    · rintro ⟨hv, hr, rfl⟩
      exact ⟨v, hv, _, ⟨hr note rfl, rfl⟩, rfl⟩

theorem bindReference_isOk_iff {lookup : Lookup} {r : Reference} :
    (∃ b, bindReference lookup r = .ok b) ↔ r.Binds lookup := by
  simp only [bindReference_eq_ok_iff, Reference.Binds]
  constructor
  · rintro ⟨b, hv, hr, -⟩
    exact ⟨⟨b.1, hv⟩, hr⟩
  · rintro ⟨⟨v, hv⟩, hr⟩
    exact ⟨(v, r.declared), hv, hr, rfl⟩

theorem bindReference_eq_error_iff {lookup : Lookup} {r : Reference} {e : TemplateError} :
    bindReference lookup r = .error e ↔ r.Fails lookup e := by
  obtain ⟨note, path⟩ := r
  simp only [bindReference, bind_eq_error_iff, mapError_eq_error_iff, mapError_eq_ok_iff]
  constructor
  · rintro (⟨e, he, rfl⟩ | ⟨v, hv, h⟩)
    · exact .path he
    · cases note with
      | none => cases h
      | some note =>
        rcases bind_eq_error_iff.1 h with hn | ⟨t, -, h⟩
        · obtain ⟨digits, hd, rfl⟩ := TypeNote.decode_eq_error_iff.1 hn
          exact .note hv rfl hd
        · cases h
  · rintro (he | ⟨hv, hn, hd⟩)
    · exact .inl ⟨_, he, rfl⟩
    · refine .inr ⟨_, hv, ?_⟩
      simp only at hn
      subst hn
      exact bind_eq_error_iff.2 (.inl (TypeNote.decode_eq_error_iff.2 ⟨_, hd, rfl⟩))

theorem bindReferences_eq_mapM (lookup : Lookup) (rs : List Reference) :
    bindReferences lookup rs = rs.mapM (bindReference lookup) := by
  induction rs with
  | nil => rfl
  | cons r rest ih => rw [bindReferences, List.mapM_cons, ih]

theorem describe_eq_map (t : Template) (lookup : Lookup) :
    t.describe lookup = (t.references.mapM (bindReference lookup)).map fun bound =>
      ⟨t.text, bound.map (·.1), bound.map (·.2)⟩ := by
  rw [← bindReferences_eq_mapM]
  rfl

theorem describe_isOk_iff {t : Template} {lookup : Lookup} :
    (∃ d, t.describe lookup = .ok d) ↔ ∀ r ∈ t.references, r.Binds lookup := by
  have hm := mapM_isOk_iff (f := bindReference lookup) (l := t.references)
  simp only [bindReference_isOk_iff] at hm
  rw [← hm, describe_eq_map]
  simp only [map_eq_ok_iff]
  constructor
  · rintro ⟨_, bound, hb, -⟩
    exact ⟨bound, hb⟩
  · rintro ⟨bound, hb⟩
    exact ⟨_, bound, hb, rfl⟩

theorem describe_eq_error_iff {t : Template} {lookup : Lookup} {e : TemplateError} :
    t.describe lookup = .error e ↔ FirstFailure lookup t.references e := by
  simp only [describe_eq_map, map_eq_error_iff, mapM_eq_error_iff, bindReference_isOk_iff,
    bindReference_eq_error_iff, FirstFailure]

theorem describe_eq_ok {t : Template} {lookup : Lookup} {d : Descriptor}
    (h : t.describe lookup = .ok d) :
    d.text = t.text ∧ d.values.map .ok = t.references.map (·.resolve lookup) ∧
      d.types = t.references.map (·.declared) := by
  rw [describe_eq_map, map_eq_ok_iff] at h
  obtain ⟨bound, hb, rfl⟩ := h
  refine ⟨rfl, ?_, ?_⟩
  · rw [List.map_map]
    exact (map_eq_map_of_mapM (fun r b hr => (bindReference_eq_ok_iff.1 hr).1) hb).symm
  · exact (map_eq_map_of_mapM (fun r b hr => (bindReference_eq_ok_iff.1 hr).2.2.symm) hb).symm

def placeholders (count : Nat) : List (List Char) :=
  (List.range count).map fun i => placeholder (i + 1)

theorem append_renderFrom (head : List Char) (position : Nat)
    (tail : List (Reference × List Char)) :
    head ++ renderFrom position tail =
      weave (head :: tail.map (·.2))
        ((List.range' position tail.length).map placeholder) := by
  induction tail generalizing head position with
  | nil => simp [renderFrom, weave]
  | cons part rest ih =>
    obtain ⟨r, literal⟩ := part
    rw [List.length_cons, List.range'_succ, List.map_cons, List.map_cons, weave, ← ih, renderFrom,
      List.append_assoc, List.append_assoc]

theorem text_eq_weave (t : Template) :
    t.text = String.ofList (weave t.literals (placeholders t.references.length)) := by
  have hp : placeholders t.references.length =
      (List.range' 1 t.tail.length).map placeholder := by
    rw [placeholders, references, List.length_map, List.range'_eq_map_range, List.map_map]
    congr 1
    funext i
    rw [Function.comp_apply, Nat.add_comm]
  rw [text, append_renderFrom, hp]
  rfl

/--
A template has exactly one division into leftmost references. It loses nothing, and no reference is
left in a literal stretch. The template has a query if and only if every reference can be bound,
and this query puts a placeholder for each reference and binds its value and declared type. If it
has none, the failure is that of the first reference that cannot be bound.
-/
theorem describe_ofString (s : String) (cx : Context) :
    ∃ os, Leftmost s.toList 0 os ∧ (∀ os', Leftmost s.toList 0 os' → os' = os) ∧
      weave (stretches s.toList 0 os) (os.map (·.written)) = s.toList ∧
      (∀ g ∈ gaps s.toList 0 os, ∀ o : Occurrence, o.In s.toList →
        ¬ (g.1 ≤ o.start ∧ o.stop ≤ g.2)) ∧
      ((∃ d, (ofString s).describe cx.lookup = .ok d) ↔
        ∀ o ∈ os, o.reference.Binds cx.lookup) ∧
      (∀ d, (ofString s).describe cx.lookup = .ok d →
        d.text = String.ofList (weave (stretches s.toList 0 os) (placeholders os.length)) ∧
        d.values.length = os.length ∧ d.types.length = os.length ∧
        d.values.map .ok = os.map (·.reference.resolve cx.lookup) ∧
        d.types = os.map (·.reference.declared)) ∧
      ∀ e, (ofString s).describe cx.lookup = .error e ↔
        FirstFailure cx.lookup (os.map (·.reference)) e := by
  obtain ⟨os, hdiv⟩ := divides_scan true [] s.toList (by simp)
  have hrefs : (ofString s).references = os.map (·.reference) := hdiv.references
  have hlits : (ofString s).literals = stretches s.toList 0 os := hdiv.literals
  refine ⟨os, hdiv.leftmost, fun os' h => h.unique hdiv.leftmost, hdiv.leftmost.weave_written,
    hdiv.leftmost.gap_free, ?_, ?_, ?_⟩
  · rw [describe_isOk_iff, hrefs]
    simp
  · intro d hd
    obtain ⟨htext, hvalues, htypes⟩ := describe_eq_ok hd
    rw [hrefs, List.map_map] at hvalues htypes
    have hl := congrArg List.length hvalues
    have hlt := congrArg List.length htypes
    rw [List.length_map, List.length_map] at hl
    rw [List.length_map] at hlt
    refine ⟨?_, hl, hlt, hvalues, htypes⟩
    rw [htext, text_eq_weave, hlits, hrefs, List.length_map]
  · intro e
    rw [describe_eq_error_iff, hrefs]

end Template

end QueryRouting

import QueryRouting.Proofs.Query.Grammar
import QueryRouting.Query.Template

namespace QueryRouting

/-- A reference as it is written in a text, and where. -/
structure Occurrence where
  start : Nat
  written : List Char
  reference : Reference

namespace Occurrence

def stop (o : Occurrence) : Nat :=
  o.start + o.written.length

/-- The opening colon is at the start of the text or behind a character other than a colon. -/
def In (o : Occurrence) (text : List Char) : Prop :=
  Reference.Form o.written o.reference ∧ ∃ before after,
    text = before ++ o.written ++ after ∧ before.length = o.start ∧ before.getLast? ≠ some ':'

/--
Takes the leftmost reference of the text that does not begin before a place, then goes on behind
that reference.
-/
inductive Leftmost (text : List Char) : Nat → List Occurrence → Prop
  | done (h : ∀ o : Occurrence, o.In text → o.start < place) : Leftmost text place []
  | take (hin : o.In text) (hle : place ≤ o.start)
      (hleft : ∀ o' : Occurrence, o'.In text → place ≤ o'.start → o.start ≤ o'.start)
      (hrest : Leftmost text o.stop os) : Leftmost text place (o :: os)

/-- The stretches around references, from a place to the end of the text: start and end of each. -/
def gaps (text : List Char) : Nat → List Occurrence → List (Nat × Nat)
  | place, [] => [(place, text.length)]
  | place, o :: os => (place, o.start) :: gaps text o.stop os

def stretches (text : List Char) (place : Nat) (os : List Occurrence) : List (List Char) :=
  (gaps text place os).map fun (first, last) => text.extract first last

/-- Stretches with other texts between them: the first stretch, the first text, and so on. -/
def weave : List (List Char) → List (List Char) → List Char
  | gap :: gaps, x :: xs => gap ++ x ++ weave gaps xs
  | gaps, _ => gaps.flatten

theorem written_cons (h : Reference.Form w r) : ∃ cs, w = ':' :: cs := by
  cases h <;> exact ⟨_, rfl⟩

theorem written_getLast (h : Reference.Form w r) (before : List Char) :
    (before ++ w).getLast? = some ':' := by
  cases h with
  | plain hp => rw [← List.append_assoc, List.getLast?_concat]
  | typed hn hp => rw [← List.append_assoc, List.getLast?_concat]

theorem In.start_lt_stop {o : Occurrence} (h : o.In text) : o.start < o.stop := by
  obtain ⟨cs, hcs⟩ := written_cons h.1
  simp [stop, hcs]

theorem In.stop_le {o : Occurrence} (h : o.In text) : o.stop ≤ text.length := by
  obtain ⟨-, before, after, rfl, hb, -⟩ := h
  simp only [List.length_append, stop, hb]
  omega

theorem In.drop {o : Occurrence} (h : o.In text) :
    ∃ after, text.drop o.start = o.written ++ after := by
  obtain ⟨-, before, after, rfl, hb, -⟩ := h
  exact ⟨after, by rw [← hb, List.append_assoc, List.drop_left]⟩

theorem In.getLast {o : Occurrence} (h : o.In text) :
    (text.take o.start).getLast? ≠ some ':' := by
  obtain ⟨-, before, after, rfl, hb, hl⟩ := h
  rwa [← hb, List.append_assoc, List.take_left]

theorem In.unique {o o' : Occurrence} (h : o.In text) (h' : o'.In text)
    (hs : o.start = o'.start) : o = o' := by
  obtain ⟨after, hd⟩ := h.drop
  obtain ⟨after', hd'⟩ := h'.drop
  rw [← hs, hd] at hd'
  obtain ⟨hw, hr⟩ := h.1.unique h'.1 hd'
  cases o
  cases o'
  simp_all

theorem Leftmost.unique (h : Leftmost text place os) (h' : Leftmost text place os') :
    os = os' := by
  induction h generalizing os' with
  | done hn =>
    cases h' with
    | done => rfl
    | take hin hle => exact absurd (hn _ hin) (Nat.not_lt.2 hle)
  | take hin hle hleft _ ih =>
    cases h' with
    | done hn => exact absurd (hn _ hin) (Nat.not_lt.2 hle)
    | take hin' hle' hleft' hrest' =>
      have he := In.unique hin hin' (Nat.le_antisymm (hleft _ hin' hle') (hleft' _ hin hle))
      subst he
      rw [ih hrest']

/-- No reference lies within a stretch. -/
theorem Leftmost.gap_free (h : Leftmost text place os) :
    ∀ g ∈ gaps text place os, ∀ o : Occurrence, o.In text → ¬ (g.1 ≤ o.start ∧ o.stop ≤ g.2) := by
  induction h with
  | done hn =>
    intro g hg o ho hin
    rw [gaps, List.mem_singleton] at hg
    subst hg
    exact absurd (hn o ho) (Nat.not_lt.2 hin.1)
  | take hin hle hleft _ ih =>
    intro g hg o ho hgap
    rw [gaps, List.mem_cons] at hg
    rcases hg with rfl | hg
    · have h₁ := hleft o ho hgap.1
      have h₂ := ho.start_lt_stop
      have h₃ := hgap.2
      omega
    · exact ih g hg o ho hgap

theorem length_stretches (text : List Char) (place : Nat) (os : List Occurrence) :
    (stretches text place os).length = os.length + 1 := by
  rw [stretches, List.length_map]
  induction os generalizing place with
  | nil => rfl
  | cons o os ih => rw [gaps, List.length_cons, ih, List.length_cons]

theorem Leftmost.weave_written (h : Leftmost text place os) :
    weave (stretches text place os) (os.map (·.written)) = text.drop place := by
  induction h with
  | done =>
    simp [stretches, gaps, weave, List.extract, ← List.length_drop]
  | @take place os o hin hle hleft _ ih =>
    have hg : (text.drop place).take (o.start - place) ++ text.drop o.start =
        text.drop place := by
      have hd : (text.drop place).drop (o.start - place) = text.drop o.start := by
        rw [List.drop_drop]
        congr 1
        omega
      rw [← hd, List.take_append_drop]
    have hw : o.written ++ text.drop o.stop = text.drop o.start := by
      obtain ⟨after, hd⟩ := hin.drop
      have hs : text.drop o.stop = (text.drop o.start).drop o.written.length := by
        rw [List.drop_drop, stop]
      rw [hs, hd, List.drop_left]
    have hs : stretches text place (o :: os) =
        text.extract place o.start :: stretches text o.stop os := rfl
    rw [hs, List.map_cons, weave, ih, List.append_assoc, hw, List.extract, hg]

theorem In.read {o : Occurrence} (h : o.In (before ++ rest)) (hs : o.start = before.length) :
    before.getLast? ≠ some ':' ∧
      ∃ cs after, rest = ':' :: cs ∧ Reference.read cs = some (o.reference, after) := by
  have hl := h.getLast
  rw [hs, List.take_left] at hl
  obtain ⟨after, hd⟩ := h.drop
  rw [hs, List.drop_left] at hd
  obtain ⟨cs, hcs⟩ := written_cons h.1
  refine ⟨hl, cs ++ after, after, by rw [hd, hcs]; rfl, ?_⟩
  exact Reference.read_eq_some_iff.2 ⟨o.written, h.1, by rw [hcs]; rfl⟩

theorem Leftmost.extend (h : Leftmost text (place + 1) os)
    (hn : ∀ o : Occurrence, o.In text → o.start ≠ place) : Leftmost text place os := by
  cases h with
  | done hd =>
    refine .done fun o ho => ?_
    have h₁ := hd o ho
    have h₂ := hn o ho
    omega
  | take hin hle hleft hrest =>
    refine .take hin (Nat.le_of_succ_le hle) (fun o' ho' hp => ?_) hrest
    have h₂ := hn o' ho'
    exact hleft o' ho' (by omega)

theorem extract_cons (before rest : List Char) (c : Char) {last : Nat} (h : before.length < last) :
    (before ++ c :: rest).extract before.length last =
      c :: (before ++ c :: rest).extract (before.length + 1) last := by
  obtain ⟨k, rfl⟩ : ∃ k, last = before.length + 1 + k := ⟨last - before.length - 1, by omega⟩
  have h₁ : before.length + 1 + k - before.length = k + 1 := by omega
  have h₂ : before.length + 1 + k - (before.length + 1) = k := by omega
  have hd : (before ++ c :: rest).drop (before.length + 1) = rest := by
    simp
  rw [List.extract, List.extract, h₁, h₂, hd, List.drop_left, List.take_succ_cons]

theorem Leftmost.stretches_cons (h : Leftmost (before ++ c :: rest) (before.length + 1) os) :
    ∃ g gs, stretches (before ++ c :: rest) (before.length + 1) os = g :: gs ∧
      stretches (before ++ c :: rest) before.length os = (c :: g) :: gs := by
  cases h with
  | done =>
    refine ⟨_, [], rfl, ?_⟩
    simp only [stretches, gaps, List.map_cons, List.map_nil]
    rw [extract_cons]
    simp
  | take hin hle =>
    refine ⟨_, _, rfl, ?_⟩
    simp only [stretches, gaps, List.map_cons]
    rw [extract_cons _ _ _ hle]

end Occurrence

namespace Template

open Occurrence

def literals (t : Template) : List (List Char) :=
  t.head :: t.tail.map (·.2)

theorem literals_prepend (c : Char) (t : Template) :
    (t.prepend c).literals = (c :: t.head) :: t.tail.map (·.2) := rfl

theorem literals_prependReference (r : Reference) (t : Template) :
    (t.prependReference r).literals = [] :: t.literals := rfl

/-- The references and the literal text of a template are those of some occurrences in a text. -/
structure Divides (t : Template) (text : List Char) (place : Nat) (os : List Occurrence) :
    Prop where
  leftmost : Leftmost text place os
  literals : t.literals = stretches text place os
  references : t.references = os.map (·.reference)

theorem Divides.prepend {t : Template}
    (h : t.Divides (before ++ [c] ++ rest) (before ++ [c]).length os)
    (hn : ∀ o : Occurrence, o.In (before ++ c :: rest) → o.start ≠ before.length) :
    (t.prepend c).Divides (before ++ c :: rest) before.length os := by
  rw [← List.append_cons, List.length_append, List.length_singleton] at h
  obtain ⟨g, gs, hg, hs⟩ := h.leftmost.stretches_cons
  obtain ⟨hh, ht⟩ := List.cons.inj (h.literals.trans hg)
  refine ⟨h.leftmost.extend hn, ?_, h.references⟩
  rw [literals_prepend, hh, ht, hs]

/-- The scan divides a text at its leftmost references. -/
theorem divides_scan (fresh : Bool) (before rest : List Char)
    (hf : fresh ↔ before.getLast? ≠ some ':') :
    ∃ os, (scan fresh rest).Divides (before ++ rest) before.length os := by
  -- The induction follows the scan; what it has passed is `before`, whose last character says
  -- whether a colon may open a reference here.
  fun_induction scan fresh rest generalizing before with
  | case1 fresh =>
    refine ⟨[], .done fun o ho => ?_, ?_, rfl⟩
    · have h₁ := ho.start_lt_stop
      have h₂ := ho.stop_le
      rw [List.append_nil] at h₂
      omega
    · simp [literals, stretches, gaps]
  | case2 fresh c rest hc r after hr hlen ih =>
    obtain ⟨rfl, hfresh⟩ := hc
    obtain ⟨w, hform, he⟩ := Reference.read_eq_some_iff.1 hr
    obtain ⟨os, ih⟩ := ih (before ++ w) (by simp [written_getLast hform])
    have hin : Occurrence.In ⟨before.length, w, r⟩ (before ++ ':' :: rest) :=
      ⟨hform, before, after, by rw [he, List.append_assoc], rfl, hf.1 hfresh⟩
    rw [List.append_assoc, ← he, List.length_append] at ih
    refine ⟨_ :: os, .take hin (Nat.le_refl _) (fun _ _ h => h) ih.leftmost, ?_, ?_⟩
    · rw [literals_prependReference, ih.literals]
      simp [stretches, gaps, stop]
    · rw [List.map_cons, ← ih.references]
      rfl
  | case3 fresh c rest hc hr ih =>
    obtain ⟨os, ih⟩ := ih (before ++ [c]) (by simp [hc.1])
    refine ⟨os, ih.prepend fun o ho hs => ?_⟩
    obtain ⟨-, cs, after, he, hread⟩ := ho.read hs
    obtain ⟨-, rfl⟩ := List.cons.inj he
    rw [hr] at hread
    cases hread
  | case4 fresh c rest hc ih =>
    obtain ⟨os, ih⟩ := ih (before ++ [c]) (by simp)
    refine ⟨os, ih.prepend fun o ho hs => ?_⟩
    obtain ⟨hl, cs, after, he, -⟩ := ho.read hs
    exact hc ⟨(List.cons.inj he).1, hf.2 hl⟩

end Template

end QueryRouting

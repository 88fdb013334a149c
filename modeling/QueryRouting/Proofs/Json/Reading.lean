import QueryRouting.Json.Reader
import QueryRouting.Proofs.Json.Lexicon

namespace QueryRouting.Json

/-- What tokens may make up. Each item and member of the latter two has a comma behind it. -/
inductive Phrase
  | value (v : Json)
  | items (values : List Json)
  | members (members : Members)

/-- The tokens of a phrase in which arrays and objects are nested no deeper than the bound. -/
inductive Derives : Nat → Phrase → List Token → Prop
  | str {depth : Nat} (s : String) : Derives depth (.value (.str s)) [.str s]
  | scalar {depth : Nat} (v : Json) : Derives depth (.value v) [.scalar v]
  | noItems {depth : Nat} : Derives depth (.items []) []
  | moreItems {depth : Nat} {values : List Json} {v : Json} {front last : List Token}
    (hi : Derives depth (.items values) front) (hv : Derives depth (.value v) last) :
    Derives depth (.items (values ++ [v])) (front ++ (last ++ [.comma]))
  | emptyArray {depth : Nat} : Derives (depth + 1) (.value (.arr [])) [.arrayOpen, .arrayClose]
  | array {depth : Nat} {values : List Json} {v : Json} {front last : List Token}
    (hi : Derives depth (.items values) front) (hv : Derives depth (.value v) last) :
    Derives (depth + 1) (.value (.arr (values ++ [v])))
      (.arrayOpen :: (front ++ (last ++ [.arrayClose])))
  | noMembers {depth : Nat} : Derives depth (.members []) []
  | moreMembers {depth : Nat} {members : Members} {key : String} {v : Json}
    {front last : List Token} (hm : Derives depth (.members members) front)
    (hv : Derives depth (.value v) last) :
    Derives depth (.members (members ++ [(key, v)]))
      (front ++ .str key :: .colon :: (last ++ [.comma]))
  | emptyObject {depth : Nat} : Derives (depth + 1) (.value (.obj [])) [.objectOpen, .objectClose]
  | object {depth : Nat} {members : Members} {key : String} {v : Json} {front last : List Token}
    (hm : Derives depth (.members members) front) (hv : Derives depth (.value v) last)
    (hplain : isEmbedding (members ++ [(key, v)]) = false) :
    Derives (depth + 1) (.value (.ofPairs (members ++ [(key, v)])))
      (.objectOpen :: (front ++ .str key :: .colon :: (last ++ [.objectClose])))
  /-- The mark as the only key, with the text of the value under it. -/
  | embedding {depth : Nat} {text : String} {v : Json} {last tokens : List Token}
    (ht : Derives depth (.value (.str text)) last) (hl : Token.Lexes text.toList tokens)
    (hv : Derives maxDepth (.value v) tokens) :
    Derives (depth + 1) (.value v)
      (.objectOpen :: .str embeddedKey :: .colon :: (last ++ [.objectClose]))

theorem Derives.eq_nil_of_members {depth : Nat} {tokens : List Token}
    (h : Derives depth (.members []) tokens) : tokens = [] := by
  generalize hp : Phrase.members [] = p at h
  cases h with
  | noMembers => rfl
  | moreMembers => simp at hp
  | _ => cases hp

/-- A text of a value, with arrays and objects nested no deeper than the bound. -/
def IsText (depth : Nat) (text : List Char) (v : Json) : Prop :=
  ∃ tokens, Token.Lexes text tokens ∧ Derives depth (.value v) tokens

namespace ReaderState

/-- The tokens from the start up to the innermost place that is open, by the frames around it. -/
inductive Opens : List Frame → List Token → Prop
  | nil : Opens [] []
  | arr {frames : List Frame} {items : List Json} {opened front : List Token}
    (ho : Opens frames opened) (hd : frames.length < maxDepth)
    (hi : Derives (maxDepth - (frames.length + 1)) (.items items.reverse) front) :
    Opens (.arr items :: frames) (opened ++ .arrayOpen :: front)
  | obj {frames : List Frame} {members : Members} {key : String} {opened front : List Token}
    (ho : Opens frames opened) (hd : frames.length < maxDepth)
    (hm : Derives (maxDepth - (frames.length + 1)) (.members members.reverse) front) :
    Opens (.obj members key :: frames) (opened ++ .objectOpen :: (front ++ [.str key, .colon]))

/-- The tokens that have been read, by where the reader stands. -/
inductive Reads : ReaderState → List Token → Prop
  | value {frames : List Frame} {opened : List Token} (ho : Opens frames opened) :
    Reads ⟨frames, .value⟩ opened
  | firstItem {frames : List Frame} {opened : List Token} (ho : Opens frames opened)
    (hd : frames.length < maxDepth) : Reads ⟨frames, .firstItem⟩ (opened ++ [.arrayOpen])
  | firstKey {frames : List Frame} {opened : List Token} (ho : Opens frames opened)
    (hd : frames.length < maxDepth) : Reads ⟨frames, .firstKey⟩ (opened ++ [.objectOpen])
  | key {frames : List Frame} {members : Members} {opened front : List Token}
    (ho : Opens frames opened) (hd : frames.length < maxDepth)
    (hm : Derives (maxDepth - (frames.length + 1)) (.members members.reverse) front) :
    Reads ⟨frames, .key members⟩ (opened ++ .objectOpen :: front)
  | colon {frames : List Frame} {members : Members} {key : String} {opened front : List Token}
    (ho : Opens frames opened) (hd : frames.length < maxDepth)
    (hm : Derives (maxDepth - (frames.length + 1)) (.members members.reverse) front) :
    Reads ⟨frames, .colon members key⟩ (opened ++ .objectOpen :: (front ++ [.str key]))
  | separator {frames : List Frame} {v : Json} {opened last : List Token}
    (ho : Opens frames opened) (hv : Derives (maxDepth - frames.length) (.value v) last) :
    Reads ⟨frames, .separator v⟩ (opened ++ last)

section Soundness

variable {frames : List Frame} {state next : ReaderState} {token : Token}
  {opened tokens front : List Token} {members : Members} {v : Json}
  {embedded : List Char → Option Json}

theorem Opens.beginValue (ho : Opens frames opened) (h : beginValue frames token = some next) :
    next.Reads (opened ++ [token]) := by
  unfold ReaderState.beginValue at h
  split at h
  · rw [Option.ite_none_right_eq_some] at h
    obtain ⟨hd, h⟩ := h
    cases h
    exact .firstItem ho hd
  · rw [Option.ite_none_right_eq_some] at h
    obtain ⟨hd, h⟩ := h
    cases h
    exact .firstKey ho hd
  · cases h
    exact .separator ho (.str _)
  · cases h
    exact .separator ho (.scalar _)
  · cases h

theorem maxDepth_sub (hd : frames.length < maxDepth) :
    maxDepth - frames.length = maxDepth - (frames.length + 1) + 1 := by
  omega

theorem embeddedText?_eq_some_iff {text : String} :
    embeddedText? false members = some text ↔ ∃ key, members = [(key, .str text)] := by
  unfold embeddedText?
  split
  · rename_i key written rest
    cases rest <;> simp
  · rename_i hother
    refine ⟨nofun, ?_⟩
    rintro ⟨key, rfl⟩
    exact absurd rfl (hother key text [])

theorem derives_of_ofMembers? {depth : Nat} {key : String} {value : Json} {last : List Token}
    (hembedded : ∀ text v, embedded text = some v → IsText maxDepth text v)
    (hm : Derives depth (.members members) front) (hv : Derives depth (.value value) last)
    (h : ofMembers? embedded (members ++ [(key, value)]) = some v) :
    Derives (depth + 1) (.value v)
      (.objectOpen :: (front ++ .str key :: .colon :: (last ++ [.objectClose]))) := by
  unfold ofMembers? at h
  split at h
  · rename_i hmark
    rw [Option.bind_eq_some_iff] at h
    obtain ⟨text, ht, h⟩ := h
    obtain ⟨tokens, hl, hd⟩ := hembedded _ _ h
    obtain ⟨k, hone⟩ := embeddedText?_eq_some_iff.1 ht
    obtain ⟨rfl, hlast⟩ : members = [] ∧ [(key, value)] = [(k, .str text)] := by
      simpa [List.append_eq_singleton_iff] using hone
    cases hlast
    obtain rfl := hm.eq_nil_of_members
    obtain rfl : key = embeddedKey := by simpa [isEmbedding] using hmark
    exact .embedding hv hl hd
  · rename_i hplain
    cases h
    exact .object hm hv (by simpa using hplain)

theorem Reads.step (hembedded : ∀ text v, embedded text = some v → IsText maxDepth text v)
    (hr : state.Reads tokens) (h : state.step embedded token = some next) :
    next.Reads (tokens ++ [token]) := by
  cases hr with
  | value ho => exact ho.beginValue h
  | @firstItem frames opened ho hd =>
    have harr : Opens (.arr [] :: frames) (opened ++ [.arrayOpen]) := .arr ho hd .noItems
    cases token with
    | arrayClose =>
      cases h
      rw [List.append_assoc]
      exact .separator ho (maxDepth_sub hd ▸ .emptyArray)
    | _ => exact harr.beginValue h
  | firstKey ho hd =>
    cases token with
    | objectClose =>
      cases h
      rw [List.append_assoc]
      exact .separator ho (maxDepth_sub hd ▸ .emptyObject)
    | str key =>
      cases h
      rw [List.append_assoc]
      exact .colon ho hd .noMembers
    | _ => cases h
  | key ho hd hm =>
    cases token with
    | str key =>
      cases h
      rw [List.append_assoc]
      exact .colon ho hd hm
    | _ => cases h
  | colon ho hd hm =>
    cases token with
    | colon =>
      cases h
      rw [List.append_assoc, List.cons_append, List.append_assoc]
      exact .value (.obj ho hd hm)
    | _ => cases h
  | separator ho hv =>
    cases token with
    | comma =>
      cases ho with
      | nil => cases h
      | arr ho hd hi =>
        cases h
        rw [List.append_assoc, List.append_assoc, List.cons_append]
        refine .value (.arr ho hd ?_)
        rw [List.reverse_cons]
        exact .moreItems hi hv
      | obj ho hd hm =>
        cases h
        simp only [List.append_assoc, List.cons_append, List.nil_append]
        refine .key ho hd ?_
        rw [List.reverse_cons]
        exact .moreMembers hm hv
    | arrayClose =>
      cases ho with
      | arr ho hd hi =>
        cases h
        rw [List.append_assoc, List.append_assoc, List.cons_append, List.reverse_cons]
        refine .separator ho ?_
        rw [maxDepth_sub hd]
        exact .array hi hv
      | _ => cases h
    | objectClose =>
      cases ho with
      | obj ho hd hm =>
        obtain ⟨v, hread, hnext⟩ := Option.map_eq_some_iff.1 h
        cases hnext
        rw [List.reverse_cons] at hread
        simp only [List.append_assoc, List.cons_append, List.nil_append]
        refine .separator ho ?_
        rw [maxDepth_sub hd]
        exact derives_of_ofMembers? hembedded hm hv hread
      | _ => cases h
    | _ => cases h

theorem Reads.foldlM (hembedded : ∀ text v, embedded text = some v → IsText maxDepth text v)
    (hr : state.Reads opened) (h : tokens.foldlM (ReaderState.step embedded) state = some next) :
    next.Reads (opened ++ tokens) := by
  induction tokens generalizing state opened with
  | nil =>
    cases h
    rwa [List.append_nil]
  | cons token tokens ih =>
    rw [List.foldlM_cons, Option.bind_eq_bind, Option.bind_eq_some_iff] at h
    obtain ⟨middle, hm, h⟩ := h
    have hnext := ih (hr.step hembedded hm) h
    rwa [List.append_assoc] at hnext

theorem result?_eq_some_iff : state.result? = some v ↔ state = ⟨[], .separator v⟩ := by
  unfold result?
  split
  · simp
  · rename_i hother
    refine ⟨nofun, ?_⟩
    rintro rfl
    exact absurd rfl (hother v)

theorem Reads.derives (h : Reads ⟨[], .separator v⟩ tokens) :
    Derives maxDepth (.value v) tokens := by
  cases h with
  | separator ho hv =>
    cases ho with
    | nil => exact hv

end Soundness

end ReaderState

theorem parseNested?_succ (n : Nat) (text : List Char) : parseNested? (n + 1) text =
    (Token.foldM? (ReaderState.step (parseNested? n)) .start text).bind ReaderState.result? :=
  rfl

theorem isText_of_parseNested? {n : Nat} {text : List Char} {v : Json}
    (h : parseNested? n text = some v) : IsText maxDepth text v := by
  induction n generalizing text v with
  | zero => cases h
  | succ n ih =>
    rw [parseNested?_succ, Option.bind_eq_some_iff] at h
    obtain ⟨final, hfinal, hv⟩ := h
    obtain ⟨tokens, hl, hf⟩ := Token.exists_of_foldM? hfinal
    obtain rfl := ReaderState.result?_eq_some_iff.1 hv
    have hr : ReaderState.Reads ⟨[], .separator v⟩ ([] ++ tokens) :=
      ReaderState.Reads.foldlM (fun _ _ => ih) (.value .nil) hf
    exact ⟨tokens, hl, hr.derives⟩

/-- A length that no token is written shorter than. -/
def Token.size : Token → Nat
  | .str s => s.length + 1
  | .scalar v => (v.string?.getD "").length + 1
  | _ => 1

def Token.sizes : List Token → Nat
  | [] => 0
  | t :: rest => t.size + sizes rest

theorem Token.sizes_append (front rest : List Token) :
    sizes (front ++ rest) = sizes front + sizes rest := by
  induction front with
  | nil => rw [List.nil_append, sizes, Nat.zero_add]
  | cons t front ih => rw [List.cons_append, sizes, sizes, ih, Nat.add_assoc]

theorem string?_of_value? {t : NumberText} {v : Json} (h : t.value? = some v) :
    v.string? = none := by
  unfold NumberText.value? at h
  dsimp only at h
  split at h
  · cases h
    rfl
  · split at h
    · cases h
      rfl
    · rw [Option.map_eq_some_iff] at h
      obtain ⟨x, -, rfl⟩ := h
      rfl

theorem Token.Written.size_le {cs : List Char} {t : Token} (h : t.Written cs) :
    t.size ≤ cs.length := by
  cases h with
  | str h =>
    have hle := h.length_le
    simp [size]
    omega
  | number h hv =>
    obtain ⟨c, cs, rfl, -⟩ := h.exists_cons
    simp [size, string?_of_value? hv]
  | _ => decide

theorem Token.Lexes.size_le {cs : List Char} {tokens : List Token} (h : Token.Lexes cs tokens) :
    Token.sizes tokens ≤ cs.length := by
  induction h with
  | nil => exact Nat.le_refl 0
  | space _ _ ih => exact Nat.le_succ_of_le ih
  | token ht _ ih =>
    rw [sizes, List.length_append]
    exact Nat.add_le_add ht.size_le ih

theorem Derives.length_lt {depth : Nat} {s : String} {tokens : List Token}
    (h : Derives depth (.value (.str s)) tokens) : s.length < Token.sizes tokens := by
  generalize hp : Phrase.value (.str s) = phrase at h
  induction h generalizing s with
  | str =>
    cases hp
    exact Nat.lt_succ_self _
  | scalar =>
    cases hp
    exact Nat.lt_succ_self _
  | @embedding depth text v last tokens _ hl _ iht ihv =>
    have htext := iht rfl
    have hvalue := ihv hp
    have hle := hl.size_le
    rw [String.length_toList] at hle
    simp only [Token.sizes, Token.sizes_append]
    omega
  | _ => cases hp

namespace ReaderState

section Completeness

variable {frames : List Frame} {depth n : Nat} {tokens : List Token} {v : Json}
  {embedded : List Char → Option Json} {next : ReaderState}

/-- What the reader comes to over the tokens of a phrase, within the frames it may open. -/
def Passes (embedded : List Char → Option Json) (depth : Nat) (tokens : List Token) :
    Phrase → Prop
  | .value v => ∀ frames : List Frame, frames.length + depth ≤ maxDepth →
    tokens.foldlM (step embedded) ⟨frames, .value⟩ = some ⟨frames, .separator v⟩
  | .items values => ∀ frames : List Frame, frames.length + depth < maxDepth →
    tokens.foldlM (step embedded) ⟨.arr [] :: frames, .value⟩ =
      some ⟨.arr values.reverse :: frames, .value⟩
  | .members members => ∀ frames : List Frame, frames.length + depth < maxDepth →
    tokens.foldlM (step embedded) ⟨frames, .key []⟩ = some ⟨frames, .key members.reverse⟩

theorem foldlM_firstItem (hne : tokens ≠ [])
    (h : tokens.foldlM (step embedded) ⟨.arr [] :: frames, .value⟩ = some next) :
    tokens.foldlM (step embedded) ⟨frames, .firstItem⟩ = some next := by
  cases tokens with
  | nil => exact absurd rfl hne
  | cons token tokens =>
    cases token with
    | arrayClose => cases h
    | _ => exact h

theorem foldlM_firstKey (hne : tokens ≠ [])
    (h : tokens.foldlM (step embedded) ⟨frames, .key []⟩ = some next) :
    tokens.foldlM (step embedded) ⟨frames, .firstKey⟩ = some next := by
  cases tokens with
  | nil => exact absurd rfl hne
  | cons token tokens =>
    cases token with
    | str => exact h
    | _ => cases h

theorem step_open (hd : frames.length + (depth + 1) ≤ maxDepth) :
    step embedded ⟨frames, .value⟩ .arrayOpen = some ⟨frames, .firstItem⟩ ∧
      step embedded ⟨frames, .value⟩ .objectOpen = some ⟨frames, .firstKey⟩ := by
  have hlt : frames.length < maxDepth := by omega
  exact ⟨if_pos hlt, if_pos hlt⟩

theorem foldlM_append_eq {first middle last : ReaderState} {front rest : List Token}
    (hf : front.foldlM (step embedded) first = some middle)
    (hr : rest.foldlM (step embedded) middle = some last) :
    (front ++ rest).foldlM (step embedded) first = some last := by
  rw [List.foldlM_append, hf]
  exact hr

theorem foldlM_cons_eq {first middle last : ReaderState} {token : Token} {rest : List Token}
    (ht : step embedded first token = some middle)
    (hr : rest.foldlM (step embedded) middle = some last) :
    (token :: rest).foldlM (step embedded) first = some last := by
  rw [List.foldlM_cons, ht]
  exact hr

theorem ofMembers?_of_plain {read : List Char → Option Json} {members : Members}
    (h : isEmbedding members = false) : ofMembers? read members = some (ofPairs members) := by
  rw [ofMembers?, h]
  rfl

section Members

variable {front last rest : List Token} {values : List Json} {members : Members} {key : String}

theorem Passes.item (hi : Passes embedded depth front (.items values))
    (hv : Passes embedded depth last (.value v)) (hd : frames.length + depth < maxDepth)
    (hr : rest.foldlM (step embedded) ⟨.arr values.reverse :: frames, .separator v⟩ = some next) :
    (front ++ (last ++ rest)).foldlM (step embedded) ⟨.arr [] :: frames, .value⟩ = some next := by
  have hinner : (Frame.arr values.reverse :: frames).length + depth ≤ maxDepth := by
    rw [List.length_cons]
    omega
  exact foldlM_append_eq (hi frames hd) (foldlM_append_eq (hv _ hinner) hr)

theorem Passes.member (hm : Passes embedded depth front (.members members))
    (hv : Passes embedded depth last (.value v)) (hd : frames.length + depth < maxDepth)
    (hr : rest.foldlM (step embedded) ⟨.obj members.reverse key :: frames, .separator v⟩ =
      some next) :
    (front ++ .str key :: .colon :: (last ++ rest)).foldlM (step embedded) ⟨frames, .key []⟩ =
      some next := by
  have hinner : (Frame.obj members.reverse key :: frames).length + depth ≤ maxDepth := by
    rw [List.length_cons]
    omega
  apply foldlM_append_eq (hm frames hd)
  apply foldlM_cons_eq rfl
  apply foldlM_cons_eq rfl
  exact foldlM_append_eq (hv _ hinner) hr

theorem step_objectClose {w : Json}
    (h : ofMembers? embedded ((key, v) :: members).reverse = some w) :
    step embedded ⟨.obj members key :: frames, .separator v⟩ .objectClose =
      some ⟨frames, .separator w⟩ :=
  Option.map_eq_some_iff.2 ⟨w, h, rfl⟩

end Members

/-- The reader takes the tokens of a phrase, if it reads all shorter text that may be embedded. -/
theorem passes_of_derives {phrase : Phrase}
    (hembedded : ∀ text v, text.length < n → IsText maxDepth text v → embedded text = some v)
    (h : Derives depth phrase tokens) (hsize : Token.sizes tokens ≤ n) :
    Passes embedded depth tokens phrase := by
  induction h with
  | str => exact fun frames _ => rfl
  | scalar => exact fun frames _ => rfl
  | noItems => exact fun frames _ => rfl
  | moreItems _ _ ihi ihv =>
    simp only [Token.sizes_append] at hsize
    intro frames hd
    apply (ihi (by omega)).item (ihv (by omega)) hd
    rw [List.reverse_append]
    rfl
  | emptyArray =>
    intro frames hd
    exact foldlM_cons_eq (step_open hd).1 rfl
  | @array depth values v _ _ _ _ ihi ihv =>
    simp only [Token.sizes, Token.sizes_append] at hsize
    intro frames hd
    apply foldlM_cons_eq (step_open hd).1
    apply foldlM_firstItem (by simp)
    apply (ihi (by omega)).item (ihv (by omega)) (by omega)
    rw [← List.reverse_reverse (values ++ [v]), List.reverse_append]
    rfl
  | noMembers => exact fun frames _ => rfl
  | moreMembers _ _ ihm ihv =>
    simp only [Token.sizes, Token.sizes_append] at hsize
    intro frames hd
    apply (ihm (by omega)).member (ihv (by omega)) hd
    rw [List.reverse_append]
    rfl
  | emptyObject =>
    intro frames hd
    exact foldlM_cons_eq (step_open hd).2 rfl
  | @object depth members key v _ _ _ _ hplain ihm ihv =>
    simp only [Token.sizes, Token.sizes_append] at hsize
    intro frames hd
    apply foldlM_cons_eq (step_open hd).2
    apply foldlM_firstKey (by simp)
    apply (ihm (by omega)).member (ihv (by omega)) (by omega)
    apply foldlM_cons_eq (step_objectClose _) rfl
    rw [List.reverse_cons, List.reverse_reverse, ofMembers?_of_plain hplain]
  | @embedding depth text v last tokens ht hl hv iht _ =>
    simp only [Token.sizes, Token.sizes_append] at hsize
    have hlt : text.toList.length < n := by
      have := ht.length_lt
      rw [String.length_toList]
      omega
    have hmark : isEmbedding [(embeddedKey, .str text)] := by simp [isEmbedding]
    have hnone : Passes embedded depth [] (.members []) := fun frames _ => rfl
    intro frames hd
    apply foldlM_cons_eq (step_open hd).2
    apply foldlM_firstKey (by simp)
    apply hnone.member (iht (by omega)) (by omega)
    apply foldlM_cons_eq (step_objectClose _) rfl
    rw [List.reverse_nil, List.reverse_singleton, ofMembers?, if_pos hmark]
    exact hembedded text.toList v hlt ⟨tokens, hl, hv⟩

theorem exists_of_step_scalar {state : ReaderState}
    (h : step embedded state (.scalar v) = some next) :
    ∃ frames, next = ⟨frames, .separator v⟩ := by
  obtain ⟨frames, awaiting⟩ := state
  cases awaiting with
  | value | firstItem =>
    cases h
    exact ⟨_, rfl⟩
  | _ => cases h

theorem endsMember_of_scalar {state : ReaderState} {t : Token} {next' : ReaderState}
    (h : step embedded state (.scalar v) = some next) (h' : step embedded next t = some next') :
    t.endsMember := by
  obtain ⟨frames, rfl⟩ := exists_of_step_scalar h
  cases t with
  | arrayClose | objectClose | comma => rfl
  | _ => cases h'

end Completeness

end ReaderState

theorem parseNested?_of_isText {n : Nat} {text : List Char} {v : Json} (hn : text.length < n)
    (h : IsText maxDepth text v) : parseNested? n text = some v := by
  induction n generalizing text v with
  | zero => exact absurd hn (Nat.not_lt_zero _)
  | succ n ih =>
    obtain ⟨tokens, hl, hd⟩ := h
    -- Embedded text is shorter than the text around it, so one less is enough for it.
    have hpasses := ReaderState.passes_of_derives (n := n) (fun _ _ => ih) hd
      (Nat.le_trans hl.size_le (Nat.le_of_lt_succ hn))
    have hf := hpasses [] (Nat.le_refl _)
    rw [parseNested?_succ, Option.bind_eq_some_iff]
    exact ⟨_, Token.foldM?_of_lexes ReaderState.endsMember_of_scalar hl hf, rfl⟩

/-- Parsing takes exactly the texts of a value, nested no deeper than it goes. -/
theorem parse?_eq_some_iff {text : List Char} {v : Json} :
    parse? text = some v ↔ IsText maxDepth text v :=
  ⟨isText_of_parseNested?, parseNested?_of_isText (Nat.lt_succ_self _)⟩

/-- An empty array within as many others. -/
def nested : Nat → Json
  | 0 => .arr []
  | n + 1 => .arr [nested n]

def nestedText (n : Nat) : List Char :=
  List.replicate (n + 1) '[' ++ List.replicate (n + 1) ']'

theorem Token.Written.lexes_replicate {c : Char} {t : Token} {rest : List Char}
    {tokens : List Token} (ht : Token.Written [c] t) (hl : Token.Lexes rest tokens) (n : Nat) :
    Token.Lexes (List.replicate n c ++ rest) (List.replicate n t ++ tokens) := by
  induction n with
  | zero => exact hl
  | succ n ih =>
    have hone := Token.Lexes.token ht ih
    exact hone

theorem derives_nested (n : Nat) : Derives (n + 1) (.value (nested n))
    (List.replicate (n + 1) .arrayOpen ++ List.replicate (n + 1) .arrayClose) := by
  induction n with
  | zero => exact .emptyArray
  | succ n ih =>
    rw [List.replicate_succ, List.replicate_succ' (n := n + 1), List.cons_append,
      ← List.append_assoc]
    exact .array .noItems ih

theorem isText_nested (n : Nat) : IsText (n + 1) (nestedText n) (nested n) := by
  have hclose := Token.Written.arrayClose.lexes_replicate .nil (n + 1)
  rw [List.append_nil, List.append_nil] at hclose
  exact ⟨_, Token.Written.arrayOpen.lexes_replicate hclose (n + 1), derives_nested n⟩

theorem ReaderState.foldM?_replicate (embedded : List Char → Option Json) {frames : List Frame}
    {n : Nat} (hd : frames.length < maxDepth) (hn : maxDepth ≤ frames.length + n)
    (rest : List Char) :
    Token.foldM? (step embedded) ⟨frames, .firstItem⟩ (List.replicate n '[' ++ rest) = none := by
  induction n generalizing frames with
  | zero => omega
  | succ n ih =>
    rw [List.replicate_succ, List.cons_append, Token.foldM?_of_read rfl rfl]
    by_cases hlt : frames.length + 1 < maxDepth
    · have hstep : step embedded ⟨frames, .firstItem⟩ .arrayOpen =
          some ⟨.arr [] :: frames, .firstItem⟩ := if_pos hlt
      rw [hstep]
      exact ih hlt (by rw [List.length_cons]; omega)
    · have hstep : step embedded ⟨frames, .firstItem⟩ .arrayOpen = none := if_neg hlt
      rw [hstep]
      rfl

theorem parse?_eq_none_of_replicate {n : Nat} (hn : maxDepth ≤ n) (rest : List Char) :
    parse? (List.replicate (n + 1) '[' ++ rest) = none := by
  have hstart (embedded : List Char → Option Json) :
      ReaderState.step embedded .start .arrayOpen = some ⟨[], .firstItem⟩ := rfl
  rw [parse?, parseNested?_succ, List.replicate_succ, List.cons_append,
    Token.foldM?_of_read rfl rfl, hstart, Option.bind_some,
    ReaderState.foldM?_replicate _ (by decide) (by simpa using hn), Option.bind_none]

end QueryRouting.Json

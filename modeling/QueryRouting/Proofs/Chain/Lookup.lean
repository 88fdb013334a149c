import QueryRouting.Chain.Context
import QueryRouting.Proofs.Json.Walk
import QueryRouting.Proofs.Text.Pieces
import QueryRouting.Proofs.Traversal

namespace QueryRouting

open Text Traversal

/-- A step into a value: to a field, or to a place of an array. -/
inductive Selector
  | key (name : String)
  | index (i : Nat)

namespace Selector

def segment : Selector → String
  | key name => name
  | index i => String.ofList (decimal i)

/-- The path with a segment for each selector behind it. -/
def dotted (path : String) (selectors : List Selector) : String :=
  selectors.foldl (fun path selector => path ++ "." ++ selector.segment) path

end Selector

/-- The value within another one that selectors lead to. Keys have no point in them. -/
inductive Json.Holds : Json → List Selector → Json → Prop
  | here : Holds v [] v
  | key (hd : '.' ∉ key.toList) (hb : ∀ entry ∈ before, entry.1 ≠ key) (h : Holds next rest w) :
      Holds (.obj (before ++ (key, next) :: after)) (.key key :: rest) w
  | index (hb : i < 18446744073709551616) (hi : items[i]? = some next) (h : Holds next rest w) :
      Holds (.arr items) (.index i :: rest) w

/-- A path is cut at one of its points, or not at all. -/
def Cuts (p path : String) : Prop :=
  path = p ∨ ∃ rest, path = p ++ "." ++ rest

def EndsIn (path segment : String) : Prop :=
  path = segment ∨ ∃ before, path = before ++ "." ++ segment

theorem toList_dot (p q : String) : (p ++ "." ++ q).toList = p.toList ++ '.' :: q.toList := by
  simp

theorem eq_dot_iff {s p q : String} :
    s = p ++ "." ++ q ↔ s.toList = p.toList ++ '.' :: q.toList := by
  rw [← String.toList_inj, toList_dot]

/-- A path is one segment, or a shorter path, a point and one segment. -/
theorem path_induction {motive : String → Prop} (one : ∀ s : String, '.' ∉ s.toList → motive s)
    (dot : ∀ p s : String, '.' ∉ s.toList → motive p → motive (p ++ "." ++ s))
    (path : String) : motive path := by
  have h : motive (String.ofList path.toList.reverse.reverse) := by
    induction path.toList.reverse using pieces_induction '.' with
    | last piece hp =>
      apply one
      rwa [String.toList_ofList, List.mem_reverse]
    | split piece rest hp ih =>
      have he : String.ofList (piece ++ '.' :: rest).reverse =
          String.ofList rest.reverse ++ "." ++ String.ofList piece.reverse := by
        rw [eq_dot_iff]
        simp
      rw [he]
      apply dot _ _ _ ih
      rwa [String.toList_ofList, List.mem_reverse]
  rwa [List.reverse_reverse, String.ofList_toList] at h

namespace Cuts

variable {p path s : String}

theorem dot (h : Cuts p path) (q : String) : Cuts p (path ++ "." ++ q) := by
  rcases h with rfl | ⟨rest, rfl⟩
  · exact .inr ⟨q, rfl⟩
  · refine .inr ⟨rest ++ "." ++ q, ?_⟩
    simp only [String.append_assoc]

theorem length_le (h : Cuts p path) : p.length ≤ path.length := by
  rcases h with rfl | ⟨rest, rfl⟩
  · exact Nat.le_refl _
  · simp only [String.length_append]
    omega

theorem eq_of_notMem (h : Cuts p s) (hs : '.' ∉ s.toList) : s = p := by
  rcases h with h | ⟨rest, h⟩
  · exact h
  · rw [h, toList_dot] at hs
    exact absurd (List.mem_append_right _ List.mem_cons_self) hs

theorem of_dot (h : Cuts p (path ++ "." ++ s)) (hs : '.' ∉ s.toList) :
    path ++ "." ++ s = p ∨ Cuts p path := by
  rcases h with h | ⟨rest, h⟩
  · exact .inl h
  · apply Or.inr
    rw [eq_dot_iff, toList_dot, List.append_eq_append_iff] at h
    rcases h with ⟨tail, hp, ht⟩ | ⟨tail, hp, ht⟩
    · cases tail with
      | nil =>
        rw [List.append_nil, String.toList_inj] at hp
        exact .inl hp.symm
      | cons c tail =>
        rw [(List.cons.inj ht).2] at hs
        exact absurd (List.mem_append_right _ List.mem_cons_self) hs
    · cases tail with
      | nil =>
        rw [List.append_nil, String.toList_inj] at hp
        exact .inl hp
      | cons c tail =>
        obtain ⟨rfl, -⟩ := List.cons.inj ht
        refine .inr ⟨String.ofList tail, ?_⟩
        rw [eq_dot_iff, String.toList_ofList]
        exact hp

end Cuts

namespace Context

/-- Names that select a part of the request, or the result, and never a local. -/
def reservedNames : List String :=
  ["params", "query", "body", "headers", "method", "path", "data"]

variable {cx : Context} {path p q s name : String} {v w : Json} {e : ResolveError}

theorem segments_dot (p q : String) : segments (p ++ "." ++ q) = segments p ++ segments q := by
  rw [segments, toList_dot, pieces_append_separator, List.map_append]
  rfl

theorem segments_of_notMem (hs : '.' ∉ s.toList) : segments s = [s] := by
  rw [segments, pieces_of_notMem hs, List.map_singleton, String.ofList_toList]

theorem resolve_append {first later : List String} (h : first ≠ []) :
    cx.resolve (first ++ later) = (cx.resolve first).bind fun v => v.walk later := by
  cases first with
  | nil => exact absurd rfl h
  | cons name rest =>
    rw [List.cons_append, resolve, resolve]
    cases cx.root? name with
    | none => rfl
    | some v => exact v.walk_append rest later

theorem resolve_segments_dot (cx : Context) (p q : String) :
    cx.resolve (segments (p ++ "." ++ q)) =
      (cx.resolve (segments p)).bind fun v => v.walk (segments q) := by
  rw [segments_dot]
  apply resolve_append
  rw [segments, Ne, List.map_eq_nil_iff]
  exact pieces_ne_nil '.' p.toList

theorem lookup_eq_ok_iff : cx.lookup path = .ok v ↔ cx.resolve (segments path) = .ok v :=
  mapError_eq_ok_iff

theorem lookup_eq_error_iff :
    cx.lookup path = .error e ↔ e.path = path ∧ cx.resolve (segments path) = .error e.segment := by
  rw [lookup, mapError_eq_error_iff]
  constructor
  · rintro ⟨segment, h, rfl⟩
    exact ⟨rfl, h⟩
  · rintro ⟨rfl, h⟩
    exact ⟨e.segment, h, rfl⟩

theorem lookup_dot_of_ok (h : cx.lookup p = .ok v) (q : String) :
    cx.lookup (p ++ "." ++ q) =
      (v.walk (segments q)).mapError fun segment => ⟨p ++ "." ++ q, segment⟩ := by
  rw [lookup, resolve_segments_dot, lookup_eq_ok_iff.1 h]
  rfl

theorem lookup_dot_of_error (h : cx.lookup p = .error e) (q : String) :
    cx.lookup (p ++ "." ++ q) = .error ⟨p ++ "." ++ q, e.segment⟩ := by
  rw [lookup, resolve_segments_dot, (lookup_eq_error_iff.1 h).2]
  rfl

theorem root?_of_unreserved (h : name ∉ reservedNames) (cx : Context) :
    cx.root? name = cx.request.locals.find? name := by
  unfold root?
  split
  case h_8 => rfl
  all_goals exact absurd (by decide) h

theorem lookup_local (hr : name ∉ reservedNames) (hd : '.' ∉ name.toList)
    (h : cx.request.locals.find? name = some v) : cx.lookup name = .ok v := by
  rw [lookup_eq_ok_iff, segments_of_notMem hd, resolve, root?_of_unreserved hr, h]
  rfl

theorem lookup_dot_of_child (h : cx.lookup p = .ok v) (hs : '.' ∉ s.toList)
    (hc : Json.Child v s w) : cx.lookup (p ++ "." ++ s) = .ok w := by
  rw [lookup_dot_of_ok h, segments_of_notMem hs, Json.walk_cons_of_child hc]
  rfl

/-- Every value within the one that a path leads to has a path of its own. -/
theorem lookup_dotted {selectors : List Selector} (h : cx.lookup path = .ok v)
    (hw : v.Holds selectors w) : cx.lookup (Selector.dotted path selectors) = .ok w := by
  induction hw generalizing path with
  | here => exact h
  | key hd hb _ ih => exact ih (lookup_dot_of_child h hd (.field hb))
  | @index i items next rest w hb hi _ ih =>
    have hs : (Selector.index i).segment.toList = decimal i := String.toList_ofList
    have hn := Numeral.isNumeral_decimal i
    apply ih
    apply lookup_dot_of_child h
    · rw [hs]
      exact Numeral.notMem_of_isNumeral hn rfl
    · exact .item ⟨decimal i, hn, .inl hs, Numeral.value_decimal i, hb⟩ hi

theorem lookup_one_of_error (hs : '.' ∉ s.toList) (h : cx.lookup s = .error e) : e = ⟨s, s⟩ := by
  rw [lookup, segments_of_notMem hs, resolve] at h
  cases hr : cx.root? s with
  | some v =>
    rw [hr] at h
    cases h
  | none =>
    rw [hr] at h
    cases h
    rfl

theorem lookup_cut_of_ok (h : cx.lookup path = .ok v) (hp : Cuts p path) :
    cx.lookup p ≠ .error e := by
  intro he
  rcases hp with rfl | ⟨rest, rfl⟩
  · cases h.symm.trans he
  · cases h.symm.trans (lookup_dot_of_error he rest)

theorem exists_shortest_cut (h : cx.lookup path = .error e) :
    ∃ p, Cuts p path ∧ EndsIn p e.segment ∧ '.' ∉ e.segment.toList ∧
      cx.lookup p = .error ⟨p, e.segment⟩ ∧
      ∀ p' e', Cuts p' path → cx.lookup p' = .error e' → p.length ≤ p'.length := by
  induction path using path_induction generalizing e with
  | one s hs =>
    cases lookup_one_of_error hs h
    refine ⟨s, .inl rfl, .inl rfl, hs, h, fun p' e' hp _ => ?_⟩
    exact Nat.le_of_eq (congrArg String.length (hp.eq_of_notMem hs))
  | dot path s hs ih =>
    cases hl : cx.lookup path with
    | error e₀ =>
      cases h.symm.trans (lookup_dot_of_error hl s)
      obtain ⟨p, hp, hend, hd, hfail, hleast⟩ := ih hl
      refine ⟨p, hp.dot s, hend, hd, hfail, fun p' e' hp' he' => ?_⟩
      rcases hp'.of_dot hs with rfl | hp'
      · exact (hp.dot s).length_le
      · exact hleast p' e' hp' he'
    | ok v =>
      have hw : e = ⟨path ++ "." ++ s, s⟩ := by
        rw [lookup_dot_of_ok hl, segments_of_notMem hs] at h
        rcases v.child_or_childless s with ⟨next, hc⟩ | hn
        · rw [Json.walk_cons_of_child hc] at h
          cases h
        · rw [Json.walk_cons_of_childless hn] at h
          cases h
          rfl
      subst hw
      refine ⟨path ++ "." ++ s, .inl rfl, .inr ⟨path, rfl⟩, hs, h, fun p' e' hp' he' => ?_⟩
      rcases hp'.of_dot hs with rfl | hp'
      · exact Nat.le_refl _
      · exact absurd he' (lookup_cut_of_ok hl hp')

/--
Looking up goes segment by segment. A longer path goes on from the value that a shorter one leads
to, and fails where a shorter one fails. A walk takes the value of the very key or of the position
that a segment denotes, and fails at the first segment that denotes none. So each value within a
local has its own path, and a path that fails names the last segment of its shortest prefix that
fails.
-/
theorem lookup_compositional (cx : Context) :
    (∀ p q v, cx.lookup p = .ok v → cx.lookup (p ++ "." ++ q) =
      (v.walk (segments q)).mapError fun segment => ⟨p ++ "." ++ q, segment⟩) ∧
    (∀ p q e, cx.lookup p = .error e →
      e.path = p ∧ cx.lookup (p ++ "." ++ q) = .error ⟨p ++ "." ++ q, e.segment⟩) ∧
    (∀ (v : Json) (path : List String),
      (∀ w, v.walk path = .ok w ↔ Json.Reaches v path w) ∧
      ∀ segment, v.walk path = .error segment ↔ ∃ before after last,
        path = before ++ segment :: after ∧ Json.Reaches v before last ∧
          ∀ w, ¬ Json.Child last segment w) ∧
    (∀ name v, name ∉ reservedNames → '.' ∉ name.toList →
      cx.request.locals.find? name = some v → ∀ selectors w, v.Holds selectors w →
        cx.lookup (Selector.dotted name selectors) = .ok w) ∧
    ∀ path e, cx.lookup path = .error e → e.path = path ∧
      ∃ p, Cuts p path ∧ EndsIn p e.segment ∧ '.' ∉ e.segment.toList ∧
        cx.lookup p = .error ⟨p, e.segment⟩ ∧
        ∀ p' e', Cuts p' path → cx.lookup p' = .error e' → p.length ≤ p'.length := by
  refine ⟨fun p q v h => lookup_dot_of_ok h q,
    fun p q e h => ⟨(lookup_eq_error_iff.1 h).1, lookup_dot_of_error h q⟩,
    fun v path => ⟨fun w => Json.walk_eq_ok_iff, fun segment => Json.walk_eq_error_iff⟩, ?_, ?_⟩
  · intro name v hr hd h selectors w hw
    exact lookup_dotted (lookup_local hr hd h) hw
  · intro path e h
    exact ⟨(lookup_eq_error_iff.1 h).1, exists_shortest_cut h⟩

/-- A local with an array in it, and in this an object with an empty key. -/
def withUser : Context :=
  ofView ((RequestView.ofTarget Method.get "/").setLocal "user"
    (.obj [("tags", .arr [.null, .obj [("", .int 5)]])])) ""

theorem lookup_compositional_withUser :
    withUser.lookup "user.tags.1." = .ok (.int 5) ∧
      withUser.lookup "user.tags.2.x" = .error ⟨"user.tags.2.x", "2"⟩ := by
  obtain ⟨-, herror, -, hlocal, -⟩ := lookup_compositional withUser
  constructor
  · have hholds : Json.Holds (.obj [("tags", .arr [.null, .obj [("", .int 5)]])])
        [.key "tags", .index 1, .key ""] (.int 5) := by
      have hfirst (key : String) : ∀ entry ∈ ([] : Keyed Json), entry.1 ≠ key := nofun
      apply Json.Holds.key (by decide) (hfirst _)
      apply Json.Holds.index (by decide) rfl
      exact .key (by decide) (hfirst _) .here
    exact hlocal "user" _ (by decide) (by decide) rfl _ _ hholds
  · exact (herror "user.tags.2" "x" ⟨"user.tags.2", "2"⟩ rfl).2

end Context

end QueryRouting

import Mathlib.Data.List.Pairwise
import QueryRouting.Proofs.Route.Binding
import QueryRouting.Proofs.Route.Grouping
import QueryRouting.Proofs.Route.PatternGrammar

namespace QueryRouting

/-- What is checked of a path when a route is declared. -/
structure Rooted (path : String) : Prop where
  slash : path.toList.head? = some '/'
  segments : ∀ segment ∈ Text.pieces '/' path.toList,
    segment.head? ≠ some ':' ∧ segment.head? ≠ some '*'

theorem checkPath_eq_ok_iff {path : String} : checkPath path = .ok () ↔ Rooted path := by
  have ha : ∀ c : Char, (Text.pieces '/' path.toList).any (·.head? = some c) = true ↔
      ∃ segment ∈ Text.pieces '/' path.toList, segment.head? = some c := by
    simp
  simp only [checkPath, ha]
  constructor
  · intro h
    split at h
    · cases h
    · split at h
      · cases h
      · rename_i hs
        split at h
        · cases h
        · rename_i hc
          split at h
          · cases h
          · rename_i hw
            constructor
            · exact not_not.1 hs
            · intro segment hm
              exact ⟨fun he => hc ⟨segment, hm, he⟩, fun he => hw ⟨segment, hm, he⟩⟩
  · intro h
    have he : ¬ path.isEmpty := by
      intro he
      have hs := h.slash
      rw [String.isEmpty_iff.1 he] at hs
      cases hs
    rw [if_neg he, if_neg (not_not.2 h.slash), if_neg, if_neg]
    · intro hw
      obtain ⟨segment, hm, hh⟩ := hw
      exact (h.segments segment hm).2 hh
    · intro hc
      obtain ⟨segment, hm, hh⟩ := hc
      exact (h.segments segment hm).1 hh

instance (path : String) : Decidable (Rooted path) :=
  decidable_of_iff _ checkPath_eq_ok_iff

namespace Builder

/-- Builders whose routes were all declared without an error. -/
inductive Declared : Builder → Prop
  | new (executor : Executor) : Declared (new executor)
  /-- Set-up that declares no route. -/
  | setUp (h : Declared b) (hb : b'.bindings = b.bindings) : Declared b'
  | bind (h : Declared b) (hb : b.bind matcher path arguments = .ok b') : Declared b'
  | bindRoutes (h : Declared b) (hb : b.bindRoutes routes = (b', .ok ())) : Declared b'

variable {b : Builder} {bound : Binding} {routes : List RouteConfig}

theorem rooted_of_binding {executor : Executor}
    (h : binding executor matcher path arguments = .ok bound) : Rooted bound.path := by
  obtain ⟨hp, steps, -, rfl⟩ := binding_eq_ok_iff.1 h
  exact checkPath_eq_ok_iff.1 hp

theorem rooted_push (hb : ∀ x ∈ b.bindings, Rooted x.path) (hx : Rooted bound.path) :
    ∀ x ∈ (b.push bound).bindings, Rooted x.path := by
  rw [push, List.forall_mem_append, List.forall_mem_singleton]
  exact ⟨hb, hx⟩

theorem rooted_bindRoutes (hb : ∀ x ∈ b.bindings, Rooted x.path) :
    ∀ x ∈ (b.bindRoutes routes).1.bindings, Rooted x.path := by
  induction routes generalizing b with
  | nil => exact hb
  | cons route rest ih =>
    rw [bindRoutes]
    cases hr : configuredBinding b.executor route with
    | error e => exact hb
    | ok bound =>
      obtain ⟨matcher, arguments, -, -, hbind⟩ := configuredBinding_eq_ok_iff.1 hr
      exact ih (rooted_push hb (rooted_of_binding hbind))

theorem Declared.rooted (h : b.Declared) : ∀ x ∈ b.bindings, Rooted x.path := by
  induction h with
  | new =>
    intro x hx
    cases hx
  | setUp _ hb ih => rwa [hb]
  | bind _ hb ih =>
    obtain ⟨bound, hbound, rfl⟩ := Traversal.map_eq_ok_iff.1 hb
    exact rooted_push ih (rooted_of_binding hbound)
  | bindRoutes _ hb ih =>
    obtain ⟨rfl, -⟩ := Prod.mk.inj hb
    exact rooted_bindRoutes ih

/-- A route without steps for each path, which takes every method. -/
def ofPaths (paths : List String) : Builder :=
  paths.foldl (fun b path => b.push ⟨path, .any, []⟩)
    (.new (.custom fun _ => .ofResult (.ok .null)))

theorem bindings_foldl_push (paths : List String) (b : Builder) :
    (paths.foldl (fun b path => b.push ⟨path, .any, []⟩) b).bindings =
      b.bindings ++ paths.map fun path => ⟨path, .any, []⟩ := by
  induction paths generalizing b with
  | nil => exact (List.append_nil _).symm
  | cons path paths ih =>
    rw [List.foldl_cons, ih, push, List.append_assoc]
    rfl

theorem Declared.foldl_push {paths : List String} (hb : b.Declared)
    (h : ∀ path ∈ paths, Rooted path) :
    (paths.foldl (fun b path => b.push ⟨path, .any, []⟩) b).Declared := by
  induction paths generalizing b with
  | nil => exact hb
  | cons path paths ih =>
    rw [List.forall_mem_cons] at h
    have hbound : binding b.executor .any path [] = .ok ⟨path, .any, []⟩ :=
      binding_eq_ok_iff.2 ⟨checkPath_eq_ok_iff.2 h.1, [], rfl, rfl⟩
    exact ih (.bind hb (Traversal.map_eq_ok_iff.2 ⟨_, hbound, rfl⟩)) h.2

theorem declared_ofPaths {paths : List String} (h : ∀ path ∈ paths, Rooted path) :
    (ofPaths paths).Declared :=
  (Declared.new _).foldl_push h

theorem bindings_ofPaths (paths : List String) :
    (ofPaths paths).bindings = paths.map fun path => ⟨path, .any, []⟩ :=
  bindings_foldl_push paths _

end Builder

section Grouping

variable {bindings : List Binding}

theorem paths_groupByPath (bindings : List Binding) :
    (groupByPath bindings).map (·.path) = distinct (bindings.map (·.path)) := by
  rw [groupByPath_eq, List.map_map]
  exact List.map_id _

theorem forall_table_path_iff {p : String → Prop} :
    (∀ table ∈ groupByPath bindings, p table.path) ↔ ∀ x ∈ bindings, p x.path := by
  rw [← List.forall_mem_map (f := PathTable.path) (P := p), paths_groupByPath]
  simp only [mem_distinct, List.forall_mem_map]

theorem pairwise_table_path_iff {r : String → String → Prop} [Std.Symm r] :
    ((groupByPath bindings).map (·.path)).Pairwise r ↔
      ∀ x ∈ bindings, ∀ y ∈ bindings, x.path ≠ y.path → r x.path y.path := by
  rw [paths_groupByPath]
  constructor
  · intro h x hx y hy hn
    exact h.forall (mem_distinct.2 (List.mem_map_of_mem hx))
      (mem_distinct.2 (List.mem_map_of_mem hy)) hn
  · intro h
    apply (nodup_distinct _).pairwise_of_forall_ne
    intro path hp path' hp' hn
    obtain ⟨x, hx, rfl⟩ := List.mem_map.1 (mem_distinct.1 hp)
    obtain ⟨y, hy, rfl⟩ := List.mem_map.1 (mem_distinct.1 hp')
    exact h x hx y hy hn

theorem exists_table {x : Binding} (hx : x ∈ bindings) :
    ∃ table ∈ groupByPath bindings, table.path = x.path ∧ x.route ∈ table.routes := by
  have hp : x.path ∈ distinct (bindings.map (·.path)) :=
    mem_distinct.2 (List.mem_map_of_mem hx)
  rw [groupByPath_eq]
  refine ⟨_, List.mem_map_of_mem hp, rfl, ?_⟩
  apply List.mem_map_of_mem
  exact List.mem_filter.2 ⟨hx, decide_eq_true rfl⟩

end Grouping

open Pattern

/-- What is registered for a table. -/
structure PathTable.RegisteredAs (table : PathTable) (entry : RegisteredPath) : Prop where
  pattern : WrittenAs table.path entry.pattern
  routes : entry.routes = table.routes

section Register

variable {registered out : List RegisteredPath} {table : PathTable} {tables : List PathTable}

theorem any_conflicts_iff {p : Pattern} :
    registered.any (·.pattern.conflicts p) = true ↔ ∃ x ∈ registered, Clash x.pattern p := by
  rw [List.any_eq_true]
  exact exists_congr fun x => and_congr_right' conflicts_iff

theorem registerAll_cons_eq_some_iff :
    registerAll registered (table :: tables) = some out ↔
      ∃ entry, table.RegisteredAs entry ∧ (∀ x ∈ registered, ¬ Clash x.pattern entry.pattern) ∧
        registerAll (registered ++ [entry]) tables = some out := by
  rw [registerAll]
  constructor
  · intro h
    split at h
    · cases h
    · rename_i p hp
      split at h
      · cases h
      · rename_i hc
        rw [any_conflicts_iff] at hc
        exact ⟨⟨p, table.routes⟩, ⟨ofString?_eq_some_iff.1 hp, rfl⟩,
          fun x hx h => hc ⟨x, hx, h⟩, h⟩
  · intro h
    obtain ⟨⟨p, routes⟩, ⟨hp, rfl⟩, hn, h⟩ := h
    have hc : ¬ registered.any (·.pattern.conflicts p) := by
      rw [any_conflicts_iff]
      intro hc
      obtain ⟨x, hx, hc⟩ := hc
      exact hn x hx hc
    simp only [ofString?_eq_some_iff.2 hp, if_neg hc]
    exact h

/-- What is registered: each table in its place, and no two patterns that cannot be told apart. -/
theorem registerAll_eq_some_iff :
    registerAll registered tables = some out ↔
      ∃ entries, out = registered ++ entries ∧
        List.Forall₂ PathTable.RegisteredAs tables entries ∧
        entries.Pairwise (fun x y => ¬ Clash x.pattern y.pattern) ∧
        ∀ x ∈ registered, ∀ y ∈ entries, ¬ Clash x.pattern y.pattern := by
  induction tables generalizing registered with
  | nil =>
    rw [registerAll, Option.some_inj]
    constructor
    · intro h
      exact ⟨[], by rw [List.append_nil, h], .nil, .nil, nofun⟩
    · intro h
      obtain ⟨entries, rfl, hf, -⟩ := h
      cases hf
      exact (List.append_nil _).symm
  | cons table tables ih =>
    rw [registerAll_cons_eq_some_iff]
    constructor
    · intro h
      obtain ⟨entry, he, hn, h⟩ := h
      obtain ⟨entries, rfl, hf, hw, hr⟩ := ih.1 h
      rw [List.forall_mem_append, List.forall_mem_singleton] at hr
      refine ⟨entry :: entries, (List.append_cons ..).symm, .cons he hf, .cons hr.2 hw, ?_⟩
      intro x hx
      rw [List.forall_mem_cons]
      exact ⟨hn x hx, hr.1 x hx⟩
    · intro h
      obtain ⟨entries, rfl, hf, hw, hr⟩ := h
      cases hf with
      | @cons _ entry _ entries he hf =>
        rw [List.pairwise_cons] at hw
        refine ⟨entry, he, fun x hx => hr x hx entry List.mem_cons_self, ih.2 ?_⟩
        refine ⟨entries, List.append_cons .., hf, hw.2, ?_⟩
        rw [List.forall_mem_append, List.forall_mem_singleton]
        exact ⟨fun x hx y hy => hr x hx y (List.mem_cons_of_mem _ hy), hw.1⟩

theorem registerAll_isSome_iff :
    (∃ out, registerAll registered tables = some out) ↔
      (∀ table ∈ tables, ∃ p, WrittenAs table.path p ∧ ∀ x ∈ registered, ¬ Clash x.pattern p) ∧
        (tables.map (·.path)).Pairwise Apart := by
  induction tables generalizing registered with
  | nil =>
    rw [registerAll]
    exact ⟨fun _ => ⟨nofun, .nil⟩, fun _ => ⟨_, rfl⟩⟩
  | cons table tables ih =>
    simp only [registerAll_cons_eq_some_iff, List.forall_mem_cons, List.map_cons,
      List.pairwise_cons, List.forall_mem_map]
    constructor
    · intro h
      obtain ⟨out, entry, he, hn, h⟩ := h
      obtain ⟨hr, hw⟩ := ih.1 ⟨out, h⟩
      simp only [List.forall_mem_append, List.forall_mem_singleton] at hr
      refine ⟨⟨⟨entry.pattern, he.pattern, hn⟩, fun t ht => ?_⟩, fun t ht => ?_, hw⟩
      · obtain ⟨p, hp, hr, -⟩ := hr t ht
        exact ⟨p, hp, hr⟩
      · obtain ⟨p, hp, -, hc⟩ := hr t ht
        exact (he.pattern.apart_iff hp).2 hc
    · intro h
      obtain ⟨⟨⟨p, hp, hn⟩, hr⟩, ha, hw⟩ := h
      have hr' : ∀ t ∈ tables, ∃ q, WrittenAs t.path q ∧
          ∀ x ∈ registered ++ [⟨p, table.routes⟩], ¬ Clash x.pattern q := by
        intro t ht
        obtain ⟨q, hq, hc⟩ := hr t ht
        refine ⟨q, hq, ?_⟩
        rw [List.forall_mem_append, List.forall_mem_singleton]
        exact ⟨hc, ha t ht p q hp hq⟩
      obtain ⟨out, h⟩ := ih.2 ⟨hr', hw⟩
      exact ⟨out, ⟨p, table.routes⟩, ⟨hp, rfl⟩, hn, h⟩

end Register

namespace Router

variable {b : Builder} {router : Router}

theorem ofBuilder?_eq_some_iff : ofBuilder? b = some router ↔
    ∃ paths, registerAll [] (groupByPath b.bindings) = some paths ∧
      router = ⟨paths, b.shared, b.collaborators, b.responseHeaders, b.bodyLimit⟩ := by
  rw [ofBuilder?, Option.map_eq_some_iff]
  exact exists_congr fun paths => and_congr_right' eq_comm

theorem ofBuilder?_isSome_iff : (∃ router, ofBuilder? b = some router) ↔
    (∀ x ∈ b.bindings, Written x.path) ∧
      ∀ x ∈ b.bindings, ∀ y ∈ b.bindings, x.path ≠ y.path → Apart x.path y.path := by
  have hs : (∃ router, ofBuilder? b = some router) ↔
      ∃ paths, registerAll [] (groupByPath b.bindings) = some paths := by
    simp only [ofBuilder?_eq_some_iff]
    rw [exists_comm]
    simp
  rw [hs, registerAll_isSome_iff, pairwise_table_path_iff, ← forall_table_path_iff]
  simp [Written]

theorem registered_of_ofBuilder? (h : ofBuilder? b = some router) {x : Binding}
    (hx : x ∈ b.bindings) :
    ∃ entry ∈ router.paths, WrittenAs x.path entry.pattern ∧ x.route ∈ entry.routes := by
  obtain ⟨paths, hr, rfl⟩ := ofBuilder?_eq_some_iff.1 h
  obtain ⟨entries, rfl, hf, -⟩ := registerAll_eq_some_iff.1 hr
  obtain ⟨table, ht, hp, hroute⟩ := exists_table hx
  obtain ⟨entry, hm, hpattern, hroutes⟩ := Traversal.exists_of_forall₂ hf ht
  refine ⟨entry, hm, ?_, ?_⟩
  · rwa [← hp]
  · rwa [hroutes]

theorem ofBuilder?_ofPaths_isSome_iff {paths : List String} :
    (∃ router, ofBuilder? (.ofPaths paths) = some router) ↔
      (∀ path ∈ paths, Written path) ∧
        ∀ path ∈ paths, ∀ path' ∈ paths, path ≠ path' → Apart path path' := by
  simp only [ofBuilder?_isSome_iff, Builder.bindings_ofPaths, List.forall_mem_map]

/--
Declaring routes lets every path pass that begins with a slash and has no segment that begins with a
colon or a star. A router with all of these routes comes of them just when their paths are also
written as patterns, and different ones as patterns that can be told apart.
-/
theorem ofBuilder?_of_declared (h : b.Declared) :
    (∀ x ∈ b.bindings, Rooted x.path) ∧
      ((∃ router, ofBuilder? b = some router) ↔
        (∀ x ∈ b.bindings, Written x.path) ∧
          ∀ x ∈ b.bindings, ∀ y ∈ b.bindings, x.path ≠ y.path → Apart x.path y.path) ∧
      ∀ router, ofBuilder? b = some router → ∀ x ∈ b.bindings,
        ∃ entry ∈ router.paths, WrittenAs x.path entry.pattern ∧ x.route ∈ entry.routes := by
  refine ⟨h.rooted, ofBuilder?_isSome_iff, ?_⟩
  intro router hr x hx
  exact registered_of_ofBuilder? hr hx

open Builder in
theorem ofBuilder?_of_repeated_and_wildcard :
    (ofPaths ["/a/{x}", "/{*rest}", "/a/{x}"]).Declared ∧
      ∃ router, ofBuilder? (ofPaths ["/a/{x}", "/{*rest}", "/a/{x}"]) = some router := by
  have hd : (ofPaths ["/a/{x}", "/{*rest}", "/a/{x}"]).Declared :=
    declared_ofPaths (by decide +kernel)
  obtain ⟨-, hr, -⟩ := ofBuilder?_of_declared hd
  refine ⟨hd, hr.2 ?_⟩
  rw [← ofBuilder?_isSome_iff, ofBuilder?_ofPaths_isSome_iff]
  decide +kernel

open Builder in
/-- Paths that may be declared and that no router comes of: a lone brace, and a path in two ways. -/
theorem not_ofBuilder?_of_declared :
    ((ofPaths ["/\x7bid"]).Declared ∧ ofBuilder? (ofPaths ["/\x7bid"]) = none) ∧
      (ofPaths ["/a/{x}", "/a/{y}"]).Declared ∧
        ofBuilder? (ofPaths ["/a/{x}", "/a/{y}"]) = none := by
  have hn : ∀ paths, ¬ ((∀ path ∈ paths, Written path) ∧
      ∀ path ∈ paths, ∀ path' ∈ paths, path ≠ path' → Apart path path') →
        ofBuilder? (ofPaths paths) = none := by
    intro paths h
    rw [← ofBuilder?_ofPaths_isSome_iff] at h
    exact Option.eq_none_iff_forall_ne_some.2 fun router hr => h ⟨router, hr⟩
  exact ⟨⟨declared_ofPaths (by decide +kernel), hn _ (by decide +kernel)⟩,
    declared_ofPaths (by decide +kernel), hn _ (by decide +kernel)⟩

end Router

end QueryRouting

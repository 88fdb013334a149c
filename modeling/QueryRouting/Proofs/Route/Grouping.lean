import Mathlib.Data.List.Induction
import QueryRouting.Proofs.Keyed
import QueryRouting.Route.Router

namespace QueryRouting

/-- The distinct elements, each at its first place. -/
def distinct [DecidableEq α] : List α → List α
  | [] => []
  | a :: rest => a :: (distinct rest).filter (· ≠ a)

section Distinct

variable {α : Type u} [DecidableEq α] {l : List α}

theorem mem_distinct {a : α} : a ∈ distinct l ↔ a ∈ l := by
  induction l with
  | nil => rfl
  | cons b rest ih =>
    rw [distinct, List.mem_cons, List.mem_cons, List.mem_filter, ih, decide_eq_true_iff]
    constructor
    · intro h
      cases h with
      | inl h => exact .inl h
      | inr h => exact .inr h.1
    · intro h
      by_cases he : a = b
      · exact .inl he
      · exact .inr ⟨h.resolve_left he, he⟩

theorem nodup_distinct (l : List α) : (distinct l).Nodup := by
  induction l with
  | nil => exact List.nodup_nil
  | cons b rest ih =>
    rw [distinct, List.nodup_cons]
    constructor
    · intro hb
      have hn := List.of_mem_filter hb
      exact absurd rfl (of_decide_eq_true hn)
    · exact ih.filter _

theorem distinct_concat (l : List α) (a : α) :
    distinct (l ++ [a]) = if a ∈ l then distinct l else distinct l ++ [a] := by
  induction l with
  | nil => rfl
  | cons b rest ih =>
    rw [List.cons_append, distinct, distinct, ih]
    by_cases hr : a ∈ rest
    · rw [if_pos hr, if_pos (List.mem_cons_of_mem _ hr)]
    · rw [if_neg hr, List.filter_append]
      by_cases he : a = b
      · subst he
        rw [if_pos List.mem_cons_self, List.filter_cons_of_neg (by simp), List.filter_nil,
          List.append_nil]
      · have hm : a ∉ b :: rest := by
          rw [List.mem_cons, not_or]
          exact ⟨he, hr⟩
        rw [if_neg hm, List.filter_cons_of_pos (by simpa using he), List.filter_nil,
          List.cons_append]

theorem distinct_append_cons {a : α} (h : a ∈ l) (later : List α) :
    distinct (l ++ a :: later) = distinct (l ++ later) := by
  induction later using List.reverseRecOn with
  | nil => rw [distinct_concat, if_pos h, List.append_nil]
  | append_singleton later b ih =>
    have hm : b ∈ l ++ a :: later ↔ b ∈ l ++ later := by
      rw [List.mem_append, List.mem_append, List.mem_cons]
      constructor
      · rintro (hb | rfl | hb)
        · exact .inl hb
        · exact .inl h
        · exact .inr hb
      · exact Or.imp_right .inr
    rw [← List.cons_append, ← List.append_assoc, ← List.append_assoc, distinct_concat,
      distinct_concat, ih]
    simp only [hm]

end Distinct

/-- The routes of a path, in the order in which they were bound. -/
def routesOf (bindings : List Binding) (path : String) : List Route :=
  (bindings.filter (·.path = path)).map (·.route)

theorem routesOf_append (bindings later : List Binding) (path : String) :
    routesOf (bindings ++ later) path = routesOf bindings path ++ routesOf later path := by
  rw [routesOf, List.filter_append, List.map_append]
  rfl

theorem routesOf_cons_self {x : Binding} {path : String} (h : x.path = path)
    (later : List Binding) : routesOf (x :: later) path = x.route :: routesOf later path := by
  rw [routesOf, List.filter_cons_of_pos (by simpa using h)]
  rfl

theorem routesOf_cons_of_ne {x : Binding} {path : String} (h : x.path ≠ path)
    (later : List Binding) : routesOf (x :: later) path = routesOf later path := by
  rw [routesOf, List.filter_cons_of_neg (by simpa using h)]
  rfl

theorem routesOf_eq_nil {bindings : List Binding} {path : String}
    (h : ∀ x ∈ bindings, x.path ≠ path) : routesOf bindings path = [] := by
  rw [routesOf, List.map_eq_nil_iff, List.filter_eq_nil_iff]
  simpa using h

theorem routesOf_insert_self {x : Binding} {path : String} (h : x.path = path)
    (before later : List Binding) :
    routesOf (before ++ x :: later) path =
      routesOf before path ++ x.route :: routesOf later path := by
  rw [routesOf_append, routesOf_cons_self h]

theorem routesOf_insert_of_ne {x : Binding} {path : String} (h : x.path ≠ path)
    (before later : List Binding) :
    routesOf (before ++ x :: later) path = routesOf (before ++ later) path := by
  rw [routesOf_append, routesOf_append, routesOf_cons_of_ne h]

theorem routesOf_concat (bindings : List Binding) (x : Binding) (path : String) :
    routesOf (bindings ++ [x]) path =
      if path = x.path then routesOf bindings path ++ [x.route] else routesOf bindings path := by
  rw [routesOf_append]
  by_cases h : path = x.path
  · rw [if_pos h, routesOf_cons_self h.symm]
    rfl
  · rw [if_neg h, routesOf_cons_of_ne (Ne.symm h)]
    exact List.append_nil _

namespace Grouping

variable {g : Grouping} {bindings : List Binding} {x : Binding} {path : String}

theorem order_add (g : Grouping) (x : Binding) : (g.add x).order =
    if (g.routes.find? x.path).isSome then g.order else g.order ++ [x.path] := by
  rw [add]
  cases g.routes.find? x.path <;> rfl

theorem find?_add (g : Grouping) (x : Binding) (path : String) :
    (g.add x).routes.find? path = if path = x.path
      then some ((g.routes.find? x.path).getD [] ++ [x.route]) else g.routes.find? path := by
  have hi : (g.add x).routes =
      g.routes.insert x.path ((g.routes.find? x.path).getD [] ++ [x.route]) := by
    rw [add]
    cases g.routes.find? x.path <;> rfl
  rw [hi]
  by_cases h : path = x.path
  · rw [if_pos h, h, Keyed.find?_insert_self]
  · rw [if_neg h, Keyed.find?_insert_of_ne h]

/-- What is gathered of bindings: the paths in order, and for each path its routes. -/
structure Gathers (g : Grouping) (bindings : List Binding) : Prop where
  order : g.order = distinct (bindings.map (·.path))
  known (path : String) : (g.routes.find? path).isSome ↔ path ∈ bindings.map (·.path)
  routes (path : String) : (g.routes.find? path).getD [] = routesOf bindings path

theorem Gathers.add (h : g.Gathers bindings) (x : Binding) :
    (g.add x).Gathers (bindings ++ [x]) where
  order := by
    simp only [order_add, h.known, h.order, List.map_append, List.map_cons, List.map_nil,
      distinct_concat]
  known path := by
    rw [find?_add, List.map_append, List.mem_append, List.map_singleton, List.mem_singleton]
    by_cases hp : path = x.path
    · rw [if_pos hp]
      exact iff_of_true rfl (.inr hp)
    · rw [if_neg hp, h.known, or_iff_left hp]
  routes path := by
    rw [find?_add, routesOf_concat]
    by_cases hp : path = x.path
    · rw [if_pos hp, if_pos hp, Option.getD_some, h.routes, hp]
    · rw [if_neg hp, if_neg hp, h.routes]

theorem Gathers.foldl (h : g.Gathers bindings) (later : List Binding) :
    (later.foldl Grouping.add g).Gathers (bindings ++ later) := by
  induction later generalizing g bindings with
  | nil => rwa [List.append_nil]
  | cons x later ih =>
    rw [List.append_cons]
    exact ih (h.add x)

theorem gathers_empty : empty.Gathers [] where
  order := rfl
  known _ := iff_of_false Bool.false_ne_true List.not_mem_nil
  routes _ := rfl

/-- Paths that differ do not take each other's routes. -/
theorem tables_eq_map {order : List String} (h : order.Nodup) (routes : Keyed (List Route)) :
    tables routes order = order.map fun path => ⟨path, (routes.find? path).getD []⟩ := by
  induction order generalizing routes with
  | nil => rfl
  | cons path order ih =>
    rw [List.nodup_cons] at h
    rw [tables, List.map_cons, ih h.2]
    congr 1
    apply List.map_congr_left
    intro other ho
    have hne : other ≠ path := fun he => h.1 (he ▸ ho)
    rw [Keyed.find?_remove_of_ne hne]

end Grouping

theorem groupByPath_eq (bindings : List Binding) :
    groupByPath bindings =
      (distinct (bindings.map (·.path))).map fun path => ⟨path, routesOf bindings path⟩ := by
  have h := Grouping.gathers_empty.foldl bindings
  have hn : (bindings.foldl Grouping.add .empty).order.Nodup := by
    rw [h.order]
    exact nodup_distinct _
  rw [groupByPath, Grouping.tables_eq_map hn, h.order]
  apply List.map_congr_left
  intro path _
  rw [h.routes, List.nil_append]

/-- The bindings that a table stands for. -/
def PathTable.bindings (table : PathTable) : List Binding :=
  table.routes.map (⟨table.path, ·⟩)

theorem PathTable.bindings_routesOf (bindings : List Binding) (path : String) :
    PathTable.bindings ⟨path, routesOf bindings path⟩ = bindings.filter (·.path = path) := by
  have h : ∀ x ∈ bindings.filter (·.path = path), (⟨path, x.route⟩ : Binding) = x := by
    intro x hx
    have hp : x.path = path := by simpa using List.of_mem_filter hx
    rw [← hp]
  rw [PathTable.bindings, routesOf, List.map_map]
  exact (List.map_congr_left h).trans (List.map_id _)

theorem flatMap_groupByPath_perm (bindings : List Binding) :
    ((groupByPath bindings).flatMap PathTable.bindings).Perm bindings := by
  rw [groupByPath_eq, List.flatMap_map]
  simp only [PathTable.bindings_routesOf]
  apply Keyed.flatMap_filter_perm (nodup_distinct _)
  intro x hx
  exact mem_distinct.2 (List.mem_map_of_mem hx)

end QueryRouting

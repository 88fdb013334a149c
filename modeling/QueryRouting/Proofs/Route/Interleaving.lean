import Mathlib.Data.List.Perm.Basic
import QueryRouting.Proofs.Route.Precedence
import QueryRouting.Proofs.Route.Registration

namespace QueryRouting

/-- The bindings of each path are the same, in the same order. -/
def SameOnPaths (bindings bindings' : List Binding) : Prop :=
  ∀ path, bindings.filter (·.path = path) = bindings'.filter (·.path = path)

namespace SameOnPaths

variable {bindings bindings' : List Binding}

theorem swap {l l' : List Binding} {x y : Binding} (hn : x.path ≠ y.path) :
    SameOnPaths (l ++ x :: y :: l') (l ++ y :: x :: l') := by
  intro path
  rw [List.filter_append, List.filter_append]
  congr 1
  by_cases hx : x.path = path
  · have hy : y.path ≠ path := fun hy => hn (hx.trans hy.symm)
    simp [hx, hy]
  · simp [List.filter_cons, hx]

theorem symm (h : SameOnPaths bindings bindings') : SameOnPaths bindings' bindings :=
  fun path => (h path).symm

theorem subset (h : SameOnPaths bindings bindings') : bindings ⊆ bindings' := by
  intro x hx
  have hf : x ∈ bindings.filter (·.path = x.path) := List.mem_filter.2 ⟨hx, decide_eq_true rfl⟩
  rw [h] at hf
  exact List.mem_of_mem_filter hf

theorem routesOf_eq (h : SameOnPaths bindings bindings') :
    routesOf bindings = routesOf bindings' := by
  funext path
  rw [routesOf, routesOf, h]

theorem groupByPath_perm (h : SameOnPaths bindings bindings') :
    (groupByPath bindings).Perm (groupByPath bindings') := by
  rw [groupByPath_eq, groupByPath_eq, h.routesOf_eq]
  apply List.Perm.map
  apply (List.perm_ext_iff_of_nodup (nodup_distinct _) (nodup_distinct _)).2
  intro path
  rw [mem_distinct, mem_distinct]
  constructor
  · intro hp
    exact List.map_subset _ h.subset hp
  · intro hp
    exact List.map_subset _ h.symm.subset hp

end SameOnPaths

open Pattern in
theorem registerAll_perm {tables tables' : List PathTable} {paths : List RegisteredPath}
    (hp : tables'.Perm tables) (h : registerAll [] tables = some paths) :
    ∃ paths', registerAll [] tables' = some paths' ∧ paths'.Perm paths := by
  obtain ⟨entries, rfl, hf, hw, -⟩ := registerAll_eq_some_iff.1 h
  obtain ⟨entries', hf', hp'⟩ := List.perm_comp_forall₂ hp hf
  have hw' : entries'.Pairwise fun x y => ¬ Clash x.pattern y.pattern :=
    (hp'.pairwise_iff fun hn hc => hn hc.symm).2 hw
  exact ⟨entries', registerAll_eq_some_iff.2 ⟨entries', rfl, hf', hw', nofun⟩, hp'⟩

namespace Router

variable {b : Builder} {router : Router}

/-- The order in which paths are registered decides nothing. -/
theorem dispatch_perm {paths : List RegisteredPath} (hp : paths.Perm router.paths)
    (hn : paths.Pairwise fun x y => ¬ Pattern.Clash x.pattern y.pattern) :
    { router with paths }.dispatch = router.dispatch := by
  funext fresh request
  have hb : PathMatch.best? (PathMatch.all paths request.target.path.toList) =
      PathMatch.best? (PathMatch.all router.paths request.target.path.toList) :=
    PathMatch.best?_perm (hp.filterMap _) (PathMatch.decided_all hn _)
  rw [dispatch, dispatch]
  dsimp only
  rw [hb]

theorem ofBuilder?_sameOnPaths {bindings : List Binding} (h : ofBuilder? b = some router)
    (hs : SameOnPaths bindings b.bindings) :
    ∃ router', ofBuilder? { b with bindings } = some router' ∧ router'.serve = router.serve := by
  obtain ⟨paths, hr, rfl⟩ := ofBuilder?_eq_some_iff.1 h
  obtain ⟨paths', hr', hp⟩ := registerAll_perm hs.groupByPath_perm hr
  obtain ⟨entries, rfl, -, hn, -⟩ := registerAll_eq_some_iff.1 hr'
  refine ⟨_, ofBuilder?_eq_some_iff.2 ⟨_, hr', rfl⟩, ?_⟩
  funext fresh request
  have hd := congrFun (congrFun (@dispatch_perm
    ⟨paths, b.shared, b.collaborators, b.responseHeaders, b.bodyLimit⟩ _ hp hn) fresh) request
  rw [serve, serve, ← hd]

/--
Grouping bindings by path loses none, repeats none, and keeps the order of those of each path. Each
path is registered once, with the routes of its bindings. So bindings that are the same for each
path make routers that answer alike.
-/
theorem ofBuilder?_groups (h : ofBuilder? b = some router) :
    ((groupByPath b.bindings).map (·.path)).Nodup ∧
      (∀ path, path ∈ (groupByPath b.bindings).map (·.path) ↔ path ∈ b.bindings.map (·.path)) ∧
      (∀ table ∈ groupByPath b.bindings,
        table.bindings = b.bindings.filter (·.path = table.path)) ∧
      ((groupByPath b.bindings).flatMap PathTable.bindings).Perm b.bindings ∧
      List.Forall₂ PathTable.RegisteredAs (groupByPath b.bindings) router.paths ∧
      ∀ bindings, SameOnPaths bindings b.bindings →
        ∃ router', ofBuilder? { b with bindings } = some router' ∧
          ∀ fresh request, router'.serve fresh request = router.serve fresh request := by
  refine ⟨?_, ?_, ?_, flatMap_groupByPath_perm b.bindings, ?_, ?_⟩
  · rw [paths_groupByPath]
    exact nodup_distinct _
  · intro path
    rw [paths_groupByPath, mem_distinct]
  · intro table ht
    rw [groupByPath_eq] at ht
    obtain ⟨path, -, rfl⟩ := List.mem_map.1 ht
    exact PathTable.bindings_routesOf b.bindings path
  · obtain ⟨paths, hr, rfl⟩ := ofBuilder?_eq_some_iff.1 h
    obtain ⟨entries, rfl, hf, -⟩ := registerAll_eq_some_iff.1 hr
    exact hf
  · intro bindings hs
    obtain ⟨router', hr, he⟩ := ofBuilder?_sameOnPaths h hs
    exact ⟨router', hr, fun fresh request => by rw [he]⟩

open Builder in
theorem ofBuilder?_groups_of_repeated :
    ∃ router router', ofBuilder? (ofPaths ["/a/{x}", "/{*rest}", "/a/{x}"]) = some router ∧
      ofBuilder? (ofPaths ["/{*rest}", "/a/{x}", "/a/{x}"]) = some router' ∧
      ∀ fresh request, router'.serve fresh request = router.serve fresh request := by
  have hw : ∃ router, ofBuilder? (ofPaths ["/a/{x}", "/{*rest}", "/a/{x}"]) = some router := by
    rw [ofBuilder?_ofPaths_isSome_iff]
    decide +kernel
  obtain ⟨router, hr⟩ := hw
  have hs : SameOnPaths (ofPaths ["/{*rest}", "/a/{x}", "/a/{x}"]).bindings
      (ofPaths ["/a/{x}", "/{*rest}", "/a/{x}"]).bindings := by
    rw [bindings_ofPaths, bindings_ofPaths]
    exact .swap (l := []) (by decide)
  obtain ⟨-, -, -, -, -, hsame⟩ := ofBuilder?_groups hr
  obtain ⟨router', hr', hserve⟩ := hsame _ hs
  exact ⟨router, router', hr, hr', hserve⟩

end Router

end QueryRouting

import Mathlib.Data.List.Nodup
import Mathlib.Data.String.Basic
import QueryRouting.Keyed

namespace QueryRouting.Keyed

variable {α : Type u}

theorem find?_eq_some_iff {entries : Keyed α} {key : String} {a : α} :
    find? key entries = some a ↔ ∃ before after, entries = before ++ (key, a) :: after ∧
      ∀ entry ∈ before, entry.1 ≠ key := by
  induction entries with
  | nil => simp
  | cons entry rest ih =>
    obtain ⟨k, b⟩ := entry
    rw [find?]
    by_cases hk : k = key
    · subst hk
      rw [if_pos rfl, Option.some_inj]
      constructor
      · rintro rfl
        exact ⟨[], rest, rfl, List.forall_mem_nil _⟩
      · rintro ⟨before, after, he, hb⟩
        cases before with
        | nil => exact (Prod.mk.inj (List.cons.inj he).1).2
        | cons x before =>
          obtain ⟨rfl, -⟩ := List.cons.inj he
          exact absurd rfl (hb _ List.mem_cons_self)
    · rw [if_neg hk, ih]
      constructor
      · rintro ⟨before, after, rfl, hb⟩
        exact ⟨(k, b) :: before, after, rfl, List.forall_mem_cons.2 ⟨hk, hb⟩⟩
      · rintro ⟨before, after, he, hb⟩
        cases before with
        | nil => exact absurd (Prod.mk.inj (List.cons.inj he).1).1 hk
        | cons x before =>
          obtain ⟨rfl, rfl⟩ := List.cons.inj he
          exact ⟨before, after, rfl, (List.forall_mem_cons.1 hb).2⟩

theorem insert_comm {a b : String} (h : a ≠ b) (x y : α) (entries : Keyed α) :
    insert a x (insert b y entries) = insert b y (insert a x entries) := by
  induction entries with
  | nil =>
    simp only [insert]
    grind
  | cons entry rest ih =>
    obtain ⟨k, v⟩ := entry
    simp only [insert]
    grind [insert]

theorem insert_insert_self (key : String) (x y : α) (entries : Keyed α) :
    insert key y (insert key x entries) = insert key y entries := by
  induction entries with
  | nil => simp only [insert, if_true]
  | cons entry rest ih =>
    obtain ⟨k, v⟩ := entry
    by_cases hk : key = k
    · simp only [insert, if_pos hk, if_true]
    · by_cases hl : key < k
      · simp only [insert, if_neg hk, if_pos hl, if_true]
      · simp only [insert, if_neg hk, if_neg hl, ih]

theorem insert_map (f : α → β) (key : String) (value : α) (entries : Keyed α) :
    insert key (f value) (entries.map fun entry => (entry.1, f entry.2)) =
      (insert key value entries).map fun entry => (entry.1, f entry.2) := by
  induction entries with
  | nil => rfl
  | cons entry rest ih =>
    obtain ⟨k, v⟩ := entry
    simp only [List.map_cons, insert, ih]
    split
    · rfl
    · split <;> rfl

theorem insert_perm {key : String} {entries : Keyed α} (h : key ∉ entries.map (·.1)) (value : α) :
    (insert key value entries).Perm ((key, value) :: entries) := by
  induction entries with
  | nil => exact .refl _
  | cons entry rest ih =>
    obtain ⟨k, v⟩ := entry
    rw [List.map_cons, List.mem_cons, not_or] at h
    rw [insert, if_neg h.1]
    split
    · exact .refl _
    · exact ((ih h.2).cons _).trans (.swap _ _ _)

def insertAll (entries : Keyed α) (pairs : List (String × α)) : Keyed α :=
  pairs.foldl (fun entries (key, value) => insert key value entries) entries

theorem insertAll_cons (entries : Keyed α) (key : String) (value : α)
    (pairs : List (String × α)) :
    insertAll entries ((key, value) :: pairs) = insertAll (insert key value entries) pairs := rfl

theorem ofList_eq_insertAll (pairs : List (String × α)) : ofList pairs = insertAll [] pairs := rfl

theorem insertAll_perm {pairs pairs' : List (String × α)} (hp : pairs.Perm pairs')
    (hk : (pairs.map (·.1)).Nodup) (entries : Keyed α) :
    insertAll entries pairs = insertAll entries pairs' := by
  apply hp.foldl_eq'
  intro p hpm q hqm m
  by_cases hpq : p.1 = q.1
  · have he : p = q := List.inj_on_of_nodup_map hk hpm hqm hpq
    rw [he]
  · exact insert_comm (Ne.symm hpq) _ _ m

theorem insertAll_insert_of_mem {key : String} {pairs : List (String × α)}
    (h : key ∈ pairs.map (·.1)) (value : α) (entries : Keyed α) :
    insertAll (insert key value entries) pairs = insertAll entries pairs := by
  induction pairs generalizing entries with
  | nil => exact absurd h List.not_mem_nil
  | cons pair rest ih =>
    obtain ⟨k, v⟩ := pair
    rw [insertAll_cons, insertAll_cons]
    by_cases hk : key = k
    · rw [hk, insert_insert_self]
    · rw [insert_comm (Ne.symm hk)]
      exact ih (List.mem_of_ne_of_mem hk h) _

/-- Pairs with distinct keys are the entries that they make. -/
theorem insertAll_perm_append {pairs : List (String × α)} {entries : Keyed α}
    (hk : ((pairs ++ entries).map (·.1)).Nodup) :
    (insertAll entries pairs).Perm (pairs ++ entries) := by
  induction pairs generalizing entries with
  | nil => exact .refl _
  | cons pair rest ih =>
    obtain ⟨k, v⟩ := pair
    have hnew : k ∉ entries.map (·.1) := by
      intro hm
      rw [List.cons_append, List.map_cons, List.nodup_cons, List.map_append] at hk
      exact hk.1 (List.mem_append_right _ hm)
    have hp : (rest ++ insert k v entries).Perm ((k, v) :: rest ++ entries) :=
      ((insert_perm hnew v).append_left rest).trans List.perm_middle
    rw [insertAll_cons]
    exact (ih ((hp.map _).nodup_iff.2 hk)).trans hp

theorem ofList_perm {pairs : List (String × α)} (hk : (pairs.map (·.1)).Nodup) :
    (ofList pairs).Perm pairs := by
  have hp : (insertAll [] pairs).Perm (pairs ++ []) :=
    insertAll_perm_append (by rwa [List.append_nil])
  rwa [List.append_nil] at hp

theorem ofList_map (f : α → β) (pairs : List (String × α)) :
    ofList (pairs.map fun pair => (pair.1, f pair.2)) =
      (ofList pairs).map fun entry => (entry.1, f entry.2) := by
  have hall (entries : Keyed α) :
      insertAll (entries.map fun entry => (entry.1, f entry.2))
        (pairs.map fun pair => (pair.1, f pair.2)) =
          (insertAll entries pairs).map fun entry => (entry.1, f entry.2) := by
    induction pairs generalizing entries with
    | nil => rfl
    | cons pair rest ih => rw [List.map_cons, insertAll_cons, insert_map, ih, ← insertAll_cons]
  exact hall []

theorem find?_insertAll_of_notMem {key : String} {pairs : List (String × α)}
    (h : key ∉ pairs.map (·.1)) (entries : Keyed α) :
    find? key (insertAll entries pairs) = find? key entries := by
  induction pairs generalizing entries with
  | nil => rfl
  | cons pair rest ih =>
    obtain ⟨k, v⟩ := pair
    rw [List.map_cons, List.mem_cons, not_or] at h
    rw [insertAll_cons, ih h.2, find?_insert_of_ne h.1]

theorem find?_insertAll_of_mem {key : String} {value : α} {pairs : List (String × α)}
    (hk : (pairs.map (·.1)).Nodup) (h : (key, value) ∈ pairs) (entries : Keyed α) :
    find? key (insertAll entries pairs) = some value := by
  induction pairs generalizing entries with
  | nil => cases h
  | cons pair rest ih =>
    obtain ⟨k, v⟩ := pair
    rw [List.map_cons, List.nodup_cons] at hk
    rw [insertAll_cons]
    rcases List.mem_cons.1 h with he | h
    · cases he
      rw [find?_insertAll_of_notMem hk.1, find?_insert_self]
    · exact ih hk.2 h _

theorem find?_ofList_eq_some_iff {key : String} {value : α} {pairs : List (String × α)}
    (hk : (pairs.map (·.1)).Nodup) :
    find? key (ofList pairs) = some value ↔ (key, value) ∈ pairs := by
  rw [ofList_eq_insertAll]
  constructor
  · intro h
    by_cases hm : key ∈ pairs.map (·.1)
    · obtain ⟨⟨k, v⟩, hp, rfl⟩ := List.mem_map.1 hm
      rw [find?_insertAll_of_mem hk hp] at h
      cases h
      exact hp
    · rw [find?_insertAll_of_notMem hm] at h
      cases h
  · intro h
    exact find?_insertAll_of_mem hk h []

theorem exists_find?_insertAll_iff {key : String} {pairs : List (String × α)}
    {entries : Keyed α} : (∃ value, find? key (insertAll entries pairs) = some value) ↔
      (∃ value, find? key entries = some value) ∨ key ∈ pairs.map (·.1) := by
  induction pairs generalizing entries with
  | nil =>
    rw [List.map_nil]
    exact ⟨.inl, fun h => h.resolve_right List.not_mem_nil⟩
  | cons pair rest ih =>
    obtain ⟨k, v⟩ := pair
    rw [insertAll_cons, ih, List.map_cons, List.mem_cons]
    by_cases hk : key = k
    · subst hk
      simp only [find?_insert_self, Option.some.injEq, exists_eq', true_or, or_true]
    · simp only [find?_insert_of_ne hk, hk, false_or]

theorem mem_or_find?_of_find?_insertAll {key : String} {value : α} {pairs : List (String × α)}
    {entries : Keyed α} (h : find? key (insertAll entries pairs) = some value) :
    (key, value) ∈ pairs ∨ find? key entries = some value := by
  induction pairs generalizing entries with
  | nil => exact .inr h
  | cons pair rest ih =>
    obtain ⟨k, v⟩ := pair
    rw [insertAll_cons] at h
    rcases ih h with hm | hf
    · exact .inl (List.mem_cons_of_mem _ hm)
    · by_cases hk : key = k
      · rw [hk, find?_insert_self] at hf
        cases hf
        exact .inl (hk ▸ List.mem_cons_self)
      · rw [find?_insert_of_ne hk] at hf
        exact .inr hf

theorem exists_find?_ofList_iff {key : String} {pairs : List (String × α)} :
    (∃ value, find? key (ofList pairs) = some value) ↔ key ∈ pairs.map (·.1) := by
  rw [ofList_eq_insertAll, exists_find?_insertAll_iff]
  simp

theorem mem_of_find?_ofList {key : String} {value : α} {pairs : List (String × α)}
    (h : find? key (ofList pairs) = some value) : (key, value) ∈ pairs := by
  rw [ofList_eq_insertAll] at h
  exact (mem_or_find?_of_find?_insertAll h).resolve_right (by simp)

section Ascending

variable {entries : Keyed α} {key : String}

theorem exists_find?_iff : (∃ a, find? key entries = some a) ↔ key ∈ entries.map (·.1) := by
  induction entries with
  | nil => simp
  | cons entry rest ih =>
    obtain ⟨k, v⟩ := entry
    rw [find?, List.map_cons, List.mem_cons, ← ih]
    by_cases hk : k = key
    · simp [hk]
    · simp [hk, Ne.symm hk]

theorem find?_map (f : α → β) (key : String) (entries : Keyed α) :
    find? key (entries.map fun entry => (entry.1, f entry.2)) = (find? key entries).map f := by
  induction entries with
  | nil => rfl
  | cons entry rest ih =>
    rw [List.map_cons, find?, find?, ih]
    split <;> rfl

/-- Keys in ascending order, so none comes twice. -/
def Ascending (entries : Keyed α) : Prop :=
  (entries.map (·.1)).Pairwise (· < ·)

theorem Ascending.nodup (h : Ascending entries) : (entries.map (·.1)).Nodup :=
  h.imp fun hlt => ne_of_lt hlt

theorem Ascending.map (h : Ascending entries) (f : α → β) :
    Ascending (entries.map fun entry => (entry.1, f entry.2)) := by
  rw [Ascending, List.map_map]
  exact h

theorem mem_keys_insert {other : String} {value : α} :
    other ∈ (insert key value entries).map (·.1) ↔ other = key ∨ other ∈ entries.map (·.1) := by
  rw [← exists_find?_iff, ← exists_find?_iff]
  by_cases h : other = key
  · simp [h]
  · simp [find?_insert_of_ne h, h]

theorem Ascending.insert (h : Ascending entries) (key : String) (value : α) :
    Ascending (entries.insert key value) := by
  induction entries with
  | nil => exact List.pairwise_singleton _ _
  | cons entry rest ih =>
    obtain ⟨k, v⟩ := entry
    obtain ⟨hk, hrest⟩ := List.pairwise_cons.1 h
    rw [Keyed.insert]
    split
    · rename_i he
      subst he
      exact h
    · split
      · rename_i hlt
        apply List.pairwise_cons.2 ⟨?_, h⟩
        intro other hm
        rcases List.mem_cons.1 hm with rfl | hm
        · exact hlt
        · exact lt_trans hlt (hk other hm)
      · rename_i hne hlt
        have hlt' : k < key := lt_of_le_of_ne (not_lt.1 hlt) (Ne.symm hne)
        apply List.pairwise_cons.2 ⟨?_, ih hrest⟩
        intro other hm
        rcases mem_keys_insert.1 hm with rfl | hm
        · exact hlt'
        · exact hk other hm

theorem Ascending.insertAll (h : Ascending entries) (pairs : List (String × α)) :
    Ascending (entries.insertAll pairs) := by
  induction pairs generalizing entries with
  | nil => exact h
  | cons pair rest ih => exact ih (h.insert pair.1 pair.2)

theorem ascending_ofList (pairs : List (String × α)) : Ascending (ofList pairs) := by
  have h : Ascending ([] : Keyed α) := List.Pairwise.nil
  exact h.insertAll pairs

/-- Where no key comes twice, an entry is there just when it is found. -/
theorem find?_eq_some_iff_mem (h : (entries.map (·.1)).Nodup) {a : α} :
    find? key entries = some a ↔ (key, a) ∈ entries := by
  induction entries with
  | nil => simp
  | cons entry rest ih =>
    obtain ⟨k, v⟩ := entry
    obtain ⟨hk, hrest⟩ := List.nodup_cons.1 h
    rw [find?, List.mem_cons, Prod.mk.injEq, ← ih hrest]
    by_cases he : k = key
    · subst he
      have hn : find? k rest ≠ some a := fun hf => hk (exists_find?_iff.1 ⟨a, hf⟩)
      simp [hn, eq_comm]
    · simp [he, Ne.symm he]

end Ascending

/-- Keys divide a list into the elements of each of them. -/
theorem flatMap_filter_perm {β : Type v} {κ : Type w} [DecidableEq κ] {key : β → κ} {keys : List κ}
    {l : List β}
    (hk : keys.Nodup) (h : ∀ b ∈ l, key b ∈ keys) :
    (keys.flatMap fun k => l.filter (key · = k)).Perm l := by
  induction keys generalizing l with
  | nil =>
    cases l with
    | nil => exact .nil
    | cons b l => exact absurd (h b List.mem_cons_self) List.not_mem_nil
  | cons k keys ih =>
    rw [List.nodup_cons] at hk
    have hrest : ∀ b ∈ l.filter (fun b => !decide (key b = k)), key b ∈ keys := by
      intro b hb
      obtain ⟨hb, hn⟩ := List.mem_filter.1 hb
      exact (List.mem_cons.1 (h b hb)).resolve_left (by simpa using hn)
    have hsame : (keys.flatMap fun k' => l.filter (key · = k')) =
        keys.flatMap fun k' => (l.filter fun b => !decide (key b = k)).filter (key · = k') := by
      apply List.flatMap_congr
      intro k' hk'
      rw [List.filter_filter]
      apply List.filter_congr
      intro b _
      by_cases he : key b = k'
      · have hne : k' ≠ k := fun hkk => hk.1 (hkk ▸ hk')
        simp [he, hne]
      · simp [he]
    rw [List.flatMap_cons, hsame]
    exact ((ih hk.2 hrest).append_left _).trans (List.filter_append_perm _ l)

end QueryRouting.Keyed

/-!
Tables: lists of entries with one entry for each key.

Putting an entry under a known key replaces its value in place; a new key goes to the end.
-/

namespace ComponentStyles

/-- Entries in the order in which their keys first came. -/
abbrev Table (κ α : Type) :=
  List (κ × α)

namespace Table

variable {κ α : Type} [DecidableEq κ]

def get? (table : Table κ α) (key : κ) : Option α :=
  (table.find? (·.1 == key)).map (·.2)

def put (table : Table κ α) (key : κ) (value : α) : Table κ α :=
  match table with
  | [] => [(key, value)]
  | entry :: rest =>
      if entry.1 = key then (key, value) :: rest else entry :: put rest key value

def remove (table : Table κ α) (key : κ) : Table κ α :=
  table.filter (·.1 ≠ key)

def keys (table : Table κ α) : List κ :=
  table.map (·.1)

@[simp]
theorem get?_nil (key : κ) : get? ([] : Table κ α) key = none := rfl

theorem get?_cons (entry : κ × α) (rest : Table κ α) (key : κ) :
    get? (entry :: rest) key = if entry.1 = key then some entry.2 else get? rest key := by
  by_cases same : entry.1 = key <;> simp [get?, same]

theorem get?_put (table : Table κ α) (key other : κ) (value : α) :
    (table.put key value).get? other = if key = other then some value else table.get? other := by
  induction table with
  | nil => simp [put, get?_cons]
  | cons entry rest inductionHypothesis =>
      by_cases same : entry.1 = key
      · subst same
        by_cases found : entry.1 = other <;> simp [put, get?_cons, found]
      · rw [put, if_neg same, get?_cons, get?_cons, inductionHypothesis]
        by_cases found : entry.1 = other
        · have different : key ≠ other := fun equal => same (found.trans equal.symm)
          rw [if_pos found, if_neg different, if_pos found]
        · rw [if_neg found, if_neg found]

@[simp]
theorem get?_put_self (table : Table κ α) (key : κ) (value : α) :
    (table.put key value).get? key = some value := by
  simp [get?_put]

theorem get?_put_of_ne (table : Table κ α) {key other : κ} (value : α) (different : key ≠ other) :
    (table.put key value).get? other = table.get? other := by
  simp [get?_put, different]

theorem get?_remove (table : Table κ α) (key other : κ) :
    (table.remove key).get? other = if key = other then none else table.get? other := by
  induction table with
  | nil => simp [remove]
  | cons entry rest inductionHypothesis =>
      by_cases dropped : entry.1 = key
      · have same : remove (entry :: rest) key = remove rest key := by simp [remove, dropped]
        rw [same, inductionHypothesis, get?_cons, dropped]
        split <;> rfl
      · have same : remove (entry :: rest) key = entry :: remove rest key := by
          simp [remove, dropped]
        rw [same, get?_cons, get?_cons, inductionHypothesis]
        by_cases found : entry.1 = other
        · have different : key ≠ other := fun equal => dropped (found.trans equal.symm)
          rw [if_pos found, if_neg different, if_pos found]
        · rw [if_neg found, if_neg found]

theorem find?_of_distinct {key : α → κ} {items : List α} {item : α}
    (distinct : (items.map key).Nodup) (inside : item ∈ items) :
    (items.find? fun other => key other == key item) = some item := by
  induction items with
  | nil => cases inside
  | cons first rest inductionHypothesis =>
      rw [List.map_cons, List.nodup_cons] at distinct
      obtain ⟨different, distinct⟩ := distinct
      rcases List.mem_cons.mp inside with same | behind
      · rw [same]
        exact List.find?_cons_of_pos (beq_self_eq_true _)
      · have other : key first ≠ key item := by
          intro same
          exact different (same ▸ List.mem_map_of_mem behind)
        rw [List.find?_cons_of_neg (by simpa using other)]
        exact inductionHypothesis distinct behind

theorem get?_of_distinct {table : Table κ α} {key : κ} {value : α}
    (distinct : table.keys.Nodup) (inside : (key, value) ∈ table) :
    table.get? key = some value := by
  have found : table.find? (·.1 == key) = some (key, value) := find?_of_distinct distinct inside
  rw [get?, found]
  rfl

theorem put_of_new {table : Table κ α} {key : κ} (new : key ∉ table.keys) (value : α) :
    table.put key value = table ++ [(key, value)] := by
  induction table with
  | nil => rfl
  | cons entry rest inductionHypothesis =>
      rw [keys, List.map_cons, List.mem_cons, not_or] at new
      rw [put, if_neg fun same => new.1 same.symm, inductionHypothesis new.2, List.cons_append]

theorem mem_of_get? {table : Table κ α} {key : κ} {value : α}
    (found : table.get? key = some value) : (key, value) ∈ table := by
  obtain ⟨entry, find, held⟩ := Option.map_eq_some_iff.mp found
  have same : entry.1 = key := by simpa using List.find?_some find
  rw [← same, ← held]
  exact List.mem_of_find?_eq_some find

theorem keys_put (table : Table κ α) (key : κ) (value : α) :
    (table.put key value).keys = if key ∈ table.keys then table.keys else table.keys ++ [key] := by
  induction table with
  | nil => rfl
  | cons entry rest inductionHypothesis =>
      rw [put]
      by_cases same : entry.1 = key
      · simp [same, keys]
      · have other : key ≠ entry.1 := fun equal => same equal.symm
        unfold keys at inductionHypothesis ⊢
        rw [if_neg same, List.map_cons, List.map_cons, inductionHypothesis]
        simp only [List.mem_cons, other, false_or]
        by_cases known : key ∈ rest.map (·.1)
        · rw [if_pos known, if_pos known]
        · rw [if_neg known, if_neg known, List.cons_append]

theorem nodup_keys_put {table : Table κ α} (distinct : table.keys.Nodup) (key : κ) (value : α) :
    (table.put key value).keys.Nodup := by
  rw [keys_put]
  by_cases known : key ∈ table.keys
  · rw [if_pos known]
    exact distinct
  · rw [if_neg known, List.nodup_append]
    refine ⟨distinct, List.pairwise_singleton _ _, ?_⟩
    intro old inside new added same
    rw [List.mem_singleton.mp added] at same
    exact known (same ▸ inside)

theorem nodup_keys_remove {table : Table κ α} (distinct : table.keys.Nodup) (key : κ) :
    (table.remove key).keys.Nodup :=
  distinct.sublist (List.filter_sublist.map _)

theorem mem_put {table : Table κ α} {key : κ} {value : α} {entry : κ × α}
    (inside : entry ∈ table.put key value) : entry = (key, value) ∨ entry ∈ table := by
  induction table with
  | nil => exact Or.inl (List.mem_singleton.mp inside)
  | cons first rest inductionHypothesis =>
      rw [put] at inside
      split at inside
      · rcases List.mem_cons.mp inside with new | behind
        · exact Or.inl new
        · exact Or.inr (List.mem_cons_of_mem first behind)
      · rcases List.mem_cons.mp inside with front | behind
        · exact Or.inr (front ▸ List.mem_cons_self)
        · exact (inductionHypothesis behind).imp_right (List.mem_cons_of_mem first)

end Table

end ComponentStyles

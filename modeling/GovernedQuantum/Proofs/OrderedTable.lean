import GovernedQuantum.Table
import Mathlib.Data.List.Nodup
import Mathlib.Data.List.Perm.Basic

/-!
# Entries of ordered tables

`Table.find?` is the view of a table, and its keys and values are what a session counts and lists.
This file joins the two: a table lists exactly what its view answers, each key once.

* `Table.find?_eq_some_iff`: the view and the entries say the same.
* `Table.ext_find?`: the view determines the table.
* `Table.keys_insert_perm`, `Table.values_insert_perm`, `Table.keys_erase_perm`: what a change of
  the table does to the lists, up to order.
* `Table.entries_insert_of_lt`: the same with the order, for a key above all others.
* `Table.mem_keys_ofList`: the keys of a table made from a list.
-/

namespace GovernedQuantum.Table

variable {κ α : Type}

/-! ## Entry lists -/

theorem mem_of_lookup [DecidableEq κ] {k : κ} {v : α} {es : List (κ × α)}
    (h : lookup k es = some v) : (k, v) ∈ es := by
  induction es with
  | nil => simp [lookup] at h
  | cons e rest ih =>
    by_cases he : e.1 = k
    · rw [lookup, if_pos he] at h
      obtain ⟨rfl⟩ := h
      rw [← he]
      exact List.mem_cons_self
    · rw [lookup, if_neg he] at h
      exact List.mem_cons_of_mem _ (ih h)

theorem lookup_of_mem [DecidableEq κ] {k : κ} {v : α} {es : List (κ × α)}
    (hd : (es.map Prod.fst).Nodup) (h : (k, v) ∈ es) : lookup k es = some v := by
  induction es with
  | nil => simp at h
  | cons e rest ih =>
    rw [List.map_cons, List.nodup_cons] at hd
    rcases List.mem_cons.1 h with rfl | h
    · rw [lookup, if_pos rfl]
    · have hne : e.1 ≠ k := by
        intro he
        exact hd.1 (he ▸ List.mem_map_of_mem h)
      rw [lookup, if_neg hne, ih hd.2 h]

theorem place_perm_of_lookup_none [LT κ] [DecidableEq κ] [DecidableLT κ] {k : κ} (v : α)
    {es : List (κ × α)} (h : lookup k es = none) : (place k v es).Perm ((k, v) :: es) := by
  induction es with
  | nil => exact .refl _
  | cons e rest ih =>
    have hne : e.1 ≠ k := by
      intro he
      rw [lookup, if_pos he] at h
      exact absurd h (by simp)
    rw [lookup, if_neg hne] at h
    unfold place
    split
    · exact .refl _
    · exact ((ih h).cons e).trans (.swap _ _ _)

/-! ## The view and the entries -/

section Order

variable [LE κ] [LT κ] [Std.LawfulOrderLT κ]

theorem keys_nodup (t : Table κ α) : t.keys.Nodup := by
  rw [keys, List.nodup_iff_pairwise_ne, List.pairwise_map]
  exact t.ascending.imp fun h => Std.ne_of_lt h

variable [DecidableEq κ]

theorem find?_eq_some_iff {t : Table κ α} {k : κ} {v : α} :
    t.find? k = some v ↔ (k, v) ∈ t.entries :=
  ⟨mem_of_lookup, lookup_of_mem t.keys_nodup⟩

theorem mem_keys_iff {t : Table κ α} {k : κ} : k ∈ t.keys ↔ ∃ v, t.find? k = some v := by
  simp only [find?_eq_some_iff, keys, List.mem_map, Prod.exists, exists_and_right, exists_eq_right]

theorem mem_values_iff {t : Table κ α} {v : α} : v ∈ t.values ↔ ∃ k, t.find? k = some v := by
  simp only [find?_eq_some_iff, values, List.mem_map, Prod.exists, exists_eq_right]

theorem mem_keys_iff_contains {t : Table κ α} {k : κ} : k ∈ t.keys ↔ t.contains k = true := by
  rw [mem_keys_iff, contains, Option.isSome_iff_exists]

/-- Where no two keys share a value, no value is listed twice. -/
theorem values_nodup {t : Table κ α}
    (h : ∀ {k j v}, t.find? k = some v → t.find? j = some v → k = j) : t.values.Nodup := by
  refine (List.Nodup.of_map _ t.keys_nodup).map_on ?_
  rintro ⟨k, v⟩ hk ⟨j, w⟩ hj (rfl : v = w)
  rw [h (find?_eq_some_iff.2 hk) (find?_eq_some_iff.2 hj)]

/-- A filtered table answers what passes the filter. -/
theorem find?_filter (t : Table κ α) (p : κ → α → Bool) (k : κ) :
    (t.filter p).find? k = (t.find? k).filter (p k) := by
  ext v
  rw [find?_eq_some_iff, filter, List.mem_filter, Option.filter_eq_some_iff, find?_eq_some_iff]

theorem keys_erase_perm {t : Table κ α} {k : κ} (h : t.contains k = true) :
    t.keys.Perm (k :: (t.erase k).keys) := by
  refine (List.perm_ext_iff_of_nodup t.keys_nodup ?_).2 ?_
  · refine List.nodup_cons.2 ⟨?_, keys_nodup _⟩
    rw [mem_keys_iff_contains, contains, find?_erase, if_pos rfl]
    exact Bool.false_ne_true
  · intro j
    rw [List.mem_cons, mem_keys_iff_contains, mem_keys_iff_contains, contains, contains,
      find?_erase]
    by_cases hj : k = j
    · subst hj
      exact ⟨fun _ => .inl rfl, fun _ => h⟩
    · rw [if_neg hj]
      exact ⟨.inr, fun hm => hm.resolve_left fun he => hj he.symm⟩

variable [Std.IsLinearOrder κ]

/-- **Tables that answer alike are equal**: the order leaves no choice in how entries are listed. -/
theorem ext_find? {t u : Table κ α} (h : ∀ k, t.find? k = u.find? k) : t = u := by
  obtain ⟨es, ascending⟩ := t
  obtain ⟨ds, ascending'⟩ := u
  have same : es.Perm ds := by
    apply (List.perm_ext_iff_of_nodup (.of_map _ (keys_nodup ⟨es, ascending⟩))
      (.of_map _ (keys_nodup ⟨ds, ascending'⟩))).2
    rintro ⟨k, v⟩
    have answers : lookup k es = lookup k ds := h k
    constructor
    · intro hm
      exact mem_of_lookup (answers ▸ lookup_of_mem (keys_nodup ⟨es, ascending⟩) hm)
    · intro hm
      exact mem_of_lookup (answers ▸ lookup_of_mem (keys_nodup ⟨ds, ascending'⟩) hm)
  have equal : es = ds := by
    apply same.eq_of_pairwise _ ascending ascending'
    intro a b _ _ hab hba
    exact absurd hba (Std.not_lt.2 (Std.le_of_lt hab))
  subst equal
  rfl

variable [DecidableLT κ]

theorem keys_insert_perm {t : Table κ α} {k : κ} (v : α) (h : t.find? k = none) :
    (t.insert k v).keys.Perm (k :: t.keys) :=
  (place_perm_of_lookup_none v h).map Prod.fst

theorem values_insert_perm {t : Table κ α} {k : κ} (v : α) (h : t.find? k = none) :
    (t.insert k v).values.Perm (v :: t.values) :=
  (place_perm_of_lookup_none v h).map Prod.snd

/-- A key above all others goes to the end. -/
theorem entries_insert_of_lt {t : Table κ α} {k : κ} (v : α) (h : ∀ j ∈ t.keys, j < k) :
    (t.insert k v).entries = t.entries ++ [(k, v)] := by
  have aux : ∀ es : List (κ × α), (∀ e ∈ es, e.1 < k) → place k v es = es ++ [(k, v)] := by
    intro es
    induction es with
    | nil => exact fun _ => rfl
    | cons e rest ih =>
      intro below
      have he := below e List.mem_cons_self
      rw [place, if_neg (Std.not_lt.2 (Std.le_of_lt he)), if_neg (Std.ne_of_lt he),
        ih fun d hd => below d (List.mem_cons_of_mem _ hd), List.cons_append]
  exact aux t.entries fun e he => h e.1 (List.mem_map_of_mem he)

theorem contains_insert (t : Table κ α) (k j : κ) (v : α) :
    (t.insert k v).contains j = (decide (k = j) || t.contains j) := by
  rw [contains, find?_insert]
  by_cases h : k = j <;> simp [h, contains]

/-- A table made from a list has the keys of the list. -/
theorem mem_keys_ofList {es : List (κ × α)} {k : κ} :
    k ∈ (ofList es).keys ↔ k ∈ es.map Prod.fst := by
  have aux : ∀ (es : List (κ × α)) (t : Table κ α),
      k ∈ (es.foldl (fun t e => t.insert e.1 e.2) t).keys ↔ k ∈ t.keys ∨ k ∈ es.map Prod.fst := by
    intro es
    induction es with
    | nil => intro t; simp
    | cons e rest ih =>
      intro t
      rw [List.foldl_cons, ih, mem_keys_iff_contains, mem_keys_iff_contains, contains_insert,
        List.map_cons, List.mem_cons, Bool.or_eq_true, decide_eq_true_eq]
      constructor
      · rintro ((h | h) | h)
        · exact .inr (.inl h.symm)
        · exact .inl h
        · exact .inr (.inr h)
      · rintro (h | h | h)
        · exact .inl (.inr h)
        · exact .inl (.inl h.symm)
        · exact .inr h
  have h := aux es empty
  rwa [show (empty : Table κ α).keys = [] from rfl, or_iff_right List.not_mem_nil] at h

end Order

/-! ## Sizes and membership -/

section Keys

variable [LT κ]

theorem length_keys (t : Table κ α) : t.keys.length = t.size := List.length_map _

theorem length_values (t : Table κ α) : t.values.length = t.size := List.length_map _

variable [DecidableEq κ]

@[simp] theorem find?_empty (k : κ) : (empty : Table κ α).find? k = none := rfl

@[simp] theorem contains_empty (k : κ) : (empty : Table κ α).contains k = false := rfl

theorem contains_modify (t : Table κ α) (k j : κ) (f : α → α) :
    (t.modify k f).contains j = t.contains j := by
  rw [contains, find?_modify, contains]
  split
  · rw [Option.isSome_map]
  · rfl

theorem contains_erase (t : Table κ α) (k j : κ) :
    (t.erase k).contains j = (!decide (k = j) && t.contains j) := by
  rw [contains, find?_erase]
  by_cases h : k = j <;> simp [h, contains]

theorem contains_eq_true_iff {t : Table κ α} {k : κ} :
    t.contains k = true ↔ ∃ v, t.find? k = some v := by
  rw [contains, Option.isSome_iff_exists]

theorem contains_eq_false_iff {t : Table κ α} {k : κ} :
    t.contains k = false ↔ t.find? k = none := by
  rw [contains, Option.isSome_eq_false_iff, Option.isNone_iff_eq_none]

end Keys

end GovernedQuantum.Table

/-!
# Ordered tables

A **table** is a finite map kept as a list of entries with strictly ascending keys. Its order is the
order in which a session reports handles, groups, entities and variables, so the order is part of
the type and not left to an iteration.

* `Table.find?` is the view of a table.
* `find?_insert`, `find?_erase`, `find?_map`, `find?_modify`: what each operation does to the view.
-/

namespace GovernedQuantum

/-- A finite map with its entries in **ascending** order of keys. -/
structure Table (κ α : Type) [LT κ] where
  entries : List (κ × α)
  ascending : entries.Pairwise fun a b => a.1 < b.1

namespace Table

variable {κ α β : Type}

/-! ## Entry lists -/

/-- What stands at `k`. -/
def lookup [DecidableEq κ] (k : κ) : List (κ × α) → Option α
  | [] => none
  | e :: rest => if e.1 = k then some e.2 else lookup k rest

/-- Puts `v` at `k`, in place of what stands there. -/
def place [LT κ] [DecidableEq κ] [DecidableLT κ] (k : κ) (v : α) : List (κ × α) → List (κ × α)
  | [] => [(k, v)]
  | e :: rest =>
    if k < e.1 then (k, v) :: e :: rest
    else if e.1 = k then (k, v) :: rest
    else e :: place k v rest

theorem fst_of_mem_place [LT κ] [DecidableEq κ] [DecidableLT κ] {k : κ} {v : α}
    {es : List (κ × α)} {e : κ × α} (h : e ∈ place k v es) : e.1 = k ∨ e ∈ es := by
  induction es with
  | nil => simp only [place, List.mem_singleton] at h; exact .inl (by rw [h])
  | cons d rest ih =>
    unfold place at h
    split at h
    · rcases List.mem_cons.1 h with h | h
      · exact .inl (by rw [h])
      · exact .inr h
    · split at h
      · rcases List.mem_cons.1 h with h | h
        · exact .inl (by rw [h])
        · exact .inr (List.mem_cons_of_mem _ h)
      · rcases List.mem_cons.1 h with h | h
        · exact .inr (by rw [h]; exact List.mem_cons_self)
        · exact (ih h).imp id (List.mem_cons_of_mem _)

theorem place_ascending [LE κ] [LT κ] [DecidableEq κ] [DecidableLT κ] [Std.IsLinearOrder κ]
    [Std.LawfulOrderLT κ] {k : κ} {v : α} {es : List (κ × α)}
    (h : es.Pairwise fun a b => a.1 < b.1) : (place k v es).Pairwise fun a b => a.1 < b.1 := by
  induction es with
  | nil => simp [place]
  | cons d rest ih =>
    obtain ⟨hd, hr⟩ := List.pairwise_cons.1 h
    unfold place
    split
    · rename_i hk
      refine List.pairwise_cons.2 ⟨fun e he => ?_, h⟩
      rcases List.mem_cons.1 he with rfl | he
      · exact hk
      · exact Std.lt_trans hk (hd e he)
    · rename_i hk
      split
      · rename_i he
        exact List.pairwise_cons.2 ⟨fun e hm => he ▸ hd e hm, hr⟩
      · rename_i hne
        refine List.pairwise_cons.2 ⟨fun e hm => ?_, ih hr⟩
        rcases fst_of_mem_place hm with hf | hm
        · rw [hf]
          exact Std.lt_of_le_of_ne (Std.not_lt.1 hk) hne
        · exact hd e hm

theorem lookup_place [LT κ] [DecidableEq κ] [DecidableLT κ] (k j : κ) (v : α)
    (es : List (κ × α)) :
    lookup j (place k v es) = if k = j then some v else lookup j es := by
  induction es with
  | nil => simp [place, lookup]
  | cons d rest ih =>
    unfold place
    split
    · simp [lookup]
    · split
      · rename_i he
        by_cases hj : k = j <;> simp_all [lookup]
      · rename_i he
        by_cases hj : d.1 = j
        · have : k ≠ j := fun h => he (hj.trans h.symm)
          simp [lookup, hj, this]
        · simp [lookup, hj, ih]

theorem lookup_filter_ne [DecidableEq κ] (k j : κ) (es : List (κ × α)) :
    lookup j (es.filter fun e => decide (e.1 ≠ k)) = if k = j then none else lookup j es := by
  induction es with
  | nil => simp [lookup]
  | cons d rest ih =>
    by_cases hd : d.1 = k
    · by_cases hj : k = j
      · rw [List.filter_cons_of_neg (by simp [hd]), ih]; simp [hj]
      · have : d.1 ≠ j := fun h => hj (hd.symm.trans h)
        rw [List.filter_cons_of_neg (by simp [hd]), ih]; simp [lookup, hj, this]
    · rw [List.filter_cons_of_pos (by simp [hd])]
      by_cases hj : d.1 = j
      · have : k ≠ j := fun h => hd (hj.trans h.symm)
        simp [lookup, hj, this]
      · simp only [lookup, hj, if_false]; exact ih

theorem lookup_map [DecidableEq κ] (f : κ → α → β) (k : κ) (es : List (κ × α)) :
    lookup k (es.map fun e => (e.1, f e.1 e.2)) = (lookup k es).map (f k) := by
  induction es with
  | nil => rfl
  | cons d rest ih => by_cases h : d.1 = k <;> simp_all [lookup]

/-! ## Operations -/

variable [LT κ]

/-- The table without entries. -/
def empty : Table κ α := ⟨[], .nil⟩

instance : Inhabited (Table κ α) := ⟨empty⟩

def keys (t : Table κ α) : List κ := t.entries.map Prod.fst

def values (t : Table κ α) : List α := t.entries.map Prod.snd

def size (t : Table κ α) : Nat := t.entries.length

/-- The entries that pass `p`. -/
def filter (t : Table κ α) (p : κ → α → Bool) : Table κ α :=
  ⟨t.entries.filter fun e => p e.1 e.2, t.ascending.filter _⟩

/-- Every value changed by `f`, keys kept. -/
def map (t : Table κ α) (f : κ → α → β) : Table κ β :=
  ⟨t.entries.map fun e => (e.1, f e.1 e.2), List.pairwise_map.2 t.ascending⟩

variable [DecidableEq κ]

def find? (t : Table κ α) (k : κ) : Option α := lookup k t.entries

def contains (t : Table κ α) (k : κ) : Bool := (t.find? k).isSome

/-- The value at `k`, or `fallback` where there is none. -/
def getD (t : Table κ α) (k : κ) (fallback : α) : α := (t.find? k).getD fallback

def erase (t : Table κ α) (k : κ) : Table κ α := t.filter fun key _ => decide (key ≠ k)

/-- The value at `k`, if there is one, changed by `f`. -/
def modify (t : Table κ α) (k : κ) (f : α → α) : Table κ α :=
  t.map fun key v => if key = k then f v else v

theorem find?_erase (t : Table κ α) (k j : κ) :
    (t.erase k).find? j = if k = j then none else t.find? j :=
  lookup_filter_ne k j t.entries

theorem find?_map (t : Table κ α) (f : κ → α → β) (k : κ) :
    (t.map f).find? k = (t.find? k).map (f k) :=
  lookup_map f k t.entries

theorem find?_modify (t : Table κ α) (k j : κ) (f : α → α) :
    (t.modify k f).find? j = if j = k then (t.find? j).map f else t.find? j := by
  rw [modify, find?_map]
  split <;> simp

variable [LE κ] [DecidableLT κ] [Std.IsLinearOrder κ] [Std.LawfulOrderLT κ]

def insert (t : Table κ α) (k : κ) (v : α) : Table κ α :=
  ⟨place k v t.entries, place_ascending t.ascending⟩

theorem find?_insert (t : Table κ α) (k j : κ) (v : α) :
    (t.insert k v).find? j = if k = j then some v else t.find? j :=
  lookup_place k j v t.entries

/-- A table from entries in any order; of two with one key the later stays. -/
def ofList (es : List (κ × α)) : Table κ α :=
  es.foldl (fun t e => t.insert e.1 e.2) empty

end Table

end GovernedQuantum

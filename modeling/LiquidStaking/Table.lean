/-! # Tables

A table is a finite map kept as its entries in ascending key order, one entry per key.
Every operation keeps that shape, so two tables with the same bindings have the same entry
list, and reading the entries walks the keys in ascending order. Lookups after an insert or
an erase are described key by key (`get?_insert`, `get?_erase`) for any key order in which
only equal keys compare equal.
-/
namespace LiquidStaking

/-- A finite map as its entries in ascending key order. -/
structure Table (κ : Type) (α : Type) where
  entries : List (κ × α)
deriving DecidableEq

namespace Table

variable {κ α : Type} [Ord κ]

/-- The table with no entries. -/
def empty : Table κ α := ⟨[]⟩

instance : EmptyCollection (Table κ α) := ⟨empty⟩
instance : Inhabited (Table κ α) := ⟨empty⟩

/-- The value bound to a key. -/
def get? (t : Table κ α) (k : κ) : Option α :=
  (t.entries.find? (fun e => compare e.1 k == .eq)).map Prod.snd

/-- The value bound to a key, or a default. -/
def getD (t : Table κ α) (k : κ) (d : α) : α := (t.get? k).getD d

/-- Whether a key is bound. -/
def contains (t : Table κ α) (k : κ) : Bool := (t.get? k).isSome

/-- The entries with `k` bound to `v`, placed in key order. -/
def insertList (k : κ) (v : α) : List (κ × α) → List (κ × α)
  | [] => [(k, v)]
  | e :: es =>
    match compare k e.1 with
    | .lt => (k, v) :: e :: es
    | .eq => (k, v) :: es
    | .gt => e :: insertList k v es

/-- The table with `k` bound to `v`, replacing an earlier binding. -/
def insert (t : Table κ α) (k : κ) (v : α) : Table κ α := ⟨insertList k v t.entries⟩

/-- The table without a binding for `k`. -/
def erase (t : Table κ α) (k : κ) : Table κ α :=
  ⟨t.entries.filter (fun e => compare e.1 k != .eq)⟩

/-- The entries in ascending key order. -/
def toList (t : Table κ α) : List (κ × α) := t.entries

/-- The keys in ascending order. -/
def keys (t : Table κ α) : List κ := t.entries.map Prod.fst

/-- The entries satisfying a test, in ascending key order. -/
def filter (t : Table κ α) (p : κ → α → Bool) : Table κ α := ⟨t.entries.filter (fun e => p e.1 e.2)⟩

/-- The table binding each key of a list to its last value in the list. -/
def ofList (l : List (κ × α)) : Table κ α := l.foldl (fun t e => t.insert e.1 e.2) empty

/-- Whether the table is empty. -/
def isEmpty (t : Table κ α) : Bool := t.entries.isEmpty

/-- The empty table binds nothing. -/
theorem get?_empty (k : κ) : (empty : Table κ α).get? k = none := rfl

section Lookup

variable [Std.LawfulEqOrd κ] [DecidableEq κ]

/-- Inserting into an entry list binds the key to the new value and leaves every other key's
first binding as it was. -/
theorem find?_insertList (es : List (κ × α)) (k j : κ) (v : α) :
    ((insertList k v es).find? (fun e => compare e.1 j == .eq)).map Prod.snd =
      if k = j then some v else (es.find? (fun e => compare e.1 j == .eq)).map Prod.snd := by
  induction es with
  | nil => by_cases h : k = j <;> simp [insertList, h]
  | cons e es ih =>
    obtain ⟨k', v'⟩ := e
    simp only [insertList]
    split
    · by_cases h : k = j <;> simp [h]
    · next hk =>
      have : k = k' := Std.LawfulEqOrd.eq_of_compare hk
      subst this
      by_cases h : k = j <;> simp [h]
    · next hk =>
      have hne : k' ≠ k := fun h => by simp [h] at hk
      by_cases h : k = j
      · subst h
        simp [hne, ih]
      · by_cases h' : k' = j
        · simp [h, h']
        · simp [h, h'] at ih ⊢
          exact ih

/-- After an insert the key reads the new value and every other key reads as before. -/
theorem get?_insert (t : Table κ α) (k j : κ) (v : α) :
    (t.insert k v).get? j = if k = j then some v else t.get? j :=
  find?_insertList t.entries k j v

/-- After an erase the key reads nothing and every other key reads as before. -/
theorem get?_erase (t : Table κ α) (k j : κ) :
    (t.erase k).get? j = if k = j then none else t.get? j := by
  obtain ⟨es⟩ := t
  simp only [erase, get?]
  induction es with
  | nil => simp
  | cons e es ih =>
    obtain ⟨k', v'⟩ := e
    by_cases h : k = j
    · subst h
      by_cases h' : k' = k <;> simp_all
    · by_cases h' : k' = k <;> by_cases h'' : k' = j <;> simp_all

end Lookup

end Table

/-- Pairs compare by their first component, then by their second. -/
instance prodOrd {β γ : Type} [Ord β] [Ord γ] : Ord (β × γ) := lexOrd

end LiquidStaking

/-!
# Tables

A table assigns values to keys.  `insert` keeps the place of a key that is there already and
appends a new one, so the entries stand in the order of their first insertion.
-/

namespace CellBridge

/-- Keys with their values. -/
structure Table (κ ν : Type) where
  entries : List (κ × ν)
deriving Inhabited

namespace Table

variable {κ ν : Type}

section Operations

def empty : Table κ ν :=
  { entries := [] }

def size
    (t : Table κ ν) : Nat :=
  t.entries.length

/-- The keys in order. -/
def keys
    (t : Table κ ν) : List κ :=
  t.entries.map Prod.fst

variable [DecidableEq κ]

/-- The value of a key in a list of entries. -/
def find?
    (k : κ) : List (κ × ν) → Option ν
  | [] => none
  | (k', v) :: es => if k' = k then some v else find? k es

def get?
    (t : Table κ ν)
    (k : κ) : Option ν :=
  find? k t.entries

def contains
    (t : Table κ ν)
    (k : κ) : Bool :=
  (t.get? k).isSome

/-- Entries with a key set to a value. -/
def put
    (k : κ)
    (v : ν) : List (κ × ν) → List (κ × ν)
  | [] => [(k, v)]
  | (k', v') :: es => if k' = k then (k, v) :: es else (k', v') :: put k v es

def insert
    (t : Table κ ν)
    (k : κ)
    (v : ν) : Table κ ν :=
  { entries := put k v t.entries }

def erase
    (t : Table κ ν)
    (k : κ) : Table κ ν :=
  { entries := t.entries.filter fun e => decide (e.1 ≠ k) }

end Operations

section Lemmas

variable [DecidableEq κ]

@[simp] theorem get?_empty
    (k : κ) :
    (empty : Table κ ν).get? k = none := by
  rfl

theorem find?_put
    (k k' : κ)
    (v : ν)
    (es : List (κ × ν)) :
    find? k' (put k v es) = if k = k' then some v else find? k' es := by
  induction es with
  | nil =>
      rfl
  | cons e es ih =>
      obtain ⟨k₀, v₀⟩ := e
      by_cases h : k₀ = k
      · subst h
        by_cases hk : k₀ = k' <;> simp [put, find?, hk]
      · by_cases hk : k₀ = k'
        · subst hk
          simp [put, find?, h, Ne.symm h]
        · simp [put, find?, h, hk, ih]

/-- Looking a key up after setting one. -/
theorem get?_insert
    (t : Table κ ν)
    (k k' : κ)
    (v : ν) :
    (t.insert k v).get? k' = if k = k' then some v else t.get? k' := by
  exact find?_put k k' v t.entries

theorem find?_filter_ne
    (k k' : κ)
    (es : List (κ × ν)) :
    find? k' (es.filter fun e => decide (e.1 ≠ k)) =
      if k = k' then none else find? k' es := by
  induction es with
  | nil =>
      simp [find?]
  | cons e es ih =>
      obtain ⟨k₀, v₀⟩ := e
      by_cases h : k₀ = k
      · subst h
        by_cases hk : k₀ = k' <;> simp_all [find?]
      · by_cases hk : k₀ = k'
        · subst hk
          simp_all [find?, Ne.symm h]
        · simp_all [find?]

/-- Looking a key up after removing one. -/
theorem get?_erase
    (t : Table κ ν)
    (k k' : κ) :
    (t.erase k).get? k' = if k = k' then none else t.get? k' := by
  exact find?_filter_ne k k' t.entries

end Lemmas

end Table
end CellBridge

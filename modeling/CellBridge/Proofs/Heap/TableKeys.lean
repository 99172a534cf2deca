import CellBridge.Heap.Table
import Mathlib.Data.Finset.Card
import Mathlib.Data.List.Nodup
import Mathlib.Data.List.Basic

/-!
# Tables with different keys

A table finds the first entry of a key.  As long as no key occurs twice this is the only one, so
that looking a key up and being among the entries say the same.  `insert` and `erase` keep the
keys different.

The second half looks a key up after many removals, after many keys were set to one value, or after
many steps that each set one key to a value made from the one before.

`mapValues` changes all values and `mapKeys` renames all keys.  Both go through every operation, the
second one as long as different keys get different names.
-/

namespace CellBridge
namespace Table

variable {κ ν : Type}

/-- Does no key occur twice? -/
def Distinct
    (t : Table κ ν) : Prop :=
  t.keys.Nodup

section Entries

theorem distinct_empty :
    (empty : Table κ ν).Distinct := by
  exact List.nodup_nil

variable [DecidableEq κ]

theorem mem_of_find?
    {k : κ} {v : ν}
    {es : List (κ × ν)}
    (h : find? k es = some v) :
    (k, v) ∈ es := by
  induction es with
  | nil =>
      simp [find?] at h
  | cons e es ih =>
      obtain ⟨k₀, v₀⟩ := e
      rw [find?] at h
      split at h
      · rename_i hk
        cases h
        rw [hk]
        exact List.mem_cons_self
      · exact List.mem_cons_of_mem _ (ih h)

theorem find?_of_mem
    {k : κ} {v : ν}
    {es : List (κ × ν)}
    (hn : (es.map Prod.fst).Nodup)
    (h : (k, v) ∈ es) :
    find? k es = some v := by
  induction es with
  | nil =>
      cases h
  | cons e es ih =>
      obtain ⟨k₀, v₀⟩ := e
      rw [List.map_cons, List.nodup_cons] at hn
      rcases List.mem_cons.1 h with heq | htail
      · cases heq
        simp [find?]
      · have hk : k₀ ≠ k := by
          rintro rfl
          exact hn.1 (List.mem_map.2 ⟨_, htail, rfl⟩)
        rw [find?, if_neg hk]
        exact ih hn.2 htail

/-- With different keys, a table holds exactly what it finds. -/
theorem mem_entries_iff
    {t : Table κ ν}
    (ht : t.Distinct)
    (k : κ)
    (v : ν) :
    (k, v) ∈ t.entries ↔ t.get? k = some v := by
  exact ⟨find?_of_mem ht, mem_of_find?⟩

theorem mem_keys_iff
    (t : Table κ ν)
    (k : κ) :
    k ∈ t.keys ↔ t.contains k = true := by
  obtain ⟨es⟩ := t
  show k ∈ es.map Prod.fst ↔ (find? k es).isSome = true
  induction es with
  | nil =>
      simp [find?]
  | cons e es ih =>
      obtain ⟨k₀, v₀⟩ := e
      by_cases hk : k₀ = k
      · simp [find?, hk]
      · rw [List.map_cons, List.mem_cons, find?, if_neg hk, ih]
        simp [Ne.symm hk]

theorem keys_put
    (k : κ)
    (v : ν)
    (es : List (κ × ν)) :
    (put k v es).map Prod.fst =
      if k ∈ es.map Prod.fst then es.map Prod.fst else es.map Prod.fst ++ [k] := by
  induction es with
  | nil =>
      rfl
  | cons e es ih =>
      obtain ⟨k₀, v₀⟩ := e
      by_cases hk : k₀ = k
      · simp [put, hk]
      · by_cases hm : k ∈ es.map Prod.fst <;>
          simp_all [put, Ne.symm hk]

/-- A key that is not there yet goes to the end. -/
theorem entries_insert_of_none
    {t : Table κ ν}
    {k : κ}
    (h : t.get? k = none)
    (v : ν) :
    (t.insert k v).entries = t.entries ++ [(k, v)] := by
  obtain ⟨es⟩ := t
  show put k v es = es ++ [(k, v)]
  induction es with
  | nil =>
      rfl
  | cons e es ih =>
      obtain ⟨k₀, v₀⟩ := e
      by_cases hk : k₀ = k
      · simp [get?, find?, hk] at h
      · have hrest : find? k es = none := by
          simpa [get?, find?, hk] using h
        simp [put, hk, ih hrest]

theorem Distinct.insert
    {t : Table κ ν}
    (ht : t.Distinct)
    (k : κ)
    (v : ν) :
    (t.insert k v).Distinct := by
  show ((put k v t.entries).map Prod.fst).Nodup
  rw [keys_put]
  split
  · exact ht
  · rename_i hk
    refine List.Nodup.append ht (List.nodup_singleton k) ?_
    intro x hx hxk
    rw [List.mem_singleton] at hxk
    exact hk (hxk ▸ hx)

theorem Distinct.erase
    {t : Table κ ν}
    (ht : t.Distinct)
    (k : κ) :
    (t.erase k).Distinct := by
  exact List.Nodup.sublist (List.Sublist.map Prod.fst List.filter_sublist) ht

/-- With different keys, the size is the number of keys. -/
theorem Distinct.size_eq_card
    {t : Table κ ν}
    (ht : t.Distinct) :
    t.size = t.keys.toFinset.card := by
  rw [List.toFinset_card_of_nodup ht, keys, List.length_map, size]

end Entries

section Folds

variable {σ : Type} [DecidableEq κ]

/-- Looking a key up after many were removed. -/
theorem get?_foldl_erase
    (f : σ → κ)
    (es : List σ)
    (t : Table κ ν)
    (k : κ) :
    (es.foldl (fun t e => t.erase (f e)) t).get? k =
      if k ∈ es.map f then none else t.get? k := by
  induction es generalizing t with
  | nil =>
      simp
  | cons e es ih =>
      rw [List.foldl_cons, ih, get?_erase]
      by_cases hk : f e = k
      · simp [hk]
      · simp [hk, Ne.symm hk]

/-- Looking a key up after many were set to one value. -/
theorem get?_foldl_insert
    (es : List κ)
    (v : ν)
    (t : Table κ ν)
    (k : κ) :
    (es.foldl (fun t e => t.insert e v) t).get? k =
      if k ∈ es then some v else t.get? k := by
  induction es generalizing t with
  | nil =>
      simp
  | cons e es ih =>
      rw [List.foldl_cons, ih, get?_insert]
      by_cases hk : e = k
      · simp [hk]
      · simp [hk, Ne.symm hk]

/-- Looking a key up after different keys were set, each to a value made from the one before. -/
theorem get?_foldl_update
    (f : σ → κ)
    (g : Option ν → ν)
    {es : List σ}
    (hn : (es.map f).Nodup)
    (t : Table κ ν)
    (k : κ) :
    (es.foldl (fun t e => t.insert (f e) (g (t.get? (f e)))) t).get? k =
      if k ∈ es.map f then some (g (t.get? k)) else t.get? k := by
  induction es generalizing t with
  | nil =>
      simp
  | cons e es ih =>
      rw [List.map_cons, List.nodup_cons] at hn
      rw [List.foldl_cons, ih hn.2, get?_insert]
      by_cases hk : f e = k
      · subst hk
        simp [hn.1]
      · simp [hk, Ne.symm hk]

end Folds

section Maps

variable {κ' ν' : Type}

def mapValues
    (f : ν → ν')
    (t : Table κ ν) : Table κ ν' :=
  { entries := t.entries.map fun e => (e.1, f e.2) }

def mapKeys
    (f : κ → κ')
    (t : Table κ ν) : Table κ' ν :=
  { entries := t.entries.map fun e => (f e.1, e.2) }

variable [DecidableEq κ] [DecidableEq κ']

@[simp] theorem get?_mapValues
    (f : ν → ν')
    (t : Table κ ν)
    (k : κ) :
    (t.mapValues f).get? k = (t.get? k).map f := by
  obtain ⟨es⟩ := t
  show find? k (es.map fun e => (e.1, f e.2)) = (find? k es).map f
  induction es with
  | nil =>
      rfl
  | cons e es ih =>
      by_cases h : e.1 = k <;> simp [find?, h, ih]

@[simp] theorem mapValues_insert
    (f : ν → ν')
    (t : Table κ ν)
    (k : κ)
    (v : ν) :
    (t.insert k v).mapValues f = (t.mapValues f).insert k (f v) := by
  obtain ⟨es⟩ := t
  show Table.mk ((put k v es).map fun e => (e.1, f e.2)) =
    Table.mk (put k (f v) (es.map fun e => (e.1, f e.2)))
  congr 1
  induction es with
  | nil =>
      rfl
  | cons e es ih =>
      by_cases h : e.1 = k <;> simp [put, h, ih]

theorem mapValues_erase
    (f : ν → ν')
    (t : Table κ ν)
    (k : κ) :
    (t.erase k).mapValues f = (t.mapValues f).erase k := by
  rw [mapValues, mapValues, erase, erase, List.filter_map]
  rfl

variable {f : κ → κ'}

theorem get?_mapKeys
    (hf : Function.Injective f)
    (t : Table κ ν)
    (k : κ) :
    (t.mapKeys f).get? (f k) = t.get? k := by
  obtain ⟨es⟩ := t
  show find? (f k) (es.map fun e => (f e.1, e.2)) = find? k es
  induction es with
  | nil =>
      rfl
  | cons e es ih =>
      by_cases h : e.1 = k <;> simp [find?, h, hf.eq_iff, ih]

theorem mapKeys_insert
    (hf : Function.Injective f)
    (t : Table κ ν)
    (k : κ)
    (v : ν) :
    (t.insert k v).mapKeys f = (t.mapKeys f).insert (f k) v := by
  obtain ⟨es⟩ := t
  show Table.mk ((put k v es).map fun e => (f e.1, e.2)) =
    Table.mk (put (f k) v (es.map fun e => (f e.1, e.2)))
  congr 1
  induction es with
  | nil =>
      rfl
  | cons e es ih =>
      by_cases h : e.1 = k <;> simp [put, h, hf.eq_iff, ih]

theorem mapKeys_erase
    (hf : Function.Injective f)
    (t : Table κ ν)
    (k : κ) :
    (t.erase k).mapKeys f = (t.mapKeys f).erase (f k) := by
  rw [mapKeys, mapKeys, erase, erase, List.filter_map]
  simp [Function.comp_def, hf.eq_iff]

end Maps

end Table
end CellBridge

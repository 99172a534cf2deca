import CellBridge.Proofs.Heap.Identity

/-!
# Interning many objects

`internAll` interns objects one after the other.  An object that is interned already keeps its
handle, now and later, so interning the same objects again changes nothing
(`internAll_of_known`).

What a heap gains is described without going through the steps: `newcomers` are those of the objects
that were not interned before, each where it comes up first, and `grown` puts them behind the next
handles, one after the other, and touches nothing else.  `Coherent.internAll` says that this is what
happens, as long as the count of issued handles does not wrap.
-/

namespace CellBridge
namespace Heap

section Defs

def handleOf
    (h : Heap)
    (o : Object) : Handle :=
  (h.handleOf? o).getD default

/-- The heap after interning the objects from left to right. -/
def internAll
    (h : Heap)
    (os : List Object) : Heap :=
  os.foldl (fun h o => (h.intern o).2) h

/-- The objects that are not interned, without those that came up earlier. -/
def newcomers
    (h : Heap)
    (os : List Object) : List Object :=
  (os.filter fun o => (h.handleOf? o).isNone).eraseDupsBy Store.sameIdentity

/-- The heap with the objects behind the handles that are issued next. -/
def grown
    (h : Heap)
    (new : List Object) : Heap :=
  { h with
    issued := h.issued + UInt64.ofNat new.length
    objects :=
      { entries := h.objects.entries ++
          new.mapIdx fun i o => (h.nthHandle (h.issued.toNat + i), o) }
    handles :=
      { entries := h.handles.entries ++
          new.mapIdx fun i o => (o.id, h.nthHandle (h.issued.toNat + i)) } }

end Defs

variable {h : Heap} {o : Object} {os : List Object}

section Known

@[simp] theorem internAll_nil :
    h.internAll [] = h := by
  rfl

@[simp] theorem internAll_cons :
    h.internAll (o :: os) = (h.intern o).2.internAll os := by
  rfl

theorem internAll_append
    (os' : List Object) :
    h.internAll (os ++ os') = (h.internAll os).internAll os' := by
  exact List.foldl_append

/-- An interned object keeps its handle. -/
theorem handleOf?_intern
    {x : Object}
    {handle : Handle}
    (hx : h.handleOf? x = some handle) :
    (h.intern o).2.handleOf? x = some handle := by
  cases ho : h.handleOf? o with
  | some _ =>
      rw [intern_of_some ho]
      exact hx
  | none =>
      rw [intern_of_none ho, handleOf?, Table.get?_insert, if_neg]
      · exact hx
      · intro hid
        rw [handleOf?, hid] at ho
        rw [handleOf?, ho] at hx
        cases hx

theorem handleOf?_intern_self :
    (h.intern o).2.handleOf? o = some (h.intern o).1 := by
  cases ho : h.handleOf? o with
  | some _ =>
      rw [intern_of_some ho]
      exact ho
  | none =>
      rw [intern_of_none ho, handleOf?, Table.get?_insert, if_pos rfl]

theorem handleOf?_internAll
    {x : Object}
    {handle : Handle}
    (hx : h.handleOf? x = some handle) :
    (h.internAll os).handleOf? x = some handle := by
  induction os generalizing h with
  | nil =>
      exact hx
  | cons o os ih =>
      exact ih (handleOf?_intern hx)

/-- All the objects have handles afterwards. -/
theorem isSome_handleOf?_internAll
    {x : Object}
    (hx : x ∈ os) :
    ((h.internAll os).handleOf? x).isSome = true := by
  induction os generalizing h with
  | nil =>
      cases hx
  | cons o os ih =>
      rcases List.mem_cons.1 hx with rfl | hmem
      · rw [internAll_cons, handleOf?_internAll handleOf?_intern_self]
        rfl
      · exact ih hmem

/-- Interning what is interned changes nothing. -/
theorem internAll_of_known
    (hknown : ∀ x ∈ os, (h.handleOf? x).isSome = true) :
    h.internAll os = h := by
  induction os with
  | nil =>
      rfl
  | cons o os ih =>
      obtain ⟨handle, ho⟩ := Option.isSome_iff_exists.1 (hknown o List.mem_cons_self)
      rw [internAll_cons, intern_of_some ho]
      exact ih fun x hx => hknown x (List.mem_cons_of_mem o hx)

theorem internAll_internAll :
    (h.internAll os).internAll os = h.internAll os := by
  exact internAll_of_known fun _ hx => isSome_handleOf?_internAll hx

theorem handleOf_intern :
    (h.intern o).2.handleOf o = (h.intern o).1 := by
  rw [handleOf, handleOf?_intern_self, Option.getD_some]

/-- What is interned later leaves the handles of what was interned before. -/
theorem handleOf_internAll
    {os' : List Object}
    (ho : o ∈ os) :
    ((h.internAll os).internAll os').handleOf o = (h.internAll os).handleOf o := by
  obtain ⟨handle, hhandle⟩ := Option.isSome_iff_exists.1 (isSome_handleOf?_internAll ho)
  rw [handleOf, handleOf, handleOf?_internAll hhandle, hhandle]

/-- The handle of what was interned is the one that the heap knows. -/
theorem handleOf_internAll_eq_iff
    {handle : Handle}
    (ho : o ∈ os) :
    (h.internAll os).handleOf o = handle ↔ (h.internAll os).handleOf? o = some handle := by
  obtain ⟨given, hgiven⟩ := Option.isSome_iff_exists.1 (isSome_handleOf?_internAll ho)
  rw [handleOf, hgiven, Option.getD_some, Option.some.injEq]

end Known

section Growth

variable {n : Nat}

theorem newcomers_of_some
    {handle : Handle}
    (ho : h.handleOf? o = some handle) :
    h.newcomers (o :: os) = h.newcomers os := by
  simp [newcomers, ho]

/-- After a newcomer, the objects of its identity are newcomers no longer. -/
theorem newcomers_of_none
    (ho : h.handleOf? o = none) :
    h.newcomers (o :: os) = o :: (h.intern o).2.newcomers os := by
  have hrest : ∀ x : Object, ((h.intern o).2.handleOf? x).isNone =
      (decide (Store.sameIdentity x o = false) && (h.handleOf? x).isNone) := by
    intro x
    rw [intern_of_none ho, handleOf?, handleOf?, Table.get?_insert]
    by_cases hid : o.id = x.id
    · simp [Store.sameIdentity, hid]
    · simp [Store.sameIdentity, hid, Ne.symm hid]
  simp only [newcomers, List.filter_cons, ho, Option.isNone_none, if_true, List.eraseDupsBy_cons,
    List.filter_filter, hrest]

/-- A heap grows by many objects as it grows by the first one and then by the others. -/
theorem grown_cons
    (hc : h.Coherent n)
    (hn : n + 1 < UInt64.size)
    (ho : h.handleOf? o = none)
    (new : List Object) :
    h.grown (o :: new) = (h.intern o).2.grown new := by
  have hissued : (h.issued + 1).toNat = h.issued.toNat + 1 := by
    rw [UInt64.toNat_add, hc.count]
    exact Nat.mod_eq_of_lt hn
  have hshift : ∀ i, h.issued.toNat + 1 + i = h.issued.toNat + (i + 1) := by
    omega
  have hcount : h.issued + 1 + UInt64.ofNat new.length =
      h.issued + UInt64.ofNat (new.length + 1) := by
    rw [UInt64.ofNat_add, UInt64.add_assoc, UInt64.add_comm 1]
    rfl
  have hobjects := Table.entries_insert_of_none hc.objects_nextHandle o
  have hhandles := Table.entries_insert_of_none ho h.nextHandle
  rw [hc.nextHandle_eq, ← hc.count] at hobjects hhandles
  rw [intern_of_none ho, hc.nextHandle_eq, ← hc.count, grown, grown]
  simp only [hobjects, hhandles, hissued, hcount, List.length_cons]
  simp [nthHandle, hshift]

/-- Interning adds the newcomers behind the handles that are issued next, and nothing else. -/
theorem Coherent.internAll
    (hc : h.Coherent n)
    (hn : n + (h.newcomers os).length < UInt64.size) :
    h.internAll os = h.grown (h.newcomers os) ∧
      (h.internAll os).Coherent (n + (h.newcomers os).length) := by
  induction os generalizing h n with
  | nil =>
      refine ⟨?_, hc⟩
      simp [newcomers, grown]
  | cons o os ih =>
      cases ho : h.handleOf? o with
      | some handle =>
          rw [newcomers_of_some ho] at hn ⊢
          rw [internAll_cons, intern_of_some ho]
          exact ih hc hn
      | none =>
          rw [newcomers_of_none ho, List.length_cons] at hn
          have hfirst := hc.intern_new (by omega) ho
          obtain ⟨hrest, hcoherent⟩ := ih hfirst (by omega)
          rw [newcomers_of_none ho, internAll_cons, grown_cons hc (by omega) ho, List.length_cons,
            Nat.add_comm _ 1, ← Nat.add_assoc]
          exact ⟨hrest, hcoherent⟩

/-- The handle that the heap knows leads back to the object. -/
theorem Coherent.resolve?_of_handleOf?
    (hc : h.Coherent n)
    {handle : Handle}
    (ho : h.handleOf? o = some handle) :
    ∃ x, h.resolve? handle = some x ∧ Store.sameIdentity o x = true := by
  obtain ⟨x, hx, hid⟩ := (hc.inverse handle o.id).2 ho
  exact ⟨x, hx, beq_iff_eq.2 hid.symm⟩

end Growth

end Heap
end CellBridge

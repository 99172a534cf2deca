import CellBridge.Proofs.Managed.Containment

/-!
# Well-typed objects

The tag of an object says what its payload has to be (`Ty.Agrees`), and the tag of a collection
also what its elements have to be.  `Store.WellTyped` asks for both all the way down, but stops at
objects that were given: what is known about those came with them.
-/

namespace CellBridge

section Defs

/-- Is the payload of the kind that the type stands for?  An object of an enumeration is one of its
constants, at its position; the objects of other classes are records. -/
def Ty.Agrees : Ty → Payload → Prop
  | .void, .unit => True
  | .bool, .bool _ => True
  | .byte, .byte _ => True
  | .short, .short _ => True
  | .int, .int _ => True
  | .long, .long _ => True
  | .double, .double _ => True
  | .text, .text _ => True
  | .tagged, .tagged _ => True
  | .array _, .array _ => True
  | .list _, .list _ => True
  | .set _, .set _ => True
  | .object c, .constant i name => c.isEnum = true ∧ c.ordinalOf? name = some i
  | .object c, .record _ => c.isEnum = false
  | _, _ => False

namespace Store

/-- The payload agrees with the tag, the elements fit the declared element type, and those that
were not given are well typed themselves. -/
inductive WellTyped
    (s : Store)
    (given : Object → Prop) : Object → Prop
  | intro
      {o : Object}
      (bound : o.id < s.size)
      (agrees : o.type.Agrees (s.payload o))
      (fits : ∀ x ∈ s.contents o.id, o.type.elementOrAny.accepts x.type = true)
      (items : ∀ x ∈ s.contents o.id, ¬ given x → WellTyped s given x) :
      WellTyped s given o

/-- The object may stand where the type is wanted. -/
structure Admits
    (s : Store)
    (given : Object → Prop)
    (t : Ty)
    (o : Object) : Prop where
  accepted : t.accepts o.type = true
  typed : ¬ given o → s.WellTyped given o

end Store

end Defs

section Types

/-- A payload that agrees fits. -/
theorem Ty.Agrees.fits
    {t : Ty}
    {p : Payload}
    (h : t.Agrees p) :
    t.Fits p := by
  cases t <;> cases p <;> first
    | rfl
    | cases h

end Types

namespace Store

variable {s s' : Store} {given : Object → Prop} {t : Ty} {o : Object}

section Growth

theorem contents_extend
    (h : s.Extends s')
    {i : Nat}
    (hi : i < s.size) :
    s'.contents i = s.contents i := by
  rw [contents, h.same i hi, contents]

/-- New payloads change nothing for the old objects. -/
theorem WellTyped.extend
    (ho : s.WellTyped given o)
    (h : s.Extends s') :
    s'.WellTyped given o := by
  induction ho with
  | @intro o bound agrees fits _ ih =>
      have hpayload : s'.payload o = s.payload o := h.same o.id bound
      have hcontents := contents_extend h bound
      refine .intro (Nat.lt_of_lt_of_le bound h.size_le) ?_ ?_ ?_
      · rw [hpayload]
        exact agrees
      · rw [hcontents]
        exact fits
      · rw [hcontents]
        exact ih

theorem Admits.extend
    (ho : s.Admits given t o)
    (h : s.Extends s') :
    s'.Admits given t o := by
  exact ⟨ho.accepted, fun hfresh => (ho.typed hfresh).extend h⟩

/-- A new object is well typed if its payload agrees and holds what may stand there. -/
theorem wellTyped_alloc
    {p : Payload}
    (hagrees : t.Agrees p)
    (hitems : ∀ x ∈ p.items?.getD [], s.Admits given t.elementOrAny x) :
    (s.alloc t p).2.WellTyped given (s.alloc t p).1 := by
  have hcontents : (s.alloc t p).2.contents (s.alloc t p).1.id = p.items?.getD [] := by
    rw [contents_alloc]
    exact if_pos rfl
  refine .intro ?_ ?_ ?_ ?_
  · show s.size < (s.payloads.push p).size
    rw [Array.size_push]
    exact Nat.lt_succ_self _
  · rw [payload_alloc]
    exact hagrees
  · rw [hcontents]
    exact fun x hx => (hitems x hx).accepted
  · rw [hcontents]
    exact fun x hx hfresh => ((hitems x hx).typed hfresh).extend (extends_alloc t p)

end Growth

end Store
end CellBridge

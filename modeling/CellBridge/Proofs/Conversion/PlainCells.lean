import CellBridge.Proofs.Conversion.StandardWriters
import CellBridge.Proofs.Managed.Containment

/-!
# Plain cells

Numbers, texts, truth values and blanks are the plain cells.  Where any object will do, each of them
is read as an object of its own type, and this object is written as the cell again.  `Value.plain?`
is the type and the payload of the object, and an object that has both `Depicts` the cell.
-/

namespace CellBridge

section Defs

/-- Type and payload of the object that a plain value is read as. -/
def Value.plain? : Value → Option (Ty × Payload)
  | .number n => some (.double, .double n)
  | .text s => some (.text, .text s)
  | .boolean b => some (.bool, .bool b)
  | .empty => some (.void, .unit)
  | _ => none

/-- The object is what the plain value is read as. -/
def Store.Depicts
    (s : Store)
    (o : Object)
    (v : Value) : Prop :=
  v.plain? = some (o.type, s.payload o)

end Defs

section Plain

variable {v : Value} {t : Ty} {p : Payload}

theorem Value.depth_of_plain
    (h : v.plain? = some (t, p)) :
    v.depth = 0 := by
  cases v <;> cases h <;> rfl

/-- Where any object will do, a plain value is read as an object of its type and payload. -/
theorem exists_reader_of_plain
    (h : v.plain? = some (t, p)) :
    ∃ r, standardCatalog.findByShape? v.shape .any = some r ∧
      ∀ cx, r.toManaged cx .any v = Action.create t p := by
  cases v <;> cases h
  · exact ⟨Scalar.double, rfl, fun _ => rfl⟩
  · exact ⟨Scalar.string, rfl, fun _ => rfl⟩
  · exact ⟨Scalar.boolean, rfl, fun _ => rfl⟩
  · exact ⟨Scalar.empty, rfl, fun _ => rfl⟩

theorem carriedHandle?_of_plain
    (h : v.plain? = some (t, p)) :
    Reference.carriedHandle? p = none := by
  cases v <;> cases h <;> rfl

theorem within_of_plain
    (h : v.plain? = some (t, p))
    (classes : Set ManagedClass) :
    t.Within classes := by
  cases v <;> cases h <;> trivial

/-- An object of the type and payload of a plain value is written as this value. -/
theorem writeCell_of_plain
    (h : v.plain? = some (t, p))
    {id : Nat}
    {w : World}
    (hp : w.store.payload ⟨t, id⟩ = p)
    (n : Nat) :
    writeCell n ⟨t, id⟩ w = (.ok v, w) := by
  have hrun : ∀ name shape type priority value? read,
      writerRule t = Scalar.rule name shape type priority value? read →
      value? ⟨t, id⟩ p = some v → writeCell n ⟨t, id⟩ w = (.ok v, w) := by
    intro name shape type priority value? read hrule hvalue
    rw [writeCell, hrule]
    show (Action.payload ⟨t, id⟩ >>= fun p => Action.orFail _ (value? ⟨t, id⟩ p)) w = _
    rw [bind_run_ok (Action.payload_run _ w), hp, hvalue]
    rfl
  cases v <;> cases h <;> exact hrun _ _ _ _ _ _ rfl rfl

end Plain

namespace Store

variable {s s' : Store} {o : Object} {v : Value}

theorem depicts_alloc
    {t : Ty}
    {p : Payload}
    (h : v.plain? = some (t, p)) :
    (s.alloc t p).2.Depicts (s.alloc t p).1 v := by
  rw [Depicts, payload_alloc]
  exact h

/-- An object goes on to depict its value while the store grows. -/
theorem Depicts.extend
    (h : s.Depicts o v)
    (hlt : o.id < s.size)
    (hs : s.Extends s') :
    s'.Depicts o v := by
  have hpayload : s'.payload o = s.payload o := hs.same o.id hlt
  rw [Depicts, hpayload]
  exact h

/-- An object that depicts a value is written as this value. -/
theorem Depicts.writeCell_run
    {w : World}
    (h : w.store.Depicts o v)
    (n : Nat) :
    writeCell n o w = (.ok v, w) := by
  exact writeCell_of_plain h rfl n

end Store

end CellBridge

import CellBridge.Conversion.Scalar
import CellBridge.Proofs.Conversion.Contracts
import CellBridge.Proofs.Managed.WellTyped

/-!
# What readers of scalars create

A reader of scalars of a type either fails or creates one object of this type, whose payload agrees
with it and holds nothing: `Scalar.Creates`.  All contracts of these readers follow from that.
-/

namespace CellBridge
namespace Scalar

/-- On every value the reader fails, or it creates a scalar of the type. -/
def Creates
    (t : Ty)
    (read : Value → Action Object) : Prop :=
  ∀ v, (∃ e, read v = Action.fail e) ∨
    ∃ p, t.Agrees p ∧ p.items? = none ∧ read v = Action.create t p

section Readers

theorem creates_readDouble :
    Creates .double readDouble := by
  intro v
  cases v with
  | number n =>
      exact Or.inr ⟨.double n, trivial, rfl, rfl⟩
  | _ =>
      exact Or.inl ⟨_, rfl⟩

theorem creates_readBool :
    Creates .bool readBool := by
  intro v
  cases v with
  | boolean b =>
      exact Or.inr ⟨.bool b, trivial, rfl, rfl⟩
  | _ =>
      exact Or.inl ⟨_, rfl⟩

theorem creates_readText :
    Creates .text readText := by
  intro v
  cases v with
  | text s =>
      exact Or.inr ⟨.text s, trivial, rfl, rfl⟩
  | _ =>
      exact Or.inl ⟨_, rfl⟩

theorem creates_readBlank :
    Creates .void readBlank := by
  intro v
  cases v with
  | empty =>
      exact Or.inr ⟨.unit, trivial, rfl, rfl⟩
  | missing =>
      exact Or.inr ⟨.unit, trivial, rfl, rfl⟩
  | _ =>
      exact Or.inl ⟨_, rfl⟩

theorem creates_readInteger
    {t : Ty}
    (target : String)
    (low high : Int)
    {payload : Int → Payload}
    (hagrees : ∀ i, t.Agrees (payload i))
    (hitems : ∀ i, (payload i).items? = none) :
    Creates t (readInteger target low high fun i => Action.create t (payload i)) := by
  intro v
  cases v with
  | number n =>
      rw [readInteger]
      split
      · exact Or.inr ⟨payload _, hagrees _, hitems _, rfl⟩
      · exact Or.inl ⟨_, rfl⟩
  | _ =>
      exact Or.inl ⟨_, rfl⟩

theorem creates_readByte :
    Creates .byte readByte := by
  exact creates_readInteger "byte" _ _ (fun _ => trivial) fun _ => rfl

theorem creates_readShort :
    Creates .short readShort := by
  exact creates_readInteger "short" _ _ (fun _ => trivial) fun _ => rfl

theorem creates_readInt :
    Creates .int readInt := by
  exact creates_readInteger "int" _ _ (fun _ => trivial) fun _ => rfl

theorem creates_readLong :
    Creates .long readLong := by
  intro v
  cases v with
  | number n =>
      rw [readLong]
      split
      · exact Or.inr ⟨.long _, trivial, rfl, rfl⟩
      · exact Or.inl ⟨_, rfl⟩
  | _ =>
      exact Or.inl ⟨_, rfl⟩

theorem creates_readByteText :
    Creates .byte readByteText := by
  intro v
  cases v with
  | text s =>
      rw [readByteText]
      cases Text.readInteger 127 s.toList with
      | ok i =>
          exact Or.inr ⟨.byte (Int8.ofInt i), trivial, rfl, rfl⟩
      | error fault =>
          exact Or.inl ⟨_, rfl⟩
  | _ =>
      exact Or.inl ⟨_, rfl⟩

end Readers

section Contracts

/-- A contract that failures and new scalars meet is one of the reader. -/
theorem Creates.ends
    {t : Ty}
    {read : Value → Action Object}
    (hread : Creates t read)
    {R : World → World → Prop}
    {w : World}
    {P : Object → World → Prop}
    (hw : R w w)
    (hcreate : ∀ p, t.Agrees p → p.items? = none → Ends R (Action.create t p) w P)
    (v : Value) :
    Ends R (read v) w P := by
  rcases hread v with ⟨e, heq⟩ | ⟨p, hagrees, hitems, heq⟩
  · rw [heq]
    exact Ends.fail e hw
  · rw [heq]
    exact hcreate p hagrees hitems

end Contracts

end Scalar
end CellBridge

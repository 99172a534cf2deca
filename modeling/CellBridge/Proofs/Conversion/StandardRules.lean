import CellBridge.Conversion.Standard
import CellBridge.Proofs.Conversion.Scalars

/-!
# The standard rules by kind

Ten of the seventeen standard rules are for scalars.  They differ in the type, the shape and the
reader, of which `Scalar.Reads` says what matters, and in how they write.  So a property of all
standard rules is proved once for the rules for scalars and once for each of the seven others:
`forall_standardRules`.
-/

namespace CellBridge

/-- The reader of a rule for scalars: it creates objects of a type without classes, and is for
values that are neither grids nor handles. -/
structure Scalar.Reads
    (shape : Shape)
    (t : Ty)
    (read : Value → Action Object) : Prop where
  creates : Creates t read
  plain : t.plain = true
  grids : shape.accepts .array = false
  handles : shape.accepts .handle = false

theorem forall_standardRules
    {P : Rule → Prop}
    (scalar : ∀ {shape t read}, Scalar.Reads shape t read → ∀ name priority value?,
      P (Scalar.rule name shape t priority value? read))
    (tagged : P Reference.tagged)
    (array : P Sequence.array)
    (list : P Sequence.list)
    (jagged : P Sequence.jagged)
    (enum : P Reference.enum)
    (set : P Sequence.set)
    (boxing : P Reference.boxing) :
    ∀ r ∈ standardRules, P r := by
  have double : Scalar.Reads .number .double Scalar.readDouble :=
    ⟨Scalar.creates_readDouble, rfl, rfl, rfl⟩
  have int : Scalar.Reads .number .int Scalar.readInt :=
    ⟨Scalar.creates_readInt, rfl, rfl, rfl⟩
  have long : Scalar.Reads .number .long Scalar.readLong :=
    ⟨Scalar.creates_readLong, rfl, rfl, rfl⟩
  have short : Scalar.Reads .number .short Scalar.readShort :=
    ⟨Scalar.creates_readShort, rfl, rfl, rfl⟩
  have byte : Scalar.Reads .number .byte Scalar.readByte :=
    ⟨Scalar.creates_readByte, rfl, rfl, rfl⟩
  have boolean : Scalar.Reads .boolean .bool Scalar.readBool :=
    ⟨Scalar.creates_readBool, rfl, rfl, rfl⟩
  have string : Scalar.Reads .text .text Scalar.readText :=
    ⟨Scalar.creates_readText, rfl, rfl, rfl⟩
  have empty : Scalar.Reads .empty .void Scalar.readBlank :=
    ⟨Scalar.creates_readBlank, rfl, rfl, rfl⟩
  have missing : Scalar.Reads .missing .void Scalar.readBlank :=
    ⟨Scalar.creates_readBlank, rfl, rfl, rfl⟩
  have byteText : Scalar.Reads .text .byte Scalar.readByteText :=
    ⟨Scalar.creates_readByteText, rfl, rfl, rfl⟩
  simp only [standardRules, List.forall_mem_cons]
  exact ⟨scalar double _ _ _, scalar int _ _ _, scalar long _ _ _, scalar short _ _ _,
    scalar byte _ _ _, scalar boolean _ _ _, scalar string _ _ _, scalar empty _ _ _,
    scalar missing _ _ _, tagged, array, list, jagged, enum, set, boxing, scalar byteText _ _ _,
    List.forall_mem_nil _⟩

end CellBridge

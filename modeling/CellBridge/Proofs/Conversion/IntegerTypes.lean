import CellBridge.Proofs.Conversion.IntegerReaders
import CellBridge.Proofs.Conversion.RoundTrip

/-!
# Integers on both sides

The four integer types differ in their length only: `IntegerType`.  A type takes the numbers that
are integers in its range, all of them and no others, and an object made of one holds this integer
(`integers_read_exactly`).

The other way an integer becomes the number nearest to it.  That is another integer if no number is
the integer itself, so that not all integers of sixty-four bits come back: `integers_come_back_iff`.
The shorter types have no such integers.
-/

namespace CellBridge

section Defs

/-- A managed type of signed integers. -/
inductive IntegerType where
  | byte
  | short
  | int
  | long
deriving DecidableEq

namespace IntegerType

/-- The number of bits. -/
def bits : IntegerType → Nat
  | .byte => 8
  | .short => 16
  | .int => 32
  | .long => 64

def low
    (k : IntegerType) : Int :=
  -2 ^ (k.bits - 1)

def high
    (k : IntegerType) : Int :=
  2 ^ (k.bits - 1) - 1

def type : IntegerType → Ty
  | .byte => .byte
  | .short => .short
  | .int => .int
  | .long => .long

/-- The name in messages. -/
def name : IntegerType → String
  | .byte => "byte"
  | .short => "short"
  | .int => "int"
  | .long => "long"

def rule : IntegerType → Rule
  | .byte => Scalar.byte
  | .short => Scalar.short
  | .int => Scalar.int
  | .long => Scalar.long

/-- The payload for an integer; one out of range wraps around. -/
def payload : IntegerType → Int → Payload
  | .byte, i => .byte (Int8.ofInt i)
  | .short, i => .short (Int16.ofInt i)
  | .int, i => .int (Int32.ofInt i)
  | .long, i => .long (Int64.ofInt i)

/-- The integer in a payload of the type. -/
def integer? : IntegerType → Payload → Option Int
  | .byte, p => p.byte?.map Int8.toInt
  | .short, p => p.short?.map Int16.toInt
  | .int, p => p.int?.map Int32.toInt
  | .long, p => p.long?.map Int64.toInt

/-- The object is of the type and holds the integer. -/
structure Holds
    (k : IntegerType)
    (s : Store)
    (o : Object)
    (i : Int) : Prop where
  type : o.type = k.type
  integer : k.integer? (s.payload o) = some i

end IntegerType

end Defs

namespace IntegerType

variable {k : IntegerType} {s : Store} {o : Object} {i j : Int}

section Payloads

theorem integer?_payload
    (hlow : k.low ≤ i)
    (hhigh : i ≤ k.high) :
    k.integer? (k.payload i) = some i := by
  cases k with
  | byte =>
      exact congrArg some (Int8.toInt_ofInt_of_le hlow (Int.lt_of_le_sub_one hhigh))
  | short =>
      exact congrArg some (Int16.toInt_ofInt_of_le hlow (Int.lt_of_le_sub_one hhigh))
  | int =>
      exact congrArg some (Int32.toInt_ofInt_of_le hlow (Int.lt_of_le_sub_one hhigh))
  | long =>
      exact congrArg some (Int64.toInt_ofInt_of_le hlow (Int.lt_of_le_sub_one hhigh))

/-- An object holds one integer. -/
theorem Holds.unique
    (hi : k.Holds s o i)
    (hj : k.Holds s o j) :
    i = j := by
  exact Option.some_inj.1 (hi.integer.symm.trans hj.integer)

/-- What an object holds is in range. -/
theorem Holds.range
    (h : k.Holds s o i) :
    k.low ≤ i ∧ i ≤ k.high := by
  have hinteger := h.integer
  cases k with
  | byte =>
      obtain ⟨n, -, rfl⟩ := Option.map_eq_some_iff.1 hinteger
      exact ⟨n.le_toInt, Int.le_sub_one_of_lt n.toInt_lt⟩
  | short =>
      obtain ⟨n, -, rfl⟩ := Option.map_eq_some_iff.1 hinteger
      exact ⟨n.le_toInt, Int.le_sub_one_of_lt n.toInt_lt⟩
  | int =>
      obtain ⟨n, -, rfl⟩ := Option.map_eq_some_iff.1 hinteger
      exact ⟨n.le_toInt, Int.le_sub_one_of_lt n.toInt_lt⟩
  | long =>
      obtain ⟨n, -, rfl⟩ := Option.map_eq_some_iff.1 hinteger
      exact ⟨n.le_toInt, Int.le_sub_one_of_lt n.toInt_lt⟩

theorem Holds.natAbs_le
    (h : k.Holds s o i) :
    i.natAbs ≤ 2 ^ (k.bits - 1) := by
  have hrange := h.range
  rw [low, high] at hrange
  have hcast : ((2 ^ (k.bits - 1) : Nat) : Int) = 2 ^ (k.bits - 1) := by
    push_cast
    rfl
  omega

theorem Holds.natAbs_lt
    (h : k.Holds s o i) :
    i.natAbs < 2 ^ 64 := by
  refine Nat.lt_of_le_of_lt h.natAbs_le ?_
  cases k <;> decide

end Payloads

section Reading

/-- All integer types read alike. -/
theorem read_number
    (k : IntegerType)
    (cx : Conversions)
    (x : Number) :
    k.rule.toManaged cx k.type (.number x) =
      match Scalar.integerWithin? k.low k.high x with
      | some i => Action.create k.type (k.payload i)
      | none => Action.fail (Scalar.notInteger k.name x) := by
  cases k with
  | byte =>
      exact Scalar.readByte_number x
  | short =>
      exact Scalar.readShort_number x
  | int =>
      exact Scalar.readInt_number x
  | long =>
      exact Scalar.readLong_number x

theorem findByShape?_number
    (k : IntegerType) :
    standardCatalog.findByShape? .number k.type = some k.rule := by
  cases k <;> rfl

variable {b : Bridge} {x : Number}

/-- The rule for the type makes an object of an integer in range, and refuses all other numbers. -/
theorem read_run
    (k : IntegerType)
    (x : Number)
    (w : World) :
    standardCatalog.read k.rule k.type (.number x) w =
      match Scalar.integerWithin? k.low k.high x with
      | some i => Action.create k.type (k.payload i) w
      | none => (.error (.failed (Scalar.notInteger k.name x)), w) := by
  rw [Catalog.read, bind_run_ok (get_run w), read_number]
  cases Scalar.integerWithin? k.low k.high x <;> rfl

/-- The object that is made of an integer holds it. -/
theorem exists_read
    (h : Scalar.integerWithin? k.low k.high x = some i)
    (w : World) :
    ∃ o w', standardCatalog.read k.rule k.type (.number x) w = (.ok o, w') ∧ w.Adds w' ∧
      k.Holds w'.store o i := by
  obtain ⟨-, -, hlow, hhigh⟩ := Scalar.integerWithin?_eq_some_iff.1 h
  have hrun := read_run k x w
  rw [h] at hrun
  refine ⟨_, _, hrun.trans (Action.create_run k.type (k.payload i) w),
    ⟨rfl, Store.extends_alloc k.type (k.payload i)⟩, rfl, ?_⟩
  rw [Store.payload_alloc, integer?_payload hlow hhigh]

/-- A bridge with the standard rules reads numbers by the rule for the type. -/
theorem toManaged_run
    (hb : b.catalog = standardCatalog)
    (k : IntegerType)
    (x : Number)
    (w : World) :
    b.toManaged (.number x) k.type w =
      Action.guarded k.rule.name (standardCatalog.read k.rule k.type (.number x)) w := by
  have hshape : (Value.number x).shape = .number := rfl
  rw [Bridge.toManaged, hb, hshape, findByShape?_number, bind_run_ok (Action.orFail_some_run _ _ w)]

/-- An integer in the range of the type becomes an object that holds it. -/
theorem exists_toManaged
    (hb : b.catalog = standardCatalog)
    (h : Scalar.integerWithin? k.low k.high x = some i)
    (w : World) :
    ∃ o w', b.toManaged (.number x) k.type w = (.ok o, w') ∧ w.Adds w' ∧
      k.Holds w'.store o i := by
  obtain ⟨o, w', hread, hadds, hholds⟩ := exists_read h w
  refine ⟨o, w', ?_, hadds, hholds⟩
  rw [toManaged_run hb, Action.guarded_run_ok, hread]

/-- Any other number is refused. -/
theorem toManaged_run_error
    (hb : b.catalog = standardCatalog)
    (h : Scalar.integerWithin? k.low k.high x = none)
    (w : World) :
    b.toManaged (.number x) k.type w = (.error (.failed (Scalar.notInteger k.name x)), w) := by
  rw [toManaged_run hb, Action.guarded, tryCatch_run, read_run, h]
  rfl

end Reading

section Writing

variable {b : Bridge} {w : World}

/-- All integer types write alike. -/
theorem write_run
    (k : IntegerType)
    (cx : Conversions)
    (o : Object)
    (w : World) :
    k.rule.toCell cx o w =
      Action.orFail (.conversion (k.name ++ " cannot render " ++ o.type.display))
        ((k.integer? (w.store.payload o)).map Scalar.integerValue) w := by
  cases k <;> rw [integer?, Option.map_map] <;> rfl

/-- An integer is written as the number nearest to it. -/
theorem Holds.toCell_run
    (hb : b.catalog = standardCatalog)
    (h : k.Holds w.store o i) :
    b.toCell o w = (.ok (.number (Number.ofInt i)), w) := by
  have hvalue : o.type ≠ .void := by
    rw [h.type]
    cases k <;> exact Ty.noConfusion
  have hrule : standardCatalog.findByType? o.type = some k.rule := by
    rw [h.type]
    cases k <;> rfl
  refine toCell_run_of_rule hb hvalue hrule ?_
  rw [write_run, h.integer]
  rfl

end Writing

section RoundTrips

variable {b : Bridge}

/-- A number is taken exactly if it is an integer in the range of the type.  The object holds this
integer, and the host gets the number back. -/
theorem integers_read_exactly
    (hb : b.catalog = standardCatalog)
    (k : IntegerType)
    (x : Number)
    (w : World) :
    ((∃ o w', b.toManaged (.number x) k.type w = (.ok o, w')) ↔
      x.isFinite = true ∧ ∃ i : Int, x.value = i ∧ k.low ≤ i ∧ i ≤ k.high) ∧
    (∀ o w', b.toManaged (.number x) k.type w = (.ok o, w') →
      w.Adds w' ∧ ∃ i : Int, x.value = i ∧ k.Holds w'.store o i ∧
        ∃ y, b.toCell o w' = (.ok (.number y), w') ∧ y.ieeeEq x = true) ∧
    ∀ e w', b.toManaged (.number x) k.type w = (.error e, w') →
      e = .failed (.conversion (x.display ++ " is not a " ++ k.name)) ∧ w' = w := by
  cases hwithin : Scalar.integerWithin? k.low k.high x with
  | none =>
      have hrun := toManaged_run_error hb hwithin w
      rw [hrun]
      refine ⟨⟨?_, ?_⟩, ?_, ?_⟩
      · rintro ⟨o, w', h⟩
        cases h
      · rintro ⟨hfinite, i, hi, hrange⟩
        rw [Scalar.integerWithin?_eq_some_iff.2 ⟨hfinite, hi, hrange⟩] at hwithin
        cases hwithin
      · intro o w' h
        cases h
      · intro e w' h
        cases h
        exact ⟨rfl, rfl⟩
  | some i =>
      obtain ⟨hfinite, hi, hrange⟩ := Scalar.integerWithin?_eq_some_iff.1 hwithin
      obtain ⟨o, w₁, hrun, hadds, hholds⟩ := exists_toManaged hb hwithin w
      rw [hrun]
      refine ⟨⟨fun _ => ⟨hfinite, i, hi, hrange⟩, fun _ => ⟨o, w₁, rfl⟩⟩, ?_, ?_⟩
      · intro o' w' h
        cases h
        obtain ⟨hexact, hvalue⟩ :=
          Number.toInt?_eq_some_iff.1 (Number.toInt?_ofInt_of_value hfinite hi)
        refine ⟨hadds, i, hi, hholds, Number.ofInt i, hholds.toCell_run hb, ?_⟩
        rw [Number.ieeeEq_iff_value_eq hexact hfinite, hvalue, hi]
      · intro e w' h
        cases h

/-- The least integer of sixty-four bits is taken, and the number next to the greatest is not. -/
theorem integers_read_exactly_limits :
    let b := (Bridge.empty {}).withStandardRules
    let w : World := { store := Store.empty, heap := Heap.empty 0 1 }
    (∃ o w', b.toManaged (.number (Number.ofInt (-9223372036854775808))) .long w = (.ok o, w')) ∧
      ¬∃ o w', b.toManaged (.number (Number.ofInt 9223372036854775807)) .long w = (.ok o, w') := by
  intro b w
  obtain ⟨hfinite, hvalue⟩ := Number.toInt?_eq_some_iff.1 Scalar.lowest_long
  obtain ⟨-, hrounded⟩ := Number.toInt?_eq_some_iff.1 Scalar.highest_long
  constructor
  · exact (integers_read_exactly (b := b) rfl .long _ w).1.2
      ⟨hfinite, _, hvalue, by decide, by decide⟩
  · intro h
    obtain ⟨-, i, hi, -, hhigh⟩ := (integers_read_exactly (b := b) rfl .long _ w).1.1 h
    rw [hrounded, Int.cast_inj] at hi
    rw [← hi] at hhigh
    exact absurd hhigh (by decide)

/-- An integer becomes the number nearest to it.  Read again it is the same integer exactly if it
has a factor of at most fifty-three bits that leaves a power of two, as all integers of the shorter
types have. -/
theorem integers_come_back_iff
    (hb : b.catalog = standardCatalog)
    {w : World}
    (h : k.Holds w.store o i) :
    b.toCell o w = (.ok (.number (Number.ofInt i)), w) ∧
    ((∃ o' w', b.toManaged (.number (Number.ofInt i)) k.type w = (.ok o', w') ∧
        k.Holds w'.store o' i) ↔
      ∃ c e : Nat, c < 2 ^ 53 ∧ i.natAbs = c * 2 ^ e) ∧
    (k ≠ .long → ∃ c e : Nat, c < 2 ^ 53 ∧ i.natAbs = c * 2 ^ e) := by
  refine ⟨h.toCell_run hb, ⟨?_, ?_⟩, ?_⟩
  · rintro ⟨o', w', hrun, hholds⟩
    cases hwithin : Scalar.integerWithin? k.low k.high (Number.ofInt i) with
    | none =>
        rw [toManaged_run_error hb hwithin w] at hrun
        cases hrun
    | some j =>
        obtain ⟨o₁, w₁, hrun₁, -, hholds₁⟩ := exists_toManaged hb hwithin w
        rw [hrun] at hrun₁
        cases hrun₁
        obtain ⟨hfinite, hvalue, -⟩ := Scalar.integerWithin?_eq_some_iff.1 hwithin
        rw [hholds₁.unique hholds] at hvalue
        exact (Number.exists_value_eq_iff (by decide) h.natAbs_lt).1 ⟨_, hfinite, hvalue⟩
  · rintro ⟨c, e, hc, hi⟩
    have hexact := Number.toInt?_ofInt_of_factor (by decide) h.natAbs_lt hc hi
    obtain ⟨hfinite, hvalue⟩ := Number.toInt?_eq_some_iff.1 hexact
    obtain ⟨o', w', hrun, -, hholds⟩ := exists_toManaged hb
      (Scalar.integerWithin?_eq_some_iff.2 ⟨hfinite, hvalue, h.range⟩) w
    exact ⟨o', w', hrun, hholds⟩
  · intro hk
    refine ⟨i.natAbs, 0, Nat.lt_of_le_of_lt h.natAbs_le ?_, (Nat.mul_one _).symm⟩
    cases k with
    | long =>
        exact absurd rfl hk
    | _ =>
        decide

/-- Beyond fifty-three bits the even integers still come back. -/
theorem integers_come_back_iff_even :
    let b := (Bridge.empty {}).withStandardRules
    let w : World := { store := ⟨#[.long 9007199254740994]⟩, heap := Heap.empty 0 1 }
    ∃ o' w', b.toManaged (.number (Number.ofInt 9007199254740994)) .long w = (.ok o', w') ∧
      Holds .long w'.store o' 9007199254740994 := by
  intro b w
  have hholds : Holds .long w.store ⟨.long, 0⟩ 9007199254740994 := ⟨rfl, rfl⟩
  exact (integers_come_back_iff (b := b) rfl hholds).2.1.2
    ⟨4503599627370497, 1, by decide, by decide⟩

/-- The first integer that is no number comes back as its neighbour. -/
theorem long_changed_by_round_trip :
    let b := (Bridge.empty {}).withStandardRules
    let w : World := { store := ⟨#[.long 9007199254740993]⟩, heap := Heap.empty 0 1 }
    Holds .long w.store ⟨.long, 0⟩ 9007199254740993 ∧
      ∃ v o' w', b.toCell ⟨.long, 0⟩ w = (.ok v, w) ∧ b.toManaged v .long w = (.ok o', w') ∧
        Holds .long w'.store o' 9007199254740992 := by
  intro b w
  have hholds : Holds .long w.store ⟨.long, 0⟩ 9007199254740993 := ⟨rfl, rfl⟩
  have hneighbour : Scalar.integerWithin? (low .long) (high .long)
      (Number.ofInt 9007199254740993) = some 9007199254740992 := by
    decide +kernel
  obtain ⟨o', w', hrun, -, hholds'⟩ := exists_toManaged (b := b) rfl hneighbour w
  exact ⟨hholds, _, o', w', hholds.toCell_run rfl, hrun, hholds'⟩

end RoundTrips

end IntegerType
end CellBridge

import CellBridge.Proofs.Call.AddCalls
import CellBridge.Proofs.Cell.Equality
import CellBridge.Proofs.Conversion.PlainCells

/-!
# Collections as lists of values

To the host a built-in collection is a list of plain values, in the order of insertion: `Collection`
is such a list with the answers to all questions about it.  A `Shelf` keeps one for every handle.
Nothing in it is shared, so a question changes the collection that it is put to and no other one,
`Shelf.at?_after_ask`.

Equality of values is that of the host: numbers compare as IEEE numbers, all blanks are equal, and
values of different kinds differ.
-/

namespace CellBridge

section Defs

/-- The kinds of built-in collections. -/
inductive CollectionKind where
  | list
  | set
deriving DecidableEq

/-- What can be asked of a collection. -/
inductive Question where
  | add (v : Value)
  | contains (v : Value)
  | size
  | isEmpty
  | toArray
  /-- The value at a position, counted from zero. -/
  | get (index : Number)

/-- A kind of collection and the values in one. -/
structure Collection where
  kind : CollectionKind
  values : List Value

namespace CollectionKind

/-- The name by which a collection of the kind is constructed. -/
def className : CollectionKind → String
  | .list => "ArrayList"
  | .set => "LinkedHashSet"

/-- The type of the collections of the kind. -/
def type : CollectionKind → Ty
  | .list => .list .any
  | .set => .set .any

/-- Can the question be put to collections of the kind?  Only plain values are asked about. -/
def Answers : CollectionKind → Question → Prop
  | _, .add v => v.plain?.isSome = true
  | _, .contains v => v.plain?.isSome = true
  | .set, .get _ => False
  | _, _ => True

end CollectionKind

namespace Question

/-- The method that answers the question. -/
def member : Question → String
  | .add _ => "add"
  | .contains _ => "contains"
  | .size => "size"
  | .isEmpty => "isEmpty"
  | .toArray => "toArray"
  | .get _ => "get"

def args : Question → List Value
  | .add v => [v]
  | .contains v => [v]
  | .size => []
  | .isEmpty => []
  | .toArray => []
  | .get index => [.number index]

end Question

namespace Collection

def new
    (kind : CollectionKind) : Collection :=
  { kind := kind, values := [] }

/-- Is a value in the collection that equals the given one? -/
def holds
    (c : Collection)
    (v : Value) : Bool :=
  c.values.any fun x => x == v

/-- Does the collection take the value in?  A list takes in everything. -/
def takes
    (c : Collection)
    (v : Value) : Bool :=
  match c.kind with
  | .list => true
  | .set => !c.holds v

/-- The value at a position.  Positions, like counts, are integers of thirty-two bits. -/
def valueAt?
    (c : Collection)
    (index : Number) : Option Value :=
  (index.toInt?.filter fun i => decide (0 ≤ i ∧ i < 2 ^ 31)).bind fun i => c.values[i.toNat]?

/-- The answer to a question, if there is one.  A count that is no integer of thirty-two bits cannot
be given. -/
def answer?
    (c : Collection) : Question → Option Value
  | .add v => some (.boolean (c.takes v))
  | .contains v => some (.boolean (c.holds v))
  | .size =>
      if c.values.length < 2 ^ 31 then some (.number (Number.ofInt c.values.length)) else none
  | .isEmpty => some (.boolean c.values.isEmpty)
  | .toArray => some (.array (Value.gridOfRow c.values))
  | .get index => c.valueAt? index

/-- The error value for a question without an answer. -/
def refusal
    (c : Collection)
    (q : Question) : Value :=
  .error
    { code := .null
      message := some (BridgeError.message
        (.noSuccessfulOverload c.kind.type.display q.member q.args.length 1)) }

/-- What the host gets to see. -/
def answer
    (c : Collection)
    (q : Question) : Value :=
  (c.answer? q).getD (c.refusal q)

def after
    (c : Collection) : Question → Collection
  | .add v => if c.takes v then { c with values := c.values ++ [v] } else c
  | _ => c

def afterAll
    (c : Collection)
    (qs : List Question) : Collection :=
  qs.foldl after c

end Collection

/-- The collections that were created, and the handle that comes next. -/
structure Shelf where
  next : Handle
  at? : Handle → Option Collection

/-- What the host does with collections. -/
inductive ShelfCall where
  | create (kind : CollectionKind)
  | ask (h : Handle) (q : Question)
  /-- Ends a collection cycle with the handles that the host shows. -/
  | collect (reachable : List Handle)

namespace Shelf

def empty
    (next : Handle) : Shelf :=
  { next := next, at? := fun _ => none }

/-- Questions are put to collections that are there, and that can answer them. -/
def Allows
    (shelf : Shelf) : ShelfCall → Prop
  | .create _ => True
  | .ask h q => ∃ c, shelf.at? h = some c ∧ c.kind.Answers q
  | .collect _ => True

/-- The answer to a call; the end of a cycle is answered by a report. -/
def answer?
    (shelf : Shelf) : ShelfCall → Option Value
  | .create _ => some (.handle shelf.next)
  | .ask h q => (shelf.at? h).map fun c => c.answer q
  | .collect _ => none

def put
    (shelf : Shelf)
    (h : Handle)
    (c : Collection) : Shelf :=
  { shelf with at? := fun h' => if h' = h then some c else shelf.at? h' }

def after
    (shelf : Shelf) : ShelfCall → Shelf
  | .create kind =>
      { shelf.put shelf.next (.new kind) with next := ⟨shelf.next.value + 1⟩ }
  | .ask h q =>
      match shelf.at? h with
      | some c => shelf.put h (c.after q)
      | none => shelf
  | .collect _ => shelf

def afterAll
    (shelf : Shelf)
    (calls : List ShelfCall) : Shelf :=
  calls.foldl after shelf

end Shelf

end Defs

namespace Collection

variable {c : Collection} {q : Question}

@[simp] theorem kind_after :
    (c.after q).kind = c.kind := by
  cases q <;> first
    | rfl
    | rw [after]
      split <;> rfl

/-- What a collection holds after a question: what it held before, and what equals an added
value.  A set that refuses a value holds an equal one. -/
theorem holds_after
    (v : Value) :
    (c.after q).holds v = true ↔
      c.holds v = true ∨ ∃ u, q = .add u ∧ (u == v) = true := by
  cases q with
  | add u =>
      simp only [Question.add.injEq, exists_eq_left']
      rw [after]
      cases htakes : c.takes u with
      | true =>
          simp [holds, List.any_append]
      | false =>
          refine ⟨Or.inl, ?_⟩
          rintro (hholds | heq)
          · exact hholds
          · have hold : c.holds u = true := by
              rw [takes] at htakes
              cases hkind : c.kind with
              | list =>
                  rw [hkind] at htakes
                  cases htakes
              | set =>
                  rw [hkind] at htakes
                  simpa using htakes
            obtain ⟨x, hx, hxu⟩ := List.any_eq_true.1 hold
            exact List.any_eq_true.2 ⟨x, hx, Value.beq_trans hxu heq⟩
  | _ =>
      simp [after]

/-- A collection holds what equals an added value. -/
theorem holds_afterAll
    {qs : List Question}
    (h : ∀ q ∈ qs, c.kind.Answers q)
    (v : Value) :
    (c.afterAll qs).holds v = true ↔
      c.holds v = true ∨ ∃ u, .add u ∈ qs ∧ (u == v) = true := by
  induction qs generalizing c with
  | nil =>
      simp [afterAll]
  | cons q qs ih =>
      obtain ⟨-, hqs⟩ := List.forall_mem_cons.1 h
      have hrest : ∀ q' ∈ qs, (c.after q).kind.Answers q' := by
        rw [kind_after]
        exact hqs
      show ((c.after q).afterAll qs).holds v = true ↔ _
      rw [ih hrest, holds_after, or_assoc]
      refine or_congr_right ?_
      simp only [List.mem_cons, or_and_right, exists_or, eq_comm]

end Collection

namespace Shelf

variable {shelf : Shelf} {h h' : Handle} {c : Collection} {q : Question}

theorem at?_put :
    (shelf.put h c).at? h' = if h' = h then some c else shelf.at? h' := by
  rfl

theorem at?_after_create
    (kind : CollectionKind) :
    (shelf.after (.create kind)).at? h =
      if h = shelf.next then some (.new kind) else shelf.at? h := by
  rfl

theorem after_ask
    (hc : shelf.at? h = some c)
    (q : Question) :
    shelf.after (.ask h q) = shelf.put h (c.after q) := by
  rw [after, hc]

/-- A question changes the collection that it is put to, and no other one. -/
theorem at?_after_ask
    (hne : h' ≠ h)
    (q : Question) :
    (shelf.after (.ask h q)).at? h' = shelf.at? h' := by
  rw [after]
  cases shelf.at? h with
  | none =>
      rfl
  | some c =>
      exact if_neg hne

theorem afterAll_take_succ
    {calls : List ShelfCall}
    {n : Nat}
    {call : ShelfCall}
    (hcall : calls[n]? = some call) :
    shelf.afterAll (calls.take (n + 1)) = (shelf.afterAll (calls.take n)).after call := by
  rw [afterAll, List.take_add_one, hcall, List.foldl_append]
  rfl

end Shelf

end CellBridge

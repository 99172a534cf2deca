import CellBridge.Conversion.Rule

/-!
# The catalog of rules

Rules stand in buckets of equal priority, the highest first, and within a bucket in the order of
their registration.  A lookup takes the first rule that applies.

`conversions n` is what rules of the catalog see of each other when conversions may be nested `n`
deep.  `read` and `write` run a rule with as much nesting as the world and the value at hand call
for, and with the `room` of the catalog on top of it.  What nests deeper counts as endless.  The
standard rules need no room; rules that make up values or objects to convert may need any amount of
it, so that what is said about all catalogs is said for every room.
-/

namespace CellBridge

/-- Rules of one priority. -/
structure Bucket where
  priority : Int32
  rules : List Rule

/-- All rules, by falling priority. -/
structure Catalog where
  buckets : List Bucket
  /-- How much deeper conversions may be nested than the value and the store at hand call for. -/
  room : Nat := 0

namespace Catalog

section Registration

def empty : Catalog :=
  { buckets := [] }

/-- Buckets with one rule more. -/
def insertRule
    (r : Rule) : List Bucket → List Bucket
  | [] => [{ priority := r.priority, rules := [r] }]
  | b :: bs =>
      if b.priority < r.priority then
        { priority := r.priority, rules := [r] } :: b :: bs
      else if b.priority = r.priority then
        { b with rules := b.rules ++ [r] } :: bs
      else
        b :: insertRule r bs

/-- Adds a rule behind all others of its priority. -/
def register
    (c : Catalog)
    (r : Rule) : Catalog :=
  { c with buckets := insertRule r c.buckets }

/-- The same rules with another room. -/
def withRoom
    (c : Catalog)
    (room : Nat) : Catalog :=
  { c with room := room }

end Registration

section Lookup

/-- All rules in the order in which they are tried. -/
def rules
    (c : Catalog) : List Rule :=
  c.buckets.flatMap Bucket.rules

/-- The first rule that reads a shape where a type is wanted. -/
def findByShape?
    (c : Catalog)
    (s : Shape)
    (required : Ty) : Option Rule :=
  c.rules.find? fun r => r.reads s required

/-- The first rule that takes objects of a type. -/
def findByType?
    (c : Catalog)
    (actual : Ty) : Option Rule :=
  c.rules.find? fun r => r.canConvert actual

def size
    (c : Catalog) : Nat :=
  c.rules.length

def isEmpty
    (c : Catalog) : Bool :=
  c.buckets.isEmpty

end Lookup

section Lemmas

/-- Registering a rule adds exactly one to the rules of the buckets. -/
theorem length_insertRule
    (r : Rule)
    (bs : List Bucket) :
    ((insertRule r bs).flatMap Bucket.rules).length = (bs.flatMap Bucket.rules).length + 1 := by
  induction bs with
  | nil =>
      rfl
  | cons b bs ih =>
      rw [insertRule]
      split
      · simp [Nat.add_comm]
      · split
        · simp
          omega
        · rw [List.flatMap_cons, List.length_append, ih, List.flatMap_cons, List.length_append]
          omega

@[simp] theorem size_register
    (c : Catalog)
    (r : Rule) :
    (c.register r).size = c.size + 1 := by
  exact length_insertRule r c.buckets

end Lemmas

section Running

/-- The conversions of a catalog, nested at most `n` deep below the one that is called. -/
def conversions
    (c : Catalog) : Nat → Conversions
  | 0 =>
      { reader? := fun s t => (c.findByShape? s t).map fun _ => fun _ _ => Action.diverge
        writer? := fun t => (c.findByType? t).map fun _ => fun _ => Action.diverge }
  | n + 1 =>
      { reader? := fun s t => (c.findByShape? s t).map fun r => r.toManaged (c.conversions n)
        writer? := fun t => (c.findByType? t).map fun r => r.toCell (c.conversions n) }

/-- Runs a rule on a value.  Values nest their grids, and handles in them lead into the store. -/
def read
    (c : Catalog)
    (r : Rule)
    (required : Ty)
    (v : Value) : Action Object := do
  let w ← get
  r.toManaged (c.conversions (v.depth + w.store.size + 1 + c.room)) required v

/-- Runs a rule on an object.  A chain of different payloads is no longer than the store. -/
def write
    (c : Catalog)
    (r : Rule)
    (o : Object) : Action Value := do
  let w ← get
  r.toCell (c.conversions (w.store.size + 1 + c.room)) o

end Running

section Text

def dump
    (c : Catalog) : String :=
  "ConverterCatalog \x7b buckets: " ++
    bracketed (c.buckets.map fun b =>
      "PriorityBucket \x7b priority: " ++ toString b.priority.toInt ++ ", rules: " ++
        bracketed (b.rules.map Rule.dump) ++ " \x7d") ++ " \x7d"

end Text

end Catalog
end CellBridge

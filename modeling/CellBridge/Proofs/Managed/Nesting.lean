import CellBridge.Proofs.Managed.Containment
import CellBridge.Proofs.Managed.Hierarchy

/-!
# What is nested in an object

An object is looked at as a whole: `Throughout` says something of the object and of all that it
holds, directly or through others.  What holds throughout an object holds throughout its items,
which is what inductions over nested objects go by.

`AcyclicFrom` says that nothing in an object leads to itself, whatever else is in the store; by
`shallow_of_free` things are then nested in it at most as deep as there are payloads.

`WellFormed` gathers what the host may expect of an object: no cycles, payloads that match the
tags, and items that fit where they are.
-/

namespace CellBridge

section Defs

/-- Classes of which no two share a name and differ in their ancestors. -/
def DeterminedByName
    (classes : Set ManagedClass) : Prop :=
  ∀ c ∈ classes, ∀ d ∈ classes, c.name = d.name → c.ancestors = d.ancestors

/-- Does the payload suit the tag?  Every class that is the common ancestor of enumerations, or lies
below it, stands for constants.  Objects of other classes may hold anything. -/
def Ty.Matches : Ty → Payload → Prop
  | .any, _ => True
  | .void, p => p = .unit
  | .bool, p => p.bool?.isSome = true
  | .byte, p => p.byte?.isSome = true
  | .short, p => p.short?.isSome = true
  | .int, p => p.int?.isSome = true
  | .long, p => p.long?.isSome = true
  | .double, p => p.double?.isSome = true
  | .text, p => p.text?.isSome = true
  | .tagged, p => p.tagged?.isSome = true
  | .array _, p => p.array?.isSome = true
  | .list _, p => p.list?.isSome = true
  | .set _, p => p.set?.isSome = true
  | .object c, p => c.isSubclassOf .enumRoot = true → p.constant?.isSome = true

namespace Store

/-- Does the payload of the first object hold the second one? -/
def Has
    (s : Store)
    (o x : Object) : Prop :=
  x ∈ s.contents o.id

/-- The predicate holds of the object and of everything in it, at every depth. -/
def Throughout
    (s : Store)
    (P : Object → Prop)
    (o : Object) : Prop :=
  ∀ x, Relation.ReflTransGen s.Has o x → P x

/-- Nothing that the object leads to leads back to itself. -/
def AcyclicFrom
    (s : Store)
    (o : Object) : Prop :=
  ∀ i, s.Leads o.id i → ¬ Relation.TransGen s.Holds i i

/-- The payload of the object matches its tag, and its items fit the declared type. -/
structure Suits
    (s : Store)
    (o : Object) : Prop where
  payload : o.type.Matches (s.payload o)
  items : ∀ x, s.Has o x → o.type.elementOrAny.accepts x.type = true

/-- An object without cycles that suits its tag at every depth and names only the given classes. -/
structure WellFormed
    (s : Store)
    (classes : Set ManagedClass)
    (o : Object) : Prop where
  acyclic : s.AcyclicFrom o
  within : s.Throughout (fun x => x.type.Within classes) o
  suits : s.Throughout s.Suits o

end Store

end Defs

namespace Store

variable {s : Store} {P : Object → Prop} {o x : Object}

section Reaching

theorem Throughout.self
    (h : s.Throughout P o) :
    P o := by
  exact h o .refl

/-- What holds throughout an object holds throughout its items. -/
theorem Throughout.of_has
    (h : s.Throughout P o)
    (hx : s.Has o x) :
    s.Throughout P x := by
  intro y hy
  exact h y (.head hx hy)

/-- What holds of some objects holds throughout them, if they hold no others. -/
theorem throughout_of_closed
    {os : List Object}
    (hclosed : ∀ x ∈ os, ∀ y ∈ s.contents x.id, y ∈ os)
    (hP : ∀ x ∈ os, P x)
    (ho : o ∈ os) :
    s.Throughout P o := by
  have hmem : ∀ x, Relation.ReflTransGen s.Has o x → x ∈ os := by
    intro x hx
    induction hx with
    | refl =>
        exact ho
    | tail _ hy ih =>
        exact hclosed _ ih _ hy
  exact fun x hx => hP x (hmem x hx)

/-- There are no cycles where payloads hold earlier ones only. -/
theorem acyclicFrom_of_descending
    (h : ∀ i < s.size, ∀ x ∈ s.contents i, x.id < i)
    (o : Object) :
    s.AcyclicFrom o := by
  have hdescend : ∀ i j, Relation.TransGen s.Holds i j → j < i := by
    intro i j hij
    induction hij with
    | single hj =>
        obtain ⟨x, hx, rfl⟩ := hj
        exact h _ (Holds.lt ⟨x, hx, rfl⟩) x hx
    | tail _ hk ih =>
        obtain ⟨x, hx, rfl⟩ := hk
        exact Nat.lt_trans (h _ (Holds.lt ⟨x, hx, rfl⟩) x hx) ih
  exact fun i _ hcycle => Nat.lt_irrefl i (hdescend i i hcycle)

end Reaching

section Cupboard

/-! A cupboard with a bell, a row of a pitch and the same bell, and a set of both bells. -/

def bellClass : ManagedClass :=
  .root "Bell"

def pitchClass : ManagedClass :=
  .enumeration "Pitch" ["low", "high"]

/-- The bell that is there several times. -/
def bell : Object :=
  ⟨.object bellClass, 0⟩

/-- All that is in the cupboard, and the cupboard. -/
def cupboardItems : List Object :=
  [bell, ⟨.object bellClass, 1⟩, ⟨.object pitchClass, 2⟩, ⟨.array .any, 3⟩,
    ⟨.set (.object bellClass), 4⟩, ⟨.list .any, 5⟩]

/-- The list of the bell, the row and the set. -/
def cupboard : Object :=
  ⟨.list .any, 5⟩

/-- A store with the cupboard and all that is in it. -/
def cupboardStore : Store where
  payloads := #[.record [], .record [], .constant 1 "high", .array [⟨.object pitchClass, 2⟩, bell],
    .set [⟨.object bellClass, 1⟩, bell],
    .list [bell, ⟨.array .any, 3⟩, ⟨.set (.object bellClass), 4⟩]]

theorem throughout_cupboard
    {P : Object → Prop}
    (h : ∀ x ∈ cupboardItems, P x) :
    cupboardStore.Throughout P cupboard := by
  refine throughout_of_closed ?_ h ?_
  · simp [cupboardItems, cupboardStore, contents, Payload.items?, bell]
  · simp [cupboardItems, cupboard]

theorem determinedByName_cupboard :
    DeterminedByName {bellClass, pitchClass} := by
  simp [DeterminedByName, bellClass, pitchClass, ManagedClass.root, ManagedClass.enumeration]

theorem wellFormed_cupboard :
    cupboardStore.WellFormed {bellClass, pitchClass} cupboard := by
  have hpayloads : ∀ x ∈ cupboardItems, x.type.Matches (cupboardStore.payload x) := by
    have hbell : bellClass.isSubclassOf .enumRoot ≠ true := by
      decide
    simp only [cupboardItems, List.forall_mem_cons]
    exact ⟨fun h => absurd h hbell, fun h => absurd h hbell, fun _ => rfl, rfl, rfl, rfl,
      List.forall_mem_nil _⟩
  have hitems : ∀ x ∈ cupboardItems, ∀ y ∈ cupboardStore.contents x.id,
      x.type.elementOrAny.accepts y.type = true := by
    decide
  refine ⟨acyclicFrom_of_descending (by decide) cupboard, throughout_cupboard ?_,
    throughout_cupboard fun x hx => ⟨hpayloads x hx, hitems x hx⟩⟩
  simp [cupboardItems, Ty.Within, bell]

end Cupboard

end Store
end CellBridge

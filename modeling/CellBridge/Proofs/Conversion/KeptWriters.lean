import CellBridge.Conversion.Line
import CellBridge.Conversion.Standard
import CellBridge.Proofs.Conversion.Elements
import Mathlib.Data.List.Chain

/-!
# Writers that are kept

Objects are written from left to right, and the writer that was used last is kept as long as the
runtime types stay equal.  So each object is written by what the catalog finds for the first of the
equal types in the unbroken run that it stands in: `writeItems_leading`, for every catalog and all
objects.

Types are equal when their class names are, and a rule may look at more than names.  Where equal
types of neighbours are the same type, each object is written as if it stood alone;
`items_written_alone` says both.  Two classes of one name are enough to tell the difference.
-/

namespace CellBridge

section Defs

/-- Writes an object by the rule that the catalog finds for the type `t`, or else for the declared
one, with others nested at most `n` deep. -/
def Catalog.writeAs
    (c : Catalog)
    (n : Nat)
    (declared t : Ty)
    (o : Object) : Action Value := do
  let rule ← Action.orFail (.noReturnConverter t.display)
    ((c.findByType? t).or (c.findByType? declared))
  rule.toCell (c.conversions n) o

namespace Sequence

/-- The type that leads the run in which a type stands: `last` led the run before it. -/
def leader
    (last : Option Ty)
    (t : Ty) : Ty :=
  match last with
  | some first => if first == t then first else t
  | none => t

/-- The objects with the types that lead their runs. -/
def leading
    (last : Option Ty) : List Object → List (Ty × Object)
  | [] => []
  | o :: os => (leader last o.type, o) :: leading (some (leader last o.type)) os

end Sequence

end Defs

namespace Sequence

section Leading

variable {cx : Conversions} {declared : Ty}

/-- The writer that is kept is the one that is looked up for the type that leads the run. -/
theorem writeItemsFrom_leading
    (items : List Object)
    {last : Option (Ty × Writer)}
    (hlast : ∀ t writer, last = some (t, writer) →
      lookupWriter cx declared t = pure writer) :
    writeItemsFrom cx declared last items =
      (leading (last.map Prod.fst) items).mapM fun p =>
        lookupWriter cx declared p.1 >>= fun writer => writer p.2 := by
  induction items generalizing last with
  | nil =>
      rfl
  | cons o os ih =>
      have hfound : ∀ t writer, lookupWriter cx declared t = pure writer →
          (do
            let v ← writer o
            let vs ← writeItemsFrom cx declared (some (t, writer)) os
            return v :: vs) = ((t, o) :: leading (some t) os).mapM fun p =>
              lookupWriter cx declared p.1 >>= fun writer => writer p.2 := by
        intro t writer hwriter
        have hkept : ∀ t' writer', some (t, writer) = some (t', writer') →
            lookupWriter cx declared t' = pure writer' := by
          rintro t' writer' heq
          cases heq
          exact hwriter
        rw [List.mapM_cons, hwriter, pure_bind, ih hkept]
        rfl
      have hlookup : ((o.type, ·) <$> lookupWriter cx declared o.type >>= fun found => do
            let v ← found.2 o
            let vs ← writeItemsFrom cx declared (some (found.1, found.2)) os
            return v :: vs) = ((o.type, o) :: leading (some o.type) os).mapM fun p =>
              lookupWriter cx declared p.1 >>= fun writer => writer p.2 := by
        cases hwriter : (cx.writer? o.type).or (cx.writer? declared) with
        | none =>
            rw [List.mapM_cons, lookupWriter, hwriter]
            rfl
        | some writer =>
            have hpure : lookupWriter cx declared o.type = pure writer := by
              rw [lookupWriter, hwriter]
              rfl
            rw [hpure, map_pure, pure_bind]
            exact hfound o.type writer hpure
      cases last with
      | none =>
          exact hlookup
      | some known =>
          obtain ⟨t, writer⟩ := known
          by_cases ht : (t == o.type) = true
          · have hleader : leader (some t) o.type = t := if_pos ht
            rw [Option.map_some, leading, hleader, writeItemsFrom, if_pos ht, pure_bind]
            exact hfound t writer (hlast t writer rfl)
          · have hleader : leader (some t) o.type = o.type := if_neg ht
            rw [Option.map_some, leading, hleader, writeItemsFrom, if_neg ht]
            exact hlookup

/-- Looking a writer up is looking a rule up. -/
theorem lookupWriter_bind
    (c : Catalog)
    (n : Nat)
    (declared t : Ty)
    (o : Object) :
    (lookupWriter (c.conversions (n + 1)) declared t >>= fun writer => writer o) =
      c.writeAs n declared t o := by
  rw [lookupWriter, Catalog.conversions, Catalog.writeAs, ← Option.map_or]
  cases (c.findByType? t).or (c.findByType? declared) <;> rfl

/-- Each object is written by the rule for the type that leads its run. -/
theorem writeItems_leading
    (c : Catalog)
    (n : Nat)
    (declared : Ty)
    (items : List Object) :
    writeItems (c.conversions (n + 1)) declared items =
      (leading none items).mapM fun p => c.writeAs n declared p.1 p.2 := by
  have hlast : ∀ t writer, (none : Option (Ty × Writer)) = some (t, writer) →
      lookupWriter (c.conversions (n + 1)) declared t = pure writer := by
    rintro t writer ⟨⟩
  rw [writeItems, writeItemsFrom_leading items hlast]
  simp only [lookupWriter_bind]
  rfl

/-- Where equal types of neighbours are the same, the type that leads a run is the type of all its
objects. -/
theorem leading_eq_map
    (items : List Object)
    {last : Option Ty}
    (hlast : ∀ t ∈ last, ∀ o ∈ items.head?, (t == o.type) = true → t = o.type)
    (hsame : items.IsChain fun x y => (x.type == y.type) = true → x.type = y.type) :
    leading last items = items.map fun o => (o.type, o) := by
  induction items generalizing last with
  | nil =>
      rfl
  | cons o os ih =>
      obtain ⟨hnext, hrest⟩ := List.isChain_cons.1 hsame
      have hleader : leader last o.type = o.type := by
        cases last with
        | none =>
            rfl
        | some t =>
            by_cases ht : (t == o.type) = true
            · exact (if_pos ht).trans (hlast t rfl o rfl ht)
            · exact if_neg ht
      have hhead : ∀ t ∈ some o.type, ∀ x ∈ os.head?, (t == x.type) = true → t = x.type := by
        rintro t ⟨⟩ x hx
        exact hnext x hx
      rw [leading, hleader, List.map_cons, ih hhead hrest]

end Leading

end Sequence

section Neighbours

/-- Every catalog writes each object by the rule that it finds for the type that leads the run of
equal types.  Where equal types of neighbours are the same, this is the rule for the type of the
object, so that nothing depends on the writer that is kept. -/
theorem items_written_alone
    (c : Catalog)
    (n : Nat)
    (declared : Ty)
    (items : List Object) :
    (Sequence.writeItems (c.conversions (n + 1)) declared items =
        (Sequence.leading none items).mapM fun p => c.writeAs n declared p.1 p.2) ∧
      ((items.IsChain fun x y => (x.type == y.type) = true → x.type = y.type) →
        Sequence.writeItems (c.conversions (n + 1)) declared items =
          items.mapM fun o => c.writeAs n declared o.type o) := by
  have hlaw := Sequence.writeItems_leading c n declared items
  refine ⟨hlaw, ?_⟩
  intro hsame
  rw [hlaw, Sequence.leading_eq_map items (fun _ ht => absurd ht (Option.not_mem_none _)) hsame,
    List.mapM_map]
  rfl

/-! Two classes with the name `Port`: one that is on its own, and an enumeration. -/

def plainPort : ManagedClass :=
  .root "Port"

def listedPort : ManagedClass :=
  .enumeration "Port" ["A"]

/-- An object of the class, a constant of the enumeration and a number. -/
def portWorld : World where
  store := { payloads := #[.record [], .constant 0 "A", .double (Number.ofInt 2)] }
  heap := Heap.empty 1 3

/-- With a number between them, both ports are written by their own rules. -/
theorem items_written_alone_apart :
    let items : List Object := [⟨.object plainPort, 0⟩, ⟨.double, 2⟩, ⟨.object listedPort, 1⟩]
    (standardCatalog.writeItems .any items portWorld).1 =
      .ok [.handle ⟨1⟩, .number (Number.ofInt 2), .text "A"] := by
  intro items
  have hsame : items.IsChain fun x y => (x.type == y.type) = true → x.type = y.type := by
    refine .cons_cons ?_ (.cons_cons ?_ (.singleton _)) <;>
      · intro h
        cases h
  have halone := (items_written_alone standardCatalog 4 .any items).2 hsame
  show (Sequence.writeItems (standardCatalog.conversions 5) .any items portWorld).1 = _
  rw [halone]
  rfl

/-- Next to each other, the constant is written by the rule for the object before it. -/
theorem namesake_keeps_writer :
    let items : List Object := [⟨.object plainPort, 0⟩, ⟨.object listedPort, 1⟩]
    let alone : Action (List Value) :=
      items.mapM fun o => standardCatalog.writeAs (portWorld.store.size + 1) .any o.type o
    (standardCatalog.writeItems .any items portWorld).1 = .ok [.handle ⟨1⟩, .handle ⟨2⟩] ∧
      (alone portWorld).1 = .ok [.handle ⟨1⟩, .text "A"] ∧
      standardCatalog.writeItems .any items portWorld ≠ alone portWorld := by
  intro items alone
  have hkept : (standardCatalog.writeItems .any items portWorld).1 =
      .ok [.handle ⟨1⟩, .handle ⟨2⟩] := by
    rfl
  have halone : (alone portWorld).1 = .ok [.handle ⟨1⟩, .text "A"] := by
    rfl
  refine ⟨hkept, halone, ?_⟩
  intro heq
  rw [heq, halone] at hkept
  cases hkept

end Neighbours

end CellBridge

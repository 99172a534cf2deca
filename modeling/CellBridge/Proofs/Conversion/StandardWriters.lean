import CellBridge.Conversion.Standard
import CellBridge.Proofs.Conversion.Elements
import CellBridge.Proofs.Conversion.EntryPoints
import CellBridge.Proofs.Managed.Nesting

/-!
# Which standard rule writes which type

The standard catalog has a rule for every type: `writerRule` names it, and `findByType?_standard`
says that this is the one that the lookup finds.  Where class names determine ancestors, equal types
have the same rule, so items that are written in a row are written as if each stood alone:
`writeItems_standard`.
-/

namespace CellBridge

section Defs

/-- The first standard rule that takes objects of a type. -/
def writerRule : Ty → Rule
  | .any => Reference.boxing
  | .void => Scalar.empty
  | .bool => Scalar.boolean
  | .byte => Scalar.byte
  | .short => Scalar.short
  | .int => Scalar.int
  | .long => Scalar.long
  | .double => Scalar.double
  | .text => Scalar.string
  | .tagged => Reference.tagged
  | .array (.array _) => Sequence.jagged
  | .array _ => Sequence.array
  | .list _ => Sequence.list
  | .set _ => Sequence.set
  | .object c => bif c.isSubclassOf .enumRoot then Reference.enum else Reference.boxing

/-- Writes an object by the standard rule for its type, with others nested at most `n` deep. -/
def writeCell
    (n : Nat)
    (o : Object) : Action Value :=
  (writerRule o.type).toCell (standardCatalog.conversions n) o

end Defs

section Lookup

/-- Every type has a standard rule. -/
theorem findByType?_standard
    (t : Ty) :
    standardCatalog.findByType? t = some (writerRule t) := by
  cases t with
  | array e =>
      cases e <;> rfl
  | object c =>
      -- only the rules for enumerations and for handles look at classes
      have hfound : standardCatalog.findByType? (.object c) =
          bif c.isSubclassOf .enumRoot then some Reference.enum else some Reference.boxing := by
        rfl
      rw [hfound, writerRule]
      cases c.isSubclassOf .enumRoot <;> rfl
  | _ =>
      rfl

theorem writer?_standard
    (n : Nat)
    (t : Ty) :
    (standardCatalog.conversions (n + 1)).writer? t =
      some ((writerRule t).toCell (standardCatalog.conversions n)) := by
  rw [Catalog.conversions]
  exact congrArg (Option.map _) (findByType?_standard t)

variable {classes : Set ManagedClass}

/-- Equal types are written by the same rule. -/
theorem writerRule_congr
    (hclasses : DeterminedByName classes)
    {t u : Ty}
    (ht : t.Within classes)
    (hu : u.Within classes)
    (h : (t == u) = true) :
    writerRule t = writerRule u := by
  cases t with
  | object c =>
      cases u with
      | object d =>
          have hname : c.name = d.name := beq_iff_eq.1 h
          have hchain : c.chain = d.chain := by
            rw [ManagedClass.chain, ManagedClass.chain, hname, hclasses c ht d hu hname]
          rw [writerRule, writerRule, ManagedClass.isSubclassOf, ManagedClass.isSubclassOf, hchain]
      | _ =>
          cases h
  | array e =>
      cases u with
      | array f =>
          -- the rule depends on whether the elements are arrays, and equal types agree there
          cases e <;> cases f <;> first
            | rfl
            | cases h
      | _ =>
          cases h
  | _ =>
      cases u <;> first
        | rfl
        | cases h

end Lookup

section Items

variable {classes : Set ManagedClass}

/-- Items are written as if each stood alone. -/
theorem writeItems_standard
    (hclasses : DeterminedByName classes)
    (declared : Ty)
    {items : List Object}
    (hitems : ∀ x ∈ items, x.type.Within classes)
    (n : Nat) :
    Sequence.writeItems (standardCatalog.conversions (n + 1)) declared items =
      items.mapM (writeCell n) := by
  refine Sequence.writeItems_eq_mapM
    (fun t => (writerRule t).toCell (standardCatalog.conversions n)) declared items ?_ ?_
  · intro x _
    exact writer?_standard n x.type
  · intro x hx y hy heq
    rw [writerRule_congr hclasses (hitems x hx) (hitems y hy) heq]

end Items

namespace Bridge

/-- A bridge with the standard rules writes an object by the rule for its type; an object without a
value needs no rule, and comes out the same. -/
theorem toCell_standard
    {b : Bridge}
    (hb : b.catalog = standardCatalog)
    (o : Object)
    (w : World) :
    b.toCell o w =
      Action.guarded (writerRule o.type).name (writeCell (w.store.size + 1) o) w := by
  by_cases hvalue : o.type = .void
  case pos =>
    obtain ⟨t, id⟩ := o
    obtain rfl := hvalue
    rfl
  case neg =>
    have hrule : b.catalog.findByType? o.type = some (writerRule o.type) := by
      rw [hb, findByType?_standard]
    rw [toCell_run_guarded hvalue hrule, hb, Action.guarded, Action.guarded, tryCatch_run,
      tryCatch_run, Catalog.write, bind_run_ok (get_run w)]
    rfl

end Bridge

end CellBridge

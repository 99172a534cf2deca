import CellBridge.Bridge.Session
import CellBridge.Proofs.Conversion.ActionRuns

/-!
# Conversions by the bridge

The bridge converts by the first rule that applies, and a conversion that succeeds is one of the
rule.
-/

namespace CellBridge
namespace Bridge

/-- The bridge reads a value by the first rule that takes it. -/
theorem toManaged_run_ok
    {b : Bridge}
    {v : Value}
    {t : Ty}
    {w w' : World}
    {o : Object} :
    b.toManaged v t w = (.ok o, w') ↔
      ∃ rule, b.catalog.findByShape? v.shape t = some rule ∧
        b.catalog.read rule t v w = (.ok o, w') := by
  rw [toManaged]
  cases hrule : b.catalog.findByShape? v.shape t with
  | none =>
      rw [bind_run_error (Action.orFail_none_run _ w)]
      constructor
      · intro h
        cases h
      · rintro ⟨rule, hnone, -⟩
        cases hnone
  | some rule =>
      rw [bind_run_ok (Action.orFail_some_run _ rule w), Action.guarded_run_ok]
      constructor
      · intro h
        exact ⟨rule, rfl, h⟩
      · rintro ⟨_, hsome, h⟩
        cases hsome
        exact h

/-- An object that has a value is written under the name of the first rule that takes its type. -/
theorem toCell_of_value
    (b : Bridge)
    {o : Object}
    (hvalue : o.type ≠ .void) :
    b.toCell o = (do
      let rule ← Action.orFail (.noReturnConverter o.type.display) (b.catalog.findByType? o.type)
      Action.guarded rule.name (b.catalog.write rule o)) := by
  obtain ⟨t, id⟩ := o
  cases t with
  | void =>
      exact absurd rfl hvalue
  | _ =>
      rfl

/-- Where a rule takes the type, the bridge guards what this rule does. -/
theorem toCell_run_guarded
    {b : Bridge}
    {o : Object}
    {rule : Rule}
    (hvalue : o.type ≠ .void)
    (hrule : b.catalog.findByType? o.type = some rule)
    (w : World) :
    b.toCell o w = Action.guarded rule.name (b.catalog.write rule o) w := by
  rw [b.toCell_of_value hvalue, hrule, bind_run_ok (Action.orFail_some_run _ rule w)]

/-- Where no rule takes the type, the bridge fails without any change of the world. -/
theorem toCell_run_unruled
    {b : Bridge}
    {o : Object}
    (hvalue : o.type ≠ .void)
    (hrule : b.catalog.findByType? o.type = none)
    (w : World) :
    b.toCell o w = (.error (.failed (.noReturnConverter o.type.display)), w) := by
  rw [b.toCell_of_value hvalue, hrule, bind_run_error (Action.orFail_none_run _ w)]

/-- The bridge writes an object by the first rule that takes its type. -/
theorem toCell_run_of_write
    {b : Bridge}
    {o : Object}
    {rule : Rule}
    {v : Value}
    {w w' : World}
    (hvalue : o.type ≠ .void)
    (hrule : b.catalog.findByType? o.type = some rule)
    (hwrite : b.catalog.write rule o w = (.ok v, w')) :
    b.toCell o w = (.ok v, w') := by
  rw [toCell_run_guarded hvalue hrule]
  exact Action.guarded_run_ok.2 hwrite

end Bridge
end CellBridge

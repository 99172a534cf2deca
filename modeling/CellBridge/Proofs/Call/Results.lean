import CellBridge.Call.Invocation
import CellBridge.Proofs.Conversion.PlainCells

/-!
# Results that carry no handle

With the standard rules there is a rule for every result.  In the simplest form, a result that
carries no handle is written by the rule for its type, and if it depicts a plain value it is this
value.  As an object it is interned.
-/

namespace CellBridge
namespace Candidate

variable {o : Object} {w : World}

/-- A handle that is carried as a cell value is the answer in either mode. -/
theorem convertResult_carried
    (c : Catalog)
    (cand : Candidate)
    (mode : ResultMode)
    {handle : Handle}
    (hcarried : Reference.carriedHandle? (w.store.payload o) = some handle) :
    cand.convertResult c mode o w = (.ok (.handle handle), w) := by
  rw [convertResult, bind_run_ok (Action.payload_run o w), ← Reference.carriedHandle?, hcarried]
  rfl

/-- The absence of a value is a blank in either mode. -/
theorem convertResult_nothing
    (c : Catalog)
    (cand : Candidate)
    (mode : ResultMode)
    (hcarried : Reference.carriedHandle? (w.store.payload o) = none)
    (hvoid : o.type = .void) :
    cand.convertResult c mode o w = (.ok .empty, w) := by
  rw [convertResult, bind_run_ok (Action.payload_run o w), ← Reference.carriedHandle?, hcarried,
    hvoid]
  rfl

/-- A result that has a value and carries no handle is written by the first rule that takes its
type, and failing that by the rule for the declared type. -/
theorem convertResult_run_of_value
    (c : Catalog)
    (cand : Candidate)
    (hcarried : Reference.carriedHandle? (w.store.payload o) = none)
    (hvalue : o.type ≠ .void) :
    cand.convertResult c .simplest o w = (do
        let rule ← Action.orFail (.noReturnConverter o.type.display)
          ((c.findByType? o.type).or cand.returnRule)
        c.write rule o) w := by
  rw [convertResult, bind_run_ok (Action.payload_run o w), ← Reference.carriedHandle?, hcarried]
  obtain ⟨t, id⟩ := o
  cases t with
  | void =>
      exact absurd rfl hvalue
  | _ =>
      rfl

/-- A result that carries no handle is written by the standard rule for its type. -/
theorem convertResult_simplest_run
    (cand : Candidate)
    (h : Reference.carriedHandle? (w.store.payload o) = none) :
    cand.convertResult standardCatalog .simplest o w = writeCell (w.store.size + 1) o w := by
  by_cases hvalue : o.type = .void
  case pos =>
    obtain ⟨t, id⟩ := o
    obtain rfl := hvalue
    exact convertResult_nothing _ _ _ h rfl
  case neg =>
    rw [convertResult_run_of_value _ _ h hvalue, findByType?_standard, Option.some_or,
      bind_run_ok (Action.orFail_some_run _ _ w), Catalog.write, bind_run_ok (get_run w)]
    rfl

/-- A result that depicts a value is this value. -/
theorem convertResult_of_depicts
    (cand : Candidate)
    {v : Value}
    (h : w.store.Depicts o v) :
    cand.convertResult standardCatalog .simplest o w = (.ok v, w) := by
  rw [convertResult_simplest_run cand (carriedHandle?_of_plain h)]
  exact h.writeCell_run _

/-- As an object, a result that carries no handle is interned. -/
theorem convertResult_object_intern
    (c : Catalog)
    (cand : Candidate)
    (hcarried : Reference.carriedHandle? (w.store.payload o) = none)
    (htype : o.type ≠ .void) :
    cand.convertResult c .object o w =
      (.ok (.handle (w.heap.intern o).1), { w with heap := (w.heap.intern o).2 }) := by
  rw [convertResult, bind_run_ok (Action.payload_run o w), ← Reference.carriedHandle?, hcarried]
  obtain ⟨t, id⟩ := o
  cases t with
  | void =>
      exact absurd rfl htype
  | _ =>
      rfl

/-- A text is given to the host in either mode. -/
theorem exists_convertResult_text
    (cand : Candidate)
    (mode : ResultMode)
    {s : String}
    (htype : o.type = .text)
    (hpayload : w.store.payload o = .text s) :
    ∃ v w', cand.convertResult standardCatalog mode o w = (.ok v, w') := by
  cases mode with
  | simplest =>
      have hdepicts : w.store.Depicts o (.text s) := by
        rw [Store.Depicts, htype, hpayload]
        rfl
      exact ⟨_, _, cand.convertResult_of_depicts hdepicts⟩
  | object =>
      have hcarried : Reference.carriedHandle? (w.store.payload o) = none := by
        rw [hpayload]
        rfl
      refine ⟨_, _, convertResult_object_intern standardCatalog cand hcarried ?_⟩
      rw [htype]
      exact Ty.noConfusion

end Candidate
end CellBridge

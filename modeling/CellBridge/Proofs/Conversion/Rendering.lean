import CellBridge.Proofs.Conversion.Picture
import CellBridge.Proofs.Conversion.StandardWriters
import CellBridge.Proofs.Conversion.Writing

/-!
# Rendering by the standard rules

Every object without cycles is written as a sketch says that shows it (`shows_writeCell`).  The
induction is on the depth to which conversions are nested, and by cases on the type: scalars,
constants and carried cell values list nothing (`shows_view`), other objects list themselves
(`shows_boxed`), and collections are laid out in rows (`shows_grid`).
-/

namespace CellBridge

section Defs

namespace Store

/-- The action writes the object as some sketch says that shows it. -/
def Shows
    (s : Store)
    (act : Action Value)
    (o : Object) : Prop :=
  ∃ sk : Sketch Value, sk.Describes s act ∧ s.Sketched o sk

/-- The action writes the items as some sketch of a row says, wherever the row stands.  Under the
condition, the sketch does not fail. -/
def ShowsRow
    (s : Store)
    (act : Action (List Value))
    (items : List Object)
    (P : Prop) : Prop :=
  ∃ part : Nat → Sketch (List Value), ∀ r, (part r).Describes s act ∧
    s.RowSketched r items (part r) ∧ (P → ∃ give, (part r).result = .ok give)

end Store

end Defs

/-- A handle that an object carries comes out again. -/
theorem Reference.writeHandle_of_carried
    {o : Object}
    {w : World}
    {handle : Handle}
    (hcarried : Reference.carriedHandle? (w.store.payload o) = some handle) :
    Reference.writeHandle o w = (.ok (.handle handle), w) := by
  rw [Reference.writeHandle, bind_run_ok (Action.payload_run o w), hcarried]
  rfl

namespace Store

variable {s : Store} {o : Object}

section Single

/-- Writing what the payload shows, where this is no grid and no handle. -/
theorem shows_view
    (hflat : o.type.isBoxed = false)
    (hlayout : s.layout o = [])
    (e : BridgeError)
    (view : Payload → Option Value)
    (hplain : s.Untagged o → ∀ v, view (s.payload o) = some v →
      v.array? = none ∧ v.handle? = none)
    (hview : s.Suits o → (view (s.payload o)).isSome = true) :
    s.Shows (do Action.orFail e (view (← Action.payload o))) o := by
  have hrun : ∀ w : World, w.store = s →
      (do Action.orFail e (view (← Action.payload o)) : Action Value) w =
        Action.orFail e (view (s.payload o)) w := by
    rintro w rfl
    exact bind_run_ok (Action.payload_run o w)
  cases hv : view (s.payload o) with
  | none =>
      refine ⟨.fail e, Sketch.describes_fail fun w hw => ?_, sketched_fail e fun hsuits => ?_⟩
      · rw [hrun w hw, hv, Action.orFail_none_run]
      · have hsome := hview hsuits
        rw [hv] at hsome
        cases hsome
  | some v =>
      refine ⟨.of v, Sketch.describes_of fun w hw => ?_, sketched_of_nil rfl ?_ fun _ => ⟨_, rfl⟩⟩
      · rw [hrun w hw, hv, Action.orFail_some_run]
      · rintro huntagged give ⟨⟩
        exact ⟨hflat, hlayout, fun _ => hplain huntagged v hv⟩

/-- Writing a handle, of the object or as the object carries it. -/
theorem shows_boxed
    (h : o.type.isBoxed = true) :
    s.Shows (Reference.writeHandle o) o := by
  cases hcarried : Reference.carriedHandle? (s.payload o) with
  | none =>
      refine ⟨.handle o, Sketch.describes_handle ?_, sketched_handle h⟩
      rintro w rfl
      rw [Reference.writeHandle, bind_run_ok (Action.payload_run o w), hcarried]
      exact bind_run_ok (Action.intern_run o w)
  | some handle =>
      refine ⟨.of (.handle handle), Sketch.describes_of ?_,
        sketched_of_nil rfl ?_ fun _ => ⟨_, rfl⟩⟩
      · rintro w rfl
        exact Reference.writeHandle_of_carried hcarried
      · intro huntagged
        rw [Reference.carriedHandle?, huntagged] at hcarried
        cases hcarried

end Single

section Rows

variable {items : List Object} {P Q : Prop} {n : Nat}

theorem ShowsRow.imp
    {act : Action (List Value)}
    (h : s.ShowsRow act items P)
    (himp : Q → P) :
    s.ShowsRow act items Q := by
  obtain ⟨part, hpart⟩ := h
  refine ⟨part, fun r => ?_⟩
  obtain ⟨hdescribes, hsketched, hsucceeds⟩ := hpart r
  exact ⟨hdescribes, hsketched, fun hQ => hsucceeds (himp hQ)⟩

/-- Writing the items of a row one by one. -/
theorem showsRow_mapM
    {f : Object → Action Value}
    (h : ∀ x ∈ items, s.Shows (f x) x) :
    s.ShowsRow (items.mapM f) items (∀ x ∈ items, s.Throughout s.Suits x) := by
  obtain ⟨sks, hsks⟩ := exists_forall₂ h
  refine ⟨Sketch.row sks, fun r => ⟨?_, rowSketched_row (hsks.imp fun _ _ hsk => hsk.2) r, ?_⟩⟩
  · refine Sketch.describes_all (forall₂_mapIdx (hsks.imp ?_))
    intro x sk hsk c
    exact hsk.1.below (r, c)
  · intro hsuits
    refine Sketch.all_succeeds ?_
    intro sk hsk
    obtain ⟨c, hc, rfl⟩ := List.mem_mapIdx.1 hsk
    obtain ⟨x, hx, -, hsketched⟩ := exists_getElem?_of_forall₂ hsks (List.getElem?_eq_getElem hc)
    exact hsketched.succeeds (hsuits x (List.mem_of_getElem? hx))

variable {classes : Set ManagedClass}

/-- Items are written one by one, one level deeper. -/
theorem exists_writer
    (hclasses : DeterminedByName classes)
    (declared : Ty)
    (hwithin : ∀ x ∈ items, x.type.Within classes)
    (h : ∀ x ∈ items, ∃ m, n = m + 1 ∧ s.Shows (writeCell m x) x) :
    ∃ f : Object → Action Value, (∀ x ∈ items, s.Shows (f x) x) ∧
      Sequence.writeItems (standardCatalog.conversions n) declared items = items.mapM f := by
  cases items with
  | nil =>
      refine ⟨writeCell n, ?_, rfl⟩
      intro x hx
      cases hx
  | cons x xs =>
      obtain ⟨m, rfl, -⟩ := h x List.mem_cons_self
      refine ⟨writeCell m, ?_, writeItems_standard hclasses declared hwithin m⟩
      intro y hy
      obtain ⟨_, ⟨⟩, hshows⟩ := h y hy
      exact hshows

end Rows

section Grids

/-- Writing an object row by row. -/
theorem shows_grid
    {α : Type}
    {xs : List α}
    {f : α → Action (List Value)}
    {row : α → List Object}
    (hflat : o.type.isBoxed = false)
    (hlayout : s.layout o = xs.map row)
    (hrows : ∀ x ∈ xs, s.ShowsRow (f x) (row x) (s.Throughout s.Suits o)) :
    s.Shows (do return .array (Value.gridOfRows (← xs.mapM f))) o := by
  obtain ⟨parts, hparts⟩ := exists_forall₂ hrows
  refine ⟨.area parts, Sketch.Describes.map (Sketch.describes_all (forall₂_mapIdx ?_)) _,
    sketched_area hflat ?_ ?_⟩
  · exact hparts.imp fun _ _ hpart r => (hpart r).1
  · rw [hlayout, List.forall₂_map_left_iff]
    exact hparts.imp fun _ _ hpart r => (hpart r).2.1
  · intro hsuits part hpart r
    obtain ⟨x, -, hx⟩ := exists_of_mem_right hparts hpart
    exact (hx r).2.2 hsuits

/-- A row of cells is a grid of one row, and the blank grid if there are no cells. -/
theorem rowValue_eq
    (cells : List Value) :
    Sequence.rowValue cells = .array (Value.gridOfRows [cells]) := by
  cases cells <;> rfl

theorem columnValue_eq
    (cells : List Value) :
    Sequence.columnValue cells = .array (Value.gridOfRows (cells.map fun c => [c])) := by
  cases cells <;> rfl

/-- Writing an object as a row of its items. -/
theorem shows_row
    {items : List Object}
    {f : Object → Action Value}
    (hflat : o.type.isBoxed = false)
    (hlayout : s.layout o = [items])
    (h : ∀ x ∈ items, s.Shows (f x) x) :
    s.Shows (do return Sequence.rowValue (← items.mapM f)) o := by
  have hrow : items ∈ s.layout o := by
    simp [hlayout]
  have hrows : s.layout o = [()].map fun _ => items := hlayout
  have hgrid := shows_grid hflat hrows fun _ _ =>
    (showsRow_mapM h).imp fun hsuits _ hx => hsuits.of_layout hrow hx
  simpa [rowValue_eq] using hgrid

theorem mapM_singletons
    (f : Object → Action Value)
    (items : List Object) :
    (items.mapM fun x => (fun c => [c]) <$> f x) =
      (fun cells => cells.map fun c => [c]) <$> items.mapM f := by
  induction items with
  | nil =>
      rfl
  | cons x xs ih =>
      simp [ih]

/-- Writing an object as a column of its items. -/
theorem shows_column
    {items : List Object}
    {f : Object → Action Value}
    (hflat : o.type.isBoxed = false)
    (hlayout : s.layout o = items.map fun x => [x])
    (h : ∀ x ∈ items, s.Shows (f x) x) :
    s.Shows (do return Sequence.columnValue (← items.mapM f)) o := by
  have hrows : ∀ x ∈ items, s.ShowsRow ([x].mapM f) [x] (s.Throughout s.Suits o) := by
    intro x hx
    have hrow : [x] ∈ s.layout o := by
      simpa [hlayout] using hx
    have hitem : ∀ y ∈ [x], s.Shows (f y) y := by
      simpa using h x hx
    exact (showsRow_mapM hitem).imp fun hsuits _ hy => hsuits.of_layout hrow hy
  simpa [columnValue_eq, mapM_singletons] using shows_grid hflat hlayout hrows

end Grids

section Payloads

variable {α : Type} {what : String} {items? : Payload → Option (List Object)}

/-- Payloads of another kind are refused. -/
theorem describes_itemsOf_of_none
    {write : List Object → Action α}
    (hitems : (items? (s.payload o)).isSome = false) :
    (Sketch.fail (.conversion (o.type.display ++ " is not " ++ what))).Describes s
      (Sequence.itemsOf what items? o >>= write) := by
  refine Sketch.describes_fail ?_
  rintro w rfl
  refine bind_run_error ?_
  rw [Option.isSome_eq_false_iff, Option.isNone_iff_eq_none] at hitems
  rw [Sequence.itemsOf, bind_run_ok (Action.payload_run o w), hitems]
  rfl

theorem describes_itemsOf_of_some
    {write : List Object → Action α}
    {sk : Sketch α}
    (hview : Payload.Views items?)
    (hitems : (items? (s.payload o)).isSome = true)
    (hwrite : sk.Describes s (write (s.contents o.id))) :
    sk.Describes s (Sequence.itemsOf what items? o >>= write) := by
  obtain ⟨items, hsome⟩ := Option.isSome_iff_exists.1 hitems
  refine hwrite.congr ?_
  rintro w rfl
  rw [bind_run_ok (itemsOf_run hsome), contents_of_items? (hview _ _ hsome)]

/-- Writing the items of a payload of the right kind. -/
theorem shows_itemsOf
    {write : List Object → Action Value}
    (hview : Payload.Views items?)
    (hsome : s.Suits o → (items? (s.payload o)).isSome = true)
    (hwrite : s.Shows (write (s.contents o.id)) o) :
    s.Shows (Sequence.itemsOf what items? o >>= write) o := by
  cases hitems : (items? (s.payload o)).isSome with
  | false =>
      refine ⟨_, describes_itemsOf_of_none hitems, sketched_fail _ ?_⟩
      intro hsuits
      rw [hsome hsuits] at hitems
      cases hitems
  | true =>
      obtain ⟨sk, hdescribes, hsketched⟩ := hwrite
      exact ⟨sk, describes_itemsOf_of_some hview hitems hdescribes, hsketched⟩

/-- Writing the items of a row of an array of arrays. -/
theorem showsRow_itemsOf
    {P : Prop}
    {write : List Object → Action (List Value)}
    (hview : Payload.Views items?)
    (hsome : P → (items? (s.payload o)).isSome = true)
    (hwrite : s.ShowsRow (write (s.contents o.id)) (s.contents o.id) P) :
    s.ShowsRow (Sequence.itemsOf what items? o >>= write) (s.contents o.id) P := by
  cases hitems : (items? (s.payload o)).isSome with
  | false =>
      refine
        ⟨fun _ => .fail _, fun r => ⟨describes_itemsOf_of_none hitems, rowSketched_fail r _, ?_⟩⟩
      intro hP
      rw [hsome hP] at hitems
      cases hitems
  | true =>
      obtain ⟨part, hpart⟩ := hwrite
      refine ⟨part, fun r => ?_⟩
      obtain ⟨hdescribes, hrow⟩ := hpart r
      exact ⟨describes_itemsOf_of_some hview hitems hdescribes, hrow⟩

end Payloads

section Types

variable {n i : Nat} {classes : Set ManagedClass}

/-- Scalars are written as their content. -/
theorem shows_scalar
    {α : Type}
    (hflat : o.type.isBoxed = false)
    (hlayout : s.layout o = [])
    (e : BridgeError)
    (content? : Payload → Option α)
    (mk : α → Value)
    (hmk : ∀ a, (mk a).array? = none ∧ (mk a).handle? = none)
    (hcontent : ∀ p, o.type.Matches p → (content? p).isSome = true) :
    s.Shows (do Action.orFail e ((content? (← Action.payload o)).map mk)) o := by
  refine shows_view hflat hlayout e (fun p => (content? p).map mk) ?_ ?_
  · intro _ v hv
    obtain ⟨a, -, rfl⟩ := Option.map_eq_some_iff.1 hv
    exact hmk a
  · intro hsuits
    rw [Option.isSome_map]
    exact hcontent _ hsuits.payload

/-- Objects of classes are written as constants or as handles. -/
theorem shows_object
    (c : ManagedClass) :
    s.Shows (writeCell n ⟨.object c, i⟩) ⟨.object c, i⟩ := by
  cases henum : c.isSubclassOf .enumRoot with
  | true =>
      have hrule : writerRule (.object c) = Reference.enum := by
        rw [writerRule, henum, cond_true]
      have hflat : (Ty.object c).isBoxed = false := by
        rw [Ty.isBoxed, henum]
        rfl
      rw [writeCell, hrule]
      exact shows_scalar hflat rfl _ Payload.constant? (fun constant => .text constant.2)
        (fun _ => ⟨rfl, rfl⟩) fun p hp => hp henum
  | false =>
      have hrule : writerRule (.object c) = Reference.boxing := by
        rw [writerRule, henum, cond_false]
      rw [writeCell, hrule]
      refine shows_boxed ?_
      rw [Ty.isBoxed, henum]
      rfl

/-- The items of an object are written one level deeper. -/
def ItemsShown
    (s : Store)
    (n : Nat)
    (o : Object) : Prop :=
  ∀ x ∈ s.contents o.id, ∃ m, n = m + 1 ∧ s.Shows (writeCell m x) x

/-- Arrays that hold no arrays, and lists, are written as rows. -/
theorem shows_line
    (hclasses : DeterminedByName classes)
    {r : Rule}
    {what : String}
    {items? : Payload → Option (List Object)}
    (hrule : writerRule o.type = r)
    (htoCell : ∀ cx, r.toCell cx o = do
      let items ← Sequence.itemsOf what items? o
      return Sequence.rowValue (← Sequence.writeItems cx o.type.elementOrAny items))
    (hview : Payload.Views items?)
    (hmatches : ∀ p, o.type.Matches p → (items? p).isSome = true)
    (hflat : o.type.isBoxed = false)
    (hlayout : s.layout o = [s.contents o.id])
    (hwithin : s.Throughout (fun x => x.type.Within classes) o)
    (hitems : s.ItemsShown n o) :
    s.Shows (writeCell n o) o := by
  obtain ⟨f, hf, hwrite⟩ := exists_writer hclasses o.type.elementOrAny
    (fun x hx => (hwithin.of_has hx).self) hitems
  rw [writeCell, hrule, htoCell]
  refine shows_itemsOf hview (fun hsuits => hmatches _ hsuits.payload) ?_
  rw [hwrite]
  exact shows_row hflat hlayout hf

/-- Sets are written as columns. -/
theorem shows_set
    (hclasses : DeterminedByName classes)
    {e : Ty}
    (htype : o.type = .set e)
    (hwithin : s.Throughout (fun x => x.type.Within classes) o)
    (hitems : s.ItemsShown n o) :
    s.Shows (writeCell n o) o := by
  obtain ⟨f, hf, hwrite⟩ := exists_writer hclasses o.type.elementOrAny
    (fun x hx => (hwithin.of_has hx).self) hitems
  have hrule : writerRule o.type = Sequence.set := by
    rw [htype, writerRule]
  have hflat : o.type.isBoxed = false := by
    rw [htype]
    rfl
  have hlayout : s.layout o = (s.contents o.id).map fun x => [x] := by
    rw [layout, htype]
  have hset : s.Suits o → (s.payload o).set?.isSome = true := by
    intro hsuits
    have hpayload := hsuits.payload
    rwa [htype] at hpayload
  rw [writeCell, hrule]
  refine shows_itemsOf views_set hset ?_
  rw [hwrite]
  exact shows_column hflat hlayout hf

/-- Arrays of arrays are written row by row. -/
theorem shows_jagged
    (hclasses : DeterminedByName classes)
    {e : Ty}
    (htype : o.type = .array (.array e))
    (hwithin : s.Throughout (fun x => x.type.Within classes) o)
    (hitems : ∀ row ∈ s.contents o.id, s.ItemsShown n row) :
    s.Shows (writeCell n o) o := by
  have hrule : writerRule o.type = Sequence.jagged := by
    rw [htype, writerRule]
  have hflat : o.type.isBoxed = false := by
    rw [htype]
    rfl
  have hlayout : s.layout o = (s.contents o.id).map fun row => s.contents row.id := by
    rw [layout, htype]
  have harray : s.Suits o → (s.payload o).array?.isSome = true := by
    intro hsuits
    have hpayload := hsuits.payload
    rwa [htype] at hpayload
  rw [writeCell, hrule]
  refine shows_itemsOf views_array harray ?_
  dsimp only
  rw [Sequence.writeRows_eq_mapM]
  refine shows_grid hflat hlayout ?_
  intro row hrow
  obtain ⟨f, hf, hwrite⟩ := exists_writer hclasses o.type.elementOrAny.elementOrAny
    (fun x hx => ((hwithin.of_has hrow).of_has hx).self) (hitems row hrow)
  refine showsRow_itemsOf views_array ?_ ?_
  · -- a row that fits is an array
    intro hsuits
    have hfits := hsuits.self.items row hrow
    have hpayload := (hsuits.of_has hrow).self.payload
    rw [htype] at hfits
    obtain ⟨t, id⟩ := row
    cases t with
    | array e' =>
        exact hpayload
    | _ =>
        cases hfits
  · rw [hwrite]
    exact (showsRow_mapM hf).imp fun hsuits x hx => (hsuits.of_has hrow).of_has hx

/-- An object is shown if its items and those of its rows are. -/
theorem shows_writeCell_of_items
    (hclasses : DeterminedByName classes)
    (hwithin : s.Throughout (fun x => x.type.Within classes) o)
    (hitems : s.ItemsShown n o)
    (hrows : ∀ row ∈ s.contents o.id, s.ItemsShown n row) :
    s.Shows (writeCell n o) o := by
  obtain ⟨t, id⟩ := o
  cases t with
  | any =>
      exact shows_boxed rfl
  | void =>
      exact shows_scalar rfl rfl _ (fun _ => some ()) (fun _ => .empty) (fun _ => ⟨rfl, rfl⟩)
        fun _ _ => rfl
  | bool =>
      exact shows_scalar rfl rfl _ Payload.bool? .boolean (fun _ => ⟨rfl, rfl⟩) fun _ hp => hp
  | byte =>
      exact shows_scalar rfl rfl _ Payload.byte? (fun n => Scalar.integerValue n.toInt)
        (fun _ => ⟨rfl, rfl⟩) fun _ hp => hp
  | short =>
      exact shows_scalar rfl rfl _ Payload.short? (fun n => Scalar.integerValue n.toInt)
        (fun _ => ⟨rfl, rfl⟩) fun _ hp => hp
  | int =>
      exact shows_scalar rfl rfl _ Payload.int? (fun n => Scalar.integerValue n.toInt)
        (fun _ => ⟨rfl, rfl⟩) fun _ hp => hp
  | long =>
      exact shows_scalar rfl rfl _ Payload.long? (fun n => Scalar.integerValue n.toInt)
        (fun _ => ⟨rfl, rfl⟩) fun _ hp => hp
  | double =>
      exact shows_scalar rfl rfl _ Payload.double? .number (fun _ => ⟨rfl, rfl⟩) fun _ hp => hp
  | text =>
      exact shows_scalar rfl rfl _ Payload.text? .text (fun _ => ⟨rfl, rfl⟩) fun _ hp => hp
  | tagged =>
      refine shows_view rfl rfl _ Payload.tagged? ?_ Suits.payload
      intro huntagged v hv
      rw [huntagged] at hv
      cases hv
  | array e =>
      cases e with
      | array e =>
          exact shows_jagged hclasses rfl hwithin hrows
      | _ =>
          exact shows_line hclasses rfl (fun _ => rfl) views_array (fun _ hp => hp) rfl rfl hwithin
            hitems
  | list e =>
      exact shows_line hclasses rfl (fun _ => rfl) views_list (fun _ hp => hp) rfl rfl hwithin
        hitems
  | set e =>
      exact shows_set hclasses rfl hwithin hitems
  | object c =>
      exact shows_object c

/-- Every object that is nested no deeper than conversions are is shown. -/
theorem shows_writeCell
    (hclasses : DeterminedByName classes)
    (hshallow : s.Shallow n o.id)
    (hwithin : s.Throughout (fun x => x.type.Within classes) o) :
    s.Shows (writeCell n o) o := by
  induction n generalizing o with
  | zero =>
      have hnone : ∀ x, x ∉ s.contents o.id := fun x hx => hshallow x.id ⟨x, hx, rfl⟩
      exact shows_writeCell_of_items hclasses hwithin (fun x hx => absurd hx (hnone x))
        fun x hx => absurd hx (hnone x)
  | succ n ih =>
      refine shows_writeCell_of_items hclasses hwithin ?_ ?_
      · intro x hx
        exact ⟨n, rfl, ih (hshallow x.id ⟨x, hx, rfl⟩) (hwithin.of_has hx)⟩
      · intro row hrow x hx
        -- what a row holds is nested less deep still
        obtain ⟨m, rfl, hm⟩ := (hshallow row.id ⟨row, hrow, rfl⟩).of_mem hx
        exact ⟨m + 1, rfl, ih hm.succ ((hwithin.of_has hrow).of_has hx)⟩

end Types

/-- What is shown and suits its tags is written without a failure, and only the heap changes. -/
theorem Shows.run_ok
    {w : World}
    {act : Action Value}
    (h : w.store.Shows act o)
    (hsuits : w.store.Throughout w.store.Suits o) :
    ∃ v heap, act w = (.ok v, { w with heap := heap }) := by
  obtain ⟨sk, hdescribes, hsketched⟩ := h
  obtain ⟨give, hgive⟩ := hsketched.succeeds hsuits
  refine ⟨give (w.heap.internAll sk.objects).handleOf, w.heap.internAll sk.objects, ?_⟩
  rw [hdescribes.run w rfl, Sketch.run, Sketch.answer, hgive]

end Store

/-- A bridge with the standard rules shows every object without cycles. -/
theorem Bridge.shows_toCell
    {b : Bridge}
    (hb : b.catalog = standardCatalog)
    {classes : Set ManagedClass}
    (hclasses : DeterminedByName classes)
    {s : Store}
    {o : Object}
    (hacyclic : s.AcyclicFrom o)
    (hwithin : s.Throughout (fun x => x.type.Within classes) o) :
    s.Shows (b.toCell o) o := by
  obtain ⟨sk, hdescribes, hsketched⟩ :=
    Store.shows_writeCell hclasses (Store.shallow_of_free hacyclic).succ hwithin
  refine ⟨sk, hdescribes.congr ?_, hsketched⟩
  rintro w rfl
  rw [toCell_standard hb, hdescribes.guarded_run _ rfl]

end CellBridge

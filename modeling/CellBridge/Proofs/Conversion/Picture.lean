import CellBridge.Proofs.Conversion.Elements
import CellBridge.Proofs.Conversion.Sketch
import CellBridge.Proofs.Managed.Nesting

/-!
# Sketches that show an object

A sketch shows an object if what it lists stands where it says and in reading order, and if the
value that it gives has handles exactly there (`Store.Sketched`).

The items of a collection are laid out in rows.  `RowSketched` is the same for a row of items, with
the number of the row.  Sketches of items make up one of a row (`rowSketched_row`), and sketches of
rows one of the whole collection (`sketched_area`).
-/

namespace CellBridge

section Defs

/-- The sketch of a row, from sketches of its cells. -/
def Sketch.row
    (sks : List (Sketch Value))
    (r : Nat) : Sketch (List Value) :=
  .all (sks.mapIdx fun c sk => sk.below (r, c))

/-- The sketch of a grid, from sketches of its rows, which are told their numbers. -/
def Sketch.area
    (parts : List (Nat → Sketch (List Value))) : Sketch Value :=
  (Sketch.all (parts.mapIdx fun r part => part r)).map fun rows => .array (Value.gridOfRows rows)

/-- Are objects of the type written as handles? -/
def Ty.isBoxed : Ty → Bool
  | .any => true
  | .object c => !c.isSubclassOf .enumRoot
  | _ => false

namespace Store

/-- Does the object carry no cell value? -/
def Untagged
    (s : Store)
    (o : Object) : Prop :=
  (s.payload o).tagged? = none

/-- The sketch lists elements of the object, in reading order.  If no cell values are carried and
the sketch does not fail, it lists all elements that are written as handles, and the cells with
handles are exactly theirs.  If everything suits its tag, the sketch does not fail. -/
structure Sketched
    (s : Store)
    (o : Object)
    (sk : Sketch Value) : Prop where
  placed : ∀ e ∈ sk.shown, s.elementAt? o e.1 = some e.2
  boxed : ∀ e ∈ sk.shown, e.2.type.isBoxed = true
  ordered : sk.shown.Pairwise fun a b => Position.Before a.1 b.1
  complete : s.Throughout s.Untagged o → ∀ give, sk.result = .ok give → ∀ p x,
    s.elementAt? o p = some x → x.type.isBoxed = true → (p, x) ∈ sk.shown
  handles : s.Throughout s.Untagged o → ∀ give, sk.result = .ok give → ∀ f p k,
    (give f).cellAt? p = some (.handle k) ↔ ∃ x, (p, x) ∈ sk.shown ∧ f x = k
  succeeds : s.Throughout s.Suits o → ∃ give, sk.result = .ok give

/-- The same for the cells of a row, whose number the positions start with. -/
structure RowSketched
    (s : Store)
    (r : Nat)
    (items : List Object)
    (sk : Sketch (List Value)) : Prop where
  placed : ∀ e ∈ sk.shown, ∃ c x p,
    items[c]? = some x ∧ e.1 = (r, c) :: p ∧ s.elementAt? x p = some e.2
  boxed : ∀ e ∈ sk.shown, e.2.type.isBoxed = true
  ordered : sk.shown.Pairwise fun a b => Position.Before a.1 b.1
  complete : (∀ x ∈ items, s.Throughout s.Untagged x) → ∀ give, sk.result = .ok give →
    ∀ c x p y, items[c]? = some x → s.elementAt? x p = some y → y.type.isBoxed = true →
      ((r, c) :: p, y) ∈ sk.shown
  handles : (∀ x ∈ items, s.Throughout s.Untagged x) → ∀ give, sk.result = .ok give → ∀ f c p k,
    ((give f)[c]?.bind fun cell => cell.cellAt? p) = some (.handle k) ↔
      ∃ x, ((r, c) :: p, x) ∈ sk.shown ∧ f x = k

end Store

end Defs

namespace Store

variable {s : Store} {o : Object}

section Single

/-- An object that is not laid out has no elements but itself. -/
theorem eq_of_elementAt?
    (hlayout : s.layout o = [])
    {p : Position}
    {x : Object}
    (h : s.elementAt? o p = some x) :
    p = [] ∧ x = o := by
  cases p with
  | nil =>
      cases h
      exact ⟨rfl, rfl⟩
  | cons rc p =>
      simp [elementAt?, hlayout] at h

theorem layout_of_isBoxed
    (h : o.type.isBoxed = true) :
    s.layout o = [] := by
  obtain ⟨t, id⟩ := o
  cases t <;> first
    | rfl
    | cases h

/-- A sketch that lists nothing shows the object, if its value is a single cell without a handle. -/
theorem sketched_of_nil
    {sk : Sketch Value}
    (hshown : sk.shown = [])
    (hplain : s.Untagged o → ∀ give, sk.result = .ok give →
      o.type.isBoxed = false ∧ s.layout o = [] ∧
        ∀ f, (give f).array? = none ∧ (give f).handle? = none)
    (hsucceeds : s.Suits o → ∃ give, sk.result = .ok give) :
    s.Sketched o sk := by
  refine ⟨?_, ?_, ?_, ?_, ?_, fun h => hsucceeds h.self⟩
  · simp [hshown]
  · simp [hshown]
  · simp [hshown]
  · intro huntagged give hgive p x hx hboxed
    obtain ⟨hflat, hlayout, -⟩ := hplain huntagged.self give hgive
    obtain ⟨-, rfl⟩ := eq_of_elementAt? hlayout hx
    rw [hflat] at hboxed
    cases hboxed
  · intro huntagged give hgive f p k
    obtain ⟨-, -, hcell⟩ := hplain huntagged.self give hgive
    simp [hshown, cellAt?_ne_handle (hcell f).1 (hcell f).2]

theorem sketched_fail
    (e : BridgeError)
    (h : ¬ s.Suits o) :
    s.Sketched o (.fail e) := by
  refine sketched_of_nil rfl ?_ fun hsuits => absurd hsuits h
  rintro - give ⟨⟩

theorem sketched_handle
    (h : o.type.isBoxed = true) :
    s.Sketched o (.handle o) := by
  refine ⟨?_, ?_, ?_, ?_, ?_, fun _ => ⟨_, rfl⟩⟩
  · simp [Sketch.handle, elementAt?]
  · simpa [Sketch.handle] using h
  · simp [Sketch.handle]
  · rintro - give - p x hx -
    obtain ⟨rfl, rfl⟩ := eq_of_elementAt? (layout_of_isBoxed h) hx
    exact List.mem_singleton.2 rfl
  · rintro - give ⟨⟩ f p k
    simp [Sketch.handle, cellAt?_handle]

end Single

section Rows

variable {items : List Object} {sks : List (Sketch Value)}

theorem rowSketched_fail
    (r : Nat)
    (e : BridgeError) :
    s.RowSketched r items (.fail e) := by
  refine ⟨?_, ?_, ?_, ?_, ?_⟩
  · simp [Sketch.fail]
  · simp [Sketch.fail]
  · simp [Sketch.fail]
  · rintro - give ⟨⟩
  · rintro - give ⟨⟩

/-- What the cells of a row list, with their columns. -/
theorem mem_shown_row
    {r : Nat}
    {e : Position × Object} :
    e ∈ (sks.mapIdx fun c sk => sk.below (r, c)).flatMap Sketch.shown ↔
      ∃ c sk p, sks[c]? = some sk ∧ (p, e.2) ∈ sk.shown ∧ e.1 = (r, c) :: p := by
  constructor
  · intro he
    obtain ⟨sk, hsk, he⟩ := List.mem_flatMap.1 he
    obtain ⟨c, hc, rfl⟩ := List.mem_mapIdx.1 hsk
    obtain ⟨⟨p, x⟩, hp, rfl⟩ := List.mem_map.1 he
    exact ⟨c, sks[c], p, List.getElem?_eq_getElem hc, hp, rfl⟩
  · rintro ⟨c, sk, p, hsk, hp, heq⟩
    refine List.mem_flatMap.2 ⟨sk.below (r, c), ?_, List.mem_map.2 ⟨_, hp, Prod.ext heq.symm rfl⟩⟩
    refine List.mem_of_getElem? (i := c) ?_
    rw [List.getElem?_mapIdx, hsk, Option.map_some]

/-- What a cell lists comes before what later cells list. -/
theorem pairwise_shown_row
    (h : List.Forall₂ s.Sketched items sks)
    (r : Nat) :
    (Sketch.row sks r).shown.Pairwise fun a b => Position.Before a.1 b.1 := by
  refine (List.pairwise_flatMap.2 ⟨?_, List.pairwise_iff_getElem.2 ?_⟩).sublist
    (Sketch.sublist_shown_all _)
  · intro sk hsk
    obtain ⟨c, hc, rfl⟩ := List.mem_mapIdx.1 hsk
    obtain ⟨x, -, hsketched⟩ := exists_getElem?_of_forall₂ h (List.getElem?_eq_getElem hc)
    exact List.pairwise_map.2 (hsketched.ordered.imp Position.Before.below)
  · intro c c' hc hc' hlt e he e' he'
    rw [List.getElem_mapIdx] at he he'
    obtain ⟨e, -, rfl⟩ := List.mem_map.1 he
    obtain ⟨e', -, rfl⟩ := List.mem_map.1 he'
    exact Position.before_of_column hlt

/-- A row has handles where its cells have them. -/
theorem cellAt?_row
    (h : List.Forall₂ s.Sketched items sks)
    (huntagged : ∀ x ∈ items, s.Throughout s.Untagged x)
    {r : Nat}
    {give : (Object → Handle) → List Value}
    (hgive : (Sketch.row sks r).result = .ok give)
    (f : Object → Handle)
    (c : Nat)
    (p : Position)
    (k : Handle) :
    ((give f)[c]?.bind fun cell => cell.cellAt? p) = some (.handle k) ↔
      ∃ x, ((r, c) :: p, x) ∈ (Sketch.row sks r).shown ∧ f x = k := by
  obtain ⟨hshown, gives, hgives, heq⟩ := Sketch.all_ok hgive
  rw [heq f, Sketch.row, hshown, List.getElem?_map]
  simp only [mem_shown_row]
  constructor
  · intro hcell
    obtain ⟨_, hcell', hhandle⟩ := Option.bind_eq_some_iff.1 hcell
    obtain ⟨give', hgive', rfl⟩ := Option.map_eq_some_iff.1 hcell'
    obtain ⟨_, hbelow, hresult⟩ := exists_getElem?_of_forall₂ hgives hgive'
    rw [List.getElem?_mapIdx] at hbelow
    obtain ⟨sk, hsk, rfl⟩ := Option.map_eq_some_iff.1 hbelow
    obtain ⟨item, hitem, hsketched⟩ := exists_getElem?_of_forall₂ h hsk
    obtain ⟨x, hx, hk⟩ := (hsketched.handles (huntagged item (List.mem_of_getElem? hitem)) give'
      hresult f p k).1 hhandle
    exact ⟨x, ⟨c, sk, p, hsk, hx, rfl⟩, hk⟩
  · rintro ⟨x, ⟨_, sk, _, hsk, hx, hposition⟩, hk⟩
    cases hposition
    have hbelow : (sks.mapIdx fun c sk => sk.below (r, c))[c]? = some (sk.below (r, c)) := by
      rw [List.getElem?_mapIdx, hsk, Option.map_some]
    obtain ⟨give', hgive', hresult⟩ := exists_getElem?_of_forall₂ hgives.flip hbelow
    obtain ⟨item, hitem, hsketched⟩ := exists_getElem?_of_forall₂ h hsk
    rw [hgive', Option.map_some, Option.bind_some]
    exact (hsketched.handles (huntagged item (List.mem_of_getElem? hitem)) give' hresult f p
      k).2 ⟨x, hx, hk⟩

/-- A row lists what its cells list. -/
theorem complete_row
    (h : List.Forall₂ s.Sketched items sks)
    (huntagged : ∀ x ∈ items, s.Throughout s.Untagged x)
    {r : Nat}
    {give : (Object → Handle) → List Value}
    (hgive : (Sketch.row sks r).result = .ok give)
    {c : Nat}
    {x y : Object}
    {p : Position}
    (hx : items[c]? = some x)
    (hy : s.elementAt? x p = some y)
    (hboxed : y.type.isBoxed = true) :
    ((r, c) :: p, y) ∈ (Sketch.row sks r).shown := by
  obtain ⟨hshown, gives, hgives, -⟩ := Sketch.all_ok hgive
  obtain ⟨sk, hsk, hsketched⟩ := exists_getElem?_of_forall₂ h.flip hx
  have hbelow : (sks.mapIdx fun c sk => sk.below (r, c))[c]? = some (sk.below (r, c)) := by
    rw [List.getElem?_mapIdx, hsk, Option.map_some]
  obtain ⟨give', -, hresult⟩ := exists_getElem?_of_forall₂ hgives.flip hbelow
  rw [Sketch.row, hshown]
  exact mem_shown_row.2 ⟨c, sk, p, hsk, hsketched.complete (huntagged x (List.mem_of_getElem? hx))
    give' hresult p y hy hboxed, rfl⟩

/-- Sketches of the items of a row make up a sketch of the row. -/
theorem rowSketched_row
    (h : List.Forall₂ s.Sketched items sks)
    (r : Nat) :
    s.RowSketched r items (.row sks r) := by
  have hsublist : (Sketch.row sks r).shown.Sublist
      ((sks.mapIdx fun c sk => sk.below (r, c)).flatMap Sketch.shown) :=
    Sketch.sublist_shown_all _
  refine ⟨?_, ?_, pairwise_shown_row h r, ?_, ?_⟩
  · intro e he
    obtain ⟨c, sk, p, hsk, hp, heq⟩ := mem_shown_row.1 (hsublist.subset he)
    obtain ⟨x, hx, hsketched⟩ := exists_getElem?_of_forall₂ h hsk
    exact ⟨c, x, p, hx, heq, hsketched.placed _ hp⟩
  · intro e he
    obtain ⟨c, sk, p, hsk, hp, -⟩ := mem_shown_row.1 (hsublist.subset he)
    obtain ⟨x, -, hsketched⟩ := exists_getElem?_of_forall₂ h hsk
    exact hsketched.boxed (p, e.2) hp
  · intro huntagged give hgive c x p y hx hy hboxed
    exact complete_row h huntagged hgive hx hy hboxed
  · intro huntagged give hgive f c p k
    exact cellAt?_row h huntagged hgive f c p k

end Rows

section Areas

variable {parts : List (Nat → Sketch (List Value))}

/-- What is in the rows of an object is in the object. -/
theorem Throughout.of_layout
    {P : Object → Prop}
    (h : s.Throughout P o)
    {row : List Object}
    (hrow : row ∈ s.layout o)
    {x : Object}
    (hx : x ∈ row) :
    s.Throughout P x := by
  rw [layout] at hrow
  split at hrow
  · obtain ⟨y, hy, rfl⟩ := List.mem_map.1 hrow
    exact (h.of_has hy).of_has hx
  · cases List.mem_singleton.1 hrow
    exact h.of_has hx
  · cases List.mem_singleton.1 hrow
    exact h.of_has hx
  · obtain ⟨y, hy, rfl⟩ := List.mem_map.1 hrow
    cases List.mem_singleton.1 hx
    exact h.of_has hy
  · cases hrow

/-- What the rows of a grid list. -/
theorem mem_shown_area
    {e : Position × Object} :
    e ∈ (parts.mapIdx fun r part => part r).flatMap Sketch.shown ↔
      ∃ (r : Nat) (part : Nat → Sketch (List Value)),
        parts[r]? = some part ∧ e ∈ (part r).shown := by
  constructor
  · intro he
    obtain ⟨sk, hsk, he⟩ := List.mem_flatMap.1 he
    obtain ⟨r, hr, rfl⟩ := List.mem_mapIdx.1 hsk
    exact ⟨r, parts[r], List.getElem?_eq_getElem hr, he⟩
  · rintro ⟨r, part, hpart, he⟩
    refine List.mem_flatMap.2 ⟨part r, List.mem_of_getElem? (i := r) ?_, he⟩
    rw [List.getElem?_mapIdx, hpart, Option.map_some]

theorem sublist_shown_area
    (parts : List (Nat → Sketch (List Value))) :
    (Sketch.area parts).shown.Sublist
      ((parts.mapIdx fun r part => part r).flatMap Sketch.shown) := by
  rw [Sketch.area, Sketch.shown_map]
  exact Sketch.sublist_shown_all _

variable {rows : List (List Object)}

/-- What a row lists comes before what later rows list. -/
theorem pairwise_shown_area
    (h : List.Forall₂ (fun row part => ∀ r, s.RowSketched r row (part r)) rows parts) :
    (Sketch.area parts).shown.Pairwise fun a b => Position.Before a.1 b.1 := by
  refine (List.pairwise_flatMap.2 ⟨?_, List.pairwise_iff_getElem.2 ?_⟩).sublist
    (sublist_shown_area parts)
  · intro sk hsk
    obtain ⟨r, hr, rfl⟩ := List.mem_mapIdx.1 hsk
    obtain ⟨row, -, hrow⟩ := exists_getElem?_of_forall₂ h (List.getElem?_eq_getElem hr)
    exact (hrow r).ordered
  · intro r r' hr hr' hlt e he e' he'
    rw [List.length_mapIdx] at hr hr'
    rw [List.getElem_mapIdx] at he he'
    obtain ⟨row, -, hrow⟩ := exists_getElem?_of_forall₂ h (List.getElem?_eq_getElem hr)
    obtain ⟨row', -, hrow'⟩ := exists_getElem?_of_forall₂ h (List.getElem?_eq_getElem hr')
    obtain ⟨c, x, p, -, heq, -⟩ := (hrow r).placed e he
    obtain ⟨c', x', p', -, heq', -⟩ := (hrow' r').placed e' he'
    rw [heq, heq']
    exact Position.before_of_row hlt

/-- A grid has handles where its rows have them. -/
theorem cellAt?_area
    (h : List.Forall₂ (fun row part => ∀ r, s.RowSketched r row (part r)) rows parts)
    (huntagged : ∀ row ∈ rows, ∀ x ∈ row, s.Throughout s.Untagged x)
    {give : (Object → Handle) → Value}
    (hgive : (Sketch.area parts).result = .ok give)
    (f : Object → Handle)
    (p : Position)
    (k : Handle) :
    (give f).cellAt? p = some (.handle k) ↔
      ∃ x, (p, x) ∈ (Sketch.area parts).shown ∧ f x = k := by
  obtain ⟨cells, hcells, rfl⟩ := Sketch.result_map_eq_ok.1 hgive
  obtain ⟨hshown, gives, hgives, heq⟩ := Sketch.all_ok hcells
  rw [Sketch.area, Sketch.shown_map, hshown]
  simp only [mem_shown_area, heq]
  constructor
  · intro hcell
    cases p with
    | nil =>
        cases hcell
    | cons rc p =>
        rw [cellAt?_gridOfRows, List.getElem?_map] at hcell
        obtain ⟨cell, hcell, hhandle⟩ := Option.bind_eq_some_iff.1 hcell
        obtain ⟨_, hgiven, hcell⟩ := Option.bind_eq_some_iff.1 hcell
        obtain ⟨give', hgive', rfl⟩ := Option.map_eq_some_iff.1 hgiven
        obtain ⟨_, hnumbered, hresult⟩ := exists_getElem?_of_forall₂ hgives hgive'
        rw [List.getElem?_mapIdx] at hnumbered
        obtain ⟨part, hpart, rfl⟩ := Option.map_eq_some_iff.1 hnumbered
        obtain ⟨row, hrow, hsketched⟩ := exists_getElem?_of_forall₂ h hpart
        have hfound : ((give' f)[rc.2]?.bind fun cell => cell.cellAt? p) = some (.handle k) := by
          rw [hcell]
          exact hhandle
        obtain ⟨x, hx, hk⟩ := ((hsketched rc.1).handles
          (huntagged row (List.mem_of_getElem? hrow)) give' hresult f rc.2 p k).1 hfound
        exact ⟨x, ⟨rc.1, part, hpart, hx⟩, hk⟩
  · rintro ⟨x, ⟨r, part, hpart, hx⟩, hk⟩
    obtain ⟨row, hrow, hsketched⟩ := exists_getElem?_of_forall₂ h hpart
    obtain ⟨c, y, p, -, hposition, -⟩ := (hsketched r).placed _ hx
    obtain rfl : _ = (r, c) :: p := hposition
    have hnumbered : (parts.mapIdx fun r part => part r)[r]? = some (part r) := by
      rw [List.getElem?_mapIdx, hpart, Option.map_some]
    obtain ⟨give', hgive', hresult⟩ := exists_getElem?_of_forall₂ hgives.flip hnumbered
    rw [cellAt?_gridOfRows, List.getElem?_map, hgive', Option.map_some, Option.bind_some]
    exact ((hsketched r).handles (huntagged row (List.mem_of_getElem? hrow)) give' hresult f c p
      k).2 ⟨x, hx, hk⟩

/-- A grid lists what its rows list. -/
theorem complete_area
    (h : List.Forall₂ (fun row part => ∀ r, s.RowSketched r row (part r)) rows parts)
    (huntagged : ∀ row ∈ rows, ∀ x ∈ row, s.Throughout s.Untagged x)
    {give : (Object → Handle) → Value}
    (hgive : (Sketch.area parts).result = .ok give)
    {r c : Nat}
    {row : List Object}
    {x y : Object}
    {p : Position}
    (hrow : rows[r]? = some row)
    (hx : row[c]? = some x)
    (hy : s.elementAt? x p = some y)
    (hboxed : y.type.isBoxed = true) :
    ((r, c) :: p, y) ∈ (Sketch.area parts).shown := by
  obtain ⟨cells, hcells, -⟩ := Sketch.result_map_eq_ok.1 hgive
  obtain ⟨hshown, gives, hgives, -⟩ := Sketch.all_ok hcells
  obtain ⟨part, hpart, hsketched⟩ := exists_getElem?_of_forall₂ h.flip hrow
  have hnumbered : (parts.mapIdx fun r part => part r)[r]? = some (part r) := by
    rw [List.getElem?_mapIdx, hpart, Option.map_some]
  obtain ⟨give', -, hresult⟩ := exists_getElem?_of_forall₂ hgives.flip hnumbered
  rw [Sketch.area, Sketch.shown_map, hshown]
  exact mem_shown_area.2 ⟨r, part, hpart, (hsketched r).complete
    (huntagged row (List.mem_of_getElem? hrow)) give' hresult c x p y hx hy hboxed⟩

/-- Sketches of the rows of an object make up a sketch of the object. -/
theorem sketched_area
    (hflat : o.type.isBoxed = false)
    (h : List.Forall₂ (fun row part => ∀ r, s.RowSketched r row (part r)) (s.layout o) parts)
    (hsucceeds : s.Throughout s.Suits o → ∀ part ∈ parts, ∀ r, ∃ give,
      (part r).result = .ok give) :
    s.Sketched o (.area parts) := by
  refine ⟨?_, ?_, pairwise_shown_area h, ?_, ?_, ?_⟩
  · intro e he
    obtain ⟨r, part, hpart, he⟩ := mem_shown_area.1 ((sublist_shown_area parts).subset he)
    obtain ⟨row, hrow, hsketched⟩ := exists_getElem?_of_forall₂ h hpart
    obtain ⟨c, x, p, hx, heq, hplaced⟩ := (hsketched r).placed e he
    simp [heq, elementAt?, hrow, hx, hplaced]
  · intro e he
    obtain ⟨r, part, hpart, he⟩ := mem_shown_area.1 ((sublist_shown_area parts).subset he)
    obtain ⟨row, -, hsketched⟩ := exists_getElem?_of_forall₂ h hpart
    exact (hsketched r).boxed e he
  · intro huntagged give hgive p y hy hboxed
    cases p with
    | nil =>
        cases hy
        rw [hflat] at hboxed
        cases hboxed
    | cons rc p =>
        obtain ⟨x, hx, hy⟩ := Option.bind_eq_some_iff.1 hy
        obtain ⟨row, hrow, hx⟩ := Option.bind_eq_some_iff.1 hx
        exact complete_area h (fun _ hrow _ hx => huntagged.of_layout hrow hx) hgive hrow hx hy
          hboxed
  · intro huntagged give hgive f p k
    exact cellAt?_area h (fun _ hrow _ hx => huntagged.of_layout hrow hx) hgive f p k
  · intro hsuits
    have hparts : ∀ sk ∈ parts.mapIdx fun r part => part r, ∃ give, sk.result = .ok give := by
      intro sk hsk
      obtain ⟨r, hr, rfl⟩ := List.mem_mapIdx.1 hsk
      exact hsucceeds hsuits parts[r] (List.getElem_mem hr) r
    obtain ⟨cells, hcells⟩ := Sketch.all_succeeds hparts
    exact ⟨_, Sketch.result_map_eq_ok.2 ⟨cells, hcells, rfl⟩⟩

end Areas

end Store
end CellBridge

import CellBridge.Proofs.Conversion.Layout
import CellBridge.Proofs.Conversion.TypeSoundness
import Mathlib.Data.List.TakeWhile

/-!
# Stale handles are refused

A value is `Stale` if a handle in it, at whatever depth, is unknown to the heap.  Wherever no cell
value is handed through as it is, the standard rules refuse such a value: reading it fails, and
adds payloads at most.

Each rule `Refuses` under the assumption that the conversions which it calls do, and the assumption
is discharged by induction on the depth of the value.  A rule that skipped a cell would let its
handle through; `mem_of_line?` and `mem_trimRow_of_full` say that no cell but a blank is skipped,
as long as grids are made from rows.
-/

namespace CellBridge

section Defs

/-- Is a cell value handed through as it is, at some depth, where the type is wanted? -/
def Ty.handsThrough : Ty → Bool
  | .tagged => true
  | .array e => e.handsThrough
  | .list e => e.handsThrough
  | .set e => e.handsThrough
  | _ => false

/-- All grids in the value are made from rows. -/
inductive Value.Regular : Value → Prop
  | plain
      {v : Value}
      (hv : v.array? = none) :
      Regular v
  | grid
      {rows : List (List Value)}
      (hrows : ∀ row ∈ rows, ∀ c ∈ row, Regular c) :
      Regular (.array (gridOfRows rows))

/-- The heap does not know some handle in the value. -/
def Value.Stale
    (heap : Heap)
    (v : Value) : Prop :=
  ∃ h, v.Mentions h ∧ heap.resolve? h = none

/-- The action fails, and adds payloads at most. -/
def Action.Refuses
    {α : Type}
    (act : Action α)
    (w : World) : Prop :=
  Ends World.Adds act w fun _ _ => False

/-- The readers refuse stale values that are nested less than `d` deep. -/
def Conversions.Refuses
    (cx : Conversions)
    (d : Nat) : Prop :=
  ∀ s t reader, cx.reader? s t = some reader → t.handsThrough = false →
    ∀ (v : Value) (w : World), v.shape = s → v.depth < d → v.Regular → v.Stale w.heap →
      (reader t v).Refuses w

/-- The rule refuses stale values, if the conversions that it calls do. -/
def Rule.Refuses
    (r : Rule) : Prop :=
  ∀ (cx : Conversions) (expected : Ty) (v : Value) (w : World),
    cx.Refuses v.depth → cx.ReadsTyped (fun _ => True) v.depth →
      r.reads v.shape expected = true → expected.handsThrough = false → v.Regular →
        v.Stale w.heap → (r.toManaged cx expected v).Refuses w

end Defs

section Values

namespace Value

variable {heap : Heap} {v : Value}

/-- A stale value is a handle that the heap does not know, or it has a stale cell. -/
theorem Stale.cases
    (hv : v.Stale heap) :
    (∃ h, v = .handle h ∧ heap.resolve? h = none) ∨ ∃ c, v.HasCell c ∧ c.Stale heap := by
  obtain ⟨h, hmentions, hnone⟩ := hv
  cases hmentions with
  | here =>
      exact Or.inl ⟨h, rfl, hnone⟩
  | @cell _ c hcell hc =>
      exact Or.inr ⟨c, hcell, h, hc, hnone⟩

theorem Stale.shape
    (hv : v.Stale heap) :
    v.shape = .handle ∨ v.shape = .array := by
  rcases hv.cases with ⟨h, rfl, -⟩ | ⟨c, ⟨g, rfl, -⟩, -⟩
  · exact Or.inl rfl
  · exact Or.inr rfl

theorem Stale.isEmpty
    (hv : v.Stale heap) :
    v.isEmpty = false := by
  rcases hv.shape with hshape | hshape <;> cases v <;> cases hshape <;> rfl

theorem Regular.cell
    (hv : v.Regular)
    {c : Value}
    (hc : v.HasCell c) :
    c.Regular := by
  obtain ⟨g, rfl, row, hrow, hmem⟩ := hc
  cases hv with
  | plain hplain =>
      cases hplain
  | grid hrows =>
      rcases mem_gridOfRows hrow hmem with rfl | ⟨r, hr, hcr⟩
      · exact .plain rfl
      · exact hrows r hr c hcr

end Value

end Values

section Coverage

variable {rows : List (List Value)} {row cells : List Value} {c : Value}

/-- A line has all cells of its grid. -/
theorem mem_of_line?
    (hline : (Value.gridOfRows rows).line? = some cells)
    (hrow : row ∈ (Value.gridOfRows rows).rows)
    (hc : c ∈ row) :
    c ∈ cells := by
  have hwidth : row.length = (Value.gridOfRows rows).width :=
    Grid.length_of_mem_ofRows Value.empty hrow
  have horientation := orientation_gridOfRows rows
  rw [Grid.line?] at hline
  rw [Orientation.ofSize] at horientation
  split_ifs at horientation with hone hnarrow
  · rw [horientation] at hline
    obtain ⟨only, honly⟩ := List.length_eq_one_iff.1 hone
    rw [honly] at hline hrow
    cases hline
    rwa [List.mem_singleton.1 hrow] at hc
  · rw [horientation] at hline
    cases hline
    obtain ⟨c', rfl⟩ : ∃ c', row = [c'] := by
      refine List.length_eq_one_iff.1 ?_
      have := List.length_pos_of_mem hc
      omega
    exact List.mem_filterMap.2 ⟨[c'], hrow, by rw [List.mem_singleton.1 hc]; rfl⟩
  · rw [horientation] at hline
    cases hline

/-- A grid that counts as blank has blanks only. -/
theorem isEmpty_of_isBlankGrid
    (hblank : Value.isBlankGrid (Value.gridOfRows rows) = true)
    (hrow : row ∈ (Value.gridOfRows rows).rows)
    (hc : c ∈ row) :
    c.isEmpty = true := by
  have hwidth : row.length = (Value.gridOfRows rows).width :=
    Grid.length_of_mem_ofRows Value.empty hrow
  simp only [Value.isBlankGrid, Grid.isSingle, Grid.rowCount, Grid.get?, Bool.and_eq_true,
    beq_iff_eq] at hblank
  obtain ⟨⟨hone, hnarrow⟩, hblank⟩ := hblank
  obtain ⟨only, honly⟩ := List.length_eq_one_iff.1 hone
  rw [honly] at hrow hblank
  cases List.mem_singleton.1 hrow
  obtain ⟨c', rfl⟩ := List.length_eq_one_iff.1 (hwidth.trans hnarrow)
  cases List.mem_singleton.1 hc
  exact hblank

/-- Trimming takes off nothing but blanks. -/
theorem mem_trimRow_of_full
    (hc : c ∈ row)
    (hfull : c.isEmpty = false) :
    c ∈ Sequence.trimRow row := by
  rw [Sequence.trimRow, List.mem_reverse]
  have hmem : c ∈ row.reverse.takeWhile Value.isEmpty ++ row.reverse.dropWhile Value.isEmpty := by
    rw [List.takeWhile_append_dropWhile]
    exact List.mem_reverse.2 hc
  rcases List.mem_append.1 hmem with htaken | hkept
  · rw [List.mem_takeWhile_imp htaken] at hfull
    cases hfull
  · exact hkept

/-- A stale grid that is made from rows has a stale cell, which no line misses. -/
theorem Value.Regular.stale_cell
    {g : Grid Value}
    (hv : (Value.array g).Regular)
    {heap : Heap}
    (hstale : (Value.array g).Stale heap) :
    Value.isBlankGrid g = false ∧ ∃ row ∈ g.rows, ∃ c ∈ row, c.Stale heap ∧
      ∀ cells, g.line? = some cells → c ∈ cells := by
  rcases hstale.cases with ⟨h, hhandle, -⟩ | ⟨c, ⟨g', hg', row, hrow, hc⟩, hcstale⟩
  · cases hhandle
  cases hg'
  cases hv with
  | plain hplain =>
      cases hplain
  | @grid rows _ =>
      have hfull := hcstale.isEmpty
      refine ⟨?_, row, hrow, c, hc, hcstale, fun cells hline => mem_of_line? hline hrow hc⟩
      by_contra hblank
      rw [Bool.not_eq_false] at hblank
      rw [isEmpty_of_isBlankGrid hblank hrow hc] at hfull
      cases hfull

end Coverage

section Passes

/-- A pass over a list fails if one of its steps does, whatever the others give. -/
theorem refuses_mapM
    {α β : Type}
    {f : α → Action β}
    {xs : List α}
    {x : α}
    {w : World}
    (hx : x ∈ xs)
    (hf : ∀ y ∈ xs, ∀ w', w.Adds w' → Ends World.Adds (f y) w' fun _ _ => True)
    (hrefuses : ∀ w', w.Adds w' → (f x).Refuses w') :
    (xs.mapM f).Refuses w := by
  induction xs generalizing w with
  | nil =>
      cases hx
  | cons y ys ih =>
      rw [List.mapM_cons]
      rcases List.mem_cons.1 hx with rfl | hlater
      · exact (hrefuses w (.refl w)).bind fun _ _ _ hnone => hnone.elim
      · refine (hf y List.mem_cons_self w (.refl w)).bind ?_
        intro z w₁ hw₁ _
        have htail := ih hlater
          (fun y' hy' w' hw' => hf y' (List.mem_cons_of_mem y hy') w' (trans_of _ hw₁ hw'))
          fun w' hw' => hrefuses w' (trans_of _ hw₁ hw')
        exact htail.bind fun _ _ _ hnone => hnone.elim

variable {w : World} {cx : Conversions} {v : Value} {elem : Ty}

theorem Value.Stale.adds
    {w' : World}
    (hv : v.Stale w.heap)
    (hw : w.Adds w') :
    v.Stale w'.heap := by
  rw [hw.heap]
  exact hv

/-- A line with a stale cell is refused. -/
theorem refuses_readLine
    (hcx : cx.Refuses v.depth)
    (htyped : cx.ReadsTyped (fun _ => True) v.depth)
    (helem : elem.handsThrough = false)
    (hv : v.Regular)
    {cells : List Value}
    (hcells : ∀ c ∈ cells, v.HasCell c)
    {c : Value}
    (hc : c ∈ cells)
    (hstale : c.Stale w.heap) :
    (Sequence.readLine cx elem cells).Refuses w := by
  rw [Sequence.readLine_eq_mapM]
  refine refuses_mapM hc ?_ ?_
  · intro y hy w' _
    exact (ends_readTypedCell htyped (w'.supplies_true v) elem (hcells y hy)).mono (fun _ h => h)
      fun _ _ _ _ => trivial
  · intro w' hw'
    refine (Ends.orFail (P := fun reader w'' => w' = w'' ∧ cx.reader? c.shape elem = some reader) _
      (.refl w') fun reader hreader => ⟨rfl, hreader⟩).bind ?_
    rintro reader _ - ⟨rfl, hreader⟩
    exact hcx c.shape elem reader hreader helem c w' rfl
      (Value.depth_lt_of_hasCell (hcells c hc)) (hv.cell (hcells c hc)) (hstale.adds hw')

theorem handsThrough_elementOrAny
    {t : Ty}
    (ht : t.handsThrough = false) :
    t.elementOrAny.handsThrough = false := by
  cases t <;> first
    | rfl
    | exact ht

/-- The line of a stale value has a stale cell. -/
theorem ends_lineOf_stale
    (target : Ty)
    (hv : v.Regular)
    (hstale : v.Stale w.heap) :
    Ends World.Adds (Sequence.lineOf target v) w fun cells w' =>
      w = w' ∧ (∀ c ∈ cells, v.HasCell c) ∧ ∃ c ∈ cells, c.Stale w.heap := by
  refine (ends_array? (Sequence.notAnArray v) v (.refl w)).bind ?_
  rintro g _ - ⟨rfl, rfl⟩
  obtain ⟨hblank, row, -, c, -, hcstale, hline⟩ := hv.stale_cell hstale
  rw [hblank]
  refine Ends.orFail _ (.refl w) ?_
  intro cells hcells
  exact ⟨rfl, fun d hd => hasCell_of_line hcells hd, c, hline cells hcells, hcstale⟩

end Passes

section Rules

variable {w : World} {cx : Conversions} {v : Value}

/-- A rule for other shapes than those of stale values. -/
theorem refuses_of_shape
    {r : Rule}
    (hhandle : r.shape.accepts .handle = false)
    (harray : r.shape.accepts .array = false) :
    r.Refuses := by
  intro cx expected v w _ _ hreads _ _ hstale
  have haccepts := (Bool.and_eq_true_iff.1 hreads).1
  rcases hstale.shape with hshape | hshape
  · rw [hshape, hhandle] at haccepts
    cases haccepts
  · rw [hshape, harray] at haccepts
    cases haccepts

theorem refuses_tagged :
    Reference.tagged.Refuses := by
  intro cx expected v w _ _ hreads hexpected _ _
  have hproduce : (expected == Ty.tagged) = true := (Bool.and_eq_true_iff.1 hreads).2
  cases expected with
  | tagged =>
      cases hexpected
  | _ =>
      cases hproduce

/-- A line with a stale cell is refused before anything is made of it. -/
theorem refuses_readInto
    (make : Ty → List Object → Action Object)
    (hcx : cx.Refuses v.depth)
    (htyped : cx.ReadsTyped (fun _ => True) v.depth)
    {expected : Ty}
    (hexpected : expected.handsThrough = false)
    (hv : v.Regular)
    (hstale : v.Stale w.heap) :
    (Sequence.readInto make cx expected v).Refuses w := by
  refine (ends_lineOf_stale expected hv hstale).bind ?_
  rintro cells _ - ⟨rfl, hcells, c, hc, hcstale⟩
  refine (refuses_readLine hcx htyped (handsThrough_elementOrAny hexpected) hv hcells hc
    hcstale).bind ?_
  intro items w₁ _ hnone
  exact hnone.elim

theorem refuses_jagged :
    Sequence.jagged.Refuses := by
  intro cx expected v w hcx htyped _ hexpected hv hstale
  have helem := handsThrough_elementOrAny (handsThrough_elementOrAny hexpected)
  refine (ends_array? (Sequence.notAnArray v) v (.refl w)).bind ?_
  rintro g _ - ⟨rfl, rfl⟩
  obtain ⟨hblank, row, hrow, c, hc, hcstale, -⟩ := hv.stale_cell hstale
  have hcells : ∀ row ∈ g.rows, ∀ c ∈ Sequence.trimRow row, (Value.array g).HasCell c := by
    intro row hrow c hc
    exact ⟨g, rfl, row, hrow, mem_trimRow hc⟩
  rw [hblank, if_neg Bool.false_ne_true, Sequence.readRows_eq_mapM]
  have hrows : (g.rows.mapM fun row =>
      Sequence.readLine cx expected.elementOrAny.elementOrAny (Sequence.trimRow row) >>=
        Action.createArray expected.elementOrAny.elementOrAny).Refuses w := by
    refine refuses_mapM hrow ?_ ?_
    · intro row' hrow' w' _
      refine (ends_readTypedLine htyped (w'.supplies_true _) _ (hcells row' hrow')).bind ?_
      intro items w'' _ hitems
      exact (ends_createTypedArray hitems).mono (fun _ h => h) fun _ _ _ _ => trivial
    · intro w' hw'
      refine (refuses_readLine hcx htyped helem hv (hcells row hrow)
        (mem_trimRow_of_full hc hcstale.isEmpty) (hcstale.adds hw')).bind ?_
      intro items w'' _ hnone
      exact hnone.elim
  exact hrows.bind fun _ _ _ hnone => hnone.elim

/-- A handle that leads nowhere is refused. -/
theorem refuses_boxing :
    Reference.boxing.Refuses := by
  intro cx expected v w _ _ hreads _ _ hstale
  have haccepts : Shape.handle.accepts v.shape = true := (Bool.and_eq_true_iff.1 hreads).1
  rcases hstale.cases with ⟨h, rfl, hnone⟩ | ⟨c, ⟨g, rfl, -⟩, -⟩
  · have hrun : Reference.readHandle expected (.handle h) w =
        (.error (.failed (.notFound h)), w) := by
      have hresolve := Action.resolve_run h w
      rw [hnone] at hresolve
      rw [Reference.readHandle, Value.handle?, bind_run_ok (Action.orFail_some_run _ h w),
        bind_run_error hresolve]
    exact Ends.of_error hrun (fun heq => by cases heq) (.refl w)
  · cases haccepts

/-- Every standard rule refuses stale values. -/
theorem refuses_of_standard
    {r : Rule}
    (hr : r ∈ standardRules) :
    r.Refuses := by
  refine forall_standardRules (P := Rule.Refuses) ?scalar refuses_tagged ?array ?list refuses_jagged
    (refuses_of_shape rfl rfl) ?set refuses_boxing r hr
  case scalar =>
    intro shape t read h name priority value?
    exact refuses_of_shape h.handles h.grids
  case array =>
    intro cx expected v w hcx htyped _ hexpected hv hstale
    exact refuses_readInto Action.createArray hcx htyped hexpected hv hstale
  case list =>
    intro cx expected v w hcx htyped _ hexpected hv hstale
    exact refuses_readInto Action.createList hcx htyped hexpected hv hstale
  case set =>
    intro cx expected v w hcx htyped _ hexpected hv hstale
    exact refuses_readInto Action.createSet hcx htyped hexpected hv hstale

end Rules

section Catalogs

theorem Conversions.Refuses.mono
    {cx : Conversions}
    {d d' : Nat}
    (hcx : cx.Refuses d)
    (hle : d' ≤ d) :
    cx.Refuses d' := by
  intro s t reader hreader ht v w hshape hv
  exact hcx s t reader hreader ht v w hshape (Nat.lt_of_lt_of_le hv hle)

namespace Catalog

variable {c : Catalog}

/-- Conversions that are nested `n` deep refuse stale values that are nested less deep. -/
theorem refuses_conversions
    (hc : ∀ r ∈ c.rules, r.Refuses)
    (htyped : ∀ r ∈ c.rules, r.ReadsTyped)
    (n : Nat) :
    (c.conversions n).Refuses n := by
  induction n with
  | zero =>
      intro s t reader hreader ht v w hshape hv
      exact absurd hv (Nat.not_lt_zero _)
  | succ n ih =>
      rintro s t reader hreader ht v w rfl hv hregular hstale
      rw [conversions] at hreader
      obtain ⟨r, hr, rfl⟩ := Option.map_eq_some_iff.1 hreader
      have hdepth := Nat.le_of_lt_succ hv
      exact hc r (mem_of_findByShape? hr) _ t v w (ih.mono hdepth)
        ((readsTyped_conversions htyped n).mono hdepth) (reads_of_findByShape? hr) ht hregular
        hstale

/-- Reading a stale value by the rule that the catalog finds. -/
theorem refuses_read
    (hc : ∀ r ∈ c.rules, r.Refuses)
    (htyped : ∀ r ∈ c.rules, r.ReadsTyped)
    {r : Rule}
    {v : Value}
    {expected : Ty}
    (hr : c.findByShape? v.shape expected = some r)
    (hexpected : expected.handsThrough = false)
    (hv : v.Regular)
    {w : World}
    (hstale : v.Stale w.heap) :
    (c.read r expected v).Refuses w := by
  refine (Ends.get (World.Adds.refl w)).bind ?_
  rintro _ _ - ⟨rfl, rfl⟩
  refine hc r (mem_of_findByShape? hr) _ expected v _ ?_ ?_ (reads_of_findByShape? hr) hexpected
    hv hstale
  · exact (refuses_conversions hc htyped _).mono (by omega)
  · exact (readsTyped_conversions htyped _).mono (by omega)

end Catalog

end Catalogs

end CellBridge

import CellBridge.Proofs.Conversion.EntryPoints
import CellBridge.Proofs.Conversion.Reading
import CellBridge.Proofs.Managed.WellTyped

/-!
# Reading is type sound

What the standard rules make of a value fits the type that was wanted, and all that they make
themselves is well typed.  Objects behind handles are passed on as they are; their tag alone is
checked.

Each rule `ReadsTyped` under the assumption that the conversions which it calls do, and the
assumption is discharged by induction on the depth of the value.  `reading_type_sound` says what
this means for the bridge.
-/

namespace CellBridge

section Defs

/-- The handle stands in the value. -/
inductive Value.Mentions
    (h : Handle) : Value → Prop
  | here :
      Mentions h (.handle h)
  | cell
      {v c : Value}
      (hcell : v.HasCell c)
      (hc : Mentions h c) :
      Mentions h v

/-- The objects behind the handles in the value are among the given ones. -/
def World.Supplies
    (w : World)
    (given : Object → Prop)
    (v : Value) : Prop :=
  ∀ h o, v.Mentions h → w.heap.resolve? h = some o → given o

/-- The readers make of values that are nested less than `d` deep what may stand where the type is
wanted. -/
def Conversions.ReadsTyped
    (cx : Conversions)
    (given : Object → Prop)
    (d : Nat) : Prop :=
  ∀ s t reader, cx.reader? s t = some reader → ∀ (v : Value) (w : World), v.shape = s →
    v.depth < d → w.Supplies given v →
      Ends World.Adds (reader t v) w fun o w' => w'.store.Admits given t o

/-- The rule makes what may stand where the type is wanted, if the conversions that it calls do.
What it makes of a value that is not a handle is well typed. -/
def Rule.ReadsTyped
    (r : Rule) : Prop :=
  ∀ (cx : Conversions) (given : Object → Prop) (expected : Ty) (v : Value) (w : World),
    cx.ReadsTyped given v.depth → r.reads v.shape expected = true → w.Supplies given v →
      Ends World.Adds (r.toManaged cx expected v) w fun o w' =>
        w'.store.Admits given expected o ∧ (v.handle? = none → w'.store.WellTyped given o)

/-- The object was made with the type as its tag, and it is well typed. -/
def Made
    (given : Object → Prop)
    (t : Ty)
    (o : Object)
    (w : World) : Prop :=
  o.type = t ∧ w.store.WellTyped given o

end Defs

section Worlds

variable {w w' : World} {given : Object → Prop}

namespace World

theorem supplies_true
    (w : World)
    (v : Value) :
    w.Supplies (fun _ => True) v := by
  intro h o _ _
  trivial

theorem Supplies.adds
    {v : Value}
    (hv : w.Supplies given v)
    (hw : w.Adds w') :
    w'.Supplies given v := by
  intro h o hmentions ho
  rw [hw.heap] at ho
  exact hv h o hmentions ho

theorem Supplies.cell
    {v c : Value}
    (hv : w.Supplies given v)
    (hc : v.HasCell c) :
    w.Supplies given c := by
  intro h o hmentions ho
  exact hv h o (.cell hc hmentions) ho

end World

/-- What is created is well typed if its payload agrees and holds what may stand there. -/
theorem ends_createTyped
    {t : Ty}
    {p : Payload}
    (hagrees : t.Agrees p)
    (hitems : ∀ x ∈ p.items?.getD [], w.store.Admits given t.elementOrAny x) :
    Ends World.Adds (Action.create t p) w (Made given t) := by
  exact Ends.of_run (Action.create_run t p w) ⟨rfl, Store.extends_alloc t p⟩
    ⟨rfl, Store.wellTyped_alloc hagrees hitems⟩

theorem ends_createTypedArray
    {e : Ty}
    {items : List Object}
    (hitems : ∀ x ∈ items, w.store.Admits given e x) :
    Ends World.Adds (Action.createArray e items) w (Made given (.array e)) := by
  exact ends_createTyped (t := .array e) trivial hitems

theorem ends_createTypedList
    {e : Ty}
    {items : List Object}
    (hitems : ∀ x ∈ items, w.store.Admits given e x) :
    Ends World.Adds (Action.createList e items) w (Made given (.list e)) := by
  exact ends_createTyped (t := .list e) trivial hitems

theorem ends_createTypedSet
    {e : Ty}
    {items : List Object}
    (hitems : ∀ x ∈ items, w.store.Admits given e x) :
    Ends World.Adds (Action.createSet e items) w (Made given (.set e)) := by
  refine (Ends.get (World.Adds.refl w)).bind ?_
  rintro _ _ - ⟨rfl, rfl⟩
  refine ends_createTyped (t := .set e) trivial ?_
  intro x hx
  exact hitems x (Ends.mem_distinct hx)

end Worlds

section Lines

variable {w : World} {given : Object → Prop} {cx : Conversions} {v : Value} {elem : Ty}

/-- Reading a cell of a value. -/
theorem ends_readTypedCell
    (hcx : cx.ReadsTyped given v.depth)
    (hv : w.Supplies given v)
    (elem : Ty)
    {cell : Value}
    (hcell : v.HasCell cell) :
    Ends World.Adds (Sequence.readCell cx elem cell) w
      fun o w' => w'.store.Admits given elem o := by
  refine (Ends.orFail (P := fun reader w' => w = w' ∧ cx.reader? cell.shape elem = some reader) _
    (.refl w) fun reader hreader => ⟨rfl, hreader⟩).bind ?_
  rintro reader _ - ⟨rfl, hreader⟩
  exact hcx cell.shape elem reader hreader cell w rfl (Value.depth_lt_of_hasCell hcell)
    (hv.cell hcell)

/-- Reading cells of a value from left to right. -/
theorem ends_readTypedLine
    (hcx : cx.ReadsTyped given v.depth)
    (hv : w.Supplies given v)
    (elem : Ty)
    {cells : List Value}
    (hcells : ∀ c ∈ cells, v.HasCell c) :
    Ends World.Adds (Sequence.readLine cx elem cells) w
      fun items w' => ∀ o ∈ items, w'.store.Admits given elem o := by
  rw [Sequence.readLine_eq_mapM]
  refine Ends.mapM (fun w' _ => .refl w') (fun o w' w'' hw'' ho => ho.extend hw''.growth)
    (.refl w) ?_
  intro c hc w₁ hw₁
  exact ends_readTypedCell hcx (hv.adds hw₁) elem (hcells c hc)

/-- Reading a line and collecting what was read. -/
theorem ends_readTypedInto
    {make : Ty → List Object → Action Object}
    {collection : Ty → Ty}
    (hmake : ∀ (e : Ty) (items : List Object) (w : World),
      (∀ x ∈ items, w.store.Admits given e x) →
        Ends World.Adds (make e items) w (Made given (collection e)))
    (hcx : cx.ReadsTyped given v.depth)
    (hv : w.Supplies given v)
    (expected : Ty) :
    Ends World.Adds (Sequence.readInto make cx expected v) w
      (Made given (collection expected.elementOrAny)) := by
  refine (ends_lineOf expected v (.refl w)).bind ?_
  rintro cells _ - ⟨rfl, hcells⟩
  refine (ends_readTypedLine hcx hv expected.elementOrAny hcells).bind ?_
  intro items w₁ hw₁ hitems
  exact hmake _ items w₁ hitems

/-- Reading the rows of a grid as arrays. -/
theorem ends_readTypedRows
    (hcx : cx.ReadsTyped given v.depth)
    (hv : w.Supplies given v)
    (elem : Ty)
    {rows : List (List Value)}
    (hrows : ∀ row ∈ rows, ∀ c ∈ row, v.HasCell c) :
    Ends World.Adds (Sequence.readRows cx elem rows) w
      fun items w' => ∀ o ∈ items, w'.store.Admits given (.array elem) o := by
  rw [Sequence.readRows_eq_mapM]
  refine Ends.mapM (fun w' _ => .refl w') (fun o w' w'' hw'' ho => ho.extend hw''.growth)
    (.refl w) ?_
  intro row hrow w₁ hw₁
  have hcells : ∀ c ∈ Sequence.trimRow row, v.HasCell c := by
    intro c hc
    exact hrows row hrow c (mem_trimRow hc)
  refine (ends_readTypedLine hcx (hv.adds hw₁) elem hcells).bind ?_
  intro items w₂ hw₂ hitems
  refine (ends_createTypedArray hitems).mono (fun _ h => h) ?_
  rintro o w₃ - ⟨htype, htyped⟩
  exact ⟨htype ▸ Ty.accepts_self _, fun _ => htyped⟩

theorem ends_readTypedJagged
    (hcx : cx.ReadsTyped given v.depth)
    (hv : w.Supplies given v)
    (e : Ty) :
    Ends World.Adds (Sequence.readJagged cx (.array (.array e)) v) w
      (Made given (.array (.array e))) := by
  refine (ends_array? (Sequence.notAnArray v) v (.refl w)).bind ?_
  rintro g _ - ⟨rfl, rfl⟩
  split
  · refine ends_createTypedArray ?_
    intro x hx
    cases hx
  · have hrows : ∀ row ∈ g.rows, ∀ c ∈ row, (Value.array g).HasCell c := by
      intro row hrow c hc
      exact ⟨g, rfl, row, hrow, hc⟩
    refine (ends_readTypedRows hcx hv e hrows).bind ?_
    intro items w₁ hw₁ hitems
    exact ends_createTypedArray hitems

end Lines

section References

variable {w : World} {given : Object → Prop}

/-- A constant has the position that its class gives it. -/
theorem ends_createTypedConstant
    (c : ManagedClass)
    (name : String) :
    Ends World.Adds (Action.createConstant? c name) w
      fun found w' => ∀ o, found = some o → Made given (.object c) o w' := by
  have hnone : Ends World.Adds (pure none : Action (Option Object)) w
      fun found w' => ∀ o, found = some o → Made given (.object c) o w' := by
    refine Ends.pure (.refl w) ?_
    intro o ho
    cases ho
  rw [Action.createConstant?]
  split
  · rename_i henum
    cases hordinal : c.ordinalOf? name with
    | none =>
        exact hnone
    | some i =>
        have hcreate : Ends World.Adds (Action.create (.object c) (.constant i name)) w
            (Made given (.object c)) := by
          refine ends_createTyped (t := .object c) ⟨henum, hordinal⟩ ?_
          intro x hx
          cases hx
        refine hcreate.bind ?_
        intro o w₁ hw₁ ho
        refine Ends.pure (.refl w₁) ?_
        intro x hx
        cases hx
        exact ho
  · exact hnone

theorem ends_readTypedConstant
    (c : ManagedClass)
    (v : Value) :
    Ends World.Adds (Reference.readConstant (.object c) v) w (Made given (.object c)) := by
  refine (Ends.orFail (P := fun _ w' => w = w') _ (.refl w) fun _ _ => rfl).bind ?_
  rintro name _ - rfl
  have hconstant : Ends World.Adds (Action.createConstant? c name) w
      fun found w' => ∀ o, found = some o → Made given (.object c) o w' :=
    ends_createTypedConstant c name
  refine hconstant.bind ?_
  intro found w₁ hw₁ hfound
  exact Ends.orFail _ (.refl w₁) hfound

/-- Only a handle is read as the object behind it, and that object was given. -/
theorem ends_readGivenHandle
    (expected : Ty)
    {v : Value}
    (hv : w.Supplies given v) :
    Ends World.Adds (Reference.readHandle expected v) w fun o _ =>
      v.handle? ≠ none ∧ given o ∧ expected.accepts o.type = true := by
  have hhandle : Ends World.Adds (Action.orFail (Scalar.wrongShape "object" v) v.handle?) w
      fun h w' => w = w' ∧ v = .handle h := by
    refine Ends.orFail _ (.refl w) ?_
    intro h hh
    cases v <;> cases hh
    exact ⟨rfl, rfl⟩
  refine hhandle.bind ?_
  rintro h _ - ⟨rfl, rfl⟩
  have hresolve : Ends World.Adds (Action.resolve h) w fun o w' => w = w' ∧ given o := by
    refine (Ends.get (World.Adds.refl w)).bind ?_
    rintro _ _ - ⟨rfl, rfl⟩
    refine Ends.orFail _ (.refl _) ?_
    intro o ho
    exact ⟨rfl, hv h o .here ho⟩
  refine hresolve.bind ?_
  rintro o _ - ⟨rfl, hgiven⟩
  split
  · rename_i haccepts
    refine Ends.pure (.refl w) ⟨?_, hgiven, haccepts⟩
    intro h
    cases h
  · exact Ends.fail _ (.refl w)

end References

section Rules

/-- A rule that makes well-typed objects of a type that fits. -/
theorem readsTyped_of_made
    {r : Rule}
    (hr : ∀ (cx : Conversions) (given : Object → Prop) (expected : Ty) (v : Value) (w : World),
      cx.ReadsTyped given v.depth → r.canProduce expected = true → w.Supplies given v →
        ∃ t, expected.accepts t = true ∧
          Ends World.Adds (r.toManaged cx expected v) w (Made given t)) :
    r.ReadsTyped := by
  intro cx given expected v w hcx hreads hv
  obtain ⟨t, haccepts, hends⟩ := hr cx given expected v w hcx (Bool.and_eq_true_iff.1 hreads).2 hv
  refine hends.mono (fun _ h => h) ?_
  rintro o w' - ⟨rfl, htyped⟩
  exact ⟨⟨haccepts, fun _ => htyped⟩, fun _ => htyped⟩

theorem readsTyped_scalar
    {t : Ty}
    (name : String)
    (shape : Shape)
    (priority : Int32)
    (value? : Object → Payload → Option Value)
    {read : Value → Action Object}
    (hread : Scalar.Creates t read) :
    (Scalar.rule name shape t priority value? read).ReadsTyped := by
  refine readsTyped_of_made ?_
  intro cx given expected v w _ hproduce _
  refine ⟨t, hproduce, hread.ends (.refl w) ?_ v⟩
  intro p hagrees hitems
  refine ends_createTyped hagrees ?_
  intro x hx
  rw [hitems] at hx
  cases hx

theorem readsTyped_array :
    Sequence.array.ReadsTyped := by
  refine readsTyped_of_made ?_
  intro cx given expected v w hcx hproduce hv
  refine ⟨.array expected.elementOrAny, ?_,
    ends_readTypedInto (fun _ _ _ => ends_createTypedArray) hcx hv expected⟩
  cases expected with
  | array e =>
      exact Ty.accepts_self _
  | any =>
      rfl
  | _ =>
      cases hproduce

theorem readsTyped_list :
    Sequence.list.ReadsTyped := by
  refine readsTyped_of_made ?_
  intro cx given expected v w hcx hproduce hv
  refine ⟨.list expected.elementOrAny, ?_,
    ends_readTypedInto (fun _ _ _ => ends_createTypedList) hcx hv expected⟩
  cases expected with
  | list e =>
      exact Ty.accepts_self _
  | _ =>
      cases hproduce

theorem readsTyped_set :
    Sequence.set.ReadsTyped := by
  refine readsTyped_of_made ?_
  intro cx given expected v w hcx hproduce hv
  refine ⟨.set expected.elementOrAny, ?_,
    ends_readTypedInto (fun _ _ _ => ends_createTypedSet) hcx hv expected⟩
  cases expected with
  | set e =>
      exact Ty.accepts_self _
  | _ =>
      cases hproduce

theorem readsTyped_jagged :
    Sequence.jagged.ReadsTyped := by
  refine readsTyped_of_made ?_
  intro cx given expected v w hcx hproduce hv
  cases expected with
  | array inner =>
      cases inner with
      | array e =>
          exact ⟨_, Ty.accepts_self _, ends_readTypedJagged hcx hv e⟩
      | _ =>
          cases hproduce
  | _ =>
      cases hproduce

theorem readsTyped_enum :
    Reference.enum.ReadsTyped := by
  refine readsTyped_of_made ?_
  intro cx given expected v w _ hproduce _
  cases expected with
  | object c =>
      exact ⟨_, Ty.accepts_self _, ends_readTypedConstant c v⟩
  | _ =>
      cases hproduce

theorem readsTyped_tagged :
    Reference.tagged.ReadsTyped := by
  refine readsTyped_of_made ?_
  intro cx given expected v w _ hproduce _
  cases expected with
  | tagged =>
      refine ⟨.tagged, rfl, ends_createTyped (t := .tagged) trivial ?_⟩
      intro x hx
      cases hx
  | _ =>
      cases hproduce

/-- The rule for handles makes nothing; it passes on what it checked. -/
theorem readsTyped_boxing :
    Reference.boxing.ReadsTyped := by
  intro cx given expected v w _ _ hv
  refine (ends_readGivenHandle expected hv).mono (fun _ h => h) ?_
  rintro o w' - ⟨hhandle, hgiven, haccepts⟩
  exact ⟨⟨haccepts, fun hfresh => absurd hgiven hfresh⟩, fun hnone => absurd hnone hhandle⟩

/-- Every standard rule is type sound. -/
theorem readsTyped_of_standard
    {r : Rule}
    (hr : r ∈ standardRules) :
    r.ReadsTyped := by
  refine forall_standardRules ?_ readsTyped_tagged readsTyped_array readsTyped_list
    readsTyped_jagged readsTyped_enum readsTyped_set readsTyped_boxing r hr
  intro shape t read h name priority value?
  exact readsTyped_scalar name shape priority value? h.creates

end Rules

section Catalogs

theorem Conversions.ReadsTyped.mono
    {cx : Conversions}
    {given : Object → Prop}
    {d d' : Nat}
    (hcx : cx.ReadsTyped given d)
    (hle : d' ≤ d) :
    cx.ReadsTyped given d' := by
  intro s t reader hreader v w hshape hv
  exact hcx s t reader hreader v w hshape (Nat.lt_of_lt_of_le hv hle)

namespace Catalog

variable {c : Catalog} {given : Object → Prop}

theorem reads_of_findByShape?
    {s : Shape}
    {t : Ty}
    {r : Rule}
    (h : c.findByShape? s t = some r) :
    r.reads s t = true := by
  exact List.find?_some (p := fun r : Rule => r.reads s t) h

/-- Conversions that are nested `n` deep are type sound on what is nested less deep. -/
theorem readsTyped_conversions
    (hc : ∀ r ∈ c.rules, r.ReadsTyped)
    (n : Nat) :
    (c.conversions n).ReadsTyped given n := by
  induction n with
  | zero =>
      intro s t reader hreader v w hshape hv
      exact absurd hv (Nat.not_lt_zero _)
  | succ n ih =>
      rintro s t reader hreader v w rfl hv hsupplies
      rw [conversions] at hreader
      obtain ⟨r, hr, rfl⟩ := Option.map_eq_some_iff.1 hreader
      refine (hc r (mem_of_findByShape? hr) _ given t v w (ih.mono (Nat.le_of_lt_succ hv))
        (reads_of_findByShape? hr) hsupplies).mono (fun _ h => h) ?_
      intro o w' _ ho
      exact ho.1

/-- Reading by the rule that the catalog finds. -/
theorem ends_readTyped
    (hc : ∀ r ∈ c.rules, r.ReadsTyped)
    {r : Rule}
    {v : Value}
    {expected : Ty}
    (hr : c.findByShape? v.shape expected = some r)
    {w : World}
    (hv : w.Supplies given v) :
    Ends World.Adds (c.read r expected v) w fun o w' =>
      w'.store.Admits given expected o ∧ (v.handle? = none → w'.store.WellTyped given o) := by
  refine (Ends.get (.refl w)).bind ?_
  rintro _ _ - ⟨rfl, rfl⟩
  refine hc r (mem_of_findByShape? hr) _ given expected v _ ?_ (reads_of_findByShape? hr) hv
  exact (readsTyped_conversions hc _).mono (by omega)

end Catalog

theorem readsTyped_standardCatalog :
    ∀ r ∈ standardCatalog.rules, r.ReadsTyped := by
  intro r hr
  exact readsTyped_of_standard (Catalog.mem_standardCatalog hr)

/-- What the bridge reads fits the type that was wanted.  If the value is not a handle, then the
object is well typed, down to the objects behind handles in the value. -/
theorem reading_type_sound
    {b : Bridge}
    (hb : b.catalog = standardCatalog)
    {v : Value}
    {expected : Ty}
    {w w' : World}
    {o : Object}
    (h : b.toManaged v expected w = (.ok o, w')) :
    expected.accepts o.type = true ∧
      (v.handle? = none →
        w'.store.WellTyped (fun x => ∃ k, v.Mentions k ∧ w.heap.resolve? k = some x) o) := by
  obtain ⟨rule, hrule, hread⟩ := Bridge.toManaged_run_ok.1 h
  have hc : ∀ r ∈ b.catalog.rules, r.ReadsTyped := by
    rw [hb]
    intro r hr
    exact readsTyped_of_standard (Catalog.mem_standardCatalog hr)
  have hsupplies : w.Supplies (fun x => ∃ k, v.Mentions k ∧ w.heap.resolve? k = some x) v := by
    intro k x hmentions hx
    exact ⟨k, hmentions, hx⟩
  have hends := (Catalog.ends_readTyped hc hrule hsupplies).gives o
  rw [hread] at hends
  obtain ⟨hadmits, htyped⟩ := hends rfl
  exact ⟨hadmits.accepted, htyped⟩

/-- A row of a truth value and the handle of a text, read as a list. -/
theorem reading_type_sound_row :
    let b := (Bridge.empty {}).withStandardRules
    let text : Object := { type := .text, id := 0 }
    let interned := (Heap.empty 0 1).intern text
    let w : World := { store := { payloads := #[.text "bolt"] }, heap := interned.2 }
    let v : Value := .array (Value.gridOfRow [.boolean true, .handle interned.1])
    ∃ o w', b.toManaged v (.list .any) w = (.ok o, w') ∧
      (Ty.list .any).accepts o.type = true ∧
        w'.store.WellTyped (fun x => ∃ k, v.Mentions k ∧ w.heap.resolve? k = some x) o := by
  intro b text interned w v
  have hread : ∃ o w', b.toManaged v (.list .any) w = (.ok o, w') := ⟨_, _, rfl⟩
  obtain ⟨o, w', hread⟩ := hread
  obtain ⟨haccepts, htyped⟩ := reading_type_sound rfl hread
  exact ⟨o, w', hread, haccepts, htyped rfl⟩

end Catalogs

end CellBridge

import CellBridge.Proofs.Conversion.EntryPoints
import CellBridge.Proofs.Conversion.IntegerReaders
import CellBridge.Proofs.Conversion.Layout
import CellBridge.Proofs.Conversion.Reading
import CellBridge.Proofs.Conversion.StandardWriters
import CellBridge.Proofs.Conversion.Writing
import CellBridge.Proofs.Managed.Portable
import CellBridge.Proofs.Number.Integers

/-!
# From objects to cells and back

A portable object is written as a value that is read, at the type of the object, as a copy of it.
The writing and the reading rule are found by different keys, so both are said about one value:
an object `Travels` as a value if it is written as this value, and the value is read as a copy.

The proof is by induction on the object.  Scalars have a cell of their own (`travels_scalar`); a
collection lays out the values of its items, whose copies are collected again (`travels_line`,
`travels_jagged`).  `round_trip` says what this means for the bridge, and what becomes of an array
that has only empty rows: an area does not show them.
-/

namespace CellBridge

section Defs

/-- The action makes a new object that is a copy of the given one, in every world. -/
def Brings
    (s : Store)
    (act : Action Object)
    (o : Object) : Prop :=
  ∀ w, ∃ o' w', act w = (.ok o', w') ∧ w.Adds w' ∧ w.store.size ≤ o'.id ∧ s.Alike w'.store o o'

/-- The object is written as the value, and the value is read as a copy of the object. -/
structure Travels
    (s : Store)
    (t : Ty)
    (o : Object)
    (v : Value) : Prop where
  full : v.isEmpty = false
  written : ∃ r, standardCatalog.findByType? t = some r ∧
    ∀ (n : Nat) (w : World), w.store = s → s.Shallow n o.id →
      r.toCell (standardCatalog.conversions n) o w = (.ok v, w)
  read : ∃ r, standardCatalog.findByShape? v.shape t = some r ∧
    ∀ n, v.depth ≤ n → Brings s (r.toManaged (standardCatalog.conversions n) t v) o

/-- The second items are new copies of the first ones, each with an identity of its own. -/
structure Copied
    (s : Store)
    (w w' : World)
    (items items' : List Object) : Prop where
  alike : List.Forall₂ (s.Alike w'.store) items items'
  apart : items'.Pairwise fun x y => x.id ≠ y.id
  fresh : ∀ x ∈ items', w.store.size ≤ x.id

/-- The action collects copies of the items of the object in a copy of the object. -/
def Collects
    (s : Store)
    (make : List Object → Action Object)
    (o : Object) : Prop :=
  ∀ w w₁ items', Copied s w w₁ (s.contents o.id) items' →
    ∃ o' w', make items' w₁ = (.ok o', w') ∧ w₁.Adds w' ∧ w₁.store.size ≤ o'.id ∧
      s.Alike w'.store o o'

end Defs

section Passes

variable {α β : Type}

/-- A pass that leaves the world as it is. -/
theorem mapM_run_of_forall₂
    {f : α → Action β}
    {w : World}
    {xs : List α}
    {ys : List β}
    (h : List.Forall₂ (fun x y => f x w = (.ok y, w)) xs ys) :
    xs.mapM f w = (.ok ys, w) := by
  induction h with
  | nil =>
      rfl
  | cons hhead _ ih =>
      rw [List.mapM_cons, bind_run_ok hhead, bind_run_ok ih]
      rfl

/-- A pass that makes a copy at each step makes copies of all. -/
theorem mapM_brings
    {s : Store}
    {f : α → Action Object}
    {items : List Object}
    {xs : List α}
    (h : List.Forall₂ (fun o x => Brings s (f x) o) items xs)
    (w : World) :
    ∃ items' w', xs.mapM f w = (.ok items', w') ∧ w.Adds w' ∧ Copied s w w' items items' := by
  induction h generalizing w with
  | nil =>
      refine ⟨[], w, rfl, .refl w, .nil, .nil, ?_⟩
      intro x hx
      cases hx
  | cons hhead _ ih =>
      obtain ⟨o', w₁, hrun, hadds, hfresh, halike⟩ := hhead w
      obtain ⟨items', w₂, hrest, hadds', hcopied⟩ := ih w₁
      obtain ⟨bound, -⟩ := id halike
      refine ⟨o' :: items', w₂, ?_, trans_of World.Adds hadds hadds', ?_, ?_, ?_⟩
      · rw [List.mapM_cons, bind_run_ok hrun, bind_run_ok hrest]
        rfl
      · exact .cons (halike.extend hadds'.growth) hcopied.alike
      · refine .cons ?_ hcopied.apart
        intro x hx
        have hlater := hcopied.fresh x hx
        omega
      · intro x hx
        rcases List.mem_cons.1 hx with rfl | hmem
        · exact hfresh
        · exact Nat.le_trans hadds.growth.size_le (hcopied.fresh x hmem)

/-- Copies of different items are different. -/
theorem Copied.different
    {s : Store}
    {w w' : World}
    {items items' : List Object}
    (h : Copied s w w' items items')
    (hdifferent : items.Pairwise fun x y => s.valueEq x y = false) :
    items'.Pairwise fun x y => w'.store.valueEq x y = false := by
  obtain ⟨halike, hapart, -⟩ := h
  induction halike with
  | nil =>
      exact .nil
  | cons hhead htail ih =>
      obtain ⟨hfirst, hrest⟩ := List.pairwise_cons.1 hdifferent
      obtain ⟨hfirst', hrest'⟩ := List.pairwise_cons.1 hapart
      refine .cons ?_ (ih hrest hrest')
      intro y' hy'
      obtain ⟨y, hy, halike⟩ := exists_of_mem_right htail hy'
      exact hhead.valueEq_eq_false halike (hfirst' y' hy') (hfirst y hy)

end Passes

section Creation

variable {s : Store} {o : Object}

/-- A new object with the payload of the original and copies of its items is a copy. -/
theorem create_alike
    {p : Payload}
    {items' : List Object}
    {w : World}
    (hpayload : p.bare = (s.payload o).bare)
    (hitems' : p.items?.getD [] = items')
    (halike : List.Forall₂ (s.Alike w.store) (s.contents o.id) items') :
    ∃ o' w', Action.create o.type p w = (.ok o', w') ∧ w.Adds w' ∧ w.store.size ≤ o'.id ∧
      s.Alike w'.store o o' := by
  refine ⟨_, _, Action.create_run o.type p w, ⟨rfl, Store.extends_alloc o.type p⟩,
    Nat.le_refl _, ?_⟩
  exact Store.alike_alloc hpayload rfl hitems' halike

/-- A scalar travels as a value that makes its payload again. -/
theorem travels_of_create
    {v : Value}
    {r : Rule}
    (hfull : v.isEmpty = false)
    (hbytype : standardCatalog.findByType? o.type = some r)
    (hbyshape : standardCatalog.findByShape? v.shape o.type = some r)
    (hitems : (s.payload o).items? = none)
    (hwrite : ∀ (cx : Conversions) (w : World), w.store = s → r.toCell cx o w = (.ok v, w))
    (hread : ∀ (cx : Conversions) (w : World),
      r.toManaged cx o.type v w = Action.create o.type (s.payload o) w) :
    Travels s o.type o v := by
  refine ⟨hfull, ⟨r, hbytype, fun n w hw _ => hwrite _ w hw⟩, ⟨r, hbyshape, ?_⟩⟩
  intro n _ w
  rw [hread]
  refine create_alike rfl rfl ?_
  rw [Store.contents_of_items?_eq_none hitems, hitems]
  exact .nil

end Creation

section Scalars

variable {s : Store} {o : Object}

/-- A scalar travels by a rule that shows its payload, and makes the payload of what is shown. -/
theorem travels_of_rule
    {r : Rule}
    {p : Payload}
    {v : Value}
    {name : String}
    {shape : Shape}
    {priority : Int32}
    {value? : Object → Payload → Option Value}
    {read : Value → Action Object}
    (hr : r = Scalar.rule name shape o.type priority value? read)
    (hp : s.payload o = p)
    (hfull : v.isEmpty = false)
    (hbytype : standardCatalog.findByType? o.type = some r)
    (hbyshape : standardCatalog.findByShape? v.shape o.type = some r)
    (hitems : p.items? = none)
    (hvalue : value? o p = some v)
    (hread : read v = Action.create o.type p) :
    Travels s o.type o v := by
  subst hr hp
  refine travels_of_create hfull hbytype hbyshape hitems ?_ ?_
  · rintro cx w rfl
    show (Action.payload o >>= fun p => Action.orFail _ (value? o p)) w = _
    rw [bind_run_ok (Action.payload_run o w), hvalue]
    rfl
  · intro cx w
    exact congrFun hread w

/-- An integer that is exact as a number is found between the limits. -/
theorem integerWithin?_ofInt
    {low high i : Int}
    (hexact : i.natAbs ≤ 2 ^ 53)
    (hlow : low ≤ i)
    (hhigh : i ≤ high) :
    Scalar.integerWithin? low high (Number.ofInt i) = some i := by
  rw [Scalar.integerWithin?, Number.toInt?_ofInt hexact, Option.filter_some,
    if_pos (decide_eq_true ⟨hlow, hhigh⟩)]

theorem travels_byte
    {id : Nat}
    {n : Int8}
    (hp : s.payload ⟨.byte, id⟩ = .byte n) :
    Travels s .byte ⟨.byte, id⟩ (Scalar.integerValue n.toInt) := by
  have hlow := n.le_toInt
  have hhigh := n.toInt_lt
  refine travels_of_rule (r := Scalar.byte) rfl hp rfl rfl rfl rfl rfl ?_
  rw [Scalar.integerValue, Scalar.readByte_number,
    integerWithin?_ofInt (by omega) (by omega) (by omega)]
  dsimp only
  rw [Int8.ofInt_toInt]

theorem travels_short
    {id : Nat}
    {n : Int16}
    (hp : s.payload ⟨.short, id⟩ = .short n) :
    Travels s .short ⟨.short, id⟩ (Scalar.integerValue n.toInt) := by
  have hlow := n.le_toInt
  have hhigh := n.toInt_lt
  refine travels_of_rule (r := Scalar.short) rfl hp rfl rfl rfl rfl rfl ?_
  rw [Scalar.integerValue, Scalar.readShort_number,
    integerWithin?_ofInt (by omega) (by omega) (by omega)]
  dsimp only
  rw [Int16.ofInt_toInt]

theorem travels_int
    {id : Nat}
    {n : Int32}
    (hp : s.payload ⟨.int, id⟩ = .int n) :
    Travels s .int ⟨.int, id⟩ (Scalar.integerValue n.toInt) := by
  have hlow := n.le_toInt
  have hhigh := n.toInt_lt
  refine travels_of_rule (r := Scalar.int) rfl hp rfl rfl rfl rfl rfl ?_
  rw [Scalar.integerValue, Scalar.readInt_number,
    integerWithin?_ofInt (by omega) (by omega) (by omega)]
  dsimp only
  rw [Int32.ofInt_toInt]

theorem travels_long
    {id : Nat}
    {n : Int64}
    (hp : s.payload ⟨.long, id⟩ = .long n)
    (hexact : n.toInt.natAbs ≤ 2 ^ 53) :
    Travels s .long ⟨.long, id⟩ (Scalar.integerValue n.toInt) := by
  refine travels_of_rule (r := Scalar.long) rfl hp rfl rfl rfl rfl rfl ?_
  rw [Scalar.integerValue, Scalar.readLong_number,
    integerWithin?_ofInt hexact (by omega) (by omega)]
  dsimp only
  rw [Int64.ofInt_toInt]

/-- Enumerations are written by their own rule. -/
theorem findByType?_enum
    {c : ManagedClass}
    (henum : c.isEnum = true) :
    standardCatalog.findByType? (.object c) = some Reference.enum := by
  rw [findByType?_standard, writerRule, (Bool.and_eq_true_iff.1 henum).2, cond_true]

/-- Enumerations are read by their own rule. -/
theorem findByShape?_enum
    {c : ManagedClass}
    (henum : c.isEnum = true) :
    standardCatalog.findByShape? .text (.object c) = some Reference.enum := by
  have hfound : standardCatalog.findByShape? .text (.object c) =
      bif c.isEnum then some Reference.enum else none := by
    rfl
  rw [hfound, henum, cond_true]

/-- A constant travels as its name. -/
theorem travels_constant
    {id : Nat}
    {c : ManagedClass}
    {i : Nat}
    {name : String}
    (henum : c.isEnum = true)
    (hordinal : c.ordinalOf? name = some i)
    (hp : s.payload ⟨.object c, id⟩ = .constant i name) :
    Travels s (.object c) ⟨.object c, id⟩ (.text name) := by
  have hbytype := findByType?_enum henum
  have hbyshape := findByShape?_enum henum
  refine travels_of_create (o := ⟨.object c, id⟩) rfl hbytype hbyshape ?_ ?_ ?_
  · rw [hp]
    rfl
  · rintro cx w rfl
    show (Action.payload _ >>= fun p =>
      Action.orFail _ (p.constant?.map fun c => Value.text c.2)) w = _
    rw [bind_run_ok (Action.payload_run _ w), hp]
    rfl
  · intro cx w
    show Reference.readConstant (.object c) (.text name) w = _
    rw [Reference.readConstant, hp]
    dsimp only [Value.text?]
    rw [bind_run_ok (Action.orFail_some_run _ name w), Action.createConstant?, if_pos henum,
      hordinal]
    rfl

/-- Scalars have a cell of their own. -/
theorem travels_scalar
    (hscalar : o.type.isScalar = true)
    (hagrees : o.type.Agrees (s.payload o))
    (hexact : (s.payload o).Exact) :
    ∃ v, Travels s o.type o v := by
  obtain ⟨t, id⟩ := o
  cases t with
  | bool =>
      cases hp : s.payload ⟨.bool, id⟩ <;> rw [hp] at hagrees <;> cases hagrees
      rename_i b
      exact ⟨.boolean b, travels_of_rule (r := Scalar.boolean) rfl hp rfl rfl rfl rfl rfl rfl⟩
  | byte =>
      cases hp : s.payload ⟨.byte, id⟩ <;> rw [hp] at hagrees <;> cases hagrees
      exact ⟨_, travels_byte hp⟩
  | short =>
      cases hp : s.payload ⟨.short, id⟩ <;> rw [hp] at hagrees <;> cases hagrees
      exact ⟨_, travels_short hp⟩
  | int =>
      cases hp : s.payload ⟨.int, id⟩ <;> rw [hp] at hagrees <;> cases hagrees
      exact ⟨_, travels_int hp⟩
  | long =>
      cases hp : s.payload ⟨.long, id⟩ <;> rw [hp] at hagrees hexact <;> cases hagrees
      exact ⟨_, travels_long hp hexact⟩
  | double =>
      cases hp : s.payload ⟨.double, id⟩ <;> rw [hp] at hagrees <;> cases hagrees
      rename_i n
      exact ⟨.number n, travels_of_rule (r := Scalar.double) rfl hp rfl rfl rfl rfl rfl rfl⟩
  | text =>
      cases hp : s.payload ⟨.text, id⟩ <;> rw [hp] at hagrees <;> cases hagrees
      rename_i x
      exact ⟨.text x, travels_of_rule (r := Scalar.string) rfl hp rfl rfl rfl rfl rfl rfl⟩
  | object c =>
      cases hp : s.payload ⟨.object c, id⟩ <;> rw [hp] at hagrees <;> try cases hagrees
      case constant.intro i name henum hordinal =>
        exact ⟨_, travels_constant henum hordinal hp⟩
      case record =>
        have hnone : c.isEnum = false := hagrees
        have hsome : c.isEnum = true := hscalar
        rw [hnone] at hsome
        cases hsome
  | _ =>
      cases hscalar

end Scalars

section Items

variable {s : Store} {o : Object} {e : Ty} {items : List Object} {cells : List Value}

theorem allFull_of_travels
    (h : List.Forall₂ (Travels s e) items cells) :
    AllFull cells := by
  induction h with
  | nil =>
      intro c hc
      cases hc
  | cons hhead _ ih =>
      exact List.forall_mem_cons.2 ⟨hhead.full, ih⟩

/-- Items are written one level below the object that holds them. -/
theorem writeItems_run
    (hcells : List.Forall₂ (Travels s e) items cells)
    (htypes : ∀ x ∈ items, x.type = e)
    {n : Nat}
    (hshallow : ∀ x ∈ items, ∃ m, n = m + 1 ∧ s.Shallow m x.id)
    {w : World}
    (hw : w.store = s) :
    Sequence.writeItems (standardCatalog.conversions n) e items w = (.ok cells, w) := by
  cases hcells with
  | nil =>
      rfl
  | @cons x c xs cs hhead htail =>
      obtain ⟨m, rfl, -⟩ := hshallow x List.mem_cons_self
      obtain ⟨r, hr, -⟩ := hhead.written
      have hwriter : (standardCatalog.conversions (m + 1)).writer? e =
          some (r.toCell (standardCatalog.conversions m)) := by
        rw [Catalog.conversions]
        exact congrArg (Option.map _) hr
      rw [Sequence.writeItems_eq_mapM (fun _ => r.toCell (standardCatalog.conversions m)) e
        (x :: xs) (fun y hy => htypes y hy ▸ hwriter) fun _ _ _ _ _ => rfl]
      refine mapM_run_of_forall₂ ?_
      have hall := (List.forall₂_and_left _ _).2 ⟨hshallow, List.Forall₂.cons hhead htail⟩
      refine hall.imp ?_
      rintro y d ⟨⟨m', hm', hy⟩, htravels⟩
      cases hm'
      obtain ⟨r', hr', hwrites⟩ := htravels.written
      rw [hr] at hr'
      cases hr'
      exact hwrites m w hw hy

/-- Items that need no class are written as the cells that each of them is written as. -/
theorem writeItems_run_of_forall₂
    {n : Nat}
    {w : World}
    (hwithin : ∀ x ∈ items, x.type.Within ∅)
    (h : List.Forall₂ (fun x c => writeCell n x w = (.ok c, w)) items cells) :
    Sequence.writeItems (standardCatalog.conversions (n + 1)) e items w = (.ok cells, w) := by
  have hclasses : DeterminedByName (∅ : Set ManagedClass) := by
    intro c hc
    exact absurd hc (Set.notMem_empty c)
  rw [writeItems_standard hclasses e hwithin n]
  exact mapM_run_of_forall₂ h

/-- Below a level, cells are read by the rule for their shape. -/
theorem readCell_of_rule
    {t : Ty}
    {v : Value}
    {r : Rule}
    (hr : standardCatalog.findByShape? v.shape t = some r)
    (m : Nat) :
    Sequence.readCell (standardCatalog.conversions (m + 1)) t v =
      r.toManaged (standardCatalog.conversions m) t v := by
  have hreader : (standardCatalog.conversions (m + 1)).reader? v.shape t =
      some (r.toManaged (standardCatalog.conversions m)) := by
    rw [Catalog.conversions]
    exact congrArg (Option.map _) hr
  rw [Sequence.readCell, hreader, Action.orFail, pure_bind]

/-- Reading a cell brings a copy of the object that it was written for. -/
theorem brings_readCell
    {c : Value}
    (h : Travels s e o c)
    {n : Nat}
    (hn : c.depth < n) :
    Brings s (Sequence.readCell (standardCatalog.conversions n) e c) o := by
  cases n with
  | zero =>
      exact absurd hn (Nat.not_lt_zero _)
  | succ m =>
      obtain ⟨r, hr, hbrings⟩ := h.read
      rw [readCell_of_rule hr]
      exact hbrings m (Nat.le_of_lt_succ hn)

theorem readLine_copies
    (hcells : List.Forall₂ (Travels s e) items cells)
    {n : Nat}
    (hn : ∀ c ∈ cells, c.depth < n)
    (w : World) :
    ∃ items' w', Sequence.readLine (standardCatalog.conversions n) e cells w = (.ok items', w') ∧
      w.Adds w' ∧ Copied s w w' items items' := by
  rw [Sequence.readLine_eq_mapM]
  refine mapM_brings ?_ w
  refine .flip (((List.forall₂_and_left _ _).2 ⟨hn, hcells.flip⟩).imp ?_)
  rintro c x ⟨hc, htravels⟩
  exact brings_readCell htravels hc

end Items

section Collections

variable {s : Store} {o : Object} {e : Ty} {cells : List Value}

/-- Copies of the items are made first and collected then. -/
theorem Collects.brings
    {make : List Object → Action Object}
    (hmake : Collects s make o)
    {act : Action (List Object)}
    (hact : ∀ w, ∃ items' w', act w = (.ok items', w') ∧ w.Adds w' ∧
      Copied s w w' (s.contents o.id) items') :
    Brings s (act >>= make) o := by
  intro w
  obtain ⟨items', w₁, hrun, hadds, hcopied⟩ := hact w
  obtain ⟨o', w', hcollect, hadds', hfresh, halike⟩ := hmake w w₁ items' hcopied
  refine ⟨o', w', ?_, trans_of World.Adds hadds hadds', ?_, halike⟩
  · rw [bind_run_ok hrun]
    exact hcollect
  · exact Nat.le_trans hadds.growth.size_le hfresh

/-- A collection travels as the line of its items. -/
theorem travels_line
    {r : Rule}
    {what : String}
    {items? : Payload → Option (List Object)}
    {lineValue : List Value → Value}
    {make : Ty → List Object → Action Object}
    (htoCell : ∀ cx o, r.toCell cx o = do
      let items ← Sequence.itemsOf what items? o
      return lineValue (← Sequence.writeItems cx o.type.elementOrAny items))
    (htoManaged : r.toManaged = Sequence.readInto make)
    (hline : ∀ cells, AllFull cells → (lineValue cells).IsLine cells)
    (hbytype : standardCatalog.findByType? o.type = some r)
    (hbyshape : standardCatalog.findByShape? .array o.type = some r)
    (helement : o.type.element? = some e)
    (hitems : items? (s.payload o) = some (s.contents o.id))
    (htypes : ∀ x ∈ s.contents o.id, x.type = e)
    (hcells : List.Forall₂ (Travels s e) (s.contents o.id) cells)
    (hmake : Collects s (make e) o) :
    Travels s o.type o (lineValue cells) := by
  have hshows := hline cells (allFull_of_travels hcells)
  have helementOrAny : o.type.elementOrAny = e := by
    rw [Ty.elementOrAny, helement]
    rfl
  obtain ⟨g, hg, -⟩ := id hshows
  refine ⟨?_, ⟨r, hbytype, ?_⟩, ⟨r, ?_, ?_⟩⟩
  · rw [hg]
    rfl
  · rintro n w rfl hshallow
    rw [htoCell, bind_run_ok (itemsOf_run hitems), helementOrAny,
      bind_run_ok (writeItems_run hcells htypes (fun _ => hshallow.of_mem) rfl)]
    rfl
  · rw [hg]
    exact hbyshape
  · intro n hn w
    have hdepth : ∀ c ∈ cells, c.depth < n := by
      intro c hc
      exact Nat.lt_of_lt_of_le (Value.depth_lt_of_hasCell (hshows.hasCell hc)) hn
    rw [htoManaged, Sequence.readInto, bind_run_ok (hshows.lineOf_run o.type w), helementOrAny]
    exact hmake.brings (readLine_copies hcells hdepth) w

/-- Items that were copied are collected in a new array. -/
theorem collects_array
    (htype : o.type = .array e)
    (hpayload : s.payload o = .array (s.contents o.id)) :
    Collects s (Action.createArray e) o := by
  intro w w₁ items' hcopied
  rw [Action.createArray, ← htype]
  refine create_alike ?_ rfl hcopied.alike
  rw [hpayload]
  rfl

theorem collects_list
    (htype : o.type = .list e)
    (hpayload : s.payload o = .list (s.contents o.id)) :
    Collects s (Action.createList e) o := by
  intro w w₁ items' hcopied
  rw [Action.createList, ← htype]
  refine create_alike ?_ rfl hcopied.alike
  rw [hpayload]
  rfl

/-- Copies of different items are different, so a set keeps them all. -/
theorem collects_set
    (htype : o.type = .set e)
    (hpayload : s.payload o = .set (s.contents o.id))
    (hdifferent : (s.contents o.id).Pairwise fun x y => s.valueEq x y = false) :
    Collects s (Action.createSet e) o := by
  intro w w₁ items' hcopied
  have hkept : w₁.store.distinct items' = items' :=
    Store.distinct_eq_self (hcopied.different hdifferent)
  rw [Action.createSet, bind_run_ok (get_run w₁), hkept, ← htype]
  refine create_alike ?_ rfl hcopied.alike
  rw [hpayload]
  rfl

/-- A row of an array of arrays, and the values of its items. -/
structure RowTravels
    (s : Store)
    (e : Ty)
    (row : Object)
    (cells : List Value) : Prop where
  type : row.type = .array e
  payload : s.payload row = .array (s.contents row.id)
  types : ∀ x ∈ s.contents row.id, x.type = e
  cells : List.Forall₂ (Travels s e) (s.contents row.id) cells

theorem array?_of_payload
    (hpayload : s.payload o = .array (s.contents o.id)) :
    (s.payload o).array? = some (s.contents o.id) := by
  rw [hpayload]
  rfl

/-- The rows of an array of arrays are laid out as an area. -/
theorem jagged_toCell_run
    {rows : List (List Value)}
    (htype : o.type = .array (.array e))
    (hpayload : s.payload o = .array (s.contents o.id))
    (hrows : List.Forall₂ (RowTravels s e) (s.contents o.id) rows)
    {n : Nat}
    (hshallow : s.Shallow n o.id)
    {w : World}
    (hw : w.store = s) :
    Sequence.jagged.toCell (standardCatalog.conversions n) o w =
      (.ok (.array (Value.gridOfRows rows)), w) := by
  subst hw
  have hwritten : List.Forall₂ (fun row cells =>
      (Sequence.itemsOf "an array" Payload.array? row >>=
        Sequence.writeItems (standardCatalog.conversions n) e) w = (.ok cells, w))
      (w.store.contents o.id) rows := by
    refine ((List.forall₂_and_left _ _).2 ⟨fun row => hshallow.of_mem, hrows⟩).imp ?_
    rintro row cells ⟨⟨m, rfl, hrow⟩, htravels⟩
    rw [bind_run_ok (itemsOf_run (array?_of_payload htravels.payload))]
    refine writeItems_run htravels.cells htravels.types ?_ rfl
    intro x hx
    obtain ⟨k, rfl, hk⟩ := hrow.of_mem hx
    exact ⟨k + 1, rfl, hk.succ⟩
  have hdeclared : o.type.elementOrAny.elementOrAny = e := by
    rw [htype]
    rfl
  show (Sequence.itemsOf "an array" Payload.array? o >>= fun outer =>
    Sequence.writeRows (standardCatalog.conversions n) o.type.elementOrAny.elementOrAny outer >>=
      fun rows => pure (Value.array (Value.gridOfRows rows))) w = _
  rw [bind_run_ok (itemsOf_run (array?_of_payload hpayload)), hdeclared,
    Sequence.writeRows_eq_mapM, bind_run_ok (mapM_run_of_forall₂ hwritten)]
  rfl

/-- An area that shows the rows of an array of arrays is read as a copy of it. -/
theorem brings_jagged
    {rows : List (List Value)}
    (htype : o.type = .array (.array e))
    (hpayload : s.payload o = .array (s.contents o.id))
    (hrows : List.Forall₂ (RowTravels s e) (s.contents o.id) rows)
    {v : Value}
    (harea : v.IsArea rows)
    {n : Nat}
    (hn : v.depth ≤ n) :
    Brings s (Sequence.jagged.toManaged (standardCatalog.conversions n) o.type v) o := by
  have hread : List.Forall₂ (fun row cells =>
      Brings s (Sequence.readLine (standardCatalog.conversions n) e cells >>=
        Action.createArray e) row) (s.contents o.id) rows := by
    have hdepth : ∀ row ∈ rows, ∀ c ∈ row, c.depth < n := by
      intro row hrow c hc
      exact Nat.lt_of_lt_of_le (Value.depth_lt_of_hasCell (harea.hasCell hrow hc)) hn
    refine .flip (((List.forall₂_and_left _ _).2 ⟨hdepth, hrows.flip⟩).imp ?_)
    rintro cells row ⟨hcells, hrow⟩
    exact (collects_array hrow.type hrow.payload).brings (readLine_copies hrow.cells hcells)
  have hjagged : Sequence.jagged.toManaged (standardCatalog.conversions n) o.type v =
      (rows.mapM fun row => Sequence.readLine (standardCatalog.conversions n) e row >>=
        Action.createArray e) >>= Action.createArray (.array e) := by
    rw [htype]
    exact harea.readJagged_eq _ e
  rw [hjagged]
  exact (collects_array htype hpayload).brings (mapM_brings hread)

/-- An array of arrays travels as an area, if this area shows its rows. -/
theorem travels_jagged
    {rows : List (List Value)}
    (htype : o.type = .array (.array e))
    (hpayload : s.payload o = .array (s.contents o.id))
    (hrows : List.Forall₂ (RowTravels s e) (s.contents o.id) rows)
    (hshape : s.contents o.id = [] ∨ ∃ row ∈ s.contents o.id, s.contents row.id ≠ []) :
    Travels s o.type o (.array (Value.gridOfRows rows)) := by
  have hfull : ∀ row ∈ rows, AllFull row := by
    intro row hrow
    obtain ⟨x, -, hx⟩ := exists_of_mem_right hrows hrow
    exact allFull_of_travels hx.cells
  have hshape' : rows = [] ∨ ∃ row ∈ rows, row ≠ [] := by
    rcases hshape with hnil | ⟨x, hx, hne⟩
    · rw [hnil] at hrows
      cases hrows
      exact Or.inl rfl
    · obtain ⟨row, hrow, htravels⟩ := exists_of_mem_right hrows.flip hx
      refine Or.inr ⟨row, hrow, ?_⟩
      rintro rfl
      have hlength := htravels.cells.length_eq
      exact hne (List.length_eq_zero_iff.1 hlength)
  refine ⟨rfl, ⟨Sequence.jagged, ?_, ?_⟩, ⟨Sequence.jagged, ?_, ?_⟩⟩
  · rw [htype]
    rfl
  · intro n w hw hshallow
    exact jagged_toCell_run htype hpayload hrows hshallow hw
  · rw [htype]
    rfl
  · intro n hn
    exact brings_jagged htype hpayload hrows (isArea_gridOfRows hfull hshape') hn

end Collections

section Objects

variable {s : Store} {t : Ty} {o : Object}

theorem payload_array
    {e : Ty}
    (hagrees : o.type.Agrees (s.payload o))
    (htype : o.type = .array e) :
    s.payload o = .array (s.contents o.id) := by
  rw [htype] at hagrees
  cases hp : s.payload o <;> rw [hp] at hagrees <;> cases hagrees
  rw [contents_of_items? (congrArg Payload.items? hp)]

theorem payload_list
    {e : Ty}
    (hagrees : o.type.Agrees (s.payload o))
    (htype : o.type = .list e) :
    s.payload o = .list (s.contents o.id) := by
  rw [htype] at hagrees
  cases hp : s.payload o <;> rw [hp] at hagrees <;> cases hagrees
  rw [contents_of_items? (congrArg Payload.items? hp)]

theorem payload_set
    {e : Ty}
    (hagrees : o.type.Agrees (s.payload o))
    (htype : o.type = .set e) :
    s.payload o = .set (s.contents o.id) := by
  rw [htype] at hagrees
  cases hp : s.payload o <;> rw [hp] at hagrees <;> cases hagrees
  rw [contents_of_items? (congrArg Payload.items? hp)]

/-- Plain arrays have a rule of their own, in both directions. -/
theorem findByType?_array
    {e : Ty}
    (hflat : e.isArray = false) :
    standardCatalog.findByType? (.array e) = some Sequence.array := by
  cases e <;> first
    | rfl
    | cases hflat

theorem findByShape?_array
    {e : Ty}
    (hflat : e.isArray = false) :
    standardCatalog.findByShape? .array (.array e) = some Sequence.array := by
  cases e <;> first
    | rfl
    | cases hflat

/-- A plain array travels as a row. -/
theorem travels_array
    {e : Ty}
    {cells : List Value}
    (htype : o.type = .array e)
    (hflat : e.isArray = false)
    (hpayload : s.payload o = .array (s.contents o.id))
    (htypes : ∀ x ∈ s.contents o.id, x.type = e)
    (hcells : List.Forall₂ (Travels s e) (s.contents o.id) cells) :
    Travels s o.type o (Sequence.rowValue cells) := by
  refine travels_line (r := Sequence.array) (fun _ _ => rfl) rfl (fun _ => isLine_rowValue) ?_ ?_ ?_
    (array?_of_payload hpayload) htypes hcells (collects_array htype hpayload)
  · rw [htype]
    exact findByType?_array hflat
  · rw [htype]
    exact findByShape?_array hflat
  · rw [htype]
    rfl

/-- A list travels as a row. -/
theorem travels_list
    {e : Ty}
    {cells : List Value}
    (htype : o.type = .list e)
    (hpayload : s.payload o = .list (s.contents o.id))
    (htypes : ∀ x ∈ s.contents o.id, x.type = e)
    (hcells : List.Forall₂ (Travels s e) (s.contents o.id) cells) :
    Travels s o.type o (Sequence.rowValue cells) := by
  refine travels_line (r := Sequence.list) (fun _ _ => rfl) rfl (fun _ => isLine_rowValue) ?_ ?_ ?_
    (by rw [hpayload]; rfl) htypes hcells (collects_list htype hpayload)
  · rw [htype]
    rfl
  · rw [htype]
    rfl
  · rw [htype]
    rfl

/-- A set travels as a column. -/
theorem travels_set
    {e : Ty}
    {cells : List Value}
    (htype : o.type = .set e)
    (hpayload : s.payload o = .set (s.contents o.id))
    (htypes : ∀ x ∈ s.contents o.id, x.type = e)
    (hdifferent : (s.contents o.id).Pairwise fun x y => s.valueEq x y = false)
    (hcells : List.Forall₂ (Travels s e) (s.contents o.id) cells) :
    Travels s o.type o (Sequence.columnValue cells) := by
  refine travels_line (r := Sequence.set) (fun _ _ => rfl) rfl (fun _ => isLine_columnValue) ?_ ?_
    ?_ (by rw [hpayload]; rfl) htypes hcells (collects_set htype hpayload hdifferent)
  · rw [htype]
    rfl
  · rw [htype]
    rfl
  · rw [htype]
    rfl

theorem rowTravels_of_portable
    {e : Ty}
    (ho : s.Portable (.array e) o)
    (hcells : ∃ cells, List.Forall₂ (Travels s e) (s.contents o.id) cells) :
    ∃ cells, RowTravels s e o cells := by
  obtain ⟨cells, hcells⟩ := hcells
  have htype := ho.type_eq
  refine ⟨cells, htype, payload_array (htype ▸ ho.agrees) htype, ?_, hcells⟩
  intro x hx
  obtain ⟨e', helement, hx⟩ := ho.of_mem hx
  cases helement
  exact hx.type_eq

/-- Every portable object travels, and so do the items of a collection. -/
theorem travels_of_portable
    (ho : s.Portable t o) :
    (∃ v, Travels s t o v) ∧
      ∀ e, t.element? = some e → ∃ cells, List.Forall₂ (Travels s e) (s.contents o.id) cells := by
  induction ho with
  | @scalar o hscalar hagrees hexact =>
      refine ⟨travels_scalar hscalar hagrees hexact, ?_⟩
      intro e _
      rw [Store.contents_of_items?_eq_none (Ty.items?_of_agrees hscalar hagrees)]
      exact ⟨[], .nil⟩
  | @collection o e helement hagrees hitems hrows hdifferent ih =>
      have htypes : ∀ x ∈ s.contents o.id, x.type = e := fun x hx => (hitems x hx).type_eq
      obtain ⟨cells, hcells⟩ := exists_forall₂ fun x hx => (ih x hx).1
      refine ⟨?_, ?_⟩
      · cases htype : o.type with
        | array e₁ =>
            rw [htype] at helement
            cases helement
            rw [← htype]
            have hpayload := payload_array hagrees htype
            cases e with
            | array e =>
                have hrow : ∀ x ∈ s.contents o.id, ∃ cells, RowTravels s e x cells := by
                  intro x hx
                  exact rowTravels_of_portable (hitems x hx) ((ih x hx).2 e rfl)
                obtain ⟨rows, hrowTravels⟩ := exists_forall₂ hrow
                exact ⟨_, travels_jagged htype hpayload hrowTravels (hrows e htype)⟩
            | _ =>
                exact ⟨_, travels_array htype rfl hpayload htypes hcells⟩
        | list e₁ =>
            rw [htype] at helement
            cases helement
            rw [← htype]
            exact ⟨_, travels_list htype (payload_list hagrees htype) htypes hcells⟩
        | set e₁ =>
            rw [htype] at helement
            cases helement
            rw [← htype]
            have hpayload := payload_set hagrees htype
            exact ⟨_, travels_set htype hpayload htypes (hdifferent e htype) hcells⟩
        | _ =>
            rw [htype] at helement
            cases helement
      · intro e' helement'
        rw [helement] at helement'
        cases helement'
        exact ⟨cells, hcells⟩

/-- A bridge writes an object by the rule for its type. -/
theorem toCell_run_of_rule
    {b : Bridge}
    (hb : b.catalog = standardCatalog)
    {r : Rule}
    (hvalue : o.type ≠ .void)
    (hr : standardCatalog.findByType? o.type = some r)
    {v : Value}
    {w : World}
    (hwrite : r.toCell (standardCatalog.conversions (w.store.size + 1)) o w = (.ok v, w)) :
    b.toCell o w = (.ok v, w) := by
  rw [← hb] at hr
  refine Bridge.toCell_run_of_write hvalue hr ?_
  rw [hb, Catalog.write, bind_run_ok (get_run w)]
  exact hwrite

/-- A bridge reads a value by the rule for its shape and the type that is wanted. -/
theorem toManaged_run_of_rule
    {b : Bridge}
    (hb : b.catalog = standardCatalog)
    {r : Rule}
    {v : Value}
    (hr : standardCatalog.findByShape? v.shape t = some r)
    {w w' : World}
    (hread : r.toManaged (standardCatalog.conversions (v.depth + w.store.size + 1)) t v w =
      (.ok o, w')) :
    b.toManaged v t w = (.ok o, w') := by
  rw [← hb] at hr
  refine Bridge.toManaged_run_ok.2 ⟨r, hr, ?_⟩
  rw [hb, Catalog.read, bind_run_ok (get_run w)]
  exact hread

/-- An object that travels goes through the bridge and comes back. -/
theorem Travels.there_and_back
    {b : Bridge}
    (hb : b.catalog = standardCatalog)
    {w : World}
    {v : Value}
    (htravels : Travels w.store o.type o v)
    (hvalue : o.type ≠ .void)
    (hshallow : w.store.Shallow w.store.size o.id) :
    ∃ o' w', b.toCell o w = (.ok v, w) ∧ b.toManaged v o.type w = (.ok o', w') ∧
      w.Adds w' ∧ w.store.Alike w'.store o o' := by
  obtain ⟨-, ⟨r, hr, hwrites⟩, r', hr', hreads⟩ := htravels
  obtain ⟨o', w', hread, hadds, -, halike⟩ := hreads (v.depth + w.store.size + 1) (by omega) w
  exact ⟨o', w', toCell_run_of_rule hb hvalue hr (hwrites _ w rfl hshallow.succ),
    toManaged_run_of_rule hb hr' hread, hadds, halike⟩

/-- An array of empty rows is written as a blank area, which is read as an array without rows. -/
theorem round_trip_of_hollow
    {b : Bridge}
    (hb : b.catalog = standardCatalog)
    {w : World}
    {e : Ty}
    (ho : w.store.Hollow e o) :
    ∃ v o' w', b.toCell o w = (.ok v, w) ∧ b.toManaged v o.type w = (.ok o', w') ∧
      w.Adds w' ∧ o'.type = o.type ∧ w'.store.payload o' = .array [] := by
  have hpayload := payload_array ho.agrees ho.type
  have hrow : ∀ row ∈ w.store.contents o.id, ∃ cells, cells = [] ∧
      RowTravels w.store e row cells := by
    intro row hrow
    obtain ⟨htype, hagrees, hnil⟩ := ho.rows row hrow
    refine ⟨[], rfl, htype, payload_array hagrees htype, ?_, ?_⟩
    · intro x hx
      rw [hnil] at hx
      cases hx
    · rw [hnil]
      exact .nil
  obtain ⟨rows, hrows⟩ := exists_forall₂ hrow
  have hempty : ∀ row ∈ rows, row = [] := by
    intro row hmem
    obtain ⟨x, -, hnil, -⟩ := exists_of_mem_right hrows hmem
    exact hnil
  have hbytype : standardCatalog.findByType? o.type = some Sequence.jagged := by
    rw [ho.type]
    rfl
  have hbyshape : standardCatalog.findByShape? .array o.type = some Sequence.jagged := by
    rw [ho.type]
    rfl
  have hvalue : o.type ≠ .void := by
    rw [ho.type]
    exact Ty.noConfusion
  have hwrite := jagged_toCell_run ho.type hpayload (hrows.imp fun _ _ h => h.2)
    (ho.shallow.mono (Nat.le_add_left 1 w.store.size)) rfl
  have hread : ∀ cx, Sequence.jagged.toManaged cx o.type (.array (Value.gridOfRows rows)) w =
      Action.create o.type (.array []) w := by
    intro cx
    rw [ho.type]
    show Sequence.readJagged _ _ _ w = _
    rw [(isArea_gridOfRows_of_empty hempty).readJagged_eq]
    rfl
  have hmanaged := toManaged_run_of_rule (v := .array (Value.gridOfRows rows)) hb hbyshape
    ((hread _).trans (Action.create_run o.type _ w))
  refine ⟨_, _, _, toCell_run_of_rule hb hvalue hbytype hwrite, hmanaged,
    ⟨rfl, Store.extends_alloc o.type _⟩, rfl, ?_⟩
  exact Store.payload_alloc o.type _

/-- A portable object comes back from the host as a copy of itself, and the heap does not change.
An array of arrays that has only empty rows comes back without rows. -/
theorem round_trip
    {b : Bridge}
    (hb : b.catalog = standardCatalog)
    (w : World) :
    (∀ t o, w.store.Portable t o → ∃ v o' w', b.toCell o w = (.ok v, w) ∧
      b.toManaged v t w = (.ok o', w') ∧ w'.heap = w.heap ∧ w.store.Extends w'.store ∧
        w.store.Alike w'.store o o') ∧
    ∀ e o, w.store.Hollow e o → ∃ v o' w', b.toCell o w = (.ok v, w) ∧
      b.toManaged v (.array (.array e)) w = (.ok o', w') ∧ w'.heap = w.heap ∧
        w.store.Extends w'.store ∧ o'.type = .array (.array e) ∧
          w'.store.payload o' = .array [] := by
  constructor
  · intro t o ho
    obtain ⟨v, htravels⟩ := (travels_of_portable ho).1
    cases ho.type_eq
    obtain ⟨o', w', hwrite, hread, hadds, halike⟩ :=
      htravels.there_and_back hb ho.ne_void ho.shallow
    exact ⟨v, o', w', hwrite, hread, hadds.heap, hadds.growth, halike⟩
  · intro e o ho
    obtain ⟨v, o', w', hwrite, hread, hadds, htype, hpayload⟩ := round_trip_of_hollow hb ho
    rw [ho.type] at hread htype
    exact ⟨v, o', w', hwrite, hread, hadds.heap, hadds.growth, htype, hpayload⟩

section Crate

/-! Two rows of sets of texts, of which the first row is empty. -/

def emptyRow : Object :=
  ⟨.array (.set .text), 0⟩

def fullRow : Object :=
  ⟨.array (.set .text), 1⟩

/-- The set of two texts. -/
def fittings : Object :=
  ⟨.set .text, 2⟩

/-- The array of both rows. -/
def crate : Object :=
  ⟨.array (.array (.set .text)), 5⟩

def emptyCrate : Object :=
  ⟨.array (.array (.set .text)), 6⟩

/-- A store with both arrays and all that they hold. -/
def crateStore : Store where
  payloads := #[.array [], .array [fittings], .set [⟨.text, 3⟩, ⟨.text, 4⟩], .text "bolt",
    .text "nut", .array [emptyRow, fullRow], .array [emptyRow]]

theorem portable_crate :
    crateStore.Portable (.array (.array (.set .text))) crate := by
  have hfittings : crateStore.Portable (.set .text) fittings := by
    refine .collection (o := fittings) rfl trivial ?_ (fun _ h => by cases h) fun _ _ => ?_
    · intro x hx
      rcases List.mem_pair.1 hx with rfl | rfl
      · exact .scalar (o := ⟨.text, 3⟩) rfl trivial trivial
      · exact .scalar (o := ⟨.text, 4⟩) rfl trivial trivial
    · exact Store.pairwise_distinct crateStore [⟨.text, 3⟩, ⟨.text, 4⟩]
  have hfull : crateStore.Portable (.array (.set .text)) fullRow := by
    refine .collection (o := fullRow) rfl trivial ?_ (fun _ h => by cases h) fun _ h => by cases h
    intro x hx
    cases List.mem_singleton.1 hx
    exact hfittings
  have hempty : crateStore.Portable (.array (.set .text)) emptyRow := by
    refine .collection (o := emptyRow) rfl trivial ?_ (fun _ h => by cases h) fun _ h => by cases h
    intro x hx
    cases hx
  refine .collection (o := crate) rfl trivial ?_ ?_ fun _ h => by cases h
  · intro x hx
    rcases List.mem_pair.1 hx with rfl | rfl
    · exact hempty
    · exact hfull
  · intro _ _
    exact Or.inr ⟨fullRow, List.mem_pair.2 (Or.inr rfl), List.cons_ne_nil _ _⟩

theorem hollow_emptyCrate :
    crateStore.Hollow (.set .text) emptyCrate := by
  refine ⟨rfl, trivial, ?_⟩
  intro row hrow
  cases List.mem_singleton.1 hrow
  exact ⟨rfl, trivial, rfl⟩

/-- Both rows come back, the empty row alone does not. -/
theorem round_trip_crate :
    let b := (Bridge.empty {}).withStandardRules
    let w : World := { store := crateStore, heap := Heap.empty 0 1 }
    (∃ v o' w', b.toCell crate w = (.ok v, w) ∧
      b.toManaged v (.array (.array (.set .text))) w = (.ok o', w') ∧ w'.heap = w.heap ∧
        w.store.Extends w'.store ∧ w.store.Alike w'.store crate o') ∧
    ∃ v o' w', b.toCell emptyCrate w = (.ok v, w) ∧
      b.toManaged v (.array (.array (.set .text))) w = (.ok o', w') ∧ w'.heap = w.heap ∧
        w.store.Extends w'.store ∧ o'.type = .array (.array (.set .text)) ∧
          w'.store.payload o' = .array [] := by
  intro b w
  have h := round_trip (b := b) rfl w
  exact ⟨h.1 _ crate portable_crate, h.2 _ emptyCrate hollow_emptyCrate⟩

end Crate

end Objects

end CellBridge

import CellBridge.Proofs.Conversion.StandardRules

/-!
# Writing by the standard rules

Writing an object interns objects and leaves the store as it is: every standard rule `WritesWell`.
A rule for a collection writes the items through other rules, so conversions are nested as deep as
containment is.  In a sound store this is no deeper than the store is large, and `Catalog.write`
provides for that much: `Catalog.ends_write`.
-/

namespace CellBridge

section Defs

/-- The writer ends on objects in which containment is nested less than `d` deep. -/
def Writer.WritesBelow
    (writer : Writer)
    (s : Store)
    (d : Nat) : Prop :=
  ∀ k, k < d → ∀ (o : Object) (w : World), w.store = s → w.Sound → Known o w →
    s.Shallow k o.id → Ends World.Renders (writer o) w fun _ _ => True

/-- All writers do so. -/
def Conversions.WritesBelow
    (cx : Conversions)
    (s : Store)
    (d : Nat) : Prop :=
  ∀ t writer, cx.writer? t = some writer → Writer.WritesBelow writer s d

/-- The rule writes well if the conversions that it calls do. -/
def Rule.WritesWell
    (r : Rule) : Prop :=
  ∀ (cx : Conversions) (k : Nat) (o : Object) (w : World), cx.WritesBelow w.store k → w.Sound →
    Known o w → w.store.Shallow k o.id → Ends World.Renders (r.toCell cx o) w fun _ _ => True

/-- The items of the payload, if it is of the kind that a rule looks for. -/
def Payload.Views
    (items? : Payload → Option (List Object)) : Prop :=
  ∀ (p : Payload) (items : List Object), items? p = some items → p.items? = some items

end Defs

section Payloads

theorem views_array :
    Payload.Views Payload.array? := by
  intro p items h
  cases p <;> first
    | exact h
    | cases h

theorem views_list :
    Payload.Views Payload.list? := by
  intro p items h
  cases p <;> first
    | exact h
    | cases h

theorem views_set :
    Payload.Views Payload.set? := by
  intro p items h
  cases p <;> first
    | exact h
    | cases h

theorem contents_of_items?
    {s : Store}
    {o : Object}
    {items : List Object}
    (h : (s.payload o).items? = some items) :
    s.contents o.id = items := by
  rw [Store.contents]
  exact congrArg (fun x => x.getD []) h

end Payloads

section Items

variable {w : World} {cx : Conversions} {d : Nat}

/-- An object that may be written by conversions that write below `d`. -/
def Writable
    (s : Store)
    (d : Nat)
    (o : Object) : Prop :=
  s.Knows o ∧ ∃ j, j < d ∧ s.Shallow j o.id

theorem writable_of_mem
    {s : Store}
    (hs : s.Sound)
    {k i : Nat}
    (hi : s.Shallow k i)
    {o : Object}
    (ho : o ∈ s.contents i) :
    Writable s k o := by
  obtain ⟨j, rfl, hj⟩ := hi.of_mem ho
  exact ⟨hs.known i o ho, j, Nat.lt_succ_self j, hj⟩

theorem ends_itemsOf
    (what : String)
    {items? : Payload → Option (List Object)}
    (hview : Payload.Views items?)
    (o : Object)
    (hs : w.Sound) :
    Ends World.Renders (Sequence.itemsOf what items? o) w
      fun items w' => w = w' ∧ w.store.contents o.id = items := by
  refine (Ends.payload o hs.renders).bind ?_
  rintro _ _ - ⟨rfl, rfl⟩
  refine Ends.orFail _ hs.renders ?_
  intro items hitems
  exact ⟨rfl, contents_of_items? (hview _ items hitems)⟩

theorem ends_lookupWriter
    (hcx : cx.WritesBelow w.store d)
    (declared actual : Ty)
    (hs : w.Sound) :
    Ends World.Renders (Sequence.lookupWriter cx declared actual) w
      fun writer w' => w' = w ∧ Writer.WritesBelow writer w.store d := by
  refine Ends.orFail _ hs.renders ?_
  intro writer hwriter
  refine ⟨rfl, ?_⟩
  rcases Option.or_eq_some_iff.1 hwriter with hactual | ⟨-, hdeclared⟩
  · exact hcx actual writer hactual
  · exact hcx declared writer hdeclared

/-- Writing items from left to right; the writer that is kept writes as well as one looked up. -/
theorem ends_writeItemsFrom
    (s : Store)
    (hcx : cx.WritesBelow s d)
    (declared : Ty)
    (items : List Object)
    (hitems : ∀ o ∈ items, Writable s d o)
    (last : Option (Ty × Writer))
    (hlast : ∀ t writer, last = some (t, writer) → Writer.WritesBelow writer s d)
    (hstore : w.store = s)
    (hs : w.Sound) :
    Ends World.Renders (Sequence.writeItemsFrom cx declared last items) w fun _ _ => True := by
  induction items generalizing w last with
  | nil =>
      exact Ends.pure hs.renders trivial
  | cons o os ih =>
      have hrest : ∀ (found : Ty × Writer) w₁, w.Renders w₁ → Writer.WritesBelow found.2 s d →
          Ends World.Renders
            (do
              let v ← found.2 o
              let vs ← Sequence.writeItemsFrom cx declared (some (found.1, found.2)) os
              return v :: vs)
            w₁ fun _ _ => True := by
        rintro ⟨t, writer⟩ w₁ hw₁ hwrites
        have hstore₁ := hw₁.store.trans hstore
        obtain ⟨hknown, j, hj, hshallow⟩ := hitems o List.mem_cons_self
        have hknown₁ : Known o w₁ := by
          rw [Known, hstore₁]
          exact hknown
        refine (hwrites j hj o w₁ hstore₁ hw₁.sound hknown₁ hshallow).bind ?_
        intro v w₂ hw₂ _
        have hkept : ∀ t' writer', some (t, writer) = some (t', writer') →
            Writer.WritesBelow writer' s d := by
          rintro t' writer' heq
          cases heq
          exact hwrites
        have htail := ih (fun x hx => hitems x (List.mem_cons_of_mem o hx)) (some (t, writer))
          hkept (hw₂.store.trans hstore₁) hw₂.sound
        refine htail.bind ?_
        intro vs w₃ hw₃ _
        exact Ends.pure hw₃.sound.renders trivial
      have hlookup : Ends World.Renders
          ((o.type, ·) <$> Sequence.lookupWriter cx declared o.type) w
          fun found _ => Writer.WritesBelow found.2 s d := by
        rw [← hstore] at hcx ⊢
        rw [map_eq_pure_bind]
        refine (ends_lookupWriter hcx declared o.type hs).bind ?_
        rintro writer w₁ hw₁ ⟨rfl, hwrites⟩
        exact Ends.pure hs.renders hwrites
      unfold Sequence.writeItemsFrom
      dsimp only
      split
      · split
        · exact (Ends.pure hs.renders (hlast _ _ rfl)).bind hrest
        · exact hlookup.bind hrest
      · exact hlookup.bind hrest

theorem ends_writeItems
    (s : Store)
    (hcx : cx.WritesBelow s d)
    (declared : Ty)
    (items : List Object)
    (hitems : ∀ o ∈ items, Writable s d o)
    (hstore : w.store = s)
    (hs : w.Sound) :
    Ends World.Renders (Sequence.writeItems cx declared items) w fun _ _ => True := by
  refine ends_writeItemsFrom s hcx declared items hitems none ?_ hstore hs
  intro t writer heq
  cases heq

/-- Writing a collection as a line. -/
theorem ends_writeLine
    (what : String)
    {items? : Payload → Option (List Object)}
    (hview : Payload.Views items?)
    (lineValue : List Value → Value)
    {o : Object}
    (hcx : cx.WritesBelow w.store d)
    (hs : w.Sound)
    (hshallow : w.store.Shallow d o.id) :
    Ends World.Renders
      (do
        let items ← Sequence.itemsOf what items? o
        return lineValue (← Sequence.writeItems cx o.type.elementOrAny items))
      w fun _ _ => True := by
  refine (ends_itemsOf what hview o hs).bind ?_
  rintro items _ - ⟨rfl, rfl⟩
  have hitems : ∀ x ∈ w.store.contents o.id, Writable w.store d x := by
    intro x hx
    exact writable_of_mem hs.store hshallow hx
  refine (ends_writeItems w.store hcx _ _ hitems rfl hs).bind ?_
  intro vs w₁ hw₁ _
  exact Ends.pure hw₁.sound.renders trivial

/-- The rows of an array of arrays lie two steps below it. -/
theorem ends_writeRows
    (s : Store)
    (hcx : cx.WritesBelow s d)
    (declared : Ty)
    (rows : List Object)
    (hrows : ∀ o ∈ rows, Writable s d o)
    (hstore : w.store = s)
    (hs : w.Sound) :
    Ends World.Renders (Sequence.writeRows cx declared rows) w fun _ _ => True := by
  induction rows generalizing w with
  | nil =>
      exact Ends.pure hs.renders trivial
  | cons o os ih =>
      refine (ends_itemsOf "an array" views_array o hs).bind ?_
      rintro items _ - ⟨rfl, rfl⟩
      have hitems : ∀ x ∈ w.store.contents o.id, Writable s d x := by
        obtain ⟨-, j, hj, hshallow⟩ := hrows o List.mem_cons_self
        rw [hstore]
        intro x hx
        obtain ⟨hknown, k, hk, hx⟩ := writable_of_mem (hstore ▸ hs.store) hshallow hx
        exact ⟨hknown, k, Nat.lt_trans hk hj, hx⟩
      refine (ends_writeItems s hcx declared _ hitems hstore hs).bind ?_
      intro row w₁ hw₁ _
      have htail := ih (fun x hx => hrows x (List.mem_cons_of_mem o hx))
        (hw₁.store.trans hstore) hw₁.sound
      refine htail.bind ?_
      intro vs w₂ hw₂ _
      exact Ends.pure hw₂.sound.renders trivial

theorem ends_writeHandle
    {o : Object}
    (hs : w.Sound)
    (ho : Known o w) :
    Ends World.Renders (Reference.writeHandle o) w fun _ _ => True := by
  refine (Ends.payload o hs.renders).bind ?_
  rintro _ _ - ⟨rfl, rfl⟩
  split
  · exact Ends.pure hs.renders trivial
  · refine (Ends.intern hs ho).bind ?_
    intro h w₁ hw₁ _
    exact Ends.pure hw₁.sound.renders trivial

/-- Writing what the payload shows. -/
theorem ends_writeView
    (e : BridgeError)
    (view : Payload → Option Value)
    (o : Object)
    (hs : w.Sound) :
    Ends World.Renders
      (do
        Action.orFail e (view (← Action.payload o)))
      w fun _ _ => True := by
  refine (Ends.payload o hs.renders).bind ?_
  rintro _ _ - ⟨rfl, rfl⟩
  exact Ends.orFail e hs.renders fun _ _ => trivial

end Items

section Rules

theorem writesWell_scalar
    (name : String)
    (shape : Shape)
    (type : Ty)
    (priority : Int32)
    (value? : Object → Payload → Option Value)
    (read : Value → Action Object) :
    (Scalar.rule name shape type priority value? read).WritesWell := by
  intro cx k o w hcx hs ho hshallow
  exact ends_writeView _ (value? o) o hs

/-- Every standard rule writes well. -/
theorem writesWell_of_standard
    {r : Rule}
    (hr : r ∈ standardRules) :
    r.WritesWell := by
  refine forall_standardRules (P := Rule.WritesWell) ?scalar ?tagged ?array ?list ?jagged ?enum ?set
    ?boxing r hr
  case scalar =>
    intro shape t read _ name priority value?
    exact writesWell_scalar name shape t priority value? read
  case tagged =>
    intro cx k o w hcx hs ho hshallow
    exact ends_writeView _ Payload.tagged? o hs
  case array =>
    intro cx k o w hcx hs ho hshallow
    exact ends_writeLine "an array" views_array Sequence.rowValue hcx hs hshallow
  case list =>
    intro cx k o w hcx hs ho hshallow
    exact ends_writeLine "a list" views_list Sequence.rowValue hcx hs hshallow
  case jagged =>
    intro cx k o w hcx hs ho hshallow
    refine (ends_itemsOf "an array" views_array o hs).bind ?_
    rintro items _ - ⟨rfl, rfl⟩
    have hitems : ∀ x ∈ w.store.contents o.id, Writable w.store k x := by
      intro x hx
      exact writable_of_mem hs.store hshallow hx
    refine (ends_writeRows w.store hcx _ _ hitems rfl hs).bind ?_
    intro rows w₁ hw₁ _
    exact Ends.pure hw₁.sound.renders trivial
  case enum =>
    intro cx k o w hcx hs ho hshallow
    exact ends_writeView _ (fun p => p.constant?.map fun c => .text c.2) o hs
  case set =>
    intro cx k o w hcx hs ho hshallow
    exact ends_writeLine "a set" views_set Sequence.columnValue hcx hs hshallow
  case boxing =>
    intro cx k o w hcx hs ho hshallow
    exact ends_writeHandle hs ho

end Rules

section Catalogs

theorem Conversions.WritesBelow.mono
    {cx : Conversions}
    {s : Store}
    {d d' : Nat}
    (hcx : cx.WritesBelow s d)
    (hle : d' ≤ d) :
    cx.WritesBelow s d' := by
  intro t writer hwriter k hk
  exact hcx t writer hwriter k (Nat.lt_of_lt_of_le hk hle)

namespace Catalog

variable {c : Catalog}

theorem mem_of_findByType?
    {t : Ty}
    {r : Rule}
    (h : c.findByType? t = some r) :
    r ∈ c.rules := by
  exact List.mem_of_find?_eq_some h

/-- Conversions that are nested `n` deep write what is nested less deep. -/
theorem writesBelow_conversions
    (hc : ∀ r ∈ c.rules, r.WritesWell)
    (s : Store)
    (n : Nat) :
    (c.conversions n).WritesBelow s n := by
  induction n with
  | zero =>
      intro t writer hwriter k hk
      exact absurd hk (Nat.not_lt_zero k)
  | succ n ih =>
      intro t writer hwriter k hk o w hstore hs ho hshallow
      rw [conversions] at hwriter
      obtain ⟨r, hr, rfl⟩ := Option.map_eq_some_iff.1 hwriter
      subst hstore
      exact hc r (mem_of_findByType? hr) _ k o w (ih.mono (Nat.le_of_lt_succ hk)) hs ho hshallow

/-- Writing by a rule of a catalog whose rules write well. -/
theorem ends_write
    (hc : ∀ r ∈ c.rules, r.WritesWell)
    {r : Rule}
    (hr : r ∈ c.rules)
    {o : Object}
    {w : World}
    (hs : w.Sound)
    (ho : Known o w) :
    Ends World.Renders (c.write r o) w fun _ _ => True := by
  refine (Ends.get hs.renders).bind ?_
  rintro _ _ - ⟨rfl, rfl⟩
  refine hc r hr _ _ o _ ?_ hs ho (hs.store.shallow o.id)
  exact (writesBelow_conversions hc _ _).mono (by omega)

end Catalog

end Catalogs

end CellBridge

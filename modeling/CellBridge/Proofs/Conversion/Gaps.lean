import CellBridge.Proofs.Conversion.StandardRules

/-!
# Actions that differ in a gap

Two actions can differ in what they come to where the first one ends with a certain fault.  A `Gap`
says with which, and what the second one may come to there.  `g.Covers act act'` says that outside
of the gap the second action does what the first one does.  Sequencing preserves this,
`Gap.Covers.bind`.

A rule reaches other conversions through lookups, and could notice the difference there.  It does
not if it `Relays`: it goes on after a conversion only with a result.  Such rules, and the standard
rules among them, keep to a gap when the conversions that they call do: `keepsTo_of_relays` and
`keepsTo_of_standard`.
-/

namespace CellBridge

section Defs

/-- Where an action ends with a fault and leaves a world, what another one may come to instead.
What is done after the other one does not lead out of the gap. -/
structure Gap where
  allows : {α : Type} → Fault → World → Except Fault α × World → Prop
  bind : ∀ {α β : Type} {f : Fault} {w w₀ : World} {act : Action α} (next : α → Action β),
    allows f w (act w₀) → allows f w ((act >>= next) w₀)

namespace Gap

variable (g : Gap)

/-- Outside of the gap, the second action does what the first one does. -/
def Covers
    {α : Type}
    (act act' : Action α) : Prop :=
  ∀ w, act' w = act w ∨ ∃ f w', act w = (.error f, w') ∧ g.allows f w' (act' w)

def CoversReader
    (reader reader' : Reader) : Prop :=
  ∀ t v, g.Covers (reader t v) (reader' t v)

def CoversWriter
    (writer writer' : Writer) : Prop :=
  ∀ o, g.Covers (writer o) (writer' o)

/-- The same conversions can be found, and outside of the gap they do the same. -/
structure CoversAll
    (cx cx' : Conversions) : Prop where
  readers : ∀ shape required,
    Option.Rel g.CoversReader (cx.reader? shape required) (cx'.reader? shape required)
  writers : ∀ t, Option.Rel g.CoversWriter (cx.writer? t) (cx'.writer? t)

end Gap

/-- Conversions that are kept for the same purpose, of which the second one is related to the
first. -/
def KeptAlike
    {κ γ : Type}
    (r : γ → γ → Prop)
    (kept kept' : κ × γ) : Prop :=
  kept'.1 = kept.1 ∧ r kept.2 kept'.2

/-- An action that passes on the errors of the conversions that it calls.  It takes steps of its
own, which may end in any way, looks conversions up, and goes on after a conversion only with the
result of that. -/
inductive Relays
    {α : Type} : (Conversions → Action α) → Prop
  | own
      (act : Action α) :
      Relays fun _ => act
  | step
      {β : Type}
      (act : Action β)
      {next : β → Conversions → Action α}
      (hnext : ∀ b, Relays (next b)) :
      Relays fun cx => act >>= fun b => next b cx
  | reading
      (shape : Shape)
      (required t : Ty)
      (v : Value)
      {next : Object → Conversions → Action α}
      {missing : Conversions → Action α}
      (hnext : ∀ o, Relays (next o))
      (hmissing : Relays missing) :
      Relays fun cx =>
        match cx.reader? shape required with
        | some reader => reader t v >>= fun o => next o cx
        | none => missing cx
  | writing
      (t : Ty)
      (o : Object)
      {next : Value → Conversions → Action α}
      {missing : Conversions → Action α}
      (hnext : ∀ v, Relays (next v))
      (hmissing : Relays missing) :
      Relays fun cx =>
        match cx.writer? t with
        | some writer => writer o >>= fun v => next v cx
        | none => missing cx

/-- Both directions of the rule pass on the errors of the conversions that they call. -/
structure Rule.Relays
    (r : Rule) : Prop where
  toCell : ∀ o, CellBridge.Relays fun cx => r.toCell cx o
  toManaged : ∀ t v, CellBridge.Relays fun cx => r.toManaged cx t v

/-- The rules of the catalog besides the standard ones pass on the errors of the conversions that they
call. -/
def Catalog.Relays
    (c : Catalog) : Prop :=
  ∀ r ∈ c.rules, r ∈ standardRules ∨ r.Relays

/-- The rule keeps to the gap when the conversions that it calls do. -/
structure Rule.KeepsTo
    (r : Rule)
    (g : Gap) : Prop where
  toCell : ∀ {cx cx' : Conversions}, g.CoversAll cx cx' → ∀ o,
    g.Covers (r.toCell cx o) (r.toCell cx' o)
  toManaged : ∀ {cx cx' : Conversions}, g.CoversAll cx cx' → ∀ t v,
    g.Covers (r.toManaged cx t v) (r.toManaged cx' t v)

end Defs

namespace Gap.Covers

variable {g : Gap} {α β : Type} {act act' : Action α} {next next' : α → Action β}

theorem refl
    (act : Action α) :
    g.Covers act act := by
  intro w
  exact Or.inl rfl

/-- Steps are covered one by one. -/
theorem bind
    (hact : g.Covers act act')
    (hnext : ∀ a, g.Covers (next a) (next' a)) :
    g.Covers (act >>= next) (act' >>= next') := by
  intro w
  rcases hact w with heq | ⟨f, w', hfault, hallows⟩
  · rw [bind_run, bind_run, heq]
    cases act w with
    | mk result w' =>
        cases result with
        | ok a =>
            exact hnext a w'
        | error f =>
            exact Or.inl rfl
  · exact Or.inr ⟨f, w', bind_run_error hfault, g.bind next' hallows⟩

theorem bind_right
    (act : Action α)
    (hnext : ∀ a, g.Covers (next a) (next' a)) :
    g.Covers (act >>= next) (act >>= next') := by
  exact (refl act).bind hnext

theorem bind_left
    (hact : g.Covers act act')
    (next : α → Action β) :
    g.Covers (act >>= next) (act' >>= next) := by
  exact hact.bind fun a => refl (next a)

end Gap.Covers

section Lookups

variable {g : Gap} {cx cx' : Conversions} {α : Type}

/-- What relays stays within a gap if the conversions that it calls do. -/
theorem Relays.covers
    {f : Conversions → Action α}
    (h : Relays f)
    (hcx : g.CoversAll cx cx') :
    g.Covers (f cx) (f cx') := by
  induction h with
  | own act =>
      exact Gap.Covers.refl act
  | step act _ ih =>
      exact Gap.Covers.bind_right act ih
  | reading shape required t v _ _ ihnext ihmissing =>
      have hreaders := hcx.readers shape required
      dsimp only
      generalize cx.reader? shape required = found at hreaders ⊢
      generalize cx'.reader? shape required = found' at hreaders ⊢
      cases hreaders with
      | none =>
          exact ihmissing
      | some hreader =>
          exact (hreader t v).bind ihnext
  | writing t o _ _ ihnext ihmissing =>
      have hwriters := hcx.writers t
      dsimp only
      generalize cx.writer? t = found at hwriters ⊢
      generalize cx'.writer? t = found' at hwriters ⊢
      cases hwriters with
      | none =>
          exact ihmissing
      | some hwriter =>
          exact (hwriter o).bind ihnext

/-- What a lookup finds is used in two ways, one related to the other. -/
theorem rel_map
    {γ : Type}
    {r : γ → γ → Prop}
    {found : Option Rule}
    {use use' : Rule → γ}
    (huse : ∀ rule, found = some rule → r (use rule) (use' rule)) :
    Option.Rel r (found.map use) (found.map use') := by
  cases found with
  | none =>
      exact .none
  | some rule =>
      exact .some (huse rule rfl)

theorem keepsTo_of_relays
    {r : Rule}
    (h : r.Relays) :
    r.KeepsTo g := by
  exact ⟨fun hcx o => (h.toCell o).covers hcx, fun hcx t v => (h.toManaged t v).covers hcx⟩

end Lookups

section Sequences

open Sequence

variable {g : Gap} {cx cx' : Conversions}

/-- A lookup that must succeed stays within a gap if what it is used for does. -/
theorem covers_orFail
    {γ : Type}
    {r : γ → γ → Prop}
    {x x' : Option γ}
    {β : Type}
    {use use' : γ → Action β}
    (e : BridgeError)
    (hx : Option.Rel r x x')
    (huse : ∀ a a', r a a' → g.Covers (use a) (use' a')) :
    g.Covers (Action.orFail e x >>= use) (Action.orFail e x' >>= use') := by
  cases hx with
  | none =>
      exact Gap.Covers.refl _
  | some h =>
      exact huse _ _ h

/-- The reader that is kept stays within a gap as one that is looked up does. -/
theorem covers_readLineFrom
    (hcx : g.CoversAll cx cx')
    (elem : Ty)
    (cells : List Value)
    {last last' : Option (Shape × Reader)}
    (hlast : Option.Rel (KeptAlike g.CoversReader) last last') :
    g.Covers (readLineFrom cx elem last cells) (readLineFrom cx' elem last' cells) := by
  induction cells generalizing last last' with
  | nil =>
      exact Gap.Covers.refl _
  | cons v vs ih =>
      have hrest : ∀ reader reader' : Reader, g.CoversReader reader reader' →
          g.Covers
            (reader elem v >>= fun o =>
              readLineFrom cx elem (some (v.shape, reader)) vs >>= fun os => pure (o :: os))
            (reader' elem v >>= fun o =>
              readLineFrom cx' elem (some (v.shape, reader')) vs >>= fun os => pure (o :: os)) := by
        intro reader reader' hreader
        have hkept : KeptAlike g.CoversReader (v.shape, reader) (v.shape, reader') := ⟨rfl, hreader⟩
        refine (hreader elem v).bind fun o => ?_
        exact (ih (.some hkept)).bind_left _
      have hlookup := covers_orFail (.noCompatibleConverter v.shape elem.display)
        (hcx.readers v.shape elem) hrest
      cases hlast with
      | none =>
          exact hlookup
      | @some kept kept' h =>
          obtain ⟨s, reader⟩ := kept
          obtain ⟨s', reader'⟩ := kept'
          obtain ⟨hshape, hreader⟩ := h
          cases hshape
          unfold readLineFrom
          dsimp only
          split
          · rw [pure_bind, pure_bind]
            exact hrest reader reader' hreader
          · exact hlookup

theorem covers_readLine
    (hcx : g.CoversAll cx cx')
    (elem : Ty)
    (cells : List Value) :
    g.Covers (readLine cx elem cells) (readLine cx' elem cells) := by
  exact covers_readLineFrom hcx elem cells .none

/-- The writer for a type, or else for another one. -/
theorem Gap.CoversAll.writers_or
    (hcx : g.CoversAll cx cx')
    (actual declared : Ty) :
    Option.Rel g.CoversWriter ((cx.writer? actual).or (cx.writer? declared))
      ((cx'.writer? actual).or (cx'.writer? declared)) := by
  have hactual := hcx.writers actual
  revert hactual
  cases cx.writer? actual <;> cases cx'.writer? actual <;> intro hactual
  · exact hcx.writers declared
  · cases hactual
  · cases hactual
  · exact hactual

/-- The writer that is kept stays within a gap as one that is looked up does. -/
theorem covers_writeItemsFrom
    (hcx : g.CoversAll cx cx')
    (declared : Ty)
    (items : List Object)
    {last last' : Option (Ty × Writer)}
    (hlast : Option.Rel (KeptAlike g.CoversWriter) last last') :
    g.Covers (writeItemsFrom cx declared last items) (writeItemsFrom cx' declared last' items) := by
  induction items generalizing last last' with
  | nil =>
      exact Gap.Covers.refl _
  | cons o os ih =>
      have hrest : ∀ (t : Ty) (writer writer' : Writer), g.CoversWriter writer writer' →
          g.Covers
            (writer o >>= fun v =>
              writeItemsFrom cx declared (some (t, writer)) os >>= fun vs => pure (v :: vs))
            (writer' o >>= fun v =>
              writeItemsFrom cx' declared (some (t, writer')) os >>= fun vs => pure (v :: vs)) := by
        intro t writer writer' hwriter
        have hkept : KeptAlike g.CoversWriter (t, writer) (t, writer') := ⟨rfl, hwriter⟩
        refine (hwriter o).bind fun v => ?_
        exact (ih (.some hkept)).bind_left _
      have hlookup : g.Covers
          ((o.type, ·) <$> lookupWriter cx declared o.type >>= fun found =>
            found.2 o >>= fun v =>
              writeItemsFrom cx declared (some (found.1, found.2)) os >>= fun vs => pure (v :: vs))
          ((o.type, ·) <$> lookupWriter cx' declared o.type >>= fun found =>
            found.2 o >>= fun v =>
              writeItemsFrom cx' declared (some (found.1, found.2)) os >>= fun vs =>
                pure (v :: vs)) := by
        rw [map_eq_pure_bind, map_eq_pure_bind, bind_assoc, bind_assoc]
        refine covers_orFail _ (hcx.writers_or o.type declared) ?_
        intro writer writer' hwriter
        rw [pure_bind, pure_bind]
        exact hrest o.type writer writer' hwriter
      cases hlast with
      | none =>
          exact hlookup
      | @some kept kept' h =>
          obtain ⟨t, writer⟩ := kept
          obtain ⟨t', writer'⟩ := kept'
          obtain ⟨htype, hwriter⟩ := h
          cases htype
          unfold writeItemsFrom
          dsimp only
          split
          · rw [pure_bind, pure_bind]
            exact hrest t writer writer' hwriter
          · exact hlookup

theorem covers_writeItems
    (hcx : g.CoversAll cx cx')
    (declared : Ty)
    (items : List Object) :
    g.Covers (writeItems cx declared items) (writeItems cx' declared items) := by
  exact covers_writeItemsFrom hcx declared items .none

theorem covers_writeRows
    (hcx : g.CoversAll cx cx')
    (declared : Ty)
    (rows : List Object) :
    g.Covers (writeRows cx declared rows) (writeRows cx' declared rows) := by
  induction rows with
  | nil =>
      exact Gap.Covers.refl _
  | cons o os ih =>
      refine Gap.Covers.bind_right _ fun items => ?_
      refine (covers_writeItems hcx declared items).bind fun row => ?_
      exact ih.bind_left _

theorem covers_readRows
    (hcx : g.CoversAll cx cx')
    (elem : Ty)
    (rows : List (List Value)) :
    g.Covers (readRows cx elem rows) (readRows cx' elem rows) := by
  induction rows with
  | nil =>
      exact Gap.Covers.refl _
  | cons row rows ih =>
      refine (covers_readLine hcx elem (trimRow row)).bind fun items => ?_
      refine Gap.Covers.bind_right _ fun o => ?_
      exact ih.bind_left _

/-- Lines are read within a gap if their elements are. -/
theorem covers_readInto
    (make : Ty → List Object → Action Object)
    (hcx : g.CoversAll cx cx')
    (expected : Ty)
    (v : Value) :
    g.Covers (readInto make cx expected v) (readInto make cx' expected v) := by
  refine Gap.Covers.bind_right _ fun cells => ?_
  exact (covers_readLine hcx expected.elementOrAny cells).bind_left _

/-- Lines are written within a gap if their elements are. -/
theorem covers_writeLine
    (what : String)
    (items? : Payload → Option (List Object))
    (lineValue : List Value → Value)
    (hcx : g.CoversAll cx cx')
    (o : Object) :
    g.Covers
      (itemsOf what items? o >>= fun items =>
        writeItems cx o.type.elementOrAny items >>= fun cells => pure (lineValue cells))
      (itemsOf what items? o >>= fun items =>
        writeItems cx' o.type.elementOrAny items >>= fun cells => pure (lineValue cells)) := by
  refine Gap.Covers.bind_right _ fun items => ?_
  exact (covers_writeItems hcx o.type.elementOrAny items).bind_left _

end Sequences

section Rules

open Sequence

/-- A rule that calls no other conversions keeps to every gap. -/
theorem keepsTo_of_alone
    {r : Rule}
    (hcell : ∀ cx cx', r.toCell cx = r.toCell cx')
    (hmanaged : ∀ cx cx', r.toManaged cx = r.toManaged cx') :
    r.KeepsTo g := by
  constructor
  · intro cx cx' _ o
    rw [hcell cx cx']
    exact Gap.Covers.refl _
  · intro cx cx' _ t v
    rw [hmanaged cx cx']
    exact Gap.Covers.refl _

theorem keepsTo_jagged :
    jagged.KeepsTo g := by
  constructor
  · intro cx cx' hcx o
    refine Gap.Covers.bind_right _ fun outer => ?_
    exact (covers_writeRows hcx _ outer).bind_left _
  · intro cx cx' hcx t v
    refine Gap.Covers.bind_right _ fun g => ?_
    split
    · exact Gap.Covers.refl _
    · exact (covers_readRows hcx _ g.rows).bind_left _

/-- Every standard rule keeps to a gap when the conversions that it calls do. -/
theorem keepsTo_of_standard
    {r : Rule}
    (hr : r ∈ standardRules) :
    r.KeepsTo g := by
  refine forall_standardRules (P := fun r => r.KeepsTo g) ?scalar ?tagged ?array ?list
    keepsTo_jagged ?enum ?set ?boxing r hr
  case array =>
    exact ⟨covers_writeLine "an array" Payload.array? rowValue, covers_readInto Action.createArray⟩
  case list =>
    exact ⟨covers_writeLine "a list" Payload.list? rowValue, covers_readInto Action.createList⟩
  case set =>
    exact ⟨covers_writeLine "a set" Payload.set? columnValue, covers_readInto Action.createSet⟩
  case scalar =>
    intro shape t read _ name priority value?
    exact keepsTo_of_alone (fun _ _ => rfl) fun _ _ => rfl
  all_goals
    exact keepsTo_of_alone (fun _ _ => rfl) fun _ _ => rfl

theorem Catalog.Relays.keepsTo
    {c : Catalog}
    (hc : c.Relays)
    {r : Rule}
    (hr : r ∈ c.rules) :
    r.KeepsTo g := by
  rcases hc r hr with hstandard | hrelays
  · exact keepsTo_of_standard hstandard
  · exact keepsTo_of_relays hrelays

end Rules

end CellBridge

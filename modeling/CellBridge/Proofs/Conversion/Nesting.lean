import CellBridge.Proofs.Conversion.Gaps
import CellBridge.Proofs.Conversion.TypeSoundness
import CellBridge.Proofs.Conversion.Writing

/-!
# Room for nested conversions

Conversions that are nested deeper than the value, the store and the room of the catalog call for
count as endless.  With more room they come to the same where they end, and may come to something
where they did not: `Gap.endless` is the gap between the two, and `covers_conversions` the induction
on the depth.  It asks of the rules that they are standard ones, or that they relay.

So a conversion that ends does not depend on the room.  Those by the standard rules always end, but
for objects that contain themselves, and need no room at all: `read_standard_withRoom` and
`write_standard_withRoom`.
-/

namespace CellBridge

section Defs

/-- Anything in the place of what never ends. -/
def Gap.endless : Gap where
  allows f _ _ := f = .diverged
  bind _ h := h

end Defs

section Actions

variable {α : Type} {act act' : Action α} {w : World}

theorem covers_diverge
    (act : Action α) :
    Gap.endless.Covers Action.diverge act := by
  intro w
  exact Or.inr ⟨.diverged, w, rfl, rfl⟩

/-- What ends comes to the same. -/
theorem Gap.Covers.eq_of_halts
    (h : Gap.endless.Covers act act')
    (hhalts : (act w).1 ≠ .error .diverged) :
    act' w = act w := by
  rcases h w with heq | ⟨_, w', hrun, rfl⟩
  · exact heq
  · rw [hrun] at hhalts
    exact absurd rfl hhalts

/-- Handlers that let pass what never ends do not close the gap. -/
theorem covers_tryCatch
    {handler handler' : Fault → Action α}
    (h : Gap.endless.Covers act act')
    (hpasses : handler .diverged = throw .diverged)
    (hhandler : ∀ f, Gap.endless.Covers (handler f) (handler' f)) :
    Gap.endless.Covers (tryCatch act handler) (tryCatch act' handler') := by
  intro w
  rw [tryCatch_run, tryCatch_run]
  rcases h w with heq | ⟨_, w', hrun, rfl⟩
  · rw [heq]
    cases act w with
    | mk result w' =>
        cases result with
        | ok a =>
            exact Or.inl rfl
        | error f =>
            exact hhandler f w'
  · rw [hrun]
    dsimp only
    rw [hpasses]
    exact Or.inr ⟨.diverged, w', rfl, rfl⟩

theorem covers_guarded
    (h : Gap.endless.Covers act act')
    (what : String) :
    Gap.endless.Covers (Action.guarded what act) (Action.guarded what act') := by
  exact covers_tryCatch h rfl fun f => Gap.Covers.refl _

end Actions

namespace Catalog

variable {c : Catalog} {r : Rule}

section Rules

theorem relays_standardCatalog :
    standardCatalog.Relays := by
  intro r hr
  exact Or.inl (mem_standardCatalog hr)

/-- The rules are found as before. -/
theorem conversions_withRoom
    (c : Catalog)
    (room n : Nat) :
    (c.withRoom room).conversions n = c.conversions n := by
  induction n with
  | zero =>
      rfl
  | succ n ih =>
      rw [conversions, conversions, ih]
      rfl

end Rules

section Depth

/-- Conversions that are nested deeper cover those that are nested less deep. -/
theorem covers_conversions
    (hc : c.Relays)
    {n n' : Nat}
    (hle : n ≤ n') :
    Gap.endless.CoversAll (c.conversions n) (c.conversions n') := by
  induction n generalizing n' with
  | zero =>
      cases n' <;>
      exact ⟨fun s t => rel_map fun _ _ _ _ => covers_diverge _,
        fun t => rel_map fun _ _ _ => covers_diverge _⟩
  | succ n ih =>
      cases n' with
      | zero =>
          exact absurd hle (Nat.not_succ_le_zero n)
      | succ n' =>
          have hbelow := ih (Nat.le_of_succ_le_succ hle)
          exact ⟨fun s t => rel_map fun r hr =>
              (hc.keepsTo (mem_of_findByShape? hr)).toManaged hbelow,
            fun t => rel_map fun r hr => (hc.keepsTo (mem_of_findByType? hr)).toCell hbelow⟩

variable {room : Nat}

/-- Reading with more room. -/
theorem covers_read
    (hc : c.Relays)
    (hr : r ∈ c.rules)
    (hroom : c.room ≤ room)
    (t : Ty)
    (v : Value) :
    Gap.endless.Covers (c.read r t v) ((c.withRoom room).read r t v) := by
  refine Gap.Covers.bind_right _ fun w => ?_
  rw [conversions_withRoom]
  exact (hc.keepsTo hr).toManaged (covers_conversions hc (Nat.add_le_add_left hroom _)) t v

/-- Writing with more room. -/
theorem covers_write
    (hc : c.Relays)
    (hr : r ∈ c.rules)
    (hroom : c.room ≤ room)
    (o : Object) :
    Gap.endless.Covers (c.write r o) ((c.withRoom room).write r o) := by
  refine Gap.Covers.bind_right _ fun w => ?_
  rw [conversions_withRoom]
  exact (hc.keepsTo hr).toCell (covers_conversions hc (Nat.add_le_add_left hroom _)) o

end Depth

section Standard

/-- The standard rules read every value without any room. -/
theorem read_standard_withRoom
    {v : Value}
    {t : Ty}
    (hr : standardCatalog.findByShape? v.shape t = some r)
    (room : Nat)
    (w : World) :
    (standardCatalog.withRoom room).read r t v w = standardCatalog.read r t v w := by
  have hcovers := covers_read relays_standardCatalog (mem_of_findByShape? hr) (Nat.zero_le room) t v
  exact hcovers.eq_of_halts (ends_readTyped readsTyped_standardCatalog hr (w.supplies_true v)).halts

/-- In a sound world, the standard rules write every object without any room. -/
theorem write_standard_withRoom
    (hr : r ∈ standardCatalog.rules)
    {o : Object}
    {w : World}
    (hs : w.Sound)
    (ho : Known o w)
    (room : Nat) :
    (standardCatalog.withRoom room).write r o w = standardCatalog.write r o w := by
  have hwrites : ∀ r ∈ standardCatalog.rules, r.WritesWell := fun r hr =>
    writesWell_of_standard (mem_standardCatalog hr)
  have hcovers := covers_write relays_standardCatalog hr (Nat.zero_le room) o
  exact hcovers.eq_of_halts (ends_write hwrites hr hs ho).halts

end Standard

end Catalog
end CellBridge

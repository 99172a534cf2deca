import CellBridge.Proofs.Conversion.Elements
import CellBridge.Proofs.Conversion.StandardRules

/-!
# Reading by the standard rules

Reading a value makes new payloads, follows handles, and does nothing else: every standard rule
`ReadsWell`.  Conversions are nested no deeper than the grids in the value, which is what
`ReadsBelow` counts, so reading always ends.
-/

namespace CellBridge

namespace Value

section Depth

theorem depth_le_cellsDepth
    {v : Value}
    {row : List Value}
    (h : v ∈ row) :
    v.depth ≤ cellsDepth row := by
  induction row with
  | nil =>
      cases h
  | cons x xs ih =>
      rw [cellsDepth]
      rcases List.mem_cons.1 h with rfl | htail
      · exact Nat.le_max_left _ _
      · exact Nat.le_trans (ih htail) (Nat.le_max_right _ _)

theorem depth_le_rowsDepth
    {v : Value}
    {row : List Value}
    {rows : List (List Value)}
    (hrow : row ∈ rows)
    (hv : v ∈ row) :
    v.depth ≤ rowsDepth rows := by
  induction rows with
  | nil =>
      cases hrow
  | cons r rs ih =>
      rw [rowsDepth]
      rcases List.mem_cons.1 hrow with rfl | htail
      · exact Nat.le_trans (depth_le_cellsDepth hv) (Nat.le_max_left _ _)
      · exact Nat.le_trans (ih htail) (Nat.le_max_right _ _)

/-- A cell of a grid is nested less deep than the grid. -/
theorem depth_lt_array
    {v : Value}
    {row : List Value}
    {g : Grid Value}
    (hrow : row ∈ g.rows)
    (hv : v ∈ row) :
    v.depth < (Value.array g).depth := by
  obtain ⟨rows, width, orientation⟩ := g
  rw [depth, gridDepth]
  exact Nat.lt_succ_of_le (depth_le_rowsDepth hrow hv)

theorem depth_lt_of_hasCell
    {v cell : Value}
    (h : v.HasCell cell) :
    cell.depth < v.depth := by
  obtain ⟨g, rfl, row, hrow, hcell⟩ := h
  exact depth_lt_array hrow hcell

end Depth

end Value

section Defs

/-- Where `t` is wanted, the reader makes known objects of values that are nested less than `d`
deep. -/
def Reader.ReadsBelow
    (reader : Reader)
    (t : Ty)
    (d : Nat) : Prop :=
  ∀ v : Value, v.depth < d → ∀ w : World, w.Sound → Ends World.Grows (reader t v) w Known

/-- All readers for types without classes do so. -/
def Conversions.ReadsBelow
    (cx : Conversions)
    (d : Nat) : Prop :=
  ∀ s t reader, cx.reader? s t = some reader → t.plain = true → Reader.ReadsBelow reader t d

/-- The rule reads well if the conversions that it calls do. -/
def Rule.ReadsWell
    (r : Rule) : Prop :=
  ∀ (cx : Conversions) (expected : Ty) (v : Value) (w : World),
    cx.ReadsBelow v.depth → expected.plain = true → w.Sound →
      Ends World.Grows (r.toManaged cx expected v) w Known

end Defs

section Scalars

variable {w : World}

/-- A scalar of a type without classes. -/
theorem ends_createScalar
    {t : Ty}
    {p : Payload}
    (hs : w.Sound)
    (hfits : t.Fits p)
    (hplain : t.plain = true)
    (hitems : p.items? = none) :
    Ends World.Grows (Action.create t p) w Known := by
  refine Ends.create hs hfits hplain ?_
  intro o ho
  rw [hitems] at ho
  cases ho

end Scalars

section References

variable {w : World}

/-- No enumeration is read where no class is wanted. -/
theorem ends_readConstant
    {expected : Ty}
    (hplain : expected.plain = true)
    (v : Value)
    (hs : w.Sound) :
    Ends World.Grows (Reference.readConstant expected v) w Known := by
  refine (Ends.orFail (P := fun _ _ => True) _ hs.grows fun _ _ => trivial).bind ?_
  intro name w' hw' _
  cases expected with
  | object c =>
      cases hplain
  | _ =>
      exact Ends.fail _ hw'.sound.grows

theorem ends_readHandle
    (expected : Ty)
    (v : Value)
    (hs : w.Sound) :
    Ends World.Grows (Reference.readHandle expected v) w Known := by
  refine (Ends.orFail (P := fun _ _ => True) _ hs.grows fun _ _ => trivial).bind ?_
  intro handle w₁ hw₁ _
  refine (Ends.resolve handle hw₁.sound hw₁.sound.grows).bind ?_
  intro o w₂ hw₂ ho
  split
  · exact Ends.pure hw₂.sound.grows ho
  · exact Ends.fail _ hw₂.sound.grows

end References

section Lines

variable {w : World} {cx : Conversions} {d : Nat} {elem : Ty}

theorem ends_readLine
    (hcx : cx.ReadsBelow d)
    (hplain : elem.plain = true)
    (cells : List Value)
    (hcells : ∀ v ∈ cells, v.depth < d)
    (hs : w.Sound) :
    Ends World.Grows (Sequence.readLine cx elem cells) w fun os w' => ∀ o ∈ os, Known o w' := by
  rw [Sequence.readLine_eq_mapM]
  refine Ends.mapM (fun w' hw' => hw'.sound.grows) (fun o w' w'' hw'' ho => hw''.knows ho)
    hs.grows ?_
  intro v hv w₁ hw₁
  refine (Ends.orFail (P := fun reader _ => Reader.ReadsBelow reader elem d) _ hw₁.sound.grows
    fun reader hreader => hcx v.shape elem reader hreader hplain).bind ?_
  intro reader w₂ hw₂ hreads
  exact hreads v (hcells v hv) w₂ hw₂.sound

theorem plain_elementOrAny
    {t : Ty}
    (hplain : t.plain = true) :
    t.elementOrAny.plain = true := by
  cases t <;> first
    | rfl
    | exact hplain

/-- Reading a line and collecting what was read. -/
theorem ends_readInto
    {make : Ty → List Object → Action Object}
    (hmake : ∀ (e : Ty) (items : List Object) (w : World), w.Sound → e.plain = true →
      (∀ o ∈ items, Known o w) → Ends World.Grows (make e items) w Known)
    {expected : Ty}
    {v : Value}
    (hcx : cx.ReadsBelow v.depth)
    (hplain : expected.plain = true)
    (hs : w.Sound) :
    Ends World.Grows (Sequence.readInto make cx expected v) w Known := by
  have helem := plain_elementOrAny hplain
  refine (ends_lineOf expected v hs.grows).bind ?_
  rintro cells _ - ⟨rfl, hcells⟩
  have hdepth : ∀ c ∈ cells, c.depth < v.depth := by
    intro c hc
    exact Value.depth_lt_of_hasCell (hcells c hc)
  refine (ends_readLine hcx helem cells hdepth hs).bind ?_
  intro items w₂ hw₂ hitems
  exact hmake _ items w₂ hw₂.sound helem hitems

theorem ends_readRows
    (hcx : cx.ReadsBelow d)
    (hplain : elem.plain = true)
    (rows : List (List Value))
    (hrows : ∀ row ∈ rows, ∀ v ∈ row, v.depth < d)
    (hs : w.Sound) :
    Ends World.Grows (Sequence.readRows cx elem rows) w fun os w' => ∀ o ∈ os, Known o w' := by
  rw [Sequence.readRows_eq_mapM]
  refine Ends.mapM (fun w' hw' => hw'.sound.grows) (fun o w' w'' hw'' ho => hw''.knows ho)
    hs.grows ?_
  intro row hrow w₁ hw₁
  have hcells : ∀ v ∈ Sequence.trimRow row, v.depth < d := by
    intro v hv
    exact hrows row hrow v (mem_trimRow hv)
  refine (ends_readLine hcx hplain (Sequence.trimRow row) hcells hw₁.sound).bind ?_
  intro items w₂ hw₂ hitems
  exact Ends.createArray hw₂.sound hplain hitems

theorem ends_readJagged
    {expected : Ty}
    {v : Value}
    (hcx : cx.ReadsBelow v.depth)
    (hplain : expected.plain = true)
    (hs : w.Sound) :
    Ends World.Grows (Sequence.readJagged cx expected v) w Known := by
  have helem := plain_elementOrAny hplain
  refine (ends_array? (Sequence.notAnArray v) v hs.grows).bind ?_
  rintro g _ - ⟨rfl, rfl⟩
  split
  · refine Ends.createArray hs helem ?_
    intro o ho
    cases ho
  · have hrows : ∀ row ∈ g.rows, ∀ v ∈ row, v.depth < (Value.array g).depth := by
      intro row hrow v hv
      exact Value.depth_lt_array hrow hv
    refine (ends_readRows hcx (plain_elementOrAny helem) g.rows hrows hs).bind ?_
    intro items w₁ hw₁ hitems
    exact Ends.createArray hw₁.sound helem hitems

end Lines

section Rules

theorem readsWell_scalar
    {t : Ty}
    (name : String)
    (shape : Shape)
    (priority : Int32)
    (value? : Object → Payload → Option Value)
    {read : Value → Action Object}
    (hread : Scalar.Creates t read)
    (hplain : t.plain = true) :
    (Scalar.rule name shape t priority value? read).ReadsWell := by
  intro cx expected v w hcx _ hs
  refine hread.ends hs.grows ?_ v
  intro p hagrees hitems
  exact ends_createScalar hs hagrees.fits hplain hitems

/-- Every standard rule reads well. -/
theorem readsWell_of_standard
    {r : Rule}
    (hr : r ∈ standardRules) :
    r.ReadsWell := by
  refine forall_standardRules (P := Rule.ReadsWell) ?scalar ?tagged ?array ?list ?jagged ?enum ?set
    ?boxing r hr
  case scalar =>
    intro shape t read h name priority value?
    exact readsWell_scalar name shape priority value? h.creates h.plain
  case tagged =>
    intro cx expected v w hcx hplain hs
    exact ends_createScalar hs rfl rfl rfl
  case array =>
    intro cx expected v w hcx hplain hs
    exact ends_readInto (fun e items w hs => Ends.createArray hs) hcx hplain hs
  case list =>
    intro cx expected v w hcx hplain hs
    exact ends_readInto (fun e items w hs => Ends.createList hs) hcx hplain hs
  case jagged =>
    intro cx expected v w hcx hplain hs
    exact ends_readJagged hcx hplain hs
  case enum =>
    intro cx expected v w hcx hplain hs
    exact ends_readConstant hplain v hs
  case set =>
    intro cx expected v w hcx hplain hs
    exact ends_readInto (fun e items w hs => Ends.createSet hs) hcx hplain hs
  case boxing =>
    intro cx expected v w hcx hplain hs
    exact ends_readHandle expected v hs

end Rules

section Catalogs

theorem Conversions.ReadsBelow.mono
    {cx : Conversions}
    {d d' : Nat}
    (hcx : cx.ReadsBelow d)
    (hle : d' ≤ d) :
    cx.ReadsBelow d' := by
  intro s t reader hreader hplain v hv
  exact hcx s t reader hreader hplain v (Nat.lt_of_lt_of_le hv hle)

namespace Catalog

variable {c : Catalog}

theorem mem_of_findByShape?
    {s : Shape}
    {t : Ty}
    {r : Rule}
    (h : c.findByShape? s t = some r) :
    r ∈ c.rules := by
  exact List.mem_of_find?_eq_some h

/-- Conversions that are nested `n` deep read what is nested less deep. -/
theorem readsBelow_conversions
    (hc : ∀ r ∈ c.rules, r.ReadsWell)
    (n : Nat) :
    (c.conversions n).ReadsBelow n := by
  induction n with
  | zero =>
      intro s t reader hreader hplain v hv
      exact absurd hv (Nat.not_lt_zero _)
  | succ n ih =>
      intro s t reader hreader hplain v hv w hs
      rw [conversions] at hreader
      obtain ⟨r, hr, rfl⟩ := Option.map_eq_some_iff.1 hreader
      exact hc r (mem_of_findByShape? hr) _ t v w (ih.mono (Nat.le_of_lt_succ hv)) hplain hs

/-- Reading by a rule of a catalog whose rules read well. -/
theorem ends_read
    (hc : ∀ r ∈ c.rules, r.ReadsWell)
    {r : Rule}
    (hr : r ∈ c.rules)
    {required : Ty}
    (hplain : required.plain = true)
    (v : Value)
    {w : World}
    (hs : w.Sound) :
    Ends World.Grows (c.read r required v) w Known := by
  refine (Ends.get hs.grows).bind ?_
  rintro _ _ - ⟨rfl, rfl⟩
  refine hc r hr _ required v _ ?_ hplain hs
  exact (readsBelow_conversions hc _).mono (by omega)

theorem mem_insertRule
    {r r' : Rule}
    {bs : List Bucket}
    (h : r' ∈ (insertRule r bs).flatMap Bucket.rules) :
    r' = r ∨ r' ∈ bs.flatMap Bucket.rules := by
  induction bs with
  | nil =>
      simpa [insertRule] using h
  | cons b bs ih =>
      rw [insertRule] at h
      split at h
      · simpa using h
      · split at h
        · simp only [List.flatMap_cons, List.mem_append, List.mem_singleton] at h ⊢
          tauto
        · rw [List.flatMap_cons, List.mem_append] at h ⊢
          rcases h with hhead | htail
          · exact Or.inr (Or.inl hhead)
          · exact (ih htail).imp_right Or.inr

theorem mem_rules_foldl_register
    (rs : List Rule)
    {r : Rule}
    (h : r ∈ (rs.foldl register c).rules) :
    r ∈ rs ∨ r ∈ c.rules := by
  induction rs generalizing c with
  | nil =>
      exact Or.inr h
  | cons r' rs ih =>
      rcases ih h with hrest | hfirst
      · exact Or.inl (List.mem_cons_of_mem r' hrest)
      · rcases mem_insertRule hfirst with rfl | hold
        · exact Or.inl List.mem_cons_self
        · exact Or.inr hold

theorem mem_standardCatalog
    {r : Rule}
    (h : r ∈ standardCatalog.rules) :
    r ∈ standardRules := by
  rw [standardCatalog, withStandardRules] at h
  rcases mem_rules_foldl_register standardRules h with hmem | hnil
  · exact hmem
  · simp [Catalog.empty, rules] at hnil

end Catalog

end Catalogs

end CellBridge

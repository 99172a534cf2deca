import CellBridge.Cell.Feed
import CellBridge.Proofs.Cell.Grids
import Mathlib.Algebra.Ring.Nat

/-!
# Equality of values and their hash feeds

Two values are equal if they are the same once the two zeros are taken for one, and if no number in
them is a not-a-number: `beq_iff`.  So equality is symmetric and transitive, and a value equals
itself unless it holds a not-a-number somewhere.

The feed of a value shows every pattern, so it tells the two zeros apart.  Equal values have feeds
of one length, and these agree only if the values are the same: `feed_of_beq`.  `equality_and_feed`
puts this together.  What a hash table asks of its keys holds for values without not-a-numbers and
negative zeros, and fails where one of them occurs: `equal_zeros_feed_differently`.
-/

namespace CellBridge

section Defs

namespace Number

def negativeZero : Number :=
  ⟨0x8000000000000000⟩

/-- The number, with zero in the place of both zeros. -/
def mergeZeros
    (n : Number) : Number :=
  if n.isZero then zero else n

end Number

namespace Value

mutual

/-- The value with the two zeros merged at every depth. -/
def mergeZeros : Value → Value
  | .number n => .number n.mergeZeros
  | .array g => .array (gridMergeZeros g)
  | v => v

/-- The grid with the two zeros merged in all cells. -/
def gridMergeZeros : Grid Value → Grid Value
  | ⟨rows, width, orientation⟩ => ⟨rowsMergeZeros rows, width, orientation⟩

/-- The rows with the two zeros merged in all cells. -/
def rowsMergeZeros : List (List Value) → List (List Value)
  | [] => []
  | r :: rs => cellsMergeZeros r :: rowsMergeZeros rs

/-- The cells with the two zeros merged. -/
def cellsMergeZeros : List Value → List Value
  | [] => []
  | v :: vs => v.mergeZeros :: cellsMergeZeros vs

end

end Value

end Defs

namespace Number

variable {x y : Number}

section Zeros

theorem isZero_iff :
    x.isZero = true ↔ x = zero ∨ x = negativeZero := by
  obtain ⟨bits⟩ := x
  have hlt : bits.toNat < 2 ^ 64 := bits.toNat_lt
  have hsplit : bits.toNat % 2 ^ 63 = 0 ↔ bits.toNat = 0 ∨ bits.toNat = 2 ^ 63 := by
    omega
  have hzero : Number.mk bits = zero ↔ bits.toNat = 0 := by
    rw [zero, Number.mk.injEq, ← UInt64.toNat_inj]
    rfl
  have hnegative : Number.mk bits = negativeZero ↔ bits.toNat = 2 ^ 63 := by
    rw [negativeZero, Number.mk.injEq, ← UInt64.toNat_inj]
    rfl
  rw [hzero, hnegative, ← hsplit, isZero, decide_eq_true_iff]
  rfl

theorem isNaN_of_isZero
    (h : x.isZero = true) :
    x.isNaN = false := by
  rcases isZero_iff.1 h with rfl | rfl <;> decide

theorem isZero_mergeZeros :
    x.mergeZeros.isZero = x.isZero := by
  rw [mergeZeros]
  split
  · rename_i h
    exact h.symm ▸ rfl
  · rfl

theorem isNaN_mergeZeros :
    x.mergeZeros.isNaN = x.isNaN := by
  rw [mergeZeros]
  split
  · rename_i h
    exact (isNaN_of_isZero h).symm ▸ rfl
  · rfl

theorem mergeZeros_of_ne
    (h : x ≠ negativeZero) :
    x.mergeZeros = x := by
  rw [mergeZeros]
  split
  · rename_i hzero
    exact ((isZero_iff.1 hzero).resolve_right h).symm
  · rfl

/-- Numbers are equal if they are the same with merged zeros, and numbers at all. -/
theorem ieeeEq_iff :
    x.ieeeEq y = true ↔ x.mergeZeros = y.mergeZeros ∧ x.isNaN = false := by
  simp only [ieeeEq, Bool.and_eq_true, Bool.or_eq_true, beq_iff_eq, Bool.not_eq_true']
  constructor
  · rintro ⟨⟨hx, -⟩, rfl | ⟨hxz, hyz⟩⟩
    · exact ⟨rfl, hx⟩
    · rw [mergeZeros, if_pos hxz, mergeZeros, if_pos hyz]
      exact ⟨rfl, hx⟩
  · rintro ⟨heq, hx⟩
    have hy : y.isNaN = false := by
      rw [← isNaN_mergeZeros, ← heq, isNaN_mergeZeros, hx]
    have hzeros : x.isZero = y.isZero := by
      rw [← isZero_mergeZeros, heq, isZero_mergeZeros]
    refine ⟨⟨hx, hy⟩, ?_⟩
    cases hz : x.isZero with
    | true =>
        exact Or.inr ⟨rfl, hzeros ▸ hz⟩
    | false =>
        rw [mergeZeros, mergeZeros, ← hzeros, hz] at heq
        exact Or.inl heq

end Zeros

end Number

/-- Words of the same bytes are equal. -/
theorem wordFeed_inj
    {n m : Nat}
    (hn : n < 2 ^ 64)
    (hm : m < 2 ^ 64)
    (h : wordFeed n = wordFeed m) :
    n = m := by
  have hbyte : ∀ i < 8, n / 256 ^ i % 256 = m / 256 ^ i % 256 := by
    intro i hi
    have hget := congrArg (fun bytes => bytes[i]?) h
    simp only [wordFeed, List.getElem?_map, List.getElem?_range hi, Option.map_some,
      Option.some.injEq] at hget
    simpa using congrArg UInt8.toNat hget
  have hlow : ∀ k ≤ 8, n % 256 ^ k = m % 256 ^ k := by
    intro k hk
    induction k with
    | zero =>
        rw [Nat.pow_zero, Nat.mod_one, Nat.mod_one]
    | succ k ih =>
        rw [Nat.mod_pow_succ, Nat.mod_pow_succ, ih (Nat.le_of_succ_le hk), hbyte k hk]
  have hpow : 256 ^ 8 = 2 ^ 64 := by decide
  have hall := hlow 8 (Nat.le_refl 8)
  rwa [hpow, Nat.mod_eq_of_lt hn, Nat.mod_eq_of_lt hm] at hall

namespace Value

variable {a b c v : Value}

section Merging

/-- The numbers of a grid are those of its cells. -/
theorem numbers_array_iff
    {p : Number → Prop}
    {g : Grid Value} :
    (Value.array g).Numbers p ↔ ∀ row ∈ g.rows, ∀ c ∈ row, c.Numbers p := by
  constructor
  · intro h row hrow c hc
    exact h.cell ⟨g, rfl, row, hrow, hc⟩
  · intro h n hn
    cases hn with
    | cell hcell hin =>
        obtain ⟨_, hgrid, row, hrow, hc⟩ := hcell
        cases hgrid
        exact h row hrow _ hc n hin

theorem numbers_number_iff
    {p : Number → Prop}
    {n : Number} :
    (Value.number n).Numbers p ↔ p n := by
  exact ⟨fun h => h n .here, numbers_number⟩

theorem cellsMergeZeros_eq
    (cells : List Value) :
    cellsMergeZeros cells = cells.map mergeZeros := by
  induction cells with
  | nil =>
      rfl
  | cons v vs ih =>
      rw [cellsMergeZeros, ih, List.map_cons]

theorem rowsMergeZeros_eq
    (rows : List (List Value)) :
    rowsMergeZeros rows = rows.map (List.map mergeZeros) := by
  induction rows with
  | nil =>
      rfl
  | cons r rs ih =>
      rw [rowsMergeZeros, ih, cellsMergeZeros_eq, List.map_cons]

/-- A value without negative zeros has no zeros to merge. -/
theorem mergeZeros_of_numbers
    (h : v.Numbers (· ≠ Number.negativeZero)) :
    v.mergeZeros = v := by
  induction v using cell_induction with
  | step v ih =>
      cases v with
      | number n =>
          have hn : n ≠ Number.negativeZero := h n .here
          rw [mergeZeros, Number.mergeZeros_of_ne hn]
      | array g =>
          obtain ⟨rows, width, orientation⟩ := g
          have hcell : ∀ row ∈ rows, ∀ c ∈ row, c.mergeZeros = c := by
            intro row hrow c hc
            have hof : (Value.array ⟨rows, width, orientation⟩).HasCell c :=
              ⟨_, rfl, row, hrow, hc⟩
            exact ih c hof (h.cell hof)
          have hrows : rows.map (List.map mergeZeros) = rows := by
            refine (List.map_congr_left fun row hrow => ?_).trans (List.map_id rows)
            exact (List.map_congr_left (hcell row hrow)).trans (List.map_id row)
          rw [mergeZeros, gridMergeZeros, rowsMergeZeros_eq, hrows]
      | _ =>
          rfl

end Merging

section Equality

/-- Equality of cells, if that of each of them is known. -/
theorem cellsBeq_iff
    {p : Value → Prop}
    {cells cells' : List Value}
    (h : ∀ c ∈ cells, ∀ d, c.beq d = true ↔ c.mergeZeros = d.mergeZeros ∧ p c) :
    cellsBeq cells cells' = true ↔
      cellsMergeZeros cells = cellsMergeZeros cells' ∧ ∀ c ∈ cells, p c := by
  induction cells generalizing cells' with
  | nil =>
      cases cells' <;> simp [cellsBeq, cellsMergeZeros]
  | cons c cells ih =>
      obtain ⟨hc, hcells⟩ := List.forall_mem_cons.1 h
      cases cells' with
      | nil =>
          simp [cellsBeq, cellsMergeZeros]
      | cons d cells' =>
          rw [cellsBeq, Bool.and_eq_true, hc d, ih hcells, cellsMergeZeros, cellsMergeZeros,
            List.cons.injEq, List.forall_mem_cons]
          tauto

/-- Equality of rows, if that of each cell is known. -/
theorem rowsBeq_iff
    {p : Value → Prop}
    {rows rows' : List (List Value)}
    (h : ∀ row ∈ rows, ∀ c ∈ row, ∀ d, c.beq d = true ↔ c.mergeZeros = d.mergeZeros ∧ p c) :
    rowsBeq rows rows' = true ↔
      rowsMergeZeros rows = rowsMergeZeros rows' ∧ ∀ row ∈ rows, ∀ c ∈ row, p c := by
  induction rows generalizing rows' with
  | nil =>
      cases rows' <;> simp [rowsBeq, rowsMergeZeros]
  | cons row rows ih =>
      obtain ⟨hrow, hrows⟩ := List.forall_mem_cons.1 h
      cases rows' with
      | nil =>
          simp [rowsBeq, rowsMergeZeros]
      | cons row' rows' =>
          rw [rowsBeq, Bool.and_eq_true, cellsBeq_iff hrow, ih hrows, rowsMergeZeros,
            rowsMergeZeros, List.cons.injEq, List.forall_mem_cons]
          tauto

/-- Values are equal if they are the same with merged zeros, and hold no not-a-number. -/
theorem beq_iff :
    (a == b) = true ↔
      a.mergeZeros = b.mergeZeros ∧ a.Numbers fun n => n.isNaN = false := by
  show a.beq b = true ↔ _
  induction a using cell_induction generalizing b with
  | step a ih =>
      cases a with
      | number x =>
          cases b <;> simp [beq, mergeZeros, numbers_number_iff, Number.ieeeEq_iff]
      | array g =>
          cases b with
          | array g' =>
              obtain ⟨rows, width, orientation⟩ := g
              obtain ⟨rows', width', orientation'⟩ := g'
              have hrows : rowsBeq rows rows' = true ↔ _ :=
                rowsBeq_iff fun row hrow c hc d => ih c ⟨_, rfl, row, hrow, hc⟩ (b := d)
              simp only [beq, gridBeq, Bool.and_eq_true, beq_iff_eq, hrows, numbers_array_iff,
                mergeZeros, gridMergeZeros, Value.array.injEq, Grid.mk.injEq]
              tauto
          | _ =>
              simp [beq, mergeZeros]
      | _ =>
          rw [and_iff_left (numbers_of_plain rfl rfl)]
          cases b <;> simp [beq, mergeZeros]

theorem beq_self_iff :
    (a == a) = true ↔ a.Numbers fun n => n.isNaN = false := by
  rw [beq_iff]
  exact and_iff_right rfl

/-- Merging the zeros does not change which numbers are not-a-numbers. -/
theorem numbers_mergeZeros :
    (v.mergeZeros.Numbers fun n => n.isNaN = false) ↔ v.Numbers fun n => n.isNaN = false := by
  induction v using cell_induction with
  | step v ih =>
      cases v with
      | number n =>
          rw [mergeZeros, numbers_number_iff, numbers_number_iff, Number.isNaN_mergeZeros]
      | array g =>
          obtain ⟨rows, width, orientation⟩ := g
          rw [mergeZeros, gridMergeZeros, numbers_array_iff, numbers_array_iff, rowsMergeZeros_eq]
          simp only [List.forall_mem_map]
          refine forall₂_congr fun row hrow => forall₂_congr fun c hc => ?_
          exact ih c ⟨_, rfl, row, hrow, hc⟩
      | _ =>
          rfl

theorem beq_symm
    (h : (a == b) = true) :
    (b == a) = true := by
  rw [beq_iff] at h ⊢
  refine ⟨h.1.symm, ?_⟩
  rw [← numbers_mergeZeros, ← h.1, numbers_mergeZeros]
  exact h.2

theorem beq_trans
    (hab : (a == b) = true)
    (hbc : (b == c) = true) :
    (a == c) = true := by
  rw [beq_iff] at hab hbc ⊢
  exact ⟨hab.1.trans hbc.1, hab.2⟩

/-- Without negative zeros, equal values are the same. -/
theorem eq_of_beq
    (ha : a.Numbers (· ≠ Number.negativeZero))
    (hb : b.Numbers (· ≠ Number.negativeZero))
    (h : (a == b) = true) :
    a = b := by
  have hmerged := (beq_iff.1 h).1
  rwa [mergeZeros_of_numbers ha, mergeZeros_of_numbers hb] at hmerged

end Equality

section Feeds

/-- The two feeds have one length, and agree only if they are feeds of the same. -/
def FeedsTell
    {α : Type}
    (f : α → List UInt8)
    (x y : α) : Prop :=
  (f x).length = (f y).length ∧ (f x = f y → x = y)

theorem feedsTell_refl
    {α : Type}
    (f : α → List UInt8)
    (x : α) :
    FeedsTell f x x := by
  exact ⟨rfl, fun _ => rfl⟩

@[simp] theorem length_wordFeed
    (n : Nat) :
    (wordFeed n).length = 8 := by
  simp [wordFeed]

/-- The feeds of equal cells, one after the other. -/
theorem feedsTell_cells
    {cells cells' : List Value}
    (h : ∀ c ∈ cells, ∀ d, c.beq d = true → FeedsTell feed c d)
    (heq : cellsBeq cells cells' = true) :
    cells.length = cells'.length ∧ FeedsTell cellsFeed cells cells' := by
  induction cells generalizing cells' with
  | nil =>
      cases cells' with
      | nil =>
          exact ⟨rfl, feedsTell_refl cellsFeed []⟩
      | cons d cells' =>
          simp [cellsBeq] at heq
  | cons c cells ih =>
      cases cells' with
      | nil =>
          simp [cellsBeq] at heq
      | cons d cells' =>
          obtain ⟨hc, hcells⟩ := List.forall_mem_cons.1 h
          rw [cellsBeq, Bool.and_eq_true] at heq
          obtain ⟨hlength, htell⟩ := hc d heq.1
          obtain ⟨hcount, hlength', htell'⟩ := ih hcells heq.2
          refine ⟨congrArg Nat.succ hcount, ?_, ?_⟩
          · rw [cellsFeed, cellsFeed, List.length_append, List.length_append, hlength, hlength']
          · intro hfeed
            rw [cellsFeed, cellsFeed] at hfeed
            obtain ⟨hfirst, hrest⟩ := List.append_inj hfeed hlength
            rw [htell hfirst, htell' hrest]

/-- The feeds of equal rows, one after the other. -/
theorem feedsTell_rows
    {rows rows' : List (List Value)}
    (h : ∀ row ∈ rows, ∀ c ∈ row, ∀ d, c.beq d = true → FeedsTell feed c d)
    (heq : rowsBeq rows rows' = true) :
    rows.length = rows'.length ∧ FeedsTell rowsFeed rows rows' := by
  induction rows generalizing rows' with
  | nil =>
      cases rows' with
      | nil =>
          exact ⟨rfl, feedsTell_refl rowsFeed []⟩
      | cons row' rows' =>
          simp [rowsBeq] at heq
  | cons row rows ih =>
      cases rows' with
      | nil =>
          simp [rowsBeq] at heq
      | cons row' rows' =>
          obtain ⟨hrow, hrows⟩ := List.forall_mem_cons.1 h
          rw [rowsBeq, Bool.and_eq_true] at heq
          obtain ⟨hwidth, hlength, htell⟩ := feedsTell_cells hrow heq.1
          obtain ⟨hcount, hlength', htell'⟩ := ih hrows heq.2
          have hfirst : (wordFeed row.length ++ cellsFeed row).length =
              (wordFeed row'.length ++ cellsFeed row').length := by
            rw [List.length_append, List.length_append, hlength, hwidth]
          refine ⟨congrArg Nat.succ hcount, ?_, ?_⟩
          · rw [rowsFeed, rowsFeed, List.length_append, hfirst, hlength', ← List.length_append]
          · intro hfeed
            rw [rowsFeed, rowsFeed] at hfeed
            obtain ⟨hhead, hrest⟩ := List.append_inj hfeed hfirst
            rw [hwidth] at hhead
            rw [htell (List.append_cancel_left hhead), htell' hrest]

/-- Equal values that are neither numbers nor grids are the same. -/
theorem eq_of_beq_of_plain
    (ha : a.array? = none)
    (hnone : a.number? = none)
    (h : a.beq b = true) :
    a = b := by
  cases a with
  | number x =>
      cases hnone
  | array g =>
      cases ha
  | _ =>
      cases b <;> simp_all [beq]

/-- The feeds of equal values. -/
theorem feedsTell_of_beq
    (h : (a == b) = true) :
    FeedsTell feed a b := by
  change a.beq b = true at h
  induction a using cell_induction generalizing b with
  | step a ih =>
      cases a with
      | number x =>
          cases b with
          | number y =>
              refine ⟨by simp [feed], fun hfeed => ?_⟩
              rw [feed, feed] at hfeed
              have hbits := wordFeed_inj x.bits.toNat_lt y.bits.toNat_lt hfeed
              exact congrArg (fun bits => Value.number ⟨bits⟩) (UInt64.toNat_inj.1 hbits)
          | _ =>
              simp [beq] at h
      | array g =>
          cases b with
          | array g' =>
              obtain ⟨rows, width, orientation⟩ := g
              obtain ⟨rows', width', orientation'⟩ := g'
              have hcells : ∀ row ∈ rows, ∀ c ∈ row, ∀ d, c.beq d = true → FeedsTell feed c d :=
                fun row hrow c hc d hcd => ih c ⟨_, rfl, row, hrow, hc⟩ hcd
              simp only [beq, gridBeq, Bool.and_eq_true, beq_iff_eq] at h
              obtain ⟨⟨hrows, rfl⟩, rfl⟩ := h
              obtain ⟨hcount, hlength, htell⟩ := feedsTell_rows hcells hrows
              refine ⟨?_, fun hfeed => ?_⟩
              · simp [feed, gridFeed, hlength]
              · rw [feed, feed, gridFeed, gridFeed, hcount] at hfeed
                rw [htell (List.append_cancel_left hfeed)]
          | _ =>
              simp [beq] at h
      | _ =>
          rw [← eq_of_beq_of_plain rfl rfl h]
          exact feedsTell_refl feed _

/-- A value equals itself if and only if no number in it is a not-a-number, equality is symmetric
and transitive, and equal values give the same feed if and only if they are the same, as they are
without negative zeros. -/
theorem equality_and_feed
    (a b c : Value) :
    ((a == a) = true ↔ a.Numbers fun n => n.isNaN = false) ∧
      ((a == b) = (b == a)) ∧
      ((a == b) = true → (b == c) = true → (a == c) = true) ∧
      ((a == b) = true → (a.feed = b.feed ↔ a = b)) ∧
      (a.Numbers (· ≠ Number.negativeZero) → b.Numbers (· ≠ Number.negativeZero) →
        (a == b) = true → a = b) := by
  refine ⟨beq_self_iff, Bool.eq_iff_iff.2 ⟨beq_symm, beq_symm⟩, beq_trans, ?_, eq_of_beq⟩
  intro h
  exact ⟨(feedsTell_of_beq h).2, congrArg feed⟩

/-- A not-a-number does not equal itself, and the two zeros are equal and have different feeds. -/
theorem equal_zeros_feed_differently :
    let nan : Value := .number ⟨0x7ff8000000000000⟩
    let zero : Value := .number Number.zero
    let negative : Value := .number Number.negativeZero
    (nan == nan) = false ∧ (zero == negative) = true ∧ zero.feed ≠ negative.feed := by
  intro nan zero negative
  refine ⟨?_, ?_, ?_⟩
  · rw [Bool.eq_false_iff, Ne, beq_self_iff, numbers_number_iff]
    decide
  · show Value.beq zero negative = true
    rw [beq]
    decide
  · rw [feed, feed]
    decide

end Feeds

end Value
end CellBridge

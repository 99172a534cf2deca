import CellBridge.Proofs.Cell.Grids
import CellBridge.Proofs.Json.Documents
import CellBridge.Proofs.Number.Range

/-!
# Values are exchanged without loss

A value is read back from its document, bit for bit, if its grids are proper, its numbers are finite
and come back from their numerals, and the document is nested no deeper than the reader follows.

Whatever a document is, the value that is read from it has proper grids and finite numbers, and its
own document is within the reader's reach again: every grid takes three levels on either side,
`Readable` keeps count of them.  So reading a document, writing the value and reading it again gives
the same value.
-/

namespace CellBridge

section Defs

/-- The number comes back from the numeral that it is exchanged as. -/
def Number.ReadsBack
    (n : Number) : Prop :=
  Number.ofNumeral? (n.toNumeral .exchange) = some n

instance (n : Number) : Decidable n.ReadsBack :=
  inferInstanceAs (Decidable (_ = _))

namespace Json

mutual

/-- How deep arrays and objects are nested in a document. -/
def nesting : Json → Nat
  | .array items => itemNesting items + 1
  | .object members => memberNesting members + 1
  | _ => 0

/-- The nesting of the deepest item. -/
def itemNesting : List Json → Nat
  | [] => 0
  | j :: js => max j.nesting (itemNesting js)

/-- The nesting of the deepest member. -/
def memberNesting : List (Option String × Json) → Nat
  | [] => 0
  | (_, j) :: ms => max j.nesting (memberNesting ms)

end

end Json

/-- What is known of a value that is read from a document with at most `n` nested containers. -/
structure Value.Readable
    (n : Nat)
    (v : Value) : Prop where
  proper : v.Proper
  finite : v.Numbers fun x => x.isFinite = true
  /-- Grids use up three levels each, so that the count starts from one. -/
  nesting_le : n % 3 = 1 → v.toJson.nesting ≤ n

end Defs

section Nesting

variable {items : List Json} {n : Nat}

theorem Json.itemNesting_le :
    itemNesting items ≤ n ↔ ∀ j ∈ items, j.nesting ≤ n := by
  induction items with
  | nil =>
      exact iff_of_true (Nat.zero_le _) (List.forall_mem_nil _)
  | cons j js ih =>
      rw [itemNesting, Nat.max_le, List.forall_mem_cons, ih]

theorem Json.nesting_array_le :
    (Json.array items).nesting ≤ n + 1 ↔ ∀ j ∈ items, j.nesting ≤ n := by
  rw [nesting, Nat.add_le_add_iff_right, itemNesting_le]

theorem Json.nesting_array_pos :
    0 < (Json.array items).nesting := by
  rw [nesting]
  exact Nat.succ_pos _

theorem Value.nesting_member
    (name : String)
    (j : Json) :
    (member name j).nesting = j.nesting + 1 := by
  rw [member, Json.nesting, Json.memberNesting, Json.memberNesting, Nat.max_zero]

end Nesting

namespace Value

section Writing

theorem cellJsons_eq
    (cells : List Value) :
    cellJsons cells = cells.map toJson := by
  induction cells with
  | nil =>
      rfl
  | cons c cs ih =>
      rw [cellJsons, ih, List.map_cons]

theorem gridJson_eq
    (g : Grid Value) :
    gridJson g = .array (g.rows.map fun row => .array (row.map toJson)) := by
  obtain ⟨rows, width, orientation⟩ := g
  rw [gridJson]
  congr 1
  induction rows with
  | nil =>
      rfl
  | cons row rest ih =>
      rw [rowJsons, ih, cellJsons_eq, List.map_cons]

theorem faithful_member
    (name : String)
    {j : Json}
    (hj : j.Faithful) :
    (member name j).Faithful :=
  .object (List.forall_mem_singleton.2 rfl) (List.forall_mem_singleton.2 hj)

theorem faithful_numberJson
    (n : Number) :
    (numberJson n).Faithful := by
  rw [numberJson]
  split
  · exact .number (n.follows_toNumeral .exchange)
  · exact .null

theorem faithful_error
    (e : CellError) :
    e.toJson.Faithful := by
  obtain ⟨code, message⟩ := e
  refine .object (by simp) (List.forall_mem_cons.2 ⟨.string _, List.forall_mem_singleton.2 ?_⟩)
  cases message
  · exact .null
  · exact .string _

/-- Nothing is lost in the text of a document that a value is written as. -/
theorem faithful_toJson
    (v : Value) :
    v.toJson.Faithful := by
  induction v using cell_induction with
  | step v ih =>
      cases v with
      | number n =>
          exact faithful_member _ (faithful_numberJson n)
      | text s =>
          exact faithful_member _ (.string s)
      | boolean b =>
          exact faithful_member _ (.bool b)
      | handle h =>
          exact faithful_member _ (.number h.follows_toNumeral)
      | error e =>
          exact faithful_member _ (faithful_error e)
      | empty =>
          exact .string _
      | missing =>
          exact .string _
      | array g =>
          rw [toJson, gridJson_eq]
          refine faithful_member _ (.array ?_)
          rw [List.forall_mem_map]
          intro row hrow
          refine .array ?_
          rw [List.forall_mem_map]
          exact fun c hc => ih c ⟨g, rfl, row, hrow, hc⟩

end Writing

section ReadingBack

variable {n : Nat}

theorem cellsOfJson?_map
    {row : List Value}
    (h : ∀ c ∈ row, ofJson? n c.toJson = some c) :
    cellsOfJson? n (row.map toJson) = some row := by
  induction row with
  | nil =>
      rw [List.map_nil, cellsOfJson?]
  | cons c cs ih =>
      obtain ⟨hc, hcs⟩ := List.forall_mem_cons.1 h
      rw [List.map_cons, cellsOfJson?, hc, ih hcs]
      rfl

theorem rowsOfJson?_map
    {rows : List (List Value)}
    (h : ∀ row ∈ rows, ∀ c ∈ row, ofJson? n c.toJson = some c) :
    rowsOfJson? (n + 1) (rows.map fun row => .array (row.map toJson)) = some rows := by
  induction rows with
  | nil =>
      rw [List.map_nil, rowsOfJson?]
  | cons row rest ih =>
      obtain ⟨hrow, hrest⟩ := List.forall_mem_cons.1 h
      rw [List.map_cons, rowsOfJson?, cellsOfJson?_map hrow, ih hrest]
      rfl

theorem ofLabel?_label
    (c : ErrorCode) :
    ErrorCode.ofLabel? c.label = some c := by
  cases c <;> rfl

/-- An error comes back, with its explanation if it has one. -/
theorem ofJson?_error
    (n : Nat)
    (e : CellError) :
    CellError.ofJson? (n + 1) e.toJson = some e := by
  obtain ⟨code, message⟩ := e
  have hcode : CellError.code? n (.string (some code.label)) = some code := by
    rw [CellError.code?.eq_def]
    exact ofLabel?_label code
  rw [CellError.toJson, CellError.ofJson?]
  cases message <;> simp [CellError.ofMembers?, hcode, CellError.message?]

theorem nesting_error
    (e : CellError) :
    e.toJson.nesting = 1 := by
  obtain ⟨code, message⟩ := e
  cases message <;> rfl

/-- A grid takes three levels more than its cells. -/
theorem nesting_array_le
    {g : Grid Value} :
    (Value.array g).toJson.nesting ≤ n + 3 ↔
      ∀ row ∈ g.rows, ∀ c ∈ row, c.toJson.nesting ≤ n := by
  rw [toJson, nesting_member, gridJson_eq, Nat.add_le_add_iff_right, Json.nesting_array_le,
    List.forall_mem_map]
  refine forall₂_congr fun row _ => ?_
  rw [Json.nesting_array_le, List.forall_mem_map]

theorem three_le_nesting
    {g : Grid Value}
    (hg : g.rows ≠ []) :
    3 ≤ (Value.array g).toJson.nesting := by
  obtain ⟨row, hrow⟩ := List.exists_mem_of_ne_nil _ hg
  rw [toJson, nesting_member, gridJson_eq]
  refine Nat.succ_le_succ (Nat.lt_of_not_le fun hle => ?_)
  have hzero := Json.nesting_array_le.1 hle _ (List.mem_map_of_mem hrow)
  exact Nat.not_lt_of_le hzero Json.nesting_array_pos

/-- A member that holds no list is read without those who read lists. -/
theorem ofJson?_member
    {name : String}
    {j : Json}
    {v : Value}
    (hj : ∀ items, j ≠ .array items)
    (hnesting : (member name j).nesting ≤ n)
    (hv : ∀ m, n = m + 1 → ofMember? m name j = some v) :
    ofJson? n (member name j) = some v := by
  rw [nesting_member] at hnesting
  obtain ⟨m, rfl⟩ := Nat.exists_eq_add_of_le' (Nat.le_of_add_left_le hnesting)
  rw [member, ofJson?]
  · exact hv m rfl
  · exact hj

/-- A proper grid comes back, if its cells do. -/
theorem ofJson?_grid
    {g : Grid Value}
    (hg : g.Proper)
    (hcells : ∀ row ∈ g.rows, ∀ c ∈ row, ofJson? n c.toJson = some c) :
    ofJson? (n + 3) (Value.array g).toJson = some (.array g) := by
  rw [toJson, gridJson_eq, member, ofJson?, if_pos rfl]
  show (rowsOfJson? (n + 1) _).map _ = _
  rw [rowsOfJson?_map hcells, Option.map_some, hg.gridOfRows_rows]

/-- A value comes back from its document. -/
theorem ofJson?_toJson
    (v : Value)
    (hproper : v.Proper)
    (hnumbers : v.Numbers fun x => x.isFinite = true ∧ x.ReadsBack)
    (hnesting : v.toJson.nesting ≤ n) :
    ofJson? n v.toJson = some v := by
  induction v using cell_induction generalizing n with
  | step v ih =>
      cases v with
      | number x =>
          obtain ⟨hfinite, hback⟩ := hnumbers x .here
          rw [toJson, numberJson, if_pos hfinite] at hnesting ⊢
          refine ofJson?_member (fun _ h => by cases h) hnesting fun m _ => ?_
          show (Number.ofNumeral? (x.toNumeral .exchange)).map Value.number = _
          rw [hback]
          rfl
      | text s =>
          exact ofJson?_member (fun _ h => by cases h) hnesting fun m _ => rfl
      | boolean b =>
          exact ofJson?_member (fun _ h => by cases h) hnesting fun m _ => rfl
      | handle h =>
          refine ofJson?_member (fun _ h => by cases h) hnesting fun m _ => ?_
          show (Handle.ofNumeral? h.toNumeral).map Value.handle = _
          rw [Handle.ofNumeral?_toNumeral]
          rfl
      | error e =>
          refine ofJson?_member (fun _ h => by cases h) hnesting ?_
          rintro m rfl
          -- the members of the error take a level of their own
          rw [toJson, nesting_member, nesting_error] at hnesting
          obtain ⟨k, rfl⟩ := Nat.exists_eq_add_of_le' (Nat.le_of_succ_le_succ hnesting)
          show (CellError.ofJson? (k + 1) e.toJson).map Value.error = _
          rw [ofJson?_error]
          rfl
      | empty =>
          rw [toJson, ofJson?]
          rfl
      | missing =>
          rw [toJson, ofJson?]
          rfl
      | array g =>
          have hg := hproper.grid
          obtain ⟨n, rfl⟩ :=
            Nat.exists_eq_add_of_le' (Nat.le_trans (three_le_nesting hg.rows_ne_nil) hnesting)
          refine ofJson?_grid hg fun row hrow c hc => ?_
          have hcell : (Value.array g).HasCell c := ⟨g, rfl, row, hrow, hc⟩
          exact ih c hcell (hproper.cell hcell) (hnumbers.cell hcell)
            (nesting_array_le.1 hnesting row hrow c hc)

end ReadingBack

section Reading

variable {n : Nat}

theorem Readable.plain
    {v : Value}
    (hv : v.array? = none)
    (hnone : v.number? = none)
    (hnesting : v.toJson.nesting ≤ n) :
    v.Readable n where
  proper := proper_of_plain hv
  finite := numbers_of_plain hv hnone
  nesting_le _ := hnesting

/-- Rows of values that are read, as ragged as they may be, give a value that is read. -/
theorem Readable.grid
    {rows : List (List Value)}
    (hrows : ∀ row ∈ rows, ∀ c ∈ row, ∃ k, n = k + 1 ∧ c.Readable k) :
    (Value.array (gridOfRows rows)).Readable (n + 2) := by
  refine ⟨proper_array fun row hrow c hc => ?_, numbers_array fun row hrow c hc => ?_, ?_⟩
  · obtain ⟨k, -, hread⟩ := hrows row hrow c hc
    exact hread.proper
  · obtain ⟨k, -, hread⟩ := hrows row hrow c hc
    exact hread.finite
  · intro hcount
    -- also a grid that is read from no rows has one when it is written, and the count leaves room
    obtain ⟨m, rfl⟩ : ∃ m, n = m + 1 := ⟨n - 1, by omega⟩
    refine nesting_array_le.2 fun row hrow c hc => ?_
    rcases mem_gridOfRows hrow hc with rfl | ⟨r, hr, hcr⟩
    · exact Nat.zero_le _
    · obtain ⟨k, hk, hread⟩ := hrows r hr c hcr
      cases hk
      exact hread.nesting_le (by omega)

theorem cellsOfJson?_some
    {js : List Json}
    {row : List Value}
    (h : cellsOfJson? n js = some row) :
    ∀ c ∈ row, ∃ j, ofJson? n j = some c := by
  induction js generalizing row with
  | nil =>
      rw [cellsOfJson?] at h
      cases h
      exact List.forall_mem_nil _
  | cons j js ih =>
      rw [cellsOfJson?] at h
      obtain ⟨v, hv, h⟩ := Option.bind_eq_some_iff.1 h
      obtain ⟨vs, hvs, h⟩ := Option.bind_eq_some_iff.1 h
      cases h
      exact List.forall_mem_cons.2 ⟨⟨j, hv⟩, ih hvs⟩

theorem rowsOfJson?_some
    {js : List Json}
    {rows : List (List Value)}
    (h : rowsOfJson? n js = some rows) :
    ∀ row ∈ rows, ∀ c ∈ row, ∃ k j, n = k + 1 ∧ ofJson? k j = some c := by
  induction js generalizing rows with
  | nil =>
      rw [rowsOfJson?] at h
      cases h
      exact List.forall_mem_nil _
  | cons j js ih =>
      rw [rowsOfJson?.eq_def] at h
      split at h
      · cases h
        exact List.forall_mem_nil _
      · rename_i k cells rest heq
        cases heq
        obtain ⟨r, hr, h⟩ := Option.bind_eq_some_iff.1 h
        obtain ⟨rs, hrs, h⟩ := Option.bind_eq_some_iff.1 h
        cases h
        refine List.forall_mem_cons.2 ⟨fun c hc => ?_, ih hrs⟩
        obtain ⟨j, hj⟩ := cellsOfJson?_some hr c hc
        exact ⟨k, j, rfl, hj⟩
      · cases h

theorem readable_of_ofName?
    {s : String}
    {v : Value}
    (h : ofName? s = some v) :
    v.Readable n := by
  rw [ofName?.eq_def] at h
  split at h
  · cases h
    exact .plain rfl rfl (Nat.zero_le _)
  · cases h
    exact .plain rfl rfl (Nat.zero_le _)
  · cases h

theorem nesting_numberJson
    (x : Number) :
    (numberJson x).nesting = 0 := by
  rw [numberJson]
  split <;> rfl

/-- An error takes a container of its own. -/
theorem pos_of_ofJson?_error
    {j : Json}
    {e : CellError}
    (h : CellError.ofJson? n j = some e) :
    0 < n := by
  cases n with
  | zero =>
      rw [CellError.ofJson?.eq_def] at h
      cases h
  | succ n =>
      exact Nat.succ_pos n

theorem readable_of_ofMember?
    {name : String}
    {j : Json}
    {v : Value}
    (h : ofMember? n name j = some v) :
    v.Readable (n + 1) := by
  rw [ofMember?.eq_def] at h
  split at h
  · obtain ⟨x, hx, rfl⟩ := Option.map_eq_some_iff.1 h
    refine ⟨proper_of_plain rfl, numbers_number (Number.isFinite_ofNumeral? hx), fun _ => ?_⟩
    rw [toJson, nesting_member, nesting_numberJson]
    exact Nat.succ_le_succ (Nat.zero_le _)
  · cases h
    exact .plain rfl rfl (Nat.succ_le_succ (Nat.zero_le _))
  · cases h
    exact .plain rfl rfl (Nat.succ_le_succ (Nat.zero_le _))
  · obtain ⟨x, -, rfl⟩ := Option.map_eq_some_iff.1 h
    exact .plain rfl rfl (Nat.succ_le_succ (Nat.zero_le _))
  · obtain ⟨e, he, rfl⟩ := Option.map_eq_some_iff.1 h
    refine .plain rfl rfl ?_
    rw [toJson, nesting_member, nesting_error]
    exact Nat.succ_le_succ (pos_of_ofJson?_error he)
  · cases h
    exact .plain rfl rfl (Nat.zero_le _)
  · cases h
    exact .plain rfl rfl (Nat.zero_le _)
  · cases h

/-- Whatever the document is, the value that is read from it is sound. -/
theorem readable_of_ofJson?
    {j : Json}
    {v : Value}
    (h : ofJson? n j = some v) :
    v.Readable n := by
  induction n using Nat.strongRecOn generalizing j v with
  | ind n ih =>
      rw [ofJson?.eq_def] at h
      split at h
      · exact readable_of_ofName? h
      · split at h
        · split at h
          · cases h
          · obtain ⟨rows, hrows, rfl⟩ := Option.map_eq_some_iff.1 h
            refine Readable.grid fun row hrow c hc => ?_
            obtain ⟨k, j, rfl, hj⟩ := rowsOfJson?_some hrows row hrow c hc
            exact ⟨k, rfl, ih k (by omega) hj⟩
        · exact readable_of_ofMember? h
      · exact readable_of_ofMember? h
      · cases h

end Reading

section RoundTrip

/-- A value comes back from the text that it is written as. -/
theorem read?_write
    {v : Value}
    (hproper : v.Proper)
    (hnumbers : v.Numbers fun x => x.isFinite = true ∧ x.ReadsBack)
    (hnesting : v.toJson.nesting ≤ maxNesting) :
    read? v.write = some v := by
  rw [read?, write, Json.read?_render (faithful_toJson v)]
  exact ofJson?_toJson v hproper hnumbers hnesting

theorem readable_of_read?
    {s : String}
    {v : Value}
    (h : read? s = some v) :
    v.Readable maxNesting := by
  obtain ⟨j, -, hj⟩ := Option.bind_eq_some_iff.1 h
  exact readable_of_ofJson? hj

/-- Values are exchanged without loss: what is written is read back, and what is read, from whatever
text, is a value with proper grids that is read back when it is written in turn. -/
theorem exchange_round_trip :
    (∀ v : Value, v.Proper →
      v.Numbers (fun x => x.isFinite = true ∧ x.ReadsBack) →
      v.toJson.nesting ≤ maxNesting →
      read? v.write = some v) ∧
    ∀ (s : String) (v : Value), read? s = some v →
      v.Proper ∧
      (v.Numbers Number.ReadsBack → read? v.write = some v) := by
  refine ⟨fun v hproper hnumbers hnesting => read?_write hproper hnumbers hnesting, ?_⟩
  intro s v hread
  have hreadable := readable_of_read? hread
  refine ⟨hreadable.proper, fun hback => ?_⟩
  exact read?_write hreadable.proper (fun n hn => ⟨hreadable.finite n hn, hback n hn⟩)
    (hreadable.nesting_le rfl)

/-- A negative zero and a tenth beside the largest handle, above a grid of a text and of errors
with and without an explanation. -/
def parcel : Value :=
  .array (gridOfRows
    [[.number ⟨0x8000000000000000⟩, .number ⟨0x3FB999999999999A⟩, .handle ⟨0xFFFFFFFFFFFFFFFF⟩],
      [.array (gridOfRows
        [[.text "\"late\"\n"],
          [.error { code := .na, message := some "" }, .error { code := .num }]])]])

theorem proper_parcel :
    parcel.Proper := by
  refine proper_array ?_
  simp only [List.mem_cons, List.not_mem_nil, or_false, forall_eq_or_imp, forall_eq]
  refine ⟨⟨proper_of_plain rfl, proper_of_plain rfl, proper_of_plain rfl⟩, proper_array ?_⟩
  simp only [List.mem_cons, List.not_mem_nil, or_false, forall_eq_or_imp, forall_eq]
  exact ⟨proper_of_plain rfl, proper_of_plain rfl, proper_of_plain rfl⟩

theorem numbers_parcel :
    parcel.Numbers fun x => x.isFinite = true ∧ x.ReadsBack := by
  refine numbers_array ?_
  simp only [List.mem_cons, List.not_mem_nil, or_false, forall_eq_or_imp, forall_eq]
  refine ⟨⟨?_, ?_, numbers_of_plain rfl rfl⟩, numbers_array ?_⟩
  · exact numbers_number (by decide +kernel)
  · exact numbers_number (by decide +kernel)
  · simp only [List.mem_cons, List.not_mem_nil, or_false, forall_eq_or_imp, forall_eq]
    exact ⟨numbers_of_plain rfl rfl, numbers_of_plain rfl rfl, numbers_of_plain rfl rfl⟩

/-- Rows of different lengths, one of them empty and one with an empty grid. -/
def raggedText : String :=
  "\x7b\"Array\":[[],[\x7b\"Array\":[]\x7d,\"Empty\"],[\x7b\"Number\":-2.5\x7d]]\x7d"

def raggedValue : Value :=
  .array (gridOfRows [[], [.array (gridOfRows []), .empty], [.number ⟨0xC004000000000000⟩]])

theorem numbers_raggedValue :
    raggedValue.Numbers Number.ReadsBack := by
  refine numbers_array ?_
  simp only [List.mem_cons, List.not_mem_nil, or_false, forall_eq_or_imp, forall_eq]
  refine ⟨nofun, ⟨numbers_array nofun, numbers_of_plain rfl rfl⟩, numbers_number ?_⟩
  decide +kernel

def raggedRows : List Json :=
  [.array [], .array [member "Array" (.array []), .string (some "Empty")],
    .array [member "Number" (.number ⟨true, ['2'], ['5'], none⟩)]]

theorem faithful_raggedRows :
    (member "Array" (.array raggedRows)).Faithful := by
  have hnumeral : Numeral.Follows ⟨true, ['2'], ['5'], none⟩ :=
    ⟨by decide, List.forall_mem_singleton.2 rfl, by decide, List.forall_mem_singleton.2 rfl⟩
  refine faithful_member _ (.array ?_)
  simp only [raggedRows, List.mem_cons, List.not_mem_nil, or_false, forall_eq_or_imp, forall_eq]
  refine ⟨.array nofun, .array ?_, .array ?_⟩
  · simp only [List.mem_cons, List.not_mem_nil, or_false, forall_eq_or_imp, forall_eq]
    exact ⟨faithful_member _ (.array nofun), .string _⟩
  · exact List.forall_mem_singleton.2 (faithful_member _ (.number hnumeral))

theorem read?_raggedText :
    read? raggedText = some raggedValue := by
  have htext : raggedText = (member "Array" (.array raggedRows)).render := by
    decide
  have hnumber : Number.ofNumeral? ⟨true, ['2'], ['5'], none⟩ = some ⟨0xC004000000000000⟩ := by
    decide +kernel
  rw [read?, htext, Json.read?_render faithful_raggedRows]
  simp [member, raggedRows, raggedValue, maxNesting, ofJson?, rowsOfJson?, cellsOfJson?, ofName?,
    ofMember?, hnumber]

theorem exchange_round_trip_parcel :
    (parcel.toJson.nesting ≤ maxNesting ∧ read? parcel.write = some parcel) ∧
      read? raggedText = some raggedValue ∧ raggedValue.Proper ∧
        read? raggedValue.write = some raggedValue := by
  have hnesting : parcel.toJson.nesting ≤ maxNesting := by
    decide
  obtain ⟨hproper, hback⟩ := exchange_round_trip.2 raggedText raggedValue read?_raggedText
  exact ⟨⟨hnesting, exchange_round_trip.1 parcel proper_parcel numbers_parcel hnesting⟩,
    read?_raggedText, hproper, hback numbers_raggedValue⟩

end RoundTrip

end Value
end CellBridge

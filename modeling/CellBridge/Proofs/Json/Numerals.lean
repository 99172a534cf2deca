import CellBridge.Cell.Exchange

/-!
# Numerals in documents

A numeral that follows the grammar is read back as it was written, whatever follows it, as long as
this does not go on with the numeral: `numeral?_chars`.  The numerals of numbers and of handles
follow the grammar: `Number.follows_toNumeral` and `Handle.follows_toNumeral`.
-/

namespace CellBridge

section Defs

/-- The numeral follows the grammar of documents: digits before the point, no superfluous zero in
front of them, and digits behind the point. -/
structure Numeral.Follows
    (n : Numeral) : Prop where
  whole : n.whole ≠ []
  digits : ∀ c ∈ n.whole, Json.isDigit c = true
  leading : n.whole = ['0'] ∨ n.whole.head? ≠ some '0'
  fraction : ∀ c ∈ n.fraction, Json.isDigit c = true

/-- No numeral goes on with these characters. -/
def Json.EndsNumeral
    (cs : List Char) : Prop :=
  ∀ c, cs.head? = some c → Json.isDigit c = false ∧ c ≠ '.' ∧ c ≠ 'e' ∧ c ≠ 'E'

/-- The point and the digits behind it, if there are any. -/
def Json.fractionChars
    (ds : List Char) : List Char :=
  if ds.isEmpty then [] else '.' :: ds

/-- The characters of an exponent, if there is one. -/
def Json.exponentChars : Option Int → List Char
  | none => []
  | some e => 'e' :: Numeral.exponentText true e

end Defs

namespace Json

section Digits

variable {ds rest : List Char}

theorem isDigit_eq
    (c : Char) :
    isDigit c = c.isDigit := by
  simp only [isDigit, Text.digit?, Char.isDigit]
  split <;> rename_i h
  · simp at h ⊢
    exact h
  · simp at h ⊢
    exact h

theorem isDigit_of_mem_toDigits
    {n : Nat}
    {c : Char}
    (hc : c ∈ Nat.toDigits 10 n) :
    isDigit c = true := by
  rw [isDigit_eq]
  exact Nat.isDigit_of_mem_toDigits (by decide) (by decide) hc

/-- The digits of a number have its value. -/
theorem natOfDigits_toDigits
    (n : Nat) :
    natOfDigits (Nat.toDigits 10 n) = n := by
  have hvalue : ∀ (ds : List Char), (∀ c ∈ ds, isDigit c = true) → ∀ m,
      ds.foldl (fun n c => 10 * n + (Text.digit? c).getD 0) m = Nat.ofDigitChars 10 ds m := by
    intro ds
    induction ds with
    | nil =>
        intro _ m
        rfl
    | cons d ds ih =>
        intro hds m
        obtain ⟨hd, hds⟩ := List.forall_mem_cons.1 hds
        have hdigit : (Text.digit? d).getD 0 = d.toNat - '0'.toNat := by
          rw [isDigit, Text.digit?] at hd
          rw [Text.digit?]
          split at hd
          · rename_i h
            rw [if_pos h]
            rfl
          · cases hd
        rw [List.foldl_cons, ih hds, hdigit]
        rfl
  rw [natOfDigits, hvalue _ fun c hc => isDigit_of_mem_toDigits hc]
  exact Nat.ofDigitChars_toDigits (by decide) (by decide)

/-- Reading takes all digits, and nothing else. -/
theorem takeDigits_append
    (hds : ∀ c ∈ ds, isDigit c = true)
    (hrest : ∀ c, rest.head? = some c → isDigit c = false) :
    takeDigits (ds ++ rest) = (ds, rest) := by
  rw [takeDigits, List.takeWhile_append_of_pos hds, List.dropWhile_append_of_pos hds]
  cases rest with
  | nil =>
      rw [List.takeWhile_nil, List.append_nil, List.dropWhile_nil]
  | cons c rest =>
      have hc := hrest c rfl
      rw [List.takeWhile_cons, List.dropWhile_cons, hc]
      simp

end Digits

section Parts

variable {ds rest : List Char}

theorem whole?_append
    {n : Numeral}
    (hn : n.Follows)
    (hrest : ∀ c, rest.head? = some c → isDigit c = false) :
    whole? (n.whole ++ rest) = some (n.whole, rest) := by
  rw [whole?, takeDigits_append hn.digits hrest]
  have hwhole := hn.whole
  rcases hn.leading with hzero | hleading
  · rw [hzero]
    rfl
  · cases hds : n.whole with
    | nil =>
        exact absurd hds hwhole
    | cons d ds =>
        rw [hds] at hleading
        have hd : d ≠ '0' := fun h => hleading (congrArg some h)
        split
        · rename_i heq
          cases heq
        · rename_i heq
          cases heq
          exact absurd rfl hd
        · rename_i heq
          cases heq
          exact absurd rfl hd
        · rename_i heq
          cases heq
          rfl

theorem fraction?_append
    (hds : ∀ c ∈ ds, isDigit c = true)
    (hrest : ∀ c, rest.head? = some c → isDigit c = false ∧ c ≠ '.') :
    fraction? (fractionChars ds ++ rest) = some (ds, rest) := by
  cases ds with
  | nil =>
      show fraction? rest = _
      cases rest with
      | nil =>
          rfl
      | cons c rest =>
          rw [fraction?]
          rintro r heq
          cases heq
          exact (hrest '.' rfl).2 rfl
  | cons d ds =>
      show fraction? ('.' :: ((d :: ds) ++ rest)) = _
      rw [fraction?, takeDigits_append hds fun c hc => (hrest c hc).1]

/-- The digits of an exponent, read with its sign. -/
theorem exponentDigits?_append
    (negative : Bool)
    (n : Nat)
    (hrest : ∀ c, rest.head? = some c → isDigit c = false) :
    exponentDigits? negative (Nat.toDigits 10 n ++ rest) =
      some (some (if negative then -(n : Int) else n), rest) := by
  rw [exponentDigits?, takeDigits_append (fun c hc => isDigit_of_mem_toDigits hc) hrest]
  split
  · rename_i heq
    exact absurd (congrArg Prod.fst heq) Nat.toDigits_ne_nil
  · rename_i heq
    cases heq
    rw [natOfDigits_toDigits]

theorem exponent?_append
    (e : Option Int)
    (hrest : EndsNumeral rest) :
    exponent? (exponentChars e ++ rest) = some (e, rest) := by
  cases e with
  | none =>
      show exponent? rest = _
      cases rest with
      | nil =>
          rfl
      | cons c rest =>
          rw [exponent?]
          · rintro r heq
            cases heq
            exact (hrest 'e' rfl).2.2.1 rfl
          · rintro r heq
            cases heq
            exact (hrest 'E' rfl).2.2.2 rfl
  | some e =>
      have hdigits := fun negative => exponentDigits?_append negative e.natAbs
        fun c hc => (hrest c hc).1
      show exponent? ('e' :: (Numeral.exponentText true e ++ rest)) = _
      rw [Numeral.exponentText]
      by_cases hneg : e < 0
      · rw [if_pos hneg]
        show exponentDigits? true (Nat.toDigits 10 e.natAbs ++ rest) = _
        rw [hdigits true, if_pos rfl]
        have habs : -(e.natAbs : Int) = e := by omega
        rw [habs]
      · rw [if_neg hneg]
        show exponentDigits? false (Nat.toDigits 10 e.natAbs ++ rest) = _
        rw [hdigits false, if_neg Bool.false_ne_true]
        have habs : (e.natAbs : Int) = e := by omega
        rw [habs]

theorem endsNumeral_exponentChars
    (e : Option Int)
    (hrest : EndsNumeral rest) :
    ∀ c, (exponentChars e ++ rest).head? = some c → isDigit c = false ∧ c ≠ '.' := by
  intro c hc
  cases e with
  | none =>
      exact ⟨(hrest c hc).1, (hrest c hc).2.1⟩
  | some e =>
      cases hc
      exact ⟨rfl, by decide⟩

theorem unsigned?_append
    {n : Numeral}
    (hn : n.Follows)
    (hrest : EndsNumeral rest)
    (negative : Bool) :
    unsigned? negative
        (n.whole ++ (fractionChars n.fraction ++ (exponentChars n.exponent ++ rest))) =
      some ({ n with isNegative := negative }, rest) := by
  have hexponent := endsNumeral_exponentChars n.exponent hrest
  have hfraction : ∀ c, (fractionChars n.fraction ++ (exponentChars n.exponent ++ rest)).head? =
      some c → isDigit c = false := by
    intro c hc
    rw [fractionChars] at hc
    split at hc
    · exact (hexponent c hc).1
    · cases hc
      rfl
  rw [unsigned?, whole?_append hn hfraction]
  show (fraction? _ >>= _) = _
  rw [fraction?_append hn.fraction hexponent]
  show (exponent? _ >>= _) = _
  rw [exponent?_append n.exponent hrest]
  rfl

/-- A numeral that follows the grammar is read back. -/
theorem numeral?_chars
    {n : Numeral}
    (hn : n.Follows)
    (hrest : EndsNumeral rest) :
    numeral? (n.chars true ++ rest) = some (n, rest) := by
  obtain ⟨isNegative, whole, fraction, exponent⟩ := n
  have hread := unsigned?_append hn hrest isNegative
  have hchars : Numeral.chars true ⟨isNegative, whole, fraction, exponent⟩ ++ rest =
      (if isNegative then ['-'] else []) ++
        (whole ++ (fractionChars fraction ++ (exponentChars exponent ++ rest))) := by
    cases exponent <;> simp only [Numeral.chars, fractionChars, exponentChars, List.append_assoc]
  rw [hchars]
  cases isNegative with
  | true =>
      exact hread
  | false =>
      cases whole with
      | nil =>
          exact absurd rfl hn.whole
      | cons d ds =>
          have hd : d ≠ '-' := by
            rintro rfl
            cases hn.digits '-' List.mem_cons_self
          show numeral? (d :: (ds ++ _)) = _
          rw [numeral?]
          · exact hread
          · rintro r heq
            cases heq
            exact hd rfl

/-- A numeral starts with its sign or with a digit. -/
theorem first_of_follows
    {n : Numeral}
    (hn : n.Follows) :
    ∃ c cs, n.chars true = c :: cs ∧ (c = '-' ∨ isDigit c = true) := by
  obtain ⟨isNegative, whole, fraction, exponent⟩ := n
  cases isNegative with
  | true =>
      exact ⟨'-', _, rfl, Or.inl rfl⟩
  | false =>
      cases whole with
      | nil =>
          exact absurd rfl hn.whole
      | cons d ds =>
          exact ⟨d, _, rfl, Or.inr (hn.digits d List.mem_cons_self)⟩

end Parts

section Leading

/-- The digits of a positive number do not start with a zero. -/
theorem head?_toDigits
    {n : Nat}
    (hn : 0 < n) :
    (Nat.toDigits 10 n).head? ≠ some '0' := by
  induction n using Nat.strongRecOn with
  | _ n ih =>
      by_cases hlt : n < 10
      · have hchar : ∀ m < 10, 0 < m → m.digitChar ≠ '0' := by decide
        rw [Nat.toDigits_of_lt_base hlt]
        intro h
        exact hchar n hlt hn (Option.some.inj h)
      · have hle : 10 ≤ n := Nat.le_of_not_lt hlt
        have hfront := ih (n / 10) (Nat.div_lt_self hn (by decide)) (Nat.div_pos hle (by decide))
        rw [Nat.toDigits_of_base_le (by decide) hle]
        cases hds : Nat.toDigits 10 (n / 10) with
        | nil =>
            exact absurd hds Nat.toDigits_ne_nil
        | cons d ds =>
            rw [hds] at hfront
            exact hfront

/-- Taking zeros off the end leaves the first digit. -/
theorem trimmed_cons
    {d : Char}
    (hd : d ≠ '0')
    (ds : List Char) :
    ((d :: ds).reverse.dropWhile (· == '0')).reverse =
      d :: (ds.reverse.dropWhile (· == '0')).reverse := by
  have hlast : [d].dropWhile (· == '0') = [d] := by
    rw [List.dropWhile_cons, beq_false_of_ne hd]
    rfl
  have hdrop : (ds.reverse ++ [d]).dropWhile (· == '0') =
      ds.reverse.dropWhile (· == '0') ++ [d] := by
    rw [List.dropWhile_append, hlast]
    split
    · rename_i h
      rw [List.isEmpty_iff.1 h, List.nil_append]
    · rfl
  rw [List.reverse_cons, hdrop, List.reverse_append]
  rfl

end Leading

end Json

section Handles

theorem Handle.follows_toNumeral
    (h : Handle) :
    h.toNumeral.Follows := by
  refine ⟨Nat.toDigits_ne_nil, fun c hc => Json.isDigit_of_mem_toDigits hc, ?_, ?_⟩
  · rcases Nat.eq_zero_or_pos h.value.toNat with hzero | hpos
    · refine Or.inl ?_
      show Nat.toDigits 10 h.value.toNat = _
      rw [hzero]
      rfl
    · exact Or.inr (Json.head?_toDigits hpos)
  · intro c hc
    cases hc

/-- Every handle is read back from its numeral. -/
theorem Handle.ofNumeral?_toNumeral
    (h : Handle) :
    Handle.ofNumeral? h.toNumeral = some h := by
  have hvalue : Json.natOfDigits h.toNumeral.whole = h.value.toNat := Json.natOfDigits_toDigits _
  have hlt : h.value.toNat < Nat.pow 2 64 := h.value.toNat_lt
  rw [Handle.ofNumeral?, hvalue]
  simp only [Handle.toNumeral, hlt]
  simp

end Handles

namespace Number

section Digits

/-- The digits are there, and do not start with a zero, unless they are those of zero. -/
structure Digits.Follows
    (d : Digits) : Prop where
  nonempty : d.digits ≠ []
  digits : ∀ c ∈ d.digits, Json.isDigit c = true
  leading : d.digits = ['0'] ∧ d.exponent = 0 ∨ d.digits.head? ≠ some '0'

theorem Digits.follows_ofScaled
    {c : Nat}
    (hc : 0 < c)
    (g : Int) :
    (Digits.ofScaled c g).Follows := by
  have hhead := Json.head?_toDigits hc
  have hdigits : ∀ d ∈ Nat.toDigits 10 c, Json.isDigit d = true :=
    fun d hd => Json.isDigit_of_mem_toDigits hd
  cases hds : Nat.toDigits 10 c with
  | nil =>
      exact absurd hds Nat.toDigits_ne_nil
  | cons d ds =>
      rw [hds] at hhead hdigits
      have hd : d ≠ '0' := fun h => hhead (congrArg some h)
      have htrimmed : (Digits.ofScaled c g).digits =
          d :: (ds.reverse.dropWhile (· == '0')).reverse := by
        rw [← Json.trimmed_cons hd, ← hds]
        rfl
      rw [List.forall_mem_cons] at hdigits
      refine ⟨?_, ?_, Or.inr ?_⟩
      · rw [htrimmed]
        exact List.cons_ne_nil _ _
      · rw [htrimmed, List.forall_mem_cons]
        refine ⟨hdigits.1, fun e he => hdigits.2 e ?_⟩
        rw [List.mem_reverse] at he
        exact List.mem_reverse.1 ((List.dropWhile_sublist _).mem he)
      · rw [htrimmed]
        exact fun h => hd (Option.some.inj h)

variable {x : Number}

theorem mantissa_pos
    (hx : x.isZero = false) :
    0 < x.mantissa := by
  have hx : x.magnitudeBits ≠ 0 := of_decide_eq_false hx
  rw [mantissa]
  split
  · rename_i hexponent
    rw [exponentField] at hexponent
    rw [fractionField]
    have hdiv := Nat.div_add_mod x.magnitudeBits (Nat.pow 2 52)
    rw [hexponent] at hdiv
    omega
  · exact Nat.lt_of_lt_of_le (by decide) (Nat.le_add_right _ _)

/-- Zero reads back as no other number. -/
theorem readsBack_zero
    (hx : x.isZero = false)
    (g : Int) :
    readsBack x 0 g = false := by
  have hx : x.magnitudeBits ≠ 0 := of_decide_eq_false hx
  rw [readsBack, decimalRatio, Nat.zero_mul, nearestMagnitude, if_pos rfl]
  exact beq_false_of_ne (Ne.symm hx)

theorem gridPoint?_pos
    (hx : x.isZero = false)
    {tie : Tie}
    {g : Int}
    {c : Nat}
    (h : gridPoint? tie x g = some c) :
    0 < c := by
  have hlow : ∀ low, readsBack x low g = true → 0 < low := by
    intro low hread
    refine Nat.pos_of_ne_zero ?_
    rintro rfl
    rw [readsBack_zero hx] at hread
    cases hread
  unfold gridPoint? at h
  dsimp only at h
  generalize x.ratio.1 * Nat.pow 10 (-g).toNat / (x.ratio.2 * Nat.pow 10 g.toNat) = low at h
  split at h
  · cases h
  · rename_i hread _
    cases h
    exact hlow _ hread
  · cases h
    exact Nat.succ_pos low
  · rename_i hread _
    have hlow := hlow low hread
    split at h <;> cases h
    · exact hlow
    · exact Nat.succ_pos low
    · exact Nat.succ_pos low
    · split
      · exact hlow
      · exact Nat.succ_pos low

theorem follows_search
    (hx : x.isZero = false)
    (tie : Tie)
    (k : Int)
    (n left : Nat) :
    (search tie x k n left).Follows := by
  induction left generalizing n with
  | zero =>
      have hpos := mantissa_pos hx
      rw [search, exactDigits]
      split
      · exact Digits.follows_ofScaled (Nat.mul_pos hpos (Nat.pow_pos (by decide))) _
      · exact Digits.follows_ofScaled (Nat.mul_pos hpos (Nat.pow_pos (by decide))) _
  | succ left ih =>
      rw [search]
      split
      · rename_i c hc
        exact Digits.follows_ofScaled (gridPoint?_pos hx hc) _
      · exact ih (n + 1)

theorem follows_shortest
    (tie : Tie)
    (x : Number) :
    (shortest tie x).Follows := by
  rw [shortest]
  cases hx : x.isZero with
  | true =>
      refine ⟨List.cons_ne_nil _ _, ?_, Or.inl ⟨rfl, rfl⟩⟩
      intro c hc
      rw [List.mem_singleton.1 hc]
      rfl
  | false =>
      exact follows_search hx tie _ _ _

theorem isDigit_replicate
    (n : Nat) :
    ∀ c ∈ List.replicate n '0', Json.isDigit c = true := by
  intro c hc
  rw [List.eq_of_mem_replicate hc]
  rfl

/-- However digits are laid out, the numeral follows the grammar. -/
theorem Layout.follows_numeral
    (l : Layout)
    (negative : Bool)
    {d : Digits}
    (hd : d.Follows) :
    (l.numeral negative d).Follows := by
  obtain ⟨digits, exponent⟩ := d
  cases digits with
  | nil =>
      exact absurd rfl hd.nonempty
  | cons d ds =>
      obtain ⟨hfirst, hrest⟩ := List.forall_mem_cons.1 hd.digits
      rw [Layout.numeral]
      split
      · cases exponent with
        | ofNat e =>
            refine ⟨List.cons_ne_nil _ _, ?_, ?_, ?_⟩
            · refine List.forall_mem_cons.2
                ⟨hfirst, List.forall_mem_append.2 ⟨?_, isDigit_replicate _⟩⟩
              exact fun c hc => hrest c (List.mem_of_mem_take hc)
            · rcases hd.leading with ⟨hdigits, hexponent⟩ | hleading
              · cases hdigits
                cases hexponent
                exact Or.inl rfl
              · exact Or.inr hleading
            · dsimp only
              split
              · exact isDigit_replicate 1
              · exact fun c hc => hd.digits c (List.mem_of_mem_drop hc)
        | negSucc e =>
            exact ⟨List.cons_ne_nil _ _, isDigit_replicate 1, Or.inl rfl,
              List.forall_mem_append.2 ⟨isDigit_replicate e, hd.digits⟩⟩
      · refine ⟨List.cons_ne_nil _ _, List.forall_mem_singleton.2 hfirst, ?_, hrest⟩
        rcases hd.leading with ⟨hdigits, -⟩ | hleading
        · cases hdigits
          exact Or.inl rfl
        · exact Or.inr hleading

/-- Numbers are written in numerals that follow the grammar. -/
theorem follows_toNumeral
    (l : Layout)
    (x : Number) :
    (x.toNumeral l).Follows :=
  l.follows_numeral x.isNegative (follows_shortest l.tie x)

end Digits

end Number
end CellBridge

import CellBridge.Conversion.Catalog
import Mathlib.Data.List.Basic
import Mathlib.Tactic.Common

/-!
# The order of a catalog

However rules are registered, the buckets of the catalog are `Ordered`: none is empty, each holds
rules of its own priority only, and the priorities fall strictly.  So the rules are sorted, and
since a rule goes behind all others of its priority, those of one priority stand as they were
registered.  These two facts determine a list, and the stable sort has them too: `rules_ofRules`.

A lookup takes the first rule of the sorted list that applies, which is the rule that `Chosen`
describes in terms of the registrations.

The place for a rule can also be found by halving.  `Fits` says what a place has to satisfy in
ordered buckets; `fits_place` shows that halving finds such a place, and `putAt_of_fits` that
putting a rule at any such place is what `insertRule` does.
-/

namespace CellBridge

namespace Catalog

section Defs

/-- The catalog after registering rules one by one. -/
def ofRules
    (rs : List Rule) : Catalog :=
  rs.foldl register .empty

/-- Buckets as registering leaves them. -/
structure Ordered
    (bs : List Bucket) : Prop where
  nonempty : ∀ b ∈ bs, b.rules ≠ []
  uniform : ∀ b ∈ bs, ∀ r ∈ b.rules, r.priority = b.priority
  falling : bs.Pairwise fun a b => b.priority < a.priority

/-- May `a` stand ahead of `b`? -/
def mayLead
    (a b : Rule) : Bool :=
  decide (b.priority ≤ a.priority)

/-- The rules that were registered, those of higher priority first. -/
def byPriority
    (rs : List Rule) : List Rule :=
  rs.mergeSort mayLead

/-- What a lookup may find among registered rules: none if none applies, and otherwise, among the
rules of the highest priority that apply, the one registered first. -/
def Chosen
    (applies : Rule → Bool)
    (rs : List Rule) : Option Rule → Prop
  | none =>
      ∀ r ∈ rs, applies r = false
  | some r =>
      ∃ before after, rs = before ++ r :: after ∧ applies r = true ∧
        (∀ x ∈ before, applies x = true → x.priority < r.priority) ∧
        ∀ x ∈ after, applies x = true → x.priority ≤ r.priority

end Defs

section Halving

/-- A place for a rule among buckets. -/
inductive Place where
  /-- In the bucket with the index. -/
  | bucket (i : Nat)
  /-- In a new bucket, which gets the index. -/
  | gap (i : Nat)
deriving DecidableEq

/-- Does the bucket with the index stand behind the rules of the priority? -/
def behind
    (p : Int32)
    (bs : List Bucket)
    (i : Nat) : Bool :=
  bs[i]?.any fun b => decide (b.priority < p)

/-- Halves the `size` buckets from `base` on until one is left.  It is the last that does not stand
behind the rules of the priority, if there is one. -/
def narrow
    (p : Int32)
    (bs : List Bucket)
    (base size : Nat) : Nat :=
  if size ≤ 1 then
    base
  else
    narrow p bs (if behind p bs (base + size / 2) then base else base + size / 2)
      (size - size / 2)
termination_by size

def place
    (p : Int32)
    (bs : List Bucket) : Place :=
  let i := narrow p bs 0 bs.length
  match bs[i]? with
  | none => .gap 0
  | some b =>
      if b.priority = p then .bucket i
      else if p < b.priority then .gap (i + 1)
      else .gap i

/-- Is the place where rules of the priority belong? -/
def Fits
    (p : Int32)
    (bs : List Bucket) : Place → Prop
  | .bucket i =>
      ∃ b, bs[i]? = some b ∧ b.priority = p
  | .gap i =>
      i ≤ bs.length ∧ (∀ b ∈ bs.take i, p < b.priority) ∧ ∀ b ∈ bs.drop i, b.priority < p

/-- What halving keeps: all buckets after the `size` ones from `base` on stand behind the rules of
the priority, and the one at `base` does not, unless it is the first. -/
structure Bracket
    (p : Int32)
    (bs : List Bucket)
    (base size : Nat) : Prop where
  pos : 0 < size
  inside : base + size ≤ bs.length
  behindAfter : ∀ i, base + size ≤ i → i < bs.length → behind p bs i = true
  notBehind : 0 < base → behind p bs base = false

def putAt
    (r : Rule)
    (bs : List Bucket) : Place → List Bucket
  | .bucket i => bs.modify i fun b => { b with rules := b.rules ++ [r] }
  | .gap i => bs.insertIdx i { priority := r.priority, rules := [r] }

/-- Adds a rule at the place that halving finds. -/
def registerByHalving
    (c : Catalog)
    (r : Rule) : Catalog :=
  { c with buckets := putAt r c.buckets (place r.priority c.buckets) }

end Halving

section Buckets

variable {b : Bucket}
variable {bs : List Bucket}

theorem ordered_nil :
    Ordered [] := by
  exact ⟨by simp, by simp, .nil⟩

theorem ordered_cons_iff :
    Ordered (b :: bs) ↔
      b.rules ≠ [] ∧ (∀ r ∈ b.rules, r.priority = b.priority) ∧
        (∀ b' ∈ bs, b'.priority < b.priority) ∧ Ordered bs := by
  constructor
  · rintro ⟨hnonempty, huniform, hfalling⟩
    rw [List.forall_mem_cons] at hnonempty huniform
    rw [List.pairwise_cons] at hfalling
    exact ⟨hnonempty.1, huniform.1, hfalling.1, hnonempty.2, huniform.2, hfalling.2⟩
  · rintro ⟨hne, hpriority, hlt, hnonempty, huniform, hfalling⟩
    exact ⟨List.forall_mem_cons.2 ⟨hne, hnonempty⟩, List.forall_mem_cons.2 ⟨hpriority, huniform⟩,
      List.pairwise_cons.2 ⟨hlt, hfalling⟩⟩

/-- A bucket of its own for a rule. -/
theorem ordered_cons_new
    {r : Rule}
    (h : Ordered bs)
    (hlt : ∀ b ∈ bs, b.priority < r.priority) :
    Ordered ({ priority := r.priority, rules := [r] } :: bs) := by
  exact ordered_cons_iff.2 ⟨List.cons_ne_nil _ _, by simp, hlt, h⟩

/-- Inserting makes no priorities but that of the rule. -/
theorem priority_of_mem_insertRule
    {r : Rule}
    (h : b ∈ insertRule r bs) :
    b.priority = r.priority ∨ ∃ b' ∈ bs, b'.priority = b.priority := by
  induction bs with
  | nil =>
      rw [insertRule, List.mem_singleton] at h
      exact Or.inl (by rw [h])
  | cons b' bs ih =>
      rw [insertRule] at h
      split at h
      · rcases List.mem_cons.1 h with rfl | hmem
        · exact Or.inl rfl
        · exact Or.inr ⟨b, hmem, rfl⟩
      · split at h
        · rcases List.mem_cons.1 h with rfl | hmem
          · exact Or.inr ⟨b', List.mem_cons_self, rfl⟩
          · exact Or.inr ⟨b, List.mem_cons_of_mem _ hmem, rfl⟩
        · rcases List.mem_cons.1 h with rfl | hmem
          · exact Or.inr ⟨b, List.mem_cons_self, rfl⟩
          · rcases ih hmem with hnew | ⟨b'', hb'', heq⟩
            · exact Or.inl hnew
            · exact Or.inr ⟨b'', List.mem_cons_of_mem _ hb'', heq⟩

/-- Inserting a rule keeps buckets ordered. -/
theorem Ordered.insertRule
    (h : Ordered bs)
    (r : Rule) :
    Ordered (insertRule r bs) := by
  induction bs with
  | nil =>
      exact ordered_cons_new h (by simp)
  | cons b bs ih =>
      obtain ⟨hne, huniform, hlt, hrest⟩ := ordered_cons_iff.1 h
      rw [Catalog.insertRule]
      split
      case isTrue hbehind =>
        refine ordered_cons_new h ?_
        rw [List.forall_mem_cons]
        exact ⟨hbehind, fun b' hb' => Int32.lt_trans (hlt b' hb') hbehind⟩
      case isFalse hnotBehind =>
        split
        case isTrue heq =>
          refine ordered_cons_iff.2 ⟨by simp, ?_, hlt, hrest⟩
          intro r' hr'
          rcases List.mem_append.1 hr' with hold | hnew
          · exact huniform r' hold
          · rw [List.mem_singleton.1 hnew, heq]
        case isFalse hne' =>
          refine ordered_cons_iff.2 ⟨hne, huniform, ?_, ih hrest⟩
          intro b' hb'
          rcases priority_of_mem_insertRule hb' with hnew | ⟨b'', hb'', hold⟩
          · rw [Int32.lt_iff_toInt_lt] at hnotBehind ⊢
            rw [← Int32.toInt_inj] at hne'
            rw [hnew]
            omega
          · exact hold ▸ hlt b'' hb''

/-- Where all buckets are of lower priority, there is no rule of that priority. -/
theorem Ordered.filter_eq_nil
    (h : Ordered bs)
    {p : Int32}
    (hlt : ∀ b ∈ bs, b.priority < p) :
    (bs.flatMap Bucket.rules).filter (·.priority == p) = [] := by
  rw [List.filter_eq_nil_iff]
  intro r hr hp
  obtain ⟨b, hb, hrb⟩ := List.mem_flatMap.1 hr
  have hlow := hlt b hb
  rw [← h.uniform b hb r hrb, beq_iff_eq.1 hp] at hlow
  exact Int32.lt_irrefl hlow

/-- Among buckets of lower priority, a rule has no rules of its own priority to be ahead of. -/
theorem Ordered.filter_singleton_append
    (h : Ordered bs)
    {r : Rule}
    (hlt : ∀ b ∈ bs, b.priority < r.priority)
    (p : Int32) :
    [r].filter (·.priority == p) ++ (bs.flatMap Bucket.rules).filter (·.priority == p) =
      (bs.flatMap Bucket.rules).filter (·.priority == p) ++ [r].filter (·.priority == p) := by
  by_cases hp : r.priority = p
  · rw [h.filter_eq_nil (hp ▸ hlt), List.append_nil, List.nil_append]
  · have hnone : [r].filter (·.priority == p) = [] := by
      rw [List.filter_singleton, beq_eq_false_iff_ne.2 hp]
      rfl
    rw [hnone, List.append_nil, List.nil_append]

/-- The rule that is inserted goes behind all others of its priority, and nothing else moves among
the rules of one priority. -/
theorem Ordered.filter_insertRule
    (h : Ordered bs)
    (r : Rule)
    (p : Int32) :
    ((Catalog.insertRule r bs).flatMap Bucket.rules).filter (·.priority == p) =
      (bs.flatMap Bucket.rules).filter (·.priority == p) ++ [r].filter (·.priority == p) := by
  induction bs with
  | nil =>
      rfl
  | cons b bs ih =>
      obtain ⟨-, -, hlt, hrest⟩ := ordered_cons_iff.1 h
      rw [Catalog.insertRule]
      split
      case isTrue hlow =>
        rw [List.flatMap_cons, List.filter_append]
        refine h.filter_singleton_append ?_ p
        exact List.forall_mem_cons.2 ⟨hlow, fun b' hb' => Int32.lt_trans (hlt b' hb') hlow⟩
      case isFalse =>
        split
        case isTrue heq =>
          rw [List.flatMap_cons, List.flatMap_cons, List.filter_append, List.filter_append,
            List.filter_append, List.append_assoc, List.append_assoc,
            hrest.filter_singleton_append (heq ▸ hlt)]
        case isFalse =>
          rw [List.flatMap_cons, List.flatMap_cons, List.filter_append, List.filter_append,
            ih hrest, List.append_assoc]

/-- The rules of ordered buckets are sorted. -/
theorem Ordered.sorted
    (h : Ordered bs) :
    (bs.flatMap Bucket.rules).Pairwise fun a b => b.priority ≤ a.priority := by
  refine List.pairwise_flatMap.2 ⟨?_, ?_⟩
  · intro b hb
    refine List.pairwise_of_forall_mem_list fun r hr r' hr' => ?_
    rw [h.uniform b hb r hr, h.uniform b hb r' hr']
    exact Int32.le_refl _
  · refine h.falling.imp_of_mem ?_
    intro b b' hb hb' hlt r hr r' hr'
    rw [h.uniform b hb r hr, h.uniform b' hb' r' hr']
    exact Int32.le_of_lt hlt

end Buckets

section StableSort

/-- Sorted lists are equal if they agree on the rules of each priority. -/
theorem eq_of_sorted
    {rs rs' : List Rule}
    (h : rs.Pairwise fun a b => b.priority ≤ a.priority)
    (h' : rs'.Pairwise fun a b => b.priority ≤ a.priority)
    (hfilter : ∀ p, rs.filter (·.priority == p) = rs'.filter (·.priority == p)) :
    rs = rs' := by
  have hmem : ∀ r, r ∈ rs ↔ r ∈ rs' := by
    intro r
    have hr := congrArg (r ∈ ·) (hfilter r.priority)
    simpa using hr
  induction rs generalizing rs' with
  | nil =>
      exact (List.eq_nil_iff_forall_not_mem.2 fun r hr => by simpa using (hmem r).2 hr).symm
  | cons r rs ih =>
      cases rs' with
      | nil =>
          simpa using (hmem r).1 List.mem_cons_self
      | cons r' rs' =>
          rw [List.pairwise_cons] at h h'
          -- Each head is of the highest priority of both lists.
          have hpriority : r'.priority = r.priority := by
            refine Int32.le_antisymm ?_ ?_
            · rcases List.mem_cons.1 ((hmem r').2 List.mem_cons_self) with rfl | htail
              · exact Int32.le_refl _
              · exact h.1 r' htail
            · rcases List.mem_cons.1 ((hmem r).1 List.mem_cons_self) with rfl | htail
              · exact Int32.le_refl _
              · exact h'.1 r htail
          have hhead := hfilter r.priority
          rw [List.filter_cons_of_pos (by simp), List.filter_cons_of_pos (by simp [hpriority]),
            List.cons.injEq] at hhead
          obtain ⟨rfl, -⟩ := hhead
          have htail : ∀ p, rs.filter (·.priority == p) = rs'.filter (·.priority == p) := by
            intro p
            have hp := hfilter p
            rw [List.filter_cons, List.filter_cons] at hp
            split at hp
            · exact (List.cons.inj hp).2
            · exact hp
          rw [ih h.2 h'.2 htail fun x => by simpa using congrArg (x ∈ ·) (htail x.priority)]

theorem mayLead_trans
    (a b c : Rule)
    (hab : mayLead a b = true)
    (hbc : mayLead b c = true) :
    mayLead a c = true := by
  rw [mayLead, decide_eq_true_eq] at hab hbc ⊢
  exact Int32.le_trans hbc hab

theorem mayLead_total
    (a b : Rule) :
    (mayLead a b || mayLead b a) = true := by
  rw [mayLead, mayLead, Bool.or_eq_true, decide_eq_true_eq, decide_eq_true_eq]
  exact Int32.le_total _ _

theorem byPriority_sorted
    (rs : List Rule) :
    (byPriority rs).Pairwise fun a b => b.priority ≤ a.priority := by
  exact (List.pairwise_mergeSort mayLead_trans mayLead_total rs).imp of_decide_eq_true

/-- The sort leaves the rules of one priority in their order. -/
theorem filter_byPriority
    (rs : List Rule)
    (p : Int32) :
    (byPriority rs).filter (·.priority == p) = rs.filter (·.priority == p) := by
  have hpairwise : (rs.filter (·.priority == p)).Pairwise fun a b => mayLead a b = true := by
    refine List.pairwise_of_forall_mem_list fun r hr r' hr' => ?_
    simp only [List.mem_filter, beq_iff_eq] at hr hr'
    rw [mayLead, hr.2, hr'.2]
    exact decide_eq_true (Int32.le_refl _)
  have hsub : (rs.filter (·.priority == p)).Sublist (byPriority rs) :=
    List.sublist_mergeSort mayLead_trans mayLead_total hpairwise List.filter_sublist
  have hperm : ((byPriority rs).filter (·.priority == p)).Perm (rs.filter (·.priority == p)) :=
    (List.mergeSort_perm rs mayLead).filter _
  have hfiltered := hsub.filter (·.priority == p)
  simp only [List.filter_filter, Bool.and_self] at hfiltered
  exact (hfiltered.eq_of_length hperm.length_eq.symm).symm

end StableSort

section Registrations

variable (rs : List Rule)

theorem ordered_foldl_register
    {c : Catalog}
    (h : Ordered c.buckets) :
    Ordered (rs.foldl register c).buckets := by
  induction rs generalizing c with
  | nil =>
      exact h
  | cons r rs ih =>
      exact ih (h.insertRule r)

/-- The buckets are ordered after all registrations. -/
theorem ordered_ofRules :
    Ordered (ofRules rs).buckets := by
  exact ordered_foldl_register rs ordered_nil

theorem filter_foldl_register
    {c : Catalog}
    (h : Ordered c.buckets)
    (p : Int32) :
    (rs.foldl register c).rules.filter (·.priority == p) =
      c.rules.filter (·.priority == p) ++ rs.filter (·.priority == p) := by
  induction rs generalizing c with
  | nil =>
      exact (List.append_nil _).symm
  | cons r rs ih =>
      have hstep : (c.register r).rules.filter (·.priority == p) =
          c.rules.filter (·.priority == p) ++ [r].filter (·.priority == p) :=
        h.filter_insertRule r p
      rw [List.foldl_cons, ih (c := c.register r) (h.insertRule r), hstep, List.append_assoc,
        ← List.filter_append, List.singleton_append]

/-- Rules of one priority are tried in the order of their registration. -/
theorem filter_ofRules
    (p : Int32) :
    (ofRules rs).rules.filter (·.priority == p) = rs.filter (·.priority == p) := by
  exact filter_foldl_register rs ordered_nil p

/-- The rules are the stable sort of the registrations. -/
theorem rules_ofRules :
    (ofRules rs).rules = byPriority rs := by
  refine eq_of_sorted (ordered_ofRules rs).sorted (byPriority_sorted rs) fun p => ?_
  rw [filter_ofRules, filter_byPriority]

theorem perm_rules_ofRules :
    (ofRules rs).rules.Perm rs := by
  rw [rules_ofRules]
  exact List.mergeSort_perm rs _

end Registrations

section Choice

variable {applies : Rule → Bool}
variable {rs : List Rule}

theorem mem_rules_ofRules
    {r : Rule} :
    r ∈ (ofRules rs).rules ↔ r ∈ rs := by
  exact (perm_rules_ofRules rs).mem_iff

/-- No rule that applies is of higher priority than the first one that applies. -/
theorem priority_le_of_find?
    {r x : Rule}
    (h : (ofRules rs).rules.find? applies = some r)
    (hx : x ∈ rs)
    (happlies : applies x = true) :
    x.priority ≤ r.priority := by
  obtain ⟨-, front, back, hsplit, hfront⟩ := List.find?_eq_some_iff_append.1 h
  have hsorted : (ofRules rs).rules.Pairwise fun a b => b.priority ≤ a.priority :=
    (ordered_ofRules rs).sorted
  have hmem := mem_rules_ofRules.2 hx
  rw [hsplit] at hsorted hmem
  rcases List.mem_append.1 hmem with hbefore | hrest
  · have hskipped := hfront x hbefore
    rw [happlies] at hskipped
    cases hskipped
  · rcases List.mem_cons.1 hrest with rfl | hback
    · exact Int32.le_refl _
    · exact (List.pairwise_cons.1 (List.pairwise_append.1 hsorted).2.1).1 x hback

/-- The first rule that applies is the chosen one. -/
theorem chosen_find?
    (applies : Rule → Bool)
    (rs : List Rule) :
    Chosen applies rs ((ofRules rs).rules.find? applies) := by
  cases hfind : (ofRules rs).rules.find? applies with
  | none =>
      intro r hr
      exact Bool.eq_false_iff.2 (List.find?_eq_none.1 hfind r (mem_rules_ofRules.2 hr))
  | some r =>
      obtain ⟨happlies, front, back, hsplit, hfront⟩ := List.find?_eq_some_iff_append.1 hfind
      -- The rules of this priority are split in the registrations as in the sorted list.
      have hfilter := filter_ofRules rs r.priority
      rw [hsplit, List.filter_append, List.filter_cons_of_pos (by simp)] at hfilter
      obtain ⟨first, rest, rfl, hfirst, hrest⟩ := List.filter_eq_append_iff.1 hfilter.symm
      obtain ⟨skipped, after, rfl, hskipped, -, -⟩ := List.filter_eq_cons_iff.1 hrest
      refine ⟨first ++ skipped, after, by simp, happlies, ?_, ?_⟩
      · intro x hx hax
        have hmem : x ∈ first ++ (skipped ++ r :: after) := by
          rw [← List.append_assoc]
          exact List.mem_append_left _ hx
        refine Int32.lt_of_le_of_ne (priority_le_of_find? hfind hmem hax) fun heq => ?_
        rcases List.mem_append.1 hx with hx' | hx'
        · have hxfront : x ∈ front.filter (·.priority == r.priority) := by
            rw [← hfirst]
            exact List.mem_filter.2 ⟨hx', beq_iff_eq.2 heq⟩
          have hskip := hfront x (List.mem_filter.1 hxfront).1
          rw [hax] at hskip
          cases hskip
        · exact hskipped x hx' (beq_iff_eq.2 heq)
      · intro x hx hax
        exact priority_le_of_find? hfind (by simp [hx]) hax

end Choice

section Places

variable {p : Int32}
variable {bs : List Bucket}

theorem behind_iff
    {i : Nat}
    (hi : i < bs.length) :
    behind p bs i = true ↔ bs[i].priority < p := by
  rw [behind, List.getElem?_eq_getElem hi, Option.any_some, decide_eq_true_eq]

theorem Ordered.priority_lt
    (h : Ordered bs)
    {i j : Nat}
    (hij : i < j)
    (hj : j < bs.length) :
    bs[j].priority < bs[i].priority := by
  exact List.pairwise_iff_getElem.1 h.falling i j (by omega) hj hij

theorem Ordered.priority_le
    (h : Ordered bs)
    {i j : Nat}
    (hij : i ≤ j)
    (hj : j < bs.length) :
    bs[j].priority ≤ bs[i].priority := by
  rcases Nat.lt_or_eq_of_le hij with hlt | rfl
  · exact Int32.le_of_lt (h.priority_lt hlt hj)
  · exact Int32.le_refl _

/-- Before all buckets are known to stand behind, nothing has to be shown. -/
theorem bracket_all
    (hne : bs ≠ []) :
    Bracket p bs 0 bs.length where
  pos := List.length_pos_iff.2 hne
  inside := by omega
  behindAfter := fun i hle hlt => by omega
  notBehind := fun h => absurd h (Nat.lt_irrefl 0)

/-- One step of halving. -/
theorem Bracket.halve
    (h : Ordered bs)
    {base size : Nat}
    (hb : Bracket p bs base size)
    (hsize : ¬ size ≤ 1) :
    Bracket p bs (if behind p bs (base + size / 2) then base else base + size / 2)
      (size - size / 2) := by
  have hinside := hb.inside
  have hmiddle : base + size / 2 < bs.length := by omega
  split
  case isTrue hbehind =>
    rw [behind_iff hmiddle] at hbehind
    refine ⟨by omega, by omega, fun i hle hlt => ?_, hb.notBehind⟩
    rw [behind_iff hlt]
    exact Int32.lt_of_le_of_lt (h.priority_le (by omega) hlt) hbehind
  case isFalse hnot =>
    exact ⟨by omega, by omega, fun i hle hlt => hb.behindAfter i (by omega) hlt,
      fun _ => Bool.eq_false_iff.2 hnot⟩

/-- Halving ends with one bucket. -/
theorem Bracket.narrow
    (h : Ordered bs)
    {base size : Nat}
    (hb : Bracket p bs base size) :
    Bracket p bs (narrow p bs base size) 1 := by
  fun_induction Catalog.narrow p bs base size with
  | case1 base size hsize =>
      have hone : size = 1 := by
        have := hb.pos
        omega
      exact hone ▸ hb
  | case2 base size hsize ih =>
      exact ih (hb.halve h hsize)

theorem Bracket.priority_lt
    {base size : Nat}
    (hb : Bracket p bs base size) :
    ∀ b ∈ bs.drop (base + size), b.priority < p := by
  intro b hmem
  obtain ⟨k, hk, rfl⟩ := List.mem_iff_getElem.1 hmem
  rw [List.length_drop] at hk
  rw [List.getElem_drop, ← behind_iff]
  exact hb.behindAfter _ (by omega) (by omega)

/-- Only the first bucket can be left over standing behind. -/
theorem Bracket.base_eq_zero
    {base size : Nat}
    (hb : Bracket p bs base size)
    (hbehind : behind p bs base = true) :
    base = 0 := by
  rcases Nat.eq_zero_or_pos base with hzero | hpos
  · exact hzero
  · rw [hb.notBehind hpos] at hbehind
    cases hbehind

/-- The place next to the one bucket that is left fits. -/
theorem Bracket.fits
    (h : Ordered bs)
    {i : Nat}
    (hb : Bracket p bs i 1)
    (hi : i < bs.length) :
    Fits p bs
      (if bs[i].priority = p then .bucket i
        else if p < bs[i].priority then .gap (i + 1)
        else .gap i) := by
  split
  case isTrue heq =>
    exact ⟨bs[i], List.getElem?_eq_getElem hi, heq⟩
  case isFalse hne =>
    split
    case isTrue hlt =>
      refine ⟨hi, fun b hmem => ?_, hb.priority_lt⟩
      obtain ⟨k, hk, rfl⟩ := List.mem_take_iff_getElem.1 hmem
      exact Int32.lt_of_lt_of_le hlt (h.priority_le (by omega) hi)
    case isFalse hnot =>
      have hlow : bs[i].priority < p := Int32.lt_of_le_of_ne (Int32.not_lt.1 hnot) hne
      obtain rfl := hb.base_eq_zero ((behind_iff hi).2 hlow)
      refine ⟨Nat.zero_le _, by simp, ?_⟩
      rw [List.drop_eq_getElem_cons hi, List.forall_mem_cons]
      exact ⟨hlow, hb.priority_lt⟩

/-- The place that halving finds fits. -/
theorem fits_place
    (h : Ordered bs)
    (p : Int32) :
    Fits p bs (place p bs) := by
  rcases eq_or_ne bs [] with rfl | hne
  · rw [place]
    exact ⟨Nat.le_refl 0, by simp, by simp⟩
  · have hb := (bracket_all (p := p) hne).narrow h
    have hi : narrow p bs 0 bs.length < bs.length := by
      have hinside := hb.inside
      omega
    simp only [place, List.getElem?_eq_getElem hi]
    exact hb.fits h hi

theorem putAt_bucket
    (h : Ordered bs)
    {r : Rule}
    {i : Nat}
    (hfits : Fits r.priority bs (.bucket i)) :
    putAt r bs (.bucket i) = insertRule r bs := by
  obtain ⟨b', hb', hpriority⟩ := hfits
  induction bs generalizing i with
  | nil =>
      cases hb'
  | cons b bs ih =>
      obtain ⟨-, -, hlt, hrest⟩ := ordered_cons_iff.1 h
      rw [insertRule]
      cases i with
      | zero =>
          obtain rfl : b = b' := by simpa using hb'
          rw [if_neg (hpriority ▸ Int32.lt_irrefl), if_pos hpriority]
          rfl
      | succ i =>
          rw [List.getElem?_cons_succ] at hb'
          have hahead := hlt b' (List.mem_of_getElem? hb')
          rw [hpriority] at hahead
          rw [if_neg (Int32.not_lt.2 (Int32.le_of_lt hahead)), if_neg (Int32.ne_of_lt hahead).symm,
            ← ih hrest hb']
          rfl

theorem putAt_gap
    {r : Rule}
    {i : Nat}
    (hfits : Fits r.priority bs (.gap i)) :
    putAt r bs (.gap i) = insertRule r bs := by
  obtain ⟨hi, hahead, hbehind⟩ := hfits
  induction bs generalizing i with
  | nil =>
      obtain rfl : i = 0 := by simpa using hi
      rfl
  | cons b bs ih =>
      rw [insertRule]
      cases i with
      | zero =>
          rw [if_pos (hbehind b (by simp))]
          rfl
      | succ i =>
          rw [List.take_succ_cons, List.forall_mem_cons] at hahead
          rw [if_neg (Int32.not_lt.2 (Int32.le_of_lt hahead.1)),
            if_neg (Int32.ne_of_lt hahead.1).symm,
            ← ih (by simpa using hi) hahead.2 (by simpa using hbehind)]
          rfl

/-- Putting a rule where it belongs is inserting it. -/
theorem putAt_of_fits
    (h : Ordered bs)
    {r : Rule}
    {spot : Place}
    (hfits : Fits r.priority bs spot) :
    putAt r bs spot = insertRule r bs := by
  cases spot with
  | bucket i =>
      exact putAt_bucket h hfits
  | gap i =>
      exact putAt_gap hfits

/-- Halving and searching from the front make the same catalogs. -/
theorem registerByHalving_eq
    {c : Catalog}
    (h : Ordered c.buckets)
    (r : Rule) :
    c.registerByHalving r = c.register r := by
  rw [registerByHalving, putAt_of_fits h (fits_place h r.priority), register]

theorem foldl_registerByHalving
    (rs : List Rule)
    {c : Catalog}
    (h : Ordered c.buckets) :
    rs.foldl registerByHalving c = rs.foldl register c := by
  induction rs generalizing c with
  | nil =>
      rfl
  | cons r rs ih =>
      rw [List.foldl_cons, registerByHalving_eq h, List.foldl_cons]
      exact ih (c := c.register r) (h.insertRule r)

end Places

section Result

theorem size_ofRules
    (rs : List Rule) :
    (ofRules rs).size = rs.length := by
  exact (perm_rules_ofRules rs).length_eq

/-- A catalog stands for the stable sort of its registrations: the rules come in that order, in
buckets of falling priority, and each lookup finds the rule of the highest priority that was
registered first among those that apply.  Halving finds the places that make it so. -/
theorem catalog_order
    (rs : List Rule) :
    (ofRules rs).rules = byPriority rs ∧
      (ofRules rs).rules.Perm rs ∧
      (ofRules rs).rules.Pairwise (fun a b => b.priority ≤ a.priority) ∧
      (∀ p, (ofRules rs).rules.filter (·.priority == p) = rs.filter (·.priority == p)) ∧
      Ordered (ofRules rs).buckets ∧
      (ofRules rs).size = rs.length ∧
      (∀ s required,
        Chosen (fun r => r.reads s required) rs ((ofRules rs).findByShape? s required)) ∧
      (∀ actual, Chosen (fun r => r.canConvert actual) rs ((ofRules rs).findByType? actual)) ∧
      rs.foldl registerByHalving .empty = ofRules rs := by
  exact ⟨rules_ofRules rs, perm_rules_ofRules rs, (ordered_ofRules rs).sorted, filter_ofRules rs,
    ordered_ofRules rs, size_ofRules rs, fun _ _ => chosen_find? _ rs, fun _ => chosen_find? _ rs,
    foldl_registerByHalving rs ordered_nil⟩

end Result

end Catalog

end CellBridge

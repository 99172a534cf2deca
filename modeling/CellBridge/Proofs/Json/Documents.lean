import CellBridge.Proofs.Json.Numerals
import CellBridge.Proofs.Json.Strings

/-!
# Documents are read as they were written

A document can be lost in writing in two ways only: a string that is no text is written as an empty
one, and a numeral need not follow the grammar.  A `Faithful` document has neither, and is read back
from its text: `Faithful.readBack` is the induction over the document, `read?_render` the text as
a whole.

The reader has fuel for every two nested calls, and each of them uses a character, so that the
length of the text is fuel enough.
-/

namespace CellBridge
namespace Json

section Defs

/-- All strings of the document are texts, and its numerals follow the grammar. -/
inductive Faithful : Json → Prop
  | null :
      Faithful .null
  | bool
      (b : Bool) :
      Faithful (.bool b)
  | number
      {n : Numeral}
      (hn : n.Follows) :
      Faithful (.number n)
  | string
      (s : String) :
      Faithful (.string (some s))
  | array
      {items : List Json}
      (hitems : ∀ j ∈ items, Faithful j) :
      Faithful (.array items)
  | object
      {members : List (Option String × Json)}
      (hnames : ∀ m ∈ members, m.1.isSome = true)
      (hmembers : ∀ m ∈ members, Faithful m.2) :
      Faithful (.object members)

/-- What may follow a document inside another one. -/
def EndsDocument
    (cs : List Char) : Prop :=
  ∀ c, cs.head? = some c → c = ',' ∨ c = ']' ∨ c = '\x7d'

/-- The document is read back in front of everything that may follow it. -/
def ReadBack
    (j : Json) : Prop :=
  ∀ fuel rest, EndsDocument rest → j.chars.length ≤ fuel →
    value? fuel (j.chars ++ rest) = some (j, rest)

end Defs

section First

theorem skip_cons
    {c : Char}
    (hc : isSpace c = false)
    (cs : List Char) :
    skip (c :: cs) = c :: cs := by
  rw [skip, List.dropWhile_cons, hc]
  rfl

/-- The first character of a numeral starts nothing else. -/
theorem special_of_numeral
    {c : Char}
    (hc : c = '-' ∨ isDigit c = true) :
    isSpace c = false ∧ c ∉ [']', '"', '[', '\x7b', 'n', 't', 'f'] := by
  have hdigit : ∀ {d : Char}, c = d → d ≠ '-' → isDigit d = false → False := by
    rintro d rfl hsign hd
    rcases hc with hminus | hdigit
    · exact hsign hminus
    · rw [hd] at hdigit
      cases hdigit
  refine ⟨?_, ?_⟩
  · rw [isSpace]
    simp only [Bool.or_eq_false_iff, beq_eq_false_iff_ne]
    refine ⟨⟨⟨?_, ?_⟩, ?_⟩, ?_⟩ <;> exact fun h => hdigit h (by decide) rfl
  · simp only [List.mem_cons, List.not_mem_nil, or_false]
    rintro (h | h | h | h | h | h | h) <;> exact hdigit h (by decide) rfl

/-- A document starts with a character that is no blank and closes no list. -/
theorem Faithful.first
    {j : Json}
    (hj : j.Faithful) :
    ∃ c cs, j.chars = c :: cs ∧ isSpace c = false ∧ c ≠ ']' := by
  cases hj with
  | null =>
      exact ⟨'n', _, rfl, rfl, by decide⟩
  | bool b =>
      cases b
      · exact ⟨'f', _, rfl, rfl, by decide⟩
      · exact ⟨'t', _, rfl, rfl, by decide⟩
  | number hn =>
      obtain ⟨c, cs, hchars, hc⟩ := first_of_follows hn
      obtain ⟨hspace, hspecial⟩ := special_of_numeral hc
      exact ⟨c, cs, hchars, hspace, fun h => hspecial (h ▸ List.mem_cons_self)⟩
  | string s =>
      exact ⟨'"', _, rfl, rfl, by decide⟩
  | @array items _ =>
      cases items
      · exact ⟨'[', _, rfl, rfl, by decide⟩
      · exact ⟨'[', _, rfl, rfl, by decide⟩
  | @object members _ _ =>
      cases members
      · exact ⟨'\x7b', _, rfl, rfl, by decide⟩
      · exact ⟨'\x7b', _, rfl, rfl, by decide⟩

end First

section Lists

variable {j : Json} {js : List Json} {rest : List Char}

theorem endsDocument_itemChars
    (js : List Json)
    (rest : List Char) :
    EndsDocument (itemChars js ++ rest) := by
  intro c hc
  cases js with
  | nil =>
      cases hc
      exact Or.inr (Or.inl rfl)
  | cons j js =>
      cases hc
      exact Or.inl rfl

/-- The items of a list are read back, if each of them is. -/
theorem items?_chars
    (hj : j.ReadBack)
    (hjs : ∀ k ∈ js, k.ReadBack)
    {fuel : Nat}
    (hfuel : j.chars.length + (itemChars js).length ≤ fuel)
    (rest : List Char) :
    items? fuel (j.chars ++ (itemChars js ++ rest)) = some (j :: js, rest) := by
  induction js generalizing j fuel with
  | nil =>
      obtain ⟨f, rfl⟩ := Nat.exists_eq_succ_of_ne_zero
        (Nat.ne_of_gt (Nat.lt_of_lt_of_le (Nat.succ_pos _) hfuel))
      rw [items?, hj f _ (endsDocument_itemChars [] rest) (Nat.le_of_succ_le_succ hfuel)]
      rfl
  | cons k ks ih =>
      obtain ⟨hk, hks⟩ := List.forall_mem_cons.1 hjs
      have hlength : (itemChars (k :: ks)).length = k.chars.length + (itemChars ks).length + 1 := by
        rw [itemChars, List.length_cons, List.length_append]
      rw [hlength] at hfuel
      obtain ⟨f, rfl⟩ := Nat.exists_eq_succ_of_ne_zero
        (Nat.ne_of_gt (Nat.lt_of_lt_of_le (Nat.succ_pos _) hfuel))
      have hfuel' : k.chars.length + (itemChars ks).length ≤ f := by omega
      have hrest := ih hk hks hfuel'
      rw [items?, hj f _ (endsDocument_itemChars (k :: ks) rest) (by omega)]
      show (items? f (k.chars ++ itemChars ks ++ rest) >>= _) = _
      rw [List.append_assoc, hrest]
      rfl

end Lists

section Members

variable {name : Option String} {j : Json} {members : List (Option String × Json)}
  {rest : List Char}

theorem endsDocument_memberChars
    (members : List (Option String × Json))
    (rest : List Char) :
    EndsDocument (memberChars members ++ rest) := by
  intro c hc
  cases members with
  | nil =>
      cases hc
      exact Or.inr (Or.inr rfl)
  | cons m members =>
      cases hc
      exact Or.inl rfl

/-- A member is read up to what follows it. -/
theorem members?_member
    (s : String)
    (hj : j.ReadBack)
    (hrest : EndsDocument rest)
    {fuel : Nat}
    (hfuel : j.chars.length ≤ fuel) :
    members? (fuel + 1) (stringChars (some s) ++ ':' :: (j.chars ++ rest)) =
      match skip rest with
      | ',' :: r => (members? fuel r).map fun p => ((some s, j) :: p.1, p.2)
      | '\x7d' :: r => some ([(some s, j)], r)
      | _ => none := by
  rw [stringChars_append, members?, skip_cons rfl]
  show (stringBody? _ >>= _) = _
  rw [stringBody?_written]
  show (value? fuel _ >>= _) = _
  rw [hj fuel rest hrest hfuel]
  show (match skip rest with
    | ',' :: r => members? fuel r >>= fun p => pure ((some s, j) :: p.1, p.2)
    | '\x7d' :: r => pure ([(some s, j)], r)
    | _ => none) = _
  split
  · cases members? fuel _ <;> rfl
  · rfl
  · rfl

/-- The members of an object are read back, if what they hold is. -/
theorem members?_chars
    (hname : name.isSome = true)
    (hj : j.ReadBack)
    (hnames : ∀ m ∈ members, m.1.isSome = true)
    (hmembers : ∀ m ∈ members, m.2.ReadBack)
    {fuel : Nat}
    (hfuel : (stringChars name).length + j.chars.length + (memberChars members).length ≤ fuel)
    (rest : List Char) :
    members? fuel (stringChars name ++ ':' :: (j.chars ++ (memberChars members ++ rest))) =
      some ((name, j) :: members, rest) := by
  have hquotes := two_le_length_stringChars name
  obtain ⟨f, rfl⟩ := Nat.exists_eq_succ_of_ne_zero (n := fuel) (by omega)
  induction members generalizing name j f with
  | nil =>
      obtain ⟨s, rfl⟩ := Option.isSome_iff_exists.1 hname
      rw [members?_member s hj (endsDocument_memberChars [] rest) (by omega)]
      rfl
  | cons m ms ih =>
      obtain ⟨s, rfl⟩ := Option.isSome_iff_exists.1 hname
      obtain ⟨name', j'⟩ := m
      have hname' : name'.isSome = true := hnames _ List.mem_cons_self
      have hj' : j'.ReadBack := hmembers _ List.mem_cons_self
      have hnames' := (List.forall_mem_cons.1 hnames).2
      have hmembers' := (List.forall_mem_cons.1 hmembers).2
      have hquotes' := two_le_length_stringChars name'
      have hlength : (memberChars ((name', j') :: ms)).length =
          (stringChars name').length + j'.chars.length + (memberChars ms).length + 2 := by
        rw [memberChars, List.length_cons, List.length_append, List.length_cons,
          List.length_append]
        omega
      rw [hlength] at hfuel
      obtain ⟨g, rfl⟩ := Nat.exists_eq_succ_of_ne_zero (n := f) (by omega)
      have hrest := ih hname' hj' hnames' hmembers' hquotes' g (by omega)
      rw [members?_member s hj (endsDocument_memberChars ((name', j') :: ms) rest) (by omega)]
      show (members? (g + 1) ((stringChars name' ++ ':' :: (j'.chars ++ memberChars ms)) ++
        rest)).map _ = _
      rw [List.append_assoc, List.cons_append, List.append_assoc, hrest]
      rfl

end Members

section Documents

theorem EndsDocument.endsNumeral
    {cs : List Char}
    (h : EndsDocument cs) :
    EndsNumeral cs := by
  intro c hc
  rcases h c hc with rfl | rfl | rfl <;> exact ⟨rfl, by decide, by decide, by decide⟩

theorem readBack_number
    {n : Numeral}
    (hn : n.Follows) :
    (Json.number n).ReadBack := by
  intro fuel rest hrest hfuel
  obtain ⟨c, cs, hchars, hc⟩ := first_of_follows hn
  obtain ⟨hspace, hspecial⟩ := special_of_numeral hc
  have hread := numeral?_chars hn hrest.endsNumeral
  rw [chars] at hfuel ⊢
  rw [hchars, List.cons_append] at hread
  rw [hchars] at hfuel ⊢
  obtain ⟨f, rfl⟩ := Nat.exists_eq_succ_of_ne_zero (Nat.ne_zero_of_lt hfuel)
  rw [List.cons_append, value?, skip_cons hspace]
  split
  case h_7 =>
    rw [hread]
    rfl
  -- everything else that the reader knows starts with another character
  all_goals
    rename_i heq
    cases heq
    simp at hspecial

theorem readBack_string
    (s : String) :
    (Json.string (some s)).ReadBack := by
  intro fuel rest hrest hfuel
  obtain ⟨f, rfl⟩ := Nat.exists_eq_succ_of_ne_zero (Nat.ne_zero_of_lt hfuel)
  rw [chars, stringChars_append, value?, skip_cons rfl]
  show (stringBody? _ >>= _) = _
  rw [stringBody?_written]
  rfl

theorem readBack_array
    {items : List Json}
    (hitems : ∀ j ∈ items, j.Faithful)
    (hread : ∀ j ∈ items, j.ReadBack) :
    (Json.array items).ReadBack := by
  intro fuel rest hrest hfuel
  obtain ⟨f, rfl⟩ := Nat.exists_eq_succ_of_ne_zero
    (Nat.ne_of_gt (Nat.lt_of_lt_of_le (by cases items <;> exact Nat.succ_pos _) hfuel))
  cases items with
  | nil =>
      rfl
  | cons j js =>
      obtain ⟨c, cs, hchars, hspace, hc⟩ := (hitems j List.mem_cons_self).first
      obtain ⟨hj, hjs⟩ := List.forall_mem_cons.1 hread
      rw [chars, List.length_cons, List.length_append] at hfuel
      have hall := items?_chars hj hjs (Nat.le_of_succ_le_succ hfuel) rest
      rw [chars, List.cons_append, List.append_assoc, value?, skip_cons rfl]
      rw [hchars, List.cons_append] at hall ⊢
      simp only [skip_cons hspace]
      split
      · rename_i heq
        cases heq
        exact absurd rfl hc
      · rw [hall]
        rfl

theorem readBack_object
    {members : List (Option String × Json)}
    (hnames : ∀ m ∈ members, m.1.isSome = true)
    (hread : ∀ m ∈ members, m.2.ReadBack) :
    (Json.object members).ReadBack := by
  intro fuel rest hrest hfuel
  obtain ⟨f, rfl⟩ := Nat.exists_eq_succ_of_ne_zero
    (Nat.ne_of_gt (Nat.lt_of_lt_of_le (by cases members <;> exact Nat.succ_pos _) hfuel))
  cases members with
  | nil =>
      rfl
  | cons m ms =>
      obtain ⟨name, j⟩ := m
      have hname : name.isSome = true := hnames _ List.mem_cons_self
      have hj : j.ReadBack := hread _ List.mem_cons_self
      have hfuel' : (stringChars name).length + j.chars.length + (memberChars ms).length ≤ f := by
        rw [chars, List.length_cons, List.length_append, List.length_cons, List.length_append]
          at hfuel
        omega
      have hall := members?_chars hname hj (List.forall_mem_cons.1 hnames).2
        (List.forall_mem_cons.1 hread).2 hfuel' rest
      obtain ⟨s, rfl⟩ := Option.isSome_iff_exists.1 hname
      rw [chars, List.cons_append, List.append_assoc, List.cons_append, List.append_assoc, value?,
        skip_cons rfl]
      rw [stringChars_append] at hall ⊢
      show (members? f _ >>= fun p => pure (Json.object p.1, p.2)) = _
      rw [hall]
      rfl

/-- Faithful documents are read back. -/
theorem Faithful.readBack
    {j : Json}
    (hj : j.Faithful) :
    j.ReadBack := by
  induction hj with
  | null =>
      intro fuel rest hrest hfuel
      obtain ⟨f, rfl⟩ := Nat.exists_eq_succ_of_ne_zero (Nat.ne_zero_of_lt hfuel)
      rfl
  | bool b =>
      intro fuel rest hrest hfuel
      cases b
      · obtain ⟨f, rfl⟩ := Nat.exists_eq_succ_of_ne_zero (Nat.ne_zero_of_lt hfuel)
        rfl
      · obtain ⟨f, rfl⟩ := Nat.exists_eq_succ_of_ne_zero (Nat.ne_zero_of_lt hfuel)
        rfl
  | number hn =>
      exact readBack_number hn
  | string s =>
      exact readBack_string s
  | array hitems ih =>
      exact readBack_array hitems ih
  | object hnames _ ih =>
      exact readBack_object hnames ih

/-- A faithful document is read back from its text. -/
theorem read?_render
    {j : Json}
    (hj : j.Faithful) :
    read? j.render = some j := by
  have hlength : j.chars.length ≤ 2 * j.render.length + 2 := by
    rw [render, String.length_ofList]
    omega
  have hread := hj.readBack (2 * j.render.length + 2) [] (fun _ h => by cases h) hlength
  rw [List.append_nil] at hread
  have hchars : j.render.toList = j.chars := String.toList_ofList
  rw [read?, hchars, hread]
  rfl

end Documents

end Json
end CellBridge

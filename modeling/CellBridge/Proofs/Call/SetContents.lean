import CellBridge.Proofs.Call.CollectionCalls
import CellBridge.Proofs.Managed.ValueEquality

/-!
# What is in a set

A set compares a new object with the objects that it kept.  Because equality is transitive among
consistent objects, this comes to the same as comparing it with all that were ever inserted:
`hasEqual_firstSeen`.  So the items of a set are the objects `firstSeen` among those inserted,
`SetRun.payload_eq`, and the set answers for all of them.

A set is filled in the course of a session.  `SetRun` allows anything else to happen in between that
keeps what the set holds and turns no payload into one of another kind.
-/

namespace CellBridge

section Defs

/-- Of objects in the order of their insertion those that equal none inserted earlier, whether it
was kept or dropped. -/
def Store.firstSeen
    (s : Store)
    (os : List Object) : List Object :=
  (os.zipIdx.filter fun p => !s.hasEqual (os.take p.2) p.1).map Prod.fst

/-- A set after the objects were inserted: it was created from some of them, the others were added
one by one, and in between the world changed elsewhere. -/
inductive SetRun
    (this : Object) : List Object → World → Prop
  | create
      {e : Ty}
      {os : List Object}
      {w w' : World}
      (hbound : ∀ o ∈ os, o.id < w.store.size)
      (hcreate : Action.createSet e os w = (.ok this, w')) :
      SetRun this os w'
  | insert
      {os : List Object}
      {o r : Object}
      {w w' : World}
      (hrun : SetRun this os w)
      (hbound : o.id < w.store.size)
      (hadd : Builtin.setAdd.body (some this) [o] w = (.ok r, w')) :
      SetRun this (os ++ [o]) w'
  | elsewhere
      {os : List Object}
      {w w' : World}
      (hrun : SetRun this os w)
      (hevolves : w.store.Evolves w'.store)
      (hkeeps : w'.store.payload this = w.store.payload this) :
      SetRun this os w'

end Defs

namespace Store

variable {s s' : Store} {os : List Object} {o x : Object}

section FirstSeen

@[simp] theorem firstSeen_nil
    (s : Store) :
    s.firstSeen [] = [] := by
  rfl

/-- A further object is among the first seen if it equals none before it. -/
theorem firstSeen_append_singleton
    (s : Store)
    (os : List Object)
    (o : Object) :
    s.firstSeen (os ++ [o]) = s.firstSeen os ++ if s.hasEqual os o then [] else [o] := by
  have hbefore : os.zipIdx.filter (fun p => !s.hasEqual ((os ++ [o]).take p.2) p.1) =
      os.zipIdx.filter fun p => !s.hasEqual (os.take p.2) p.1 := by
    refine List.filter_congr ?_
    intro p hp
    have hindex : p.2 < os.length := by
      simpa using List.snd_lt_of_mem_zipIdx hp
    rw [List.take_append_of_le_length (Nat.le_of_lt hindex)]
  rw [firstSeen, List.zipIdx_append, List.filter_append, List.map_append, hbefore, ← firstSeen]
  congr 1
  rw [Nat.zero_add, List.zipIdx_singleton, List.filter_singleton, List.take_left]
  cases s.hasEqual os o <;> rfl

theorem firstSeen_sublist
    (s : Store)
    (os : List Object) :
    (s.firstSeen os).Sublist os := by
  have hsub : (s.firstSeen os).Sublist (os.zipIdx.map Prod.fst) := List.filter_sublist.map Prod.fst
  rw [List.zipIdx_map_fst] at hsub
  exact hsub

/-- Every object that was inserted equals one of the first seen. -/
theorem exists_firstSeen
    (hos : s.Consistent os)
    (ho : o ∈ os) :
    ∃ x ∈ s.firstSeen os, s.valueEq x o = true := by
  induction os using List.reverseRecOn generalizing o with
  | nil =>
      cases ho
  | append_singleton os z ih =>
      have hold : ∀ y ∈ os, ∃ x ∈ s.firstSeen (os ++ [z]), s.valueEq x y = true := by
        intro y hy
        obtain ⟨x, hx, heq⟩ := ih hos.earlier hy
        rw [firstSeen_append_singleton]
        exact ⟨x, List.mem_append_left _ hx, heq⟩
      rcases List.mem_append.1 ho with ho | ho
      · exact hold o ho
      · obtain rfl := List.mem_singleton.1 ho
        cases hequal : s.hasEqual os o with
        | false =>
            refine ⟨o, ?_, s.valueEq_self o⟩
            rw [firstSeen_append_singleton, hequal]
            exact List.mem_append_right _ List.mem_cons_self
        | true =>
            obtain ⟨y, hy, heq⟩ := List.any_eq_true.1 hequal
            obtain ⟨x, hx, heq'⟩ := hold y hy
            have hmem : ∀ u ∈ s.firstSeen (os ++ [o]), u ∈ os ++ [o] :=
              fun u hu => (s.firstSeen_sublist _).subset hu
            exact ⟨x, hx, hos.valueEq_trans (hmem x hx) (List.mem_append_left _ hy)
              (List.mem_append_right _ List.mem_cons_self) heq' heq⟩

/-- To look among the first seen is to look among all that were inserted. -/
theorem hasEqual_firstSeen
    (hos : s.Consistent (os ++ [o])) :
    s.hasEqual (s.firstSeen os) o = s.hasEqual os o := by
  have hlast : o ∈ os ++ [o] := List.mem_append_right _ List.mem_cons_self
  rw [Bool.eq_iff_iff, hasEqual, hasEqual, List.any_eq_true, List.any_eq_true]
  constructor
  · rintro ⟨x, hx, heq⟩
    exact ⟨x, (s.firstSeen_sublist os).subset hx, heq⟩
  · rintro ⟨y, hy, heq⟩
    obtain ⟨x, hx, heq'⟩ := exists_firstSeen hos.earlier hy
    have hmem := (s.firstSeen_sublist os).subset hx
    exact ⟨x, hx, hos.valueEq_trans (List.mem_append_left _ hmem) (List.mem_append_left _ hy) hlast
      heq' heq⟩

/-- An object has an equal among others if it equals one of them. -/
theorem hasEqual_iff
    (hos : s.Consistent (os ++ [o])) :
    s.hasEqual os o = true ↔ ∃ x ∈ os, s.valueEq o x = true := by
  have hlast : o ∈ os ++ [o] := List.mem_append_right _ List.mem_cons_self
  rw [hasEqual, List.any_eq_true]
  refine exists_congr fun x => and_congr_right fun hx => ?_
  exact ⟨hos.valueEq_symm hlast, hos.valueEq_symm (List.mem_append_left _ hx)⟩

/-- Inserting an object among the first seen gives the first seen with this object. -/
theorem insertItem_firstSeen
    (hos : s.Consistent (os ++ [o])) :
    s.insertItem (s.firstSeen os) o = s.firstSeen (os ++ [o]) := by
  rw [insertItem, hasEqual_firstSeen hos, firstSeen_append_singleton]
  split
  · exact (List.append_nil _).symm
  · rfl

/-- A set that is created from objects has the first seen among them. -/
theorem distinct_eq_firstSeen
    (hos : s.Consistent os) :
    s.distinct os = s.firstSeen os := by
  induction os using List.reverseRecOn with
  | nil =>
      rfl
  | append_singleton os o ih =>
      have hfound : s.distinct os = s.firstSeen os := ih hos.earlier
      rw [distinct] at hfound ⊢
      rw [List.foldl_append, hfound]
      exact insertItem_firstSeen hos

/-- No two of the first seen are equal. -/
theorem pairwise_firstSeen
    (hos : s.Consistent os) :
    (s.firstSeen os).Pairwise fun x y => s.valueEq x y = false ∧ s.valueEq y x = false := by
  have hpairwise := s.pairwise_distinct os
  rw [distinct_eq_firstSeen hos] at hpairwise
  refine hpairwise.imp_of_mem ?_
  intro x y hx hy hne
  refine ⟨hne, Bool.eq_false_iff.2 fun heq => ?_⟩
  have hsymm := hos.valueEq_symm ((s.firstSeen_sublist os).subset hx) heq
  rw [hne] at hsymm
  cases hsymm

/-- Among the same objects the same one has an equal while the store evolves. -/
theorem Evolves.hasEqual
    (h : s.Evolves s')
    (hbound : ∀ x ∈ os, x.id < s.size)
    (ho : o.id < s.size) :
    s'.hasEqual os o = s.hasEqual os o := by
  rw [Bool.eq_iff_iff, Store.hasEqual, Store.hasEqual, List.any_eq_true, List.any_eq_true]
  refine exists_congr fun x => and_congr_right fun hx => ?_
  rw [h.valueEq (hbound x hx) ho]

/-- The first seen stay the same while the store evolves. -/
theorem Evolves.firstSeen
    (h : s.Evolves s')
    (hbound : ∀ o ∈ os, o.id < s.size) :
    s'.firstSeen os = s.firstSeen os := by
  refine congrArg (List.map Prod.fst) (List.filter_congr ?_)
  intro p hp
  rw [h.hasEqual (fun x hx => hbound x (List.mem_of_mem_take hx))
    (hbound p.1 (List.fst_mem_of_mem_zipIdx hp))]

end FirstSeen

end Store

section Runs

variable {this o r x : Object} {os : List Object} {w w' : World}

/-- An insertion gives a truth value.  It changes the items of the set alone. -/
theorem setAdd_outcome
    {items : List Object}
    (hthis : this.id < w.store.size)
    (hset : w.store.payload this = .set items)
    (o : Object) :
    ∃ r w', Builtin.setAdd.body (some this) [o] w = (.ok r, w') ∧
      r.type = .bool ∧ w'.store.payload r = .bool (!w.store.hasEqual items o) ∧
      w'.heap = w.heap ∧ w.store.ExtendsBut this.id w'.store ∧
      w'.store.payload this = .set (w.store.insertItem items o) ∧
      w.store.Evolves w'.store := by
  have hrun := setAdd_run (o := o) hset
  generalize hp : Payload.set (w.store.insertItem items o) = p at hrun ⊢
  generalize (!w.store.hasEqual items o) = isNew at hrun ⊢
  have hbare : p.bare = (w.store.payload this).bare := by
    rw [← hp, hset]
    rfl
  have hgrowth := Store.extends_alloc (s := w.store.replace this p) .bool (.bool isNew)
  refine ⟨_, _, hrun, rfl, Store.payload_alloc .bool (.bool isNew), rfl, ?_, ?_, ?_⟩
  · exact (Store.extendsBut_replace hthis p).trans (hgrowth.but this.id)
  · refine (hgrowth.same this.id (Store.size_replace.symm ▸ hthis)).trans ?_
    rw [Store.getD_replace hthis, if_pos rfl]
  · exact (Store.evolves_replace hthis hbare).trans hgrowth.evolves

/-- The set is a set, and it and all objects that were inserted are in the store. -/
theorem SetRun.bounds
    (hrun : SetRun this os w) :
    this.id < w.store.size ∧ (∀ o ∈ os, o.id < w.store.size) ∧
      ∃ items, w.store.payload this = .set items := by
  induction hrun with
  | @create e os w w' hbound hcreate =>
      rw [Action.createSet_run] at hcreate
      cases hcreate
      have hgrowth := Store.extends_alloc (s := w.store) (.set e) (.set (w.store.distinct os))
      exact ⟨Store.lt_size_alloc _ _, fun o ho => Nat.lt_of_lt_of_le (hbound o ho) hgrowth.size_le,
        _, Store.payload_alloc _ _⟩
  | @insert os o r w w' hrun hbound hadd ih =>
      obtain ⟨hthis, hos, items, hset⟩ := ih
      obtain ⟨_, _, hadd', -, -, -, -, hset', hevolves⟩ := setAdd_outcome hthis hset o
      cases hadd.symm.trans hadd'
      refine ⟨Nat.lt_of_lt_of_le hthis hevolves.size_le, ?_, _, hset'⟩
      intro x hx
      refine Nat.lt_of_lt_of_le ?_ hevolves.size_le
      rcases List.mem_append.1 hx with hold | hnew
      · exact hos x hold
      · exact List.mem_singleton.1 hnew ▸ hbound
  | elsewhere hrun hevolves hkeeps ih =>
      obtain ⟨hthis, hos, items, hset⟩ := ih
      exact ⟨Nat.lt_of_lt_of_le hthis hevolves.size_le,
        fun o ho => Nat.lt_of_lt_of_le (hos o ho) hevolves.size_le, items, hkeeps.trans hset⟩

/-- Any objects can be inserted. -/
theorem SetRun.exists_inserts
    (hrun : SetRun this os w)
    {os' : List Object}
    (hbound : ∀ o ∈ os', o.id < w.store.size) :
    ∃ w', SetRun this (os ++ os') w' ∧ w.store.Evolves w'.store := by
  induction os' generalizing os w with
  | nil =>
      exact ⟨w, (List.append_nil os).symm ▸ hrun, .refl w.store⟩
  | cons o os' ih =>
      rw [List.forall_mem_cons] at hbound
      obtain ⟨hthis, -, items, hset⟩ := hrun.bounds
      obtain ⟨r, w₁, hadd, -, -, -, -, -, hevolves⟩ := setAdd_outcome hthis hset o
      obtain ⟨w', hrun', hevolves'⟩ := ih (hrun.insert hbound.1 hadd)
        fun x hx => Nat.lt_of_lt_of_le (hbound.2 x hx) hevolves.size_le
      exact ⟨w', List.append_cons os o os' ▸ hrun', hevolves.trans hevolves'⟩

/-- The items of a set are the first seen among the objects that were inserted. -/
theorem SetRun.payload_eq
    (hrun : SetRun this os w)
    (hos : w.store.Consistent os) :
    w.store.payload this = .set (w.store.firstSeen os) := by
  induction hrun with
  | @create e os w w' hbound hcreate =>
      rw [Action.createSet_run] at hcreate
      cases hcreate
      have hevolves := (Store.extends_alloc (s := w.store) (.set e)
        (.set (w.store.distinct os))).evolves
      rw [hevolves.firstSeen hbound,
        ← Store.distinct_eq_firstSeen ((hevolves.consistent_iff hbound).1 hos)]
      exact Store.payload_alloc _ _
  | @insert os o r w w' hrun hbound hadd ih =>
      obtain ⟨hthis, hbounds, items, hset⟩ := hrun.bounds
      obtain ⟨_, _, hadd', -, -, -, -, hset', hevolves⟩ := setAdd_outcome hthis hset o
      cases hadd.symm.trans hadd'
      have hall : ∀ x ∈ os ++ [o], x.id < w.store.size := by
        simpa [or_imp, forall_and] using And.intro hbounds hbound
      have hbefore := (hevolves.consistent_iff hall).1 hos
      have hitems := ih hbefore.earlier
      rw [hset] at hitems
      cases hitems
      rw [hset', Store.insertItem_firstSeen hbefore, hevolves.firstSeen hall]
  | @elsewhere os w w' hrun hevolves hkeeps ih =>
      have hbounds := hrun.bounds.2.1
      rw [hkeeps, hevolves.firstSeen hbounds]
      exact ih ((hevolves.consistent_iff hbounds).1 hos)

/-- A set holds the objects that equal none inserted before them, in the order of insertion.  No two
of them are equal, and an object equals one of them if it equals any that was ever inserted.  The
next insertion is told to be new if the object equals none of these; it is then appended, and
otherwise nothing that is there changes. -/
theorem set_contents
    (hrun : SetRun this os w)
    (hos : w.store.Consistent os) :
    w.store.payload this = .set (w.store.firstSeen os) ∧
      (w.store.firstSeen os).Sublist os ∧
      (w.store.firstSeen os).Pairwise
        (fun x y => w.store.valueEq x y = false ∧ w.store.valueEq y x = false) ∧
      ∀ x, w.store.Consistent (os ++ [x]) →
        (w.store.hasEqual (w.store.firstSeen os) x = true ↔
          ∃ o ∈ os, w.store.valueEq x o = true) ∧
        ∃ r w', Builtin.setAdd.body (some this) [x] w = (.ok r, w') ∧
          r.type = .bool ∧ w'.heap = w.heap ∧ w.store.ExtendsBut this.id w'.store ∧
          ((∀ o ∈ os, w.store.valueEq x o = false) ∧ w'.store.payload r = .bool true ∧
              w'.store.payload this = .set (w.store.firstSeen os ++ [x]) ∨
            (∃ o ∈ os, w.store.valueEq x o = true) ∧ w'.store.payload r = .bool false ∧
              w.store.Extends w'.store) := by
  have hitems := hrun.payload_eq hos
  refine ⟨hitems, Store.firstSeen_sublist _ _, Store.pairwise_firstSeen hos, ?_⟩
  intro x hx
  have hequal := Store.hasEqual_iff hx
  rw [Store.hasEqual_firstSeen hx]
  refine ⟨hequal, ?_⟩
  obtain ⟨r, w', hadd, htype, hpayload, hheap, hbut, hset, -⟩ :=
    setAdd_outcome hrun.bounds.1 hitems x
  refine ⟨r, w', hadd, htype, hheap, hbut, ?_⟩
  rw [Store.insertItem, Store.hasEqual_firstSeen hx] at hset
  rw [Store.hasEqual_firstSeen hx] at hpayload
  cases hnew : w.store.hasEqual os x with
  | false =>
      rw [hnew] at hset hpayload
      refine Or.inl ⟨fun o ho => Bool.eq_false_iff.2 fun heq => ?_, hpayload, hset⟩
      rw [hequal.2 ⟨o, ho, heq⟩] at hnew
      cases hnew
  | true =>
      rw [hnew] at hset hpayload
      exact Or.inr ⟨hequal.1 hnew, hpayload, hbut.extends (hset.trans hitems.symm)⟩

end Runs

section Mixture

/-! Two integers, two numbers that are none, and a constant twice. -/

/-- A world with nothing but scalars. -/
def mixedWorld : World where
  store := ⟨#[.int 1, .int 1, .double ⟨0x7ff8000000000000⟩, .double ⟨0x7ff8000000000000⟩,
    .constant 0 "low", .constant 0 "low"]⟩
  heap := Heap.empty 0 1

def firstObjects : List Object :=
  [⟨.int, 0⟩, ⟨.int, 1⟩, ⟨.double, 2⟩]

/-- The objects that are added to the set, one of them once more. -/
def furtherObjects : List Object :=
  [⟨.double, 2⟩, ⟨.double, 3⟩, ⟨.object Store.pitchClass, 4⟩, ⟨.object Store.pitchClass, 5⟩]

theorem consistent_mixed :
    mixedWorld.store.Consistent (firstObjects ++ furtherObjects) := by
  refine ⟨?_, by decide⟩
  simp only [firstObjects, furtherObjects, List.cons_append, List.nil_append, List.forall_mem_cons]
  refine ⟨?_, ?_, ?_, ?_, ?_, ?_, ?_, List.forall_mem_nil _⟩
  all_goals
    intro c hc _
    cases hc <;> rfl

/-- Of the integers and of the constants the first is kept, and both numbers are, each once. -/
theorem set_contents_mixed :
    ∃ this w, SetRun this (firstObjects ++ furtherObjects) w ∧
      w.store.payload this =
        .set [⟨.int, 0⟩, ⟨.double, 2⟩, ⟨.double, 3⟩, ⟨.object Store.pitchClass, 4⟩] ∧
      w.store.hasEqual (w.store.firstSeen (firstObjects ++ furtherObjects)) ⟨.int, 1⟩ = true := by
  have hbound : ∀ o ∈ firstObjects ++ furtherObjects, o.id < mixedWorld.store.size := by
    decide
  have hgrowth := (Store.extends_alloc (s := mixedWorld.store) (.set .any)
    (.set (mixedWorld.store.distinct firstObjects))).evolves
  have hcreated : SetRun _ firstObjects _ :=
    .create (by decide) (Action.createSet_run .any firstObjects mixedWorld)
  have hfurther : ∀ o ∈ furtherObjects, o.id < mixedWorld.store.size := by
    decide
  obtain ⟨w, hrun, hevolves⟩ := hcreated.exists_inserts
    fun o ho => Nat.lt_of_lt_of_le (hfurther o ho) hgrowth.size_le
  have hall := hgrowth.trans hevolves
  have hos := (hall.consistent_iff hbound).2 consistent_mixed
  have hmem : ⟨.int, 1⟩ ∈ firstObjects ++ furtherObjects := by
    simp [firstObjects]
  have hagain : w.store.Consistent (firstObjects ++ furtherObjects ++ [⟨.int, 1⟩]) := by
    refine hos.mono fun x hx => ?_
    rcases List.mem_append.1 hx with hold | hnew
    · exact hold
    · exact List.mem_singleton.1 hnew ▸ hmem
  obtain ⟨hitems, -, -, hlater⟩ := set_contents hrun hos
  refine ⟨_, w, hrun, ?_, (hlater _ hagain).1.2 ⟨_, hmem, w.store.valueEq_self _⟩⟩
  rw [hitems, hall.firstSeen hbound]
  rfl

end Mixture

end CellBridge

import CellBridge.Call.Collections
import CellBridge.Proofs.Conversion.Reading
import CellBridge.Proofs.Conversion.Writing

/-!
# Bodies of the built-in methods

A method is `Tame` if its parameters name no classes and its body makes new payloads and nothing
else.  All built-in methods are tame, except `add`, which changes its receiver; what it does is
the subject of `listAdd_run` and `setAdd_run`.
-/

namespace CellBridge

/-- A method whose parameters name no classes and whose body only makes new payloads. -/
structure Method.Tame
    (m : Method) : Prop where
  fixed : ∀ t ∈ m.fixed, t.plain = true
  rest : ∀ e, m.rest = some e → e.plain = true
  body : ∀ (receiver : Option Object) (args : List Object) (w : World), w.Sound →
    (∀ o, receiver = some o → Known o w) → (∀ o ∈ args, Known o w) →
      Ends World.Grows (m.body receiver args) w Known

namespace Builtin

section Operands

variable {w : World} {receiver : Option Object} {args : List Object}

theorem ends_this
    (hs : w.Sound) :
    Ends World.Grows (this receiver) w fun o w' => w = w' ∧ receiver = some o := by
  refine Ends.orFail _ hs.grows ?_
  intro o ho
  exact ⟨rfl, ho⟩

/-- The items of a receiver are known. -/
theorem ends_thisItems
    (what : String)
    {items? : Payload → Option (List Object)}
    (hview : Payload.Views items?)
    (hs : w.Sound) :
    Ends World.Grows (thisItems what items? receiver) w
      fun p w' => w = w' ∧ ∀ o ∈ p.2, Known o w := by
  refine (ends_this hs).bind ?_
  rintro o _ - ⟨rfl, -⟩
  refine (Ends.payload o hs.grows).bind ?_
  rintro _ w₁ - ⟨rfl, rfl⟩
  refine (Ends.orFail (P := fun items w' => w₁ = w' ∧ ∀ x ∈ items, Known x w₁) _ hs.grows ?_).bind
    ?_
  · intro items hitems
    have hcontents := contents_of_items? (hview _ items hitems)
    refine ⟨rfl, ?_⟩
    intro x hx
    exact hs.store.known o.id x (hcontents ▸ hx)
  · rintro items _ - ⟨rfl, hitems⟩
    exact Ends.pure hs.grows ⟨rfl, hitems⟩

theorem ends_argument
    (i : Nat)
    (hs : w.Sound)
    (hargs : ∀ o ∈ args, Known o w) :
    Ends World.Grows (argument args i) w fun o w' => w = w' ∧ Known o w := by
  unfold argument
  split
  · rename_i o ho
    exact Ends.pure hs.grows ⟨rfl, hargs o (List.mem_of_getElem? ho)⟩
  · exact Ends.panic _ hs.grows

theorem ends_arrayItems
    (o : Object)
    (hs : w.Sound) :
    Ends World.Grows (arrayItems o) w fun items w' => w = w' ∧ ∀ x ∈ items, Known x w := by
  refine (Ends.payload o hs.grows).bind ?_
  rintro _ w₁ - ⟨rfl, rfl⟩
  refine Ends.pure hs.grows ⟨rfl, ?_⟩
  intro x hx
  cases harray : (w₁.store.payload o).array? with
  | none =>
      rw [harray] at hx
      cases hx
  | some items =>
      rw [harray] at hx
      have hcontents := contents_of_items? (views_array _ items harray)
      exact hs.store.known o.id x (hcontents ▸ hx)

/-- Looking at a payload. -/
theorem ends_view
    {α : Type}
    (view : Payload → α)
    (o : Object)
    (hs : w.Sound) :
    Ends World.Grows
      (do
        return view (← Action.payload o))
      w fun _ w' => w = w' := by
  refine (Ends.payload o hs.grows).bind ?_
  rintro _ w₁ - ⟨rfl, rfl⟩
  exact Ends.pure hs.grows rfl

end Operands

section Results

variable {w : World}

theorem ends_boolResult
    (b : Bool)
    (hs : w.Sound) :
    Ends World.Grows (boolResult b) w Known := by
  exact ends_createScalar hs rfl rfl rfl

theorem ends_textResult
    (t : String)
    (hs : w.Sound) :
    Ends World.Grows (textResult t) w Known := by
  exact ends_createScalar hs rfl rfl rfl

theorem ends_doubleResult
    (n : Number)
    (hs : w.Sound) :
    Ends World.Grows (doubleResult n) w Known := by
  exact ends_createScalar hs rfl rfl rfl

theorem ends_countResult
    (n : Nat)
    (hs : w.Sound) :
    Ends World.Grows (countResult n) w Known := by
  unfold countResult
  split
  · exact ends_createScalar hs rfl rfl rfl
  · exact Ends.fail _ hs.grows

theorem ends_itemsText
    (items : List Object)
    (hs : w.Sound) :
    Ends World.Grows (itemsText items) w Known := by
  refine (Ends.get hs.grows).bind ?_
  rintro _ w₁ - ⟨rfl, rfl⟩
  exact ends_textResult _ hs

theorem ends_itemAt
    {items : List Object}
    (index : Object)
    (hs : w.Sound)
    (hitems : ∀ o ∈ items, Known o w) :
    Ends World.Grows (itemAt items index) w Known := by
  refine (Ends.payload index hs.grows).bind ?_
  rintro _ w₁ - ⟨rfl, rfl⟩
  refine Ends.orFail _ hs.grows ?_
  intro o ho
  split at ho
  · cases ho
  · exact hitems o (List.mem_of_getElem? ho)

end Results

section Tame

theorem tame_instanceMethod
    (name : String)
    {params : List Ty}
    (returns : Ty)
    {body : Body}
    (hparams : ∀ t ∈ params, t.plain = true)
    (hbody : ∀ (receiver : Option Object) (args : List Object) (w : World), w.Sound →
      (∀ o, receiver = some o → Known o w) → (∀ o ∈ args, Known o w) →
        Ends World.Grows (body receiver args) w Known) :
    (Method.instanceMethod name params returns body).Tame := by
  refine ⟨hparams, ?_, hbody⟩
  intro e he
  cases he

/-- A method that looks at its receiver and makes something of what it sees. -/
theorem tame_looking
    {α : Type}
    (name : String)
    (returns : Ty)
    {look : Option Object → Action α}
    {result : α → Action Object}
    {P : α → World → Prop}
    (hlook : ∀ (receiver : Option Object) (w : World), w.Sound →
      Ends World.Grows (look receiver) w fun a w' => w = w' ∧ P a w)
    (hresult : ∀ a (w : World), w.Sound → P a w → Ends World.Grows (result a) w Known) :
    (Method.instanceMethod name [] returns fun receiver _ => look receiver >>= result).Tame := by
  refine tame_instanceMethod name returns (by simp) ?_
  intro receiver args w hs _ _
  refine (hlook receiver w hs).bind ?_
  rintro a _ - ⟨rfl, ha⟩
  exact hresult a w hs ha

/-- A method that makes something of a view of its receiver. -/
theorem tame_viewing
    {α : Type}
    (name : String)
    (returns : Ty)
    (view : Payload → α)
    {result : α → Action Object}
    (hresult : ∀ a (w : World), w.Sound → Ends World.Grows (result a) w Known) :
    (Method.instanceMethod name [] returns fun receiver _ =>
      this receiver >>= fun o =>
        (do
          return view (← Action.payload o)) >>= result).Tame := by
  refine tame_instanceMethod name returns (by simp) ?_
  intro receiver args w hs _ _
  refine (ends_this hs).bind ?_
  rintro o _ - ⟨rfl, -⟩
  refine (ends_view view o hs).bind ?_
  rintro a _ - rfl
  exact hresult a w hs

/-- The methods that lists and sets share. -/
theorem tame_sharedMethods
    {items : Option Object → Action (Object × List Object)}
    (hitems : ∀ (receiver : Option Object) (w : World), w.Sound →
      Ends World.Grows (items receiver) w fun p w' => w = w' ∧ ∀ o ∈ p.2, Known o w)
    {m : Method}
    (hm : m ∈ sharedMethods items) :
    m.Tame := by
  simp only [sharedMethods, List.mem_cons, List.not_mem_nil, or_false] at hm
  rcases hm with rfl | rfl | rfl | rfl | rfl
  · exact tame_looking _ _ hitems fun p w hs _ => ends_countResult _ hs
  · exact tame_looking _ _ hitems fun p w hs _ => ends_boolResult _ hs
  · refine tame_instanceMethod _ _ (by simp [Ty.plain]) ?_
    intro receiver args w hs hreceiver hargs
    refine (hitems receiver w hs).bind ?_
    rintro p _ - ⟨rfl, -⟩
    refine (ends_argument 0 hs hargs).bind ?_
    rintro o _ - ⟨rfl, -⟩
    refine (Ends.get hs.grows).bind ?_
    rintro _ w₁ - ⟨rfl, rfl⟩
    exact ends_boolResult _ hs
  · exact tame_looking _ _ hitems fun p w hs hp => Ends.createArray hs rfl hp
  · exact tame_looking _ _ hitems fun p w hs _ => ends_itemsText _ hs

theorem tame_get :
    (Method.instanceMethod "get" [.int] .any fun receiver args => do
      let (_, items) ← thisList receiver
      itemAt items (← argument args 0)).Tame := by
  refine tame_instanceMethod _ _ (by simp [Ty.plain]) ?_
  intro receiver args w hs hreceiver hargs
  refine (ends_thisItems _ views_list hs).bind ?_
  rintro p _ - ⟨rfl, hp⟩
  refine (ends_argument 0 hs hargs).bind ?_
  rintro index _ - ⟨rfl, -⟩
  exact ends_itemAt index hs hp

/-- A constructor that is taken into a class. -/
theorem tame_withConstructor
    {m : Method}
    (hm : m.Tame)
    (returns : Ty) :
    ({ m with name := constructorName, isStatic := true, returns := returns } : Method).Tame := by
  exact ⟨hm.fixed, hm.rest, hm.body⟩

theorem tame_fromNothing
    {create : Ty → List Object → Action Object}
    (hcreate : ∀ (items : List Object) (w : World), w.Sound → (∀ o ∈ items, Known o w) →
      Ends World.Grows (create .any items) w Known) :
    (fromNothing create).Tame := by
  refine ⟨by simp [fromNothing, Method.constructor, Method.staticMethod], ?_, ?_⟩
  · intro e he
    cases he
  · intro receiver args w hs hreceiver hargs
    refine hcreate [] w hs ?_
    intro o ho
    cases ho

theorem ends_fromArray
    {create : Ty → List Object → Action Object}
    (hcreate : ∀ (items : List Object) (w : World), w.Sound → (∀ o ∈ items, Known o w) →
      Ends World.Grows (create .any items) w Known)
    {args : List Object}
    {w : World}
    (hs : w.Sound)
    (hargs : ∀ o ∈ args, Known o w) :
    Ends World.Grows
      (do
        create .any (← arrayItems (← argument args 0)))
      w Known := by
  refine (ends_argument 0 hs hargs).bind ?_
  rintro o _ - ⟨rfl, -⟩
  refine (ends_arrayItems o hs).bind ?_
  rintro items _ - ⟨rfl, hitems⟩
  exact hcreate items w hs hitems

theorem tame_fromArray
    {create : Ty → List Object → Action Object}
    (hcreate : ∀ (items : List Object) (w : World), w.Sound → (∀ o ∈ items, Known o w) →
      Ends World.Grows (create .any items) w Known) :
    (fromArray create).Tame ∧ ((fromArray create).variadic).Tame := by
  refine ⟨⟨?_, ?_, ?_⟩, ⟨?_, ?_, ?_⟩⟩
  · simp [fromArray, Method.constructor, Method.staticMethod, Ty.plain]
  · intro e he
    cases he
  · intro receiver args w hs hreceiver hargs
    exact ends_fromArray hcreate hs hargs
  · intro t ht
    cases ht
  · intro e he
    cases he
    rfl
  · intro receiver args w hs hreceiver hargs
    exact ends_fromArray hcreate hs hargs

/-- A constructor that makes something of a view of its argument. -/
theorem tame_converting
    {α : Type}
    (t : Ty)
    (view : Payload → α)
    {result : α → Action Object}
    (hplain : t.plain = true)
    (hresult : ∀ a (w : World), w.Sound → Ends World.Grows (result a) w Known) :
    (Method.constructor [t] fun _ args =>
      argument args 0 >>= fun o =>
        (do
          return view (← Action.payload o)) >>= result).Tame := by
  refine ⟨?_, ?_, ?_⟩
  · intro u hu
    rw [List.mem_singleton.1 hu]
    exact hplain
  · intro e he
    cases he
  · intro receiver args w hs hreceiver hargs
    refine (ends_argument 0 hs hargs).bind ?_
    rintro o _ - ⟨rfl, -⟩
    refine (ends_view view o hs).bind ?_
    rintro a _ - rfl
    exact hresult a w hs

theorem foldl_withMethod
    (ms : List Method)
    (d : ClassDescriptor) :
    (ms.foldl ClassDescriptor.withMethod d).methods = d.methods ++ ms ∧
      (ms.foldl ClassDescriptor.withMethod d).constructors = d.constructors := by
  induction ms generalizing d with
  | nil =>
      exact ⟨(List.append_nil _).symm, rfl⟩
  | cons m ms ih =>
      obtain ⟨hmethods, hconstructors⟩ := ih (d.withMethod m)
      refine ⟨hmethods.trans ?_, hconstructors⟩
      exact List.append_assoc d.methods [m] ms

theorem methods_collectionClass
    (type : Ty)
    (further : String)
    (create : Ty → List Object → Action Object)
    (methods : List Method) :
    (collectionClass type further create methods).methods = methods := by
  exact (foldl_withMethod methods _).1

theorem tame_collectionClass_constructors
    (type : Ty)
    (further : String)
    {create : Ty → List Object → Action Object}
    (methods : List Method)
    (hcreate : ∀ (items : List Object) (w : World), w.Sound → (∀ o ∈ items, Known o w) →
      Ends World.Grows (create .any items) w Known)
    {m : Method}
    (hm : m ∈ (collectionClass type further create methods).constructors) :
    m.Tame := by
  rw [collectionClass, (foldl_withMethod methods _).2] at hm
  simp only [List.foldl_cons, List.foldl_nil, ClassDescriptor.withConstructor,
    ClassDescriptor.withAlias, ClassDescriptor.ofType, List.nil_append, List.cons_append,
    List.mem_cons, List.not_mem_nil, or_false] at hm
  rcases hm with rfl | rfl | rfl
  · exact tame_withConstructor (tame_fromNothing hcreate) type
  · exact tame_withConstructor (tame_fromArray hcreate).1 type
  · exact tame_withConstructor (tame_fromArray hcreate).2 type

/-- All constructors of the built-in classes are tame. -/
theorem tame_of_constructor
    {d : ClassDescriptor}
    (hd : d ∈ classes)
    {m : Method}
    (hm : m ∈ d.constructors) :
    m.Tame := by
  simp only [classes, List.mem_cons, List.not_mem_nil, or_false] at hd
  rcases hd with rfl | rfl | rfl | rfl
  · exact tame_collectionClass_constructors _ _ _ (fun items w hs => Ends.createList hs rfl) hm
  · exact tame_collectionClass_constructors _ _ _ (fun items w hs => Ends.createSet hs rfl) hm
  · rw [List.mem_singleton.1 hm]
    exact tame_withConstructor (tame_converting .text (fun p => p.text?.getD "") rfl
      fun t w hs => ends_textResult t hs) .text
  · rw [List.mem_singleton.1 hm]
    exact tame_withConstructor (tame_converting .double (fun p => p.double?.getD Number.zero) rfl
      fun n w hs => ends_doubleResult n hs) .double

/-- All other methods of the built-in classes are tame, except `add`. -/
theorem tame_of_method
    {d : ClassDescriptor}
    (hd : d ∈ classes)
    {m : Method}
    (hm : m ∈ d.methods)
    (hname : m.name ≠ "add") :
    m.Tame := by
  simp only [classes, List.mem_cons, List.not_mem_nil, or_false] at hd
  rcases hd with rfl | rfl | rfl | rfl
  · rw [listClass, methods_collectionClass, List.mem_append] at hm
    rcases hm with hown | hshared
    · simp only [listMethods, List.mem_cons, List.not_mem_nil, or_false] at hown
      rcases hown with rfl | rfl
      · exact tame_get
      · exact absurd rfl hname
    · exact tame_sharedMethods (fun receiver w hs => ends_thisItems _ views_list hs) hshared
  · rw [setClass, methods_collectionClass, List.mem_append] at hm
    rcases hm with hown | hshared
    · simp only [setMethods, List.mem_cons, List.not_mem_nil, or_false] at hown
      rw [hown] at hname
      exact absurd rfl hname
    · exact tame_sharedMethods (fun receiver w hs => ends_thisItems _ views_set hs) hshared
  · simp only [stringClass, ClassDescriptor.withMethod, ClassDescriptor.withConstructor,
      ClassDescriptor.ofType, List.nil_append, List.cons_append, List.mem_cons, List.not_mem_nil,
      or_false] at hm
    rcases hm with rfl | rfl | rfl
    · exact tame_viewing _ _ (fun p => p.text?.getD "") fun t w hs => ends_countResult _ hs
    · exact tame_viewing _ _ (fun p => p.text?.getD "") fun t w hs => ends_boolResult _ hs
    · exact tame_viewing _ _ (fun p => p.text?.getD "") fun t w hs => ends_textResult t hs
  · simp only [doubleClass, ClassDescriptor.withMethod, ClassDescriptor.withConstructor,
      ClassDescriptor.ofType, List.nil_append, List.cons_append, List.mem_cons, List.not_mem_nil,
      or_false] at hm
    rcases hm with rfl | rfl
    · exact tame_viewing _ _ (fun p => p.double?.getD Number.zero)
        fun n w hs => ends_doubleResult n hs
    · refine tame_instanceMethod _ _ (by simp) ?_
      intro receiver args w hs hreceiver hargs
      refine (ends_this hs).bind ?_
      rintro o _ - ⟨rfl, -⟩
      refine (Ends.get hs.grows).bind ?_
      rintro _ w₁ - ⟨rfl, rfl⟩
      exact ends_textResult _ hs

end Tame

end Builtin
end CellBridge

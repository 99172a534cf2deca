import CellBridge.Proofs.Call.Results
import CellBridge.Proofs.Session.CallingConvention

/-!
# What bodies receive as their receiver

The receiver of a call is found once, from the target of the call, and every candidate that is tried
gets it.  So a body sees no receiver exactly if the call is made on a type, whatever its method was
declared as: `receiver_of_bodyRun`.  A call on a handle also finds static methods and constructors,
and their bodies see the object behind the handle as all others do, `static_bodies_see_receiver`.
-/

namespace CellBridge
namespace Bridge

variable {b : Bridge} {s : Session} {call : HostCall} {m : MemberCall}

section Targets

/-- The receiver of a call is the object behind the handle of its target. -/
theorem receiver_of_memberCall?
    (h : b.memberCall? s.world call = some m) :
    m.receiver = call.handle?.bind s.world.heap.resolve? ∧
      (m.receiver = none ↔ call.handle? = none) := by
  have hnamed : ∀ {type member args mode}, b.namedCall? type member args mode = some m →
      m.receiver = none := by
    intro type member args mode h
    exact (namedCall?_eq_some h).2.1
  cases call with
  | invoke target method args mode =>
      cases target with
      | handle h' =>
          obtain ⟨o, ho, rfl⟩ := Option.map_eq_some_iff.1 h
          exact ⟨ho.symm, iff_of_false (Option.some_ne_none o) (Option.some_ne_none h')⟩
      | type name =>
          exact ⟨hnamed h, iff_of_true (hnamed h) rfl⟩
  | construct type args =>
      exact ⟨hnamed h, iff_of_true (hnamed h) rfl⟩
  | invokeStatic type method args mode =>
      exact ⟨hnamed h, iff_of_true (hnamed h) rfl⟩
  | _ =>
      cases h

/-- Without a receiver only static methods are tried. -/
theorem isStatic_of_attempt
    (hb : b.registry.Built)
    {rs : List Request}
    (hs : b.Reached rs s)
    (hnone : m.receiver = none)
    {a : Attempt}
    (ha : a ∈ b.memberAttempts m s) :
    a.candidate.method.isStatic = true := by
  obtain ⟨q, hq, method, hvisible, -, hserves⟩ := hs.serves_of_attempt ha
  have hstatics : q.staticsOnly = true := by
    rw [show q.staticsOnly = m.request.staticsOnly from
      congrArg CandidateKey.staticsOnly hq.key_eq, MemberCall.request, hnone]
    rfl
  rw [visible, hstatics] at hvisible
  rw [hserves.method]
  exact hb.isStatic_of_visible hvisible

end Targets

section Calls

/-- Every body that a call runs, of a static method or of another one, receives the object behind
the handle that the call is made on.  It receives nothing exactly if the call is made on a type, and
then its method is static. -/
theorem receiver_of_bodyRun
    (b : Bridge)
    (s : Session)
    (call : HostCall)
    {run : BodyRun}
    (hrun : run ∈ b.bodyRuns call s) :
    run.receiver = call.handle?.bind s.world.heap.resolve? ∧
      (run.receiver = none ↔ call.handle? = none) ∧
      (b.registry.Built → ∀ rs, b.Reached rs s → call.handle? = none →
        run.method.isStatic = true) := by
  obtain ⟨m, hm, hmember⟩ := mem_bodyRuns.1 hrun
  obtain ⟨a, ha, hbody⟩ := mem_memberRuns.1 hmember
  obtain ⟨hmethod, hreceiver, -⟩ := Candidate.bodyRun?_eq_some.1 hbody
  obtain ⟨hbehind, hnone⟩ := receiver_of_memberCall? hm
  refine ⟨hreceiver.trans hbehind, by rw [hreceiver, hnone], ?_⟩
  intro hb rs hs htype
  rw [hmethod]
  exact isStatic_of_attempt hb hs (hnone.2 htype) ha

end Calls

section Lamps

/-! A class whose static method and constructor tell whether they see a receiver. -/

def lampClass : ManagedClass :=
  .root "Lamp"

/-- Tells whether there is a receiver. -/
def tellsReceiver : Body :=
  fun receiver _ => Action.create .bool (.bool receiver.isSome)

/-- Lamps can be made, and there is a static method. -/
def lampShop : Bridge :=
  ((Bridge.empty {}).withStandardRules).withClass
    (((ClassDescriptor.ofType (.object lampClass)).withConstructor
      (.constructor [] tellsReceiver)).withMethod
      (.staticMethod "about" [] .bool tellsReceiver))

def lampCall
    (member : String)
    (receiver : Option Object) : MemberCall :=
  { type := .object lampClass, member := member, receiver := receiver, args := [],
    mode := .simplest }

/-- Nothing is remembered yet. -/
def lampSession
    (w : World) : Session :=
  { world := w, cache := .empty }

/-- A static member of lamps passes on what the call is made on. -/
theorem lampShop_tells
    {member : String}
    (hmember : member = "about" ∨ member = constructorName)
    (receiver : Option Object)
    (w : World) :
    (lampShop.runMember (lampCall member receiver) (lampSession w)).1 =
        .ok (.boolean receiver.isSome) ∧
      ∃ run ∈ lampShop.memberRuns (lampCall member receiver) (lampSession w),
        run.method.name = member ∧ run.method.isStatic = true ∧ run.receiver = receiver := by
  have hres : ∃ cand, lampShop.resolved (lampCall member receiver).request = .ok [cand] ∧
      cand.method.name = member ∧ cand.method.isStatic = true ∧
      cand.method.body = tellsReceiver ∧ cand.method.rest = none := by
    rcases hmember with rfl | rfl <;> cases receiver <;>
      exact ⟨_, resolve_sorted rfl rfl rfl (List.pairwise_singleton _ _), rfl, rfl, rfl, rfl⟩
  obtain ⟨cand, hres, hname, hstatic, hbody, hrest⟩ := hres
  have hattempt := mem_memberAttempts_first (m := lampCall member receiver)
    (lookup_new (s := lampSession w) rfl rfl hres)
  have hrun : cand.bodyRun? lampShop.catalog receiver [] w =
      some { method := cand.method, receiver := receiver, args := [], start := w } := by
    refine Candidate.bodyRun?_eq_some.2 ⟨rfl, rfl, ?_⟩
    simp only [Candidate.convertArguments, Candidate.packArguments, hrest]
    rfl
  have hresult : tellsReceiver receiver [] w = _ :=
    Action.create_run .bool (.bool receiver.isSome) w
  rw [← hbody] at hresult
  have hconvert := cand.convertResult_of_depicts (w := (tellsReceiver receiver [] w).2)
    (Store.depicts_alloc (v := .boolean receiver.isSome) rfl)
  have hok := Candidate.attempt_run_ok.2 ⟨_, _, _, hrun, hresult, hconvert⟩
  exact ⟨runMember_ok.2 ⟨_, hattempt, _, hok⟩, _, mem_memberRuns.2 ⟨_, hattempt, hrun⟩, hname,
    hstatic, rfl⟩

/-- The static method of lamps, called on their type: its body sees no receiver. -/
theorem receiver_of_bodyRun_type :
    let s := lampSession (lampShop.newSession 1 .empty).world
    ∃ run ∈ lampShop.bodyRuns (.invoke (.type "Lamp") "about" [] .simplest) s,
      run.method.isStatic = true ∧ run.receiver = none := by
  intro s
  obtain ⟨-, run, hrun, -⟩ := lampShop_tells (Or.inl rfl) none s.world
  have hmem : run ∈ lampShop.bodyRuns (.invoke (.type "Lamp") "about" [] .simplest) s :=
    mem_bodyRuns.2 ⟨_, rfl, hrun⟩
  obtain ⟨-, hnone, hstatic⟩ := receiver_of_bodyRun lampShop s _ hmem
  have hbuilt : lampShop.registry.Built :=
    .register .empty (.withMethod (.withConstructor (.ofType _) _) _)
  exact ⟨run, hmem, hstatic hbuilt [] (.start s.world) rfl, hnone.2 rfl⟩

/-- The static method and the constructor of lamps, called on the handle of a lamp: both bodies see
the lamp, and the answers to the host show it. -/
theorem static_bodies_see_receiver :
    let lamp : Object := { type := .object lampClass, id := 0 }
    let s := lampSession
      { store := (Store.empty.alloc lamp.type (.record [])).2
        heap := ((lampShop.newSession 1 .empty).world.heap.intern lamp).2 }
    let about : HostCall := .invoke (.handle ⟨1⟩) "about" [] .simplest
    let init : HostCall := .invoke (.handle ⟨1⟩) constructorName [] .simplest
    ((∃ run ∈ lampShop.bodyRuns about s, run.method.name = "about" ∧ run.method.isStatic = true ∧
        run.receiver = some lamp) ∧
      (lampShop.perform about s).1 = .value (.ok (.boolean true))) ∧
    ((∃ run ∈ lampShop.bodyRuns init s, run.method.name = constructorName ∧
        run.method.isStatic = true ∧ run.receiver = some lamp) ∧
      (lampShop.perform init s).1 = .value (.ok (.boolean true))) := by
  intro lamp s about init
  have hseen : ∀ {call : HostCall} {member : String}, member = "about" ∨ member = constructorName →
      lampShop.memberCall? s.world call = some (lampCall member (some lamp)) →
      (∃ run ∈ lampShop.bodyRuns call s, run.method.name = member ∧ run.method.isStatic = true ∧
        run.receiver = some lamp) ∧
      (lampShop.perform call s).1 = .value (.ok (.boolean true)) := by
    intro call member hmember hcall
    obtain ⟨hanswer, run, hrun, hrest⟩ := lampShop_tells hmember (some lamp) s.world
    refine ⟨⟨run, mem_bodyRuns.2 ⟨_, hcall, hrun⟩, hrest⟩, ?_⟩
    rw [perform_memberCall hcall]
    exact congrArg Answer.value (absorb_ok hanswer)
  exact ⟨hseen (Or.inl rfl) rfl, hseen (Or.inr rfl) rfl⟩

end Lamps

end Bridge
end CellBridge

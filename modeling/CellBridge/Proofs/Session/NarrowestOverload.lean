import CellBridge.Proofs.Call.NumericOverloads
import CellBridge.Proofs.Session.StaticCalls

/-!
# The narrowest overload for a number

A static call with one number, of a name that is declared for numeric types only, runs the body of
one overload: the nearest declaration for the first type that takes the number.  Without such a type
the call fails (`narrowest_overload_runs`).

A static call gets the candidates of its own class whatever the host did before, so it comes down to
attempts with the candidates of `resolve_numeric`: `HostReached.static_call`.
-/

namespace CellBridge
namespace Bridge

variable {b : Bridge} {s : Session} {type member : String} {d : ClassDescriptor} {n : Number}
  {mode : ResultMode}

section Calls

/-- A static call with the candidates that are found afresh. -/
theorem HostReached.static_call
    (hb : b.registry.Built)
    (hs : b.HostReached s)
    (hd : b.registry.lookup? type = some d)
    (args : List Value)
    (mode : ResultMode)
    {cands : List Candidate}
    (hresolve :
      resolve b.catalog b.registry d.type member (args.map Value.shape) true = .ok cands) :
    (b.tryInvoke (.type type) member args mode s).1 =
        (invokeMember b.catalog d.type member none args mode cands s.world).1 ∧
      b.bodyRuns (.invokeStatic type member args mode) s =
        Candidate.runs b.catalog none args
          (Candidate.attempts b.catalog none args mode cands s.world) := by
  let m : MemberCall :=
    { type := d.type, member := member, receiver := none, args := args, mode := mode }
  have hm : b.memberCall? s.world (.invokeStatic type member args mode) = some m := by
    rw [memberCall?, namedCall?, hd]
    rfl
  obtain ⟨cache, hlookup⟩ := hs.lookup_static (r := m.request) hb rfl (hb.owns_of_lookup? hd)
  have hresolved : b.resolved m.request = .ok cands := hresolve
  rw [hresolved] at hlookup
  refine ⟨?_, ?_⟩
  · have hrun : b.tryInvoke (.type type) member args mode s = b.runMember m s := by
      rw [tryInvoke_type_run, hd]
      rfl
    rw [hrun, runMember_run, hlookup]
    rfl
  · rw [bodyRuns, hm]
    show b.memberRuns m s = _
    rw [memberRuns, memberAttempts, hlookup]
    rfl

/-- The host gets the value that a static call gives. -/
theorem perform_static_ok
    {args : List Value}
    {v : Value}
    (h : (b.tryInvoke (.type type) member args mode s).1 = .ok v) :
    (b.perform (.invokeStatic type member args mode) s).1 = .value (.ok v) := by
  exact congrArg Answer.value (absorb_ok h)

/-- The host gets the failure of a static call as a value. -/
theorem perform_static_failed
    {args : List Value}
    {e : BridgeError}
    (h : (b.tryInvoke (.type type) member args mode s).1 = .error (.failed e)) :
    (b.perform (.invokeStatic type member args mode) s).1 = .value (.ok e.toValue) := by
  exact congrArg Answer.value (absorb_failed h)

end Calls

section Overloads

/-- The narrowest overload that takes a number runs.  In a static call with a number, of a name that
is declared along the chain of a class for numeric types only, one body runs: that of the nearest
declaration for the first type that takes the number, and it receives an object that holds the
number.  The call fails for want of an overload exactly if no type that is declared takes the
number, and then no body runs. -/
theorem narrowest_overload_runs
    (hb : b.catalog = standardCatalog)
    (hregistry : b.registry.Built)
    (hs : b.HostReached s)
    (hd : b.registry.lookup? type = some d)
    (hsome : b.registry.declarations d.type member ≠ [])
    (hall : ∀ m ∈ b.registry.declarations d.type member, m.IsNumericOverload)
    (n : Number)
    (mode : ResultMode) :
    let call : HostCall := .invokeStatic type member [.number n] mode
    let outcome := (b.tryInvoke (.type type) member [.number n] mode s).1
    let failure := BridgeError.noSuccessfulOverload d.type.display member 1
      (b.registry.methodsNamed d.type member).length
    let noneApplies := ∀ k, b.registry.Offers d.type member k → ¬ k.Applies n
    (¬ noneApplies →
      ∃ k m o start v, b.registry.FirstChoice d.type member n k ∧
        b.registry.Nearest d.type member m ∧ m.fixed = [k.type] ∧
        b.bodyRuns call s = [{ method := m, receiver := none, args := [o], start := start }] ∧
        k.Holds start.store o n ∧
        outcome = .ok v ∧ (b.perform call s).1 = .value (.ok v)) ∧
    (outcome = .error (.failed failure) ↔ noneApplies) ∧
    (noneApplies →
      b.bodyRuns call s = [] ∧ (b.perform call s).1 = .value (.ok failure.toValue)) := by
  intro call outcome failure noneApplies
  obtain ⟨cands, hresolve, hlength, hsorted, hwants, hoffered⟩ :=
    Registry.resolve_numeric hall hsome
  rw [← hb] at hresolve
  obtain ⟨houtcome, hruns⟩ := hs.static_call hregistry hd [.number n] mode hresolve
  rw [hb] at houtcome hruns
  have hdeclared : ∀ cand ∈ cands, ∀ k, cand.Wants k → b.registry.Offers d.type member k := by
    intro cand hcand k hk
    exact ⟨cand.method, Registry.mem_declarations_of_nearest (hwants cand hcand).1, hk.fixed⟩
  rcases Candidate.rejects_or_applies (fun cand hcand => (hwants cand hcand).2) n with
    hrejects | ⟨before, cand, after, k, rfl, hbefore, hcand, hn⟩
  · -- no candidate takes the number
    have hnone : noneApplies := by
      intro k hoffers
      obtain ⟨cand, hcand, hk⟩ := hoffered k hoffers
      obtain ⟨u, hu, hnot⟩ := hrejects cand hcand
      rwa [hk.unique hu]
    obtain ⟨hempty, hfails⟩ := Candidate.runs_of_rejects hrejects d.type member mode s.world
    have hfailure : outcome = .error (.failed failure) := by
      rw [hfails, hlength] at houtcome
      exact houtcome
    refine ⟨fun happlies => absurd hnone happlies, iff_of_true hfailure hnone, fun _ => ⟨?_, ?_⟩⟩
    · rw [hruns, hempty]
    · exact perform_static_failed hfailure
  · -- the candidates in front fail without a trace, this one runs
    have hmem : cand ∈ before ++ cand :: after :=
      List.mem_append_right before List.mem_cons_self
    have hoffers := hdeclared cand hmem k hcand
    have happlies : ¬ noneApplies := fun hnone => hnone k hoffers hn
    obtain ⟨o, start, v, w', hholds, hrun, hgives⟩ := Candidate.exists_run_of_applies
      hbefore hcand hn after d.type member mode s.world
    have hok : outcome = .ok v := by
      rw [hgives] at houtcome
      exact houtcome
    refine ⟨fun _ => ?_, iff_of_false ?_ happlies, fun hnone => absurd hnone happlies⟩
    · exact ⟨k, cand.method, o, start, v,
        Registry.firstChoice_of_split hsorted hoffered hbefore hcand hoffers hn,
        (hwants cand hmem).1, hcand.fixed, hruns.trans hrun, hholds, hok, perform_static_ok hok⟩
    · rw [hok]
      exact fun h => by cases h

end Overloads

section Dials

/-! Two classes, one below the other, that declare a static method for integers of several types. -/

def meterClass : ManagedClass :=
  .root "Meter"

def dialClass : ManagedClass :=
  .extending "Dial" meterClass

def reading
    (k : NumericType)
    (text : String) : Method :=
  .staticMethod "read" [k.type] .text fun _ _ => Action.create .text (.text text)

/-- Dials declare the method for eight and for thirty-two bits, meters for sixteen and for
thirty-two bits. -/
def workshop : Bridge :=
  ((Bridge.empty {}).withStandardRules.withClass
    (((ClassDescriptor.ofType (.object meterClass)).withMethod
      (reading (.integer .int) "meter")).withMethod (reading (.integer .short) "meter"))).withClass
    (((ClassDescriptor.ofType (.object dialClass)).withMethod
      (reading (.integer .int) "dial")).withMethod (reading (.integer .byte) "dial"))

theorem reading_isNumericOverload
    (k : NumericType)
    (text : String) :
    (reading k text).IsNumericOverload := by
  refine ⟨rfl, rfl, ⟨k, rfl⟩, rfl, ?_⟩
  intro args w
  exact ⟨_, _, text, Action.create_run .text (.text text) w, rfl, Store.payload_alloc _ _⟩

/-- A call on dials with three hundred runs the inherited method for sixteen bits, although dials
declare one for thirty-two bits themselves.  With the infinite number nothing runs. -/
theorem narrowest_overload_runs_dial :
    let s := workshop.newSession 1 .empty
    let call : Number → HostCall := fun n => .invokeStatic "Dial" "read" [.number n] .simplest
    let infinite := Number.ofMagnitude false Number.infinityBits
    (∃ o start v, workshop.bodyRuns (call (Number.ofInt 300)) s =
        [{ method := reading (.integer .short) "meter", receiver := none, args := [o],
           start := start }] ∧
      (workshop.perform (call (Number.ofInt 300)) s).1 = .value (.ok v)) ∧
    workshop.bodyRuns (call infinite) s = [] := by
  intro s call infinite
  have hdeclared : workshop.registry.declarations (.object dialClass) "read" =
      [reading (.integer .int) "dial", reading (.integer .byte) "dial",
        reading (.integer .int) "meter", reading (.integer .short) "meter"] := rfl
  have hbuilt : workshop.registry.Built :=
    .register (.register .empty (.withMethod (.withMethod (.ofType _) _) _))
      (.withMethod (.withMethod (.ofType _) _) _)
  have hall : ∀ m ∈ workshop.registry.declarations (.object dialClass) "read",
      m.IsNumericOverload := by
    rw [hdeclared]
    simp [reading_isNumericOverload]
  have hsome : workshop.registry.declarations (.object dialClass) "read" ≠ [] := by
    rw [hdeclared]
    exact List.cons_ne_nil _ _
  have hlookup : workshop.registry.lookup? "Dial" = some _ := rfl
  have hruns := narrowest_overload_runs rfl hbuilt (.start s.world) hlookup hsome hall
  refine ⟨?_, ?_⟩
  · obtain ⟨hfinite, hvalue⟩ :=
      Number.toInt?_eq_some_iff.1 (Number.toInt?_ofInt (i := 300) (by decide))
    have hbyte : ¬ (NumericType.integer .byte).Applies (Number.ofInt 300) := by
      rintro ⟨-, i, hi, -, hhigh⟩
      rw [hvalue, Int.cast_inj] at hi
      rw [← hi] at hhigh
      exact absurd hhigh (by decide)
    have hchoice : workshop.registry.FirstChoice (.object dialClass) "read" (Number.ofInt 300)
        (.integer .short) := by
      refine ⟨⟨reading (.integer .short) "meter", ?_, rfl⟩,
        ⟨hfinite, 300, hvalue, by decide, by decide⟩, [.integer .byte], _, rfl, ?_⟩
      · rw [hdeclared]
        simp
      · simp [hbyte]
    obtain ⟨k, m, o, start, v, hk, hnearest, hfixed, hrun, -, -, hanswer⟩ :=
      (hruns (Number.ofInt 300) .simplest).1 fun hnone =>
        hnone (.integer .short) hchoice.offers hchoice.applies
    obtain rfl := hk.unique hchoice
    have hm : m ∈ workshop.registry.declarations (.object dialClass) "read" :=
      Registry.mem_declarations_of_nearest hnearest
    simp only [hdeclared, List.mem_cons, List.not_mem_nil, or_false] at hm
    rcases hm with rfl | rfl | rfl | rfl
    · cases hfixed
    · cases hfixed
    · cases hfixed
    · exact ⟨o, start, v, hrun, hanswer⟩
  · refine ((hruns infinite .simplest).2.2 ?_).1
    rintro k ⟨m, hm, hfixed⟩ hn
    replace hm : m ∈ workshop.registry.declarations (.object dialClass) "read" := hm
    simp only [hdeclared, List.mem_cons, List.not_mem_nil, or_false] at hm
    cases k with
    | integer i =>
        exact absurd hn.1 (by decide)
    | _ =>
        rcases hm with rfl | rfl | rfl | rfl <;> cases hfixed

end Dials

end Bridge
end CellBridge

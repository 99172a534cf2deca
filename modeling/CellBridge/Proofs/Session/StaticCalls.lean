import CellBridge.Proofs.Session.CallingConvention

/-!
# Static calls of a host

A call that names a type is looked up on the type of a registered class.  A class is registered by
the key of its type, so among such requests the key that candidates are remembered by tells the
types apart.  A call on a handle can meet the candidates of a namesake; a static call always gets
its own, `HostReached.lookup_static`.

`HostReached` are the sessions that calls of a host lead to.
-/

namespace CellBridge

section Defs

/-- The type is that of a registered class. -/
def Registry.Owns
    (r : Registry)
    (t : Ty) : Prop :=
  ∃ d, r.named? t.key = some d ∧ t = d.type

/-- A session that calls of the host lead to.  Between the calls the world may change. -/
inductive Bridge.HostReached
    (b : Bridge) : Session → Prop
  | start
      (w : World) :
      HostReached b { world := w, cache := .empty }
  | perform
      {s : Session}
      (hs : HostReached b s)
      (call : HostCall) :
      HostReached b (b.perform call s).2
  | change
      {s : Session}
      (hs : HostReached b s)
      (w : World) :
      HostReached b { s with world := w }

end Defs

namespace Registry

variable {r : Registry} {name : String} {d : ClassDescriptor}

section Names

/-- A class is registered by its own name. -/
theorem Built.name_eq
    (hr : r.Built)
    (hd : r.named? name = some d) :
    d.name = name := by
  induction hr with
  | empty =>
      cases hd
  | register hr hd' ih =>
      rw [named?, Registry.register, Table.get?_insert] at hd
      split at hd
      case isTrue hname =>
        cases hd
        exact hname
      case isFalse =>
        exact ih hd

/-- A type that is found by a name or an alias is that of a registered class. -/
theorem Built.owns_of_lookup?
    (hr : r.Built)
    (hd : r.lookup? name = some d) :
    r.Owns d.type := by
  have hnamed : ∀ {key}, r.named? key = some d → r.Owns d.type := by
    intro key hkey
    have hname : d.type.key = key := hr.name_eq hkey
    exact ⟨d, by rw [hname, hkey], rfl⟩
  rw [lookup?, Option.or_eq_some_iff] at hd
  rcases hd with hd | ⟨-, hd⟩
  · exact hnamed hd
  · obtain ⟨key, -, hkey⟩ := Option.bind_eq_some_iff.1 hd
    exact hnamed hkey

/-- Types of registered classes are told apart by their keys. -/
theorem Owns.eq_of_key
    {t u : Ty}
    (ht : r.Owns t)
    (hu : r.Owns u)
    (hkey : t.key = u.key) :
    t = u := by
  obtain ⟨d, hd, rfl⟩ := ht
  obtain ⟨e, he, rfl⟩ := hu
  rw [hkey, he] at hd
  cases hd
  rfl

end Names

end Registry

namespace Bridge

variable {b : Bridge} {s : Session} {r : Request}

section Lookups

/-- A static request of the host is made on the type of a registered class. -/
theorem owns_of_request?
    (hb : b.registry.Built)
    {w : World}
    {call : HostCall}
    (hr : b.request? w call = some r)
    (hstatic : r.staticsOnly = true) :
    b.registry.Owns r.type := by
  have hnamed : ∀ {type member args}, b.namedRequest? type member args = some r →
      b.registry.Owns r.type := by
    intro type member args h
    obtain ⟨d, hd, rfl⟩ := Option.map_eq_some_iff.1 h
    exact hb.owns_of_lookup? hd
  cases call with
  | invoke target method args mode =>
      cases target with
      | handle h =>
          obtain ⟨o, -, rfl⟩ := Option.map_eq_some_iff.1 hr
          cases hstatic
      | type name =>
          exact hnamed hr
  | construct type args =>
      exact hnamed hr
  | invokeStatic type method args mode =>
      exact hnamed hr
  | _ =>
      cases hr

/-- What the host came to by its calls, it came to by requests whose static ones are made on the
types of registered classes. -/
theorem HostReached.reached
    (hb : b.registry.Built)
    (hs : b.HostReached s) :
    ∃ rs, b.Reached rs s ∧ ∀ q ∈ rs, q.staticsOnly = true → b.registry.Owns q.type := by
  induction hs with
  | start w =>
      refine ⟨[], .start w, ?_⟩
      intro q hq
      cases hq
  | perform hs call ih =>
      obtain ⟨rs, hreached, howns⟩ := ih
      refine ⟨_, hreached.perform call, ?_⟩
      intro q hq hstatic
      rcases List.mem_append.1 hq with hold | hnew
      · exact howns q hold hstatic
      · exact owns_of_request? hb (Option.mem_toList.1 hnew) hstatic
  | change hs w ih =>
      obtain ⟨rs, hreached, howns⟩ := ih
      exact ⟨rs, hreached.change w, howns⟩

/-- A static call gets the candidates that are found afresh for its own type, whatever is
remembered. -/
theorem HostReached.lookup_static
    (hb : b.registry.Built)
    (hs : b.HostReached s)
    (hstatic : r.staticsOnly = true)
    (howns : b.registry.Owns r.type) :
    ∃ cache, b.lookup r s = (b.resolved r, { s with cache := cache }) := by
  obtain ⟨rs, hreached, hall⟩ := hs.reached hb
  obtain ⟨q, cache, hq, hrun⟩ := hreached.lookup_answers r
  have hsame : q = r := by
    have hkey := hq.key_eq
    rcases hq with rfl | ⟨-, hmem, -⟩
    · rfl
    · obtain ⟨t, member, shapes, staticsOnly⟩ := q
      simp only [Request.key, CandidateKey.mk.injEq] at hkey
      obtain ⟨htype, rfl, rfl, rfl⟩ := hkey
      have ht : t = r.type := (hall _ hmem hstatic).eq_of_key howns htype
      rw [ht]
  exact ⟨cache, by rw [hrun, hsame]⟩

end Lookups

end Bridge
end CellBridge

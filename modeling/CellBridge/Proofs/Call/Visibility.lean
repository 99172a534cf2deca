import CellBridge.Call.Registry
import Mathlib.Data.List.Basic
import Mathlib.Tactic.Common

/-!
# Visible methods

A name is declared along the chain of a type: on the type itself first, then on its ancestors, each
class in the order of its declarations.  The visible methods are the declarations that are
`nearest`: those of a signature that is not declared earlier.

`signature` is what `sameSignature` compares, so methods fall into classes of equal signature, and
`filter_nearest` says that one method of each class is visible, the first one declared.
-/

namespace CellBridge

section Defs

/-- The type as far as equality of types looks at it: of classes it keeps the name. -/
def Ty.outline : Ty → Ty
  | .array e => .array e.outline
  | .list e => .list e.outline
  | .set e => .set e.outline
  | .object c => .object (.root c.name)
  | t => t

namespace Method

/-- What tells the methods of one name apart. -/
def signature
    (m : Method) : Bool × List Ty :=
  (m.isVariadic, m.params.map Ty.outline)

/-- Does one of the methods have the signature? -/
def declaredIn
    (m : Method)
    (ms : List Method) : Bool :=
  ms.any fun f => f.sameSignature m

/-- The methods without those whose signature occurs earlier, in `before` or among the methods. -/
def nearest
    (before : List Method) : List Method → List Method
  | [] => []
  | m :: ms =>
      if m.declaredIn before then
        nearest (before ++ [m]) ms
      else
        m :: nearest (before ++ [m]) ms

end Method

namespace Registry

/-- The declarations of a name from the type itself up to its root. -/
def declarations
    (r : Registry)
    (t : Ty)
    (method : String) : List Method :=
  t.keyChain.flatMap (r.declaredBy method)

/-- The method is declared for the type, and no earlier declaration has its signature. -/
def Nearest
    (r : Registry)
    (t : Ty)
    (method : String)
    (m : Method) : Prop :=
  ∃ before after, r.declarations t method = before ++ m :: after ∧ m.declaredIn before = false

end Registry

end Defs

section Signatures

/-- Types are equal if they have one outline. -/
theorem Ty.beq_iff_outline
    {t u : Ty} :
    (t == u) = true ↔ t.outline = u.outline := by
  show t.beq u = true ↔ _
  induction t generalizing u with
  | array e ih =>
      cases u <;> simp [beq, outline, ih]
  | list e ih =>
      cases u <;> simp [beq, outline, ih]
  | set e ih =>
      cases u <;> simp [beq, outline, ih]
  | object c =>
      cases u <;> simp [beq, outline, ManagedClass.sameName, ManagedClass.root]
  | _ =>
      cases u <;> simp [beq, outline]

namespace Method

variable {m n x : Method}

theorem sameTypes_iff
    {ts us : List Ty} :
    sameTypes ts us = true ↔ ts.map Ty.outline = us.map Ty.outline := by
  induction ts generalizing us with
  | nil =>
      cases us <;> simp [sameTypes]
  | cons t ts ih =>
      cases us with
      | nil =>
          simp [sameTypes]
      | cons u us =>
          rw [List.map_cons, List.map_cons, List.cons.injEq, ← ih, ← Ty.beq_iff_outline]
          simp only [sameTypes, List.length_cons, List.zip_cons_cons, List.all_cons,
            Bool.and_eq_true, beq_iff_eq, Nat.add_right_cancel_iff]
          tauto

theorem sameSignature_iff :
    m.sameSignature n = true ↔ m.signature = n.signature := by
  rw [sameSignature, Bool.and_eq_true, beq_iff_eq, sameTypes_iff, signature, signature,
    Prod.mk.injEq]

theorem sameSignature_self
    (m : Method) :
    m.sameSignature m = true := by
  exact sameSignature_iff.2 rfl

/-- Methods of one signature are compared alike. -/
theorem sameSignature_congr
    (h : m.sameSignature n = true)
    (x : Method) :
    x.sameSignature m = x.sameSignature n := by
  rw [Bool.eq_iff_iff, sameSignature_iff, sameSignature_iff, sameSignature_iff.1 h]

theorem declaredIn_congr
    (h : m.sameSignature n = true)
    (ms : List Method) :
    m.declaredIn ms = n.declaredIn ms := by
  rw [declaredIn, declaredIn, funext (sameSignature_congr h)]

@[simp] theorem declaredIn_append
    (m : Method)
    (ms ns : List Method) :
    m.declaredIn (ms ++ ns) = (m.declaredIn ms || m.declaredIn ns) := by
  exact List.any_append

@[simp] theorem declaredIn_singleton
    (m n : Method) :
    m.declaredIn [n] = n.sameSignature m := by
  exact Bool.or_false _

end Method

end Signatures

section Nearest

namespace Method

variable {m : Method}

/-- Collecting methods that are not found yet collects the nearest ones. -/
theorem foldl_addVisible
    {found before : List Method}
    (hsame : ∀ x : Method, x.declaredIn found = x.declaredIn before)
    (ms : List Method) :
    ms.foldl Registry.addVisible found = found ++ nearest before ms := by
  induction ms generalizing found before with
  | nil =>
      exact (List.append_nil found).symm
  | cons m ms ih =>
      have hadd : Registry.addVisible found m =
          if m.declaredIn before then found else found ++ [m] := by
        rw [← hsame m]
        rfl
      rw [List.foldl_cons, nearest, hadd]
      split
      case isTrue hdeclared =>
        refine ih fun x => ?_
        rw [hsame x, declaredIn_append, declaredIn_singleton]
        cases hmx : m.sameSignature x with
        | false =>
            rw [Bool.or_false]
        | true =>
            rw [← declaredIn_congr hmx, hdeclared, Bool.or_true]
      case isFalse =>
        have hnext : ∀ x : Method, x.declaredIn (found ++ [m]) = x.declaredIn (before ++ [m]) := by
          intro x
          rw [declaredIn_append, declaredIn_append, hsame x]
        rw [ih hnext, List.append_assoc, List.singleton_append]

theorem nearest_append
    (before ms ns : List Method) :
    nearest before (ms ++ ns) = nearest before ms ++ nearest (before ++ ms) ns := by
  induction ms generalizing before with
  | nil =>
      rw [List.nil_append, List.append_nil]
      rfl
  | cons m ms ih =>
      rw [List.cons_append, nearest, nearest, ih, List.append_assoc, List.singleton_append]
      split <;> rfl

/-- What occurs earlier only takes methods away. -/
theorem nearest_after
    (before between ms : List Method) :
    nearest (before ++ between) ms =
      (nearest between ms).filter fun m => !m.declaredIn before := by
  induction ms generalizing between with
  | nil =>
      rfl
  | cons m ms ih =>
      rw [nearest, nearest, declaredIn_append, List.append_assoc, ih]
      cases hbetween : m.declaredIn between <;> cases hbefore : m.declaredIn before <;>
        simp [hbefore]

/-- No two of the nearest methods have one signature, and none has one that occurs before. -/
theorem nearest_pairwise
    (before ms : List Method) :
    (nearest before ms).Pairwise (fun m n => m.sameSignature n = false) ∧
      ∀ m ∈ nearest before ms, m.declaredIn before = false := by
  induction ms generalizing before with
  | nil =>
      exact ⟨.nil, by simp [nearest]⟩
  | cons m ms ih =>
      obtain ⟨hpairwise, hfresh⟩ := ih (before ++ [m])
      simp only [declaredIn_append, declaredIn_singleton, Bool.or_eq_false_iff] at hfresh
      rw [nearest]
      split
      case isTrue =>
        exact ⟨hpairwise, fun n hn => (hfresh n hn).1⟩
      case isFalse hnew =>
        refine ⟨List.pairwise_cons.2 ⟨fun n hn => (hfresh n hn).2, hpairwise⟩, ?_⟩
        exact List.forall_mem_cons.2 ⟨Bool.eq_false_iff.2 hnew, fun n hn => (hfresh n hn).1⟩

/-- Of each signature that does not occur before, the first method is nearest, and no other. -/
theorem filter_nearest
    (m : Method)
    (before ms : List Method) :
    (nearest before ms).filter (fun n => n.sameSignature m) =
      if m.declaredIn before then [] else (ms.find? fun n => n.sameSignature m).toList := by
  induction ms generalizing before with
  | nil =>
      simp [nearest]
  | cons n ms ih =>
      rw [nearest, List.find?_cons]
      cases hnm : n.sameSignature m with
      | true =>
          have hrest : (nearest (before ++ [n]) ms).filter (fun n => n.sameSignature m) = [] := by
            rw [ih, declaredIn_append, declaredIn_singleton, hnm, Bool.or_true]
            rfl
          rw [declaredIn_congr hnm]
          split
          · exact hrest
          · rw [List.filter_cons, if_pos hnm, hrest]
            rfl
      | false =>
          have hrest := ih (before ++ [n])
          rw [declaredIn_append, declaredIn_singleton, hnm, Bool.or_false] at hrest
          split
          · exact hrest
          · rw [List.filter_cons_of_neg (by simp [hnm])]
            exact hrest

theorem mem_nearest_iff
    {ms : List Method} :
    m ∈ nearest [] ms ↔ (ms.find? fun n => n.sameSignature m) = some m := by
  have hfilter := filter_nearest m [] ms
  rw [if_neg (by simp [declaredIn])] at hfilter
  rw [← Option.mem_toList, ← hfilter, List.mem_filter, sameSignature_self]
  exact (and_iff_left rfl).symm

end Method

end Nearest

namespace Registry

variable (r : Registry) (t : Ty) (method : String)

section Visibility

/-- The visible methods are the nearest declarations. -/
theorem methodsNamed_eq :
    r.methodsNamed t method = Method.nearest [] (r.declarations t method) := by
  exact Method.foldl_addVisible (fun _ => rfl) (r.declarations t method)

theorem mem_methodsNamed_iff
    {m : Method} :
    m ∈ r.methodsNamed t method ↔ r.Nearest t method m := by
  rw [methodsNamed_eq, Method.mem_nearest_iff, List.find?_eq_some_iff_append]
  constructor
  · rintro ⟨-, before, after, hsplit, hbefore⟩
    refine ⟨before, after, hsplit, ?_⟩
    rw [Method.declaredIn, List.any_eq_false]
    exact fun n hn => by simpa using hbefore n hn
  · rintro ⟨before, after, hsplit, hbefore⟩
    refine ⟨m.sameSignature_self, before, after, hsplit, ?_⟩
    rw [Method.declaredIn, List.any_eq_false] at hbefore
    exact fun n hn => by simpa using hbefore n hn

/-- No two visible methods have one signature. -/
theorem methodsNamed_pairwise :
    (r.methodsNamed t method).Pairwise fun m n => m.sameSignature n = false := by
  rw [methodsNamed_eq]
  exact (Method.nearest_pairwise [] _).1

/-- Among the visible methods a signature tells the position. -/
theorem position_unique
    {i j : Nat}
    {m n : Method}
    (hi : (r.methodsNamed t method)[i]? = some m)
    (hj : (r.methodsNamed t method)[j]? = some n)
    (hsame : m.sameSignature n = true) :
    i = j := by
  have hapart := List.pairwise_iff_getElem.1 (r.methodsNamed_pairwise t method)
  obtain ⟨hilt, rfl⟩ := List.getElem?_eq_some_iff.1 hi
  obtain ⟨hjlt, rfl⟩ := List.getElem?_eq_some_iff.1 hj
  rcases Nat.lt_trichotomy i j with hlt | heq | hlt
  · rw [hapart i j hilt hjlt hlt] at hsame
    cases hsame
  · exact heq
  · have hsymm := Method.sameSignature_iff.2 (Method.sameSignature_iff.1 hsame).symm
    rw [hapart j i hjlt hilt hlt] at hsymm
    cases hsymm

/-- Of each signature that is declared, the first declaration is visible, and no other. -/
theorem filter_methodsNamed
    {m : Method}
    (hm : m ∈ r.declarations t method) :
    ∃ n, ((r.declarations t method).find? fun n => n.sameSignature m) = some n ∧
      (r.methodsNamed t method).filter (fun n => n.sameSignature m) = [n] := by
  have hfound : ((r.declarations t method).find? fun n => n.sameSignature m).isSome = true :=
    List.find?_isSome.2 ⟨m, hm, m.sameSignature_self⟩
  obtain ⟨n, hn⟩ := Option.isSome_iff_exists.1 hfound
  refine ⟨n, hn, ?_⟩
  rw [methodsNamed_eq, Method.filter_nearest, hn]
  rfl

/-- For every declaration a method of its signature is visible. -/
theorem exists_mem_methodsNamed
    {m : Method}
    (hm : m ∈ r.declarations t method) :
    ∃ n ∈ r.methodsNamed t method, n.sameSignature m = true := by
  obtain ⟨n, -, hfilter⟩ := r.filter_methodsNamed t method hm
  have hn : n ∈ (r.methodsNamed t method).filter fun n => n.sameSignature m := by
    rw [hfilter]
    exact List.mem_singleton_self n
  exact ⟨n, List.mem_filter.1 hn⟩

end Visibility

end Registry

end CellBridge

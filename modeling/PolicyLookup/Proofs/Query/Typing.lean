/-
  PolicyLookup.Proofs.Query.Typing — which terms are the arguments of a query, and which is to
  blame.

  A query takes two terms: a string, and an object in which everything has a native value.  All
  other terms are refused before the query runs, with the position of the first bad one, or with no
  position if there are not two.  So the query itself, which looks at its values once more, never
  finds anything wrong with their number or their kinds.

    * `wellTyped_of_arguments`, `arguments_of_wellTyped` — which terms are taken.
    * `arguments_of_not_wellTyped` — all others are refused, and the first bad one is blamed.
-/

import PolicyLookup.Proofs.Query.Sent
import PolicyLookup.Proofs.Term.Native

namespace PolicyLookup

/-! ## §1. One argument. -/

/-- An argument that is refused is refused at its own position. -/
theorem Term.decodeArgument_ok_or_argument (t : Term) (shape : Shape) (position : Nat) :
    (∃ v, t.decodeArgument shape position = .ok v) ∨
      ∃ message, t.decodeArgument shape position = .error (.argument position message) := by
  unfold decodeArgument
  cases t.toValue with
  | error d => exact Or.inr ⟨_, rfl⟩
  | ok v =>
    by_cases haccepts : shape.accepts v = true
    · exact Or.inl ⟨v, if_pos haccepts⟩
    · exact Or.inr ⟨_, if_neg haccepts⟩

namespace Query

/-! ## §2. All arguments. -/

/-- The terms are the name of a collection and an object, and nothing in the object is without a
native value. -/
def WellTyped (terms : List Term) : Prop :=
  ∃ collection pairs, terms = [.str collection, .obj pairs] ∧ (Term.obj pairs).IsNative

/-- The position of the first bad argument among terms that are not those of a query; there is none
if their number is wrong. -/
def blamed : List Term → Option Nat
  | [collection, _] =>
    match collection with
    | .str _ => some 2
    | _ => some 1
  | _ => none

variable {terms : List Term} {args : List Value}

/-- Arguments that are taken are those of a query. -/
theorem wellTyped_of_arguments (h : CallSite.arguments signature terms = .ok args) :
    WellTyped terms := by
  obtain ⟨collection, filter, rfl⟩ := arguments_eq_ok h
  match terms with
  | [] => cases h
  | [_] => cases h
  | _ :: _ :: _ :: _ => cases h
  | [t, u] =>
    change CallSite.decodeArgs 1 [t, u] [.string, .object] = _ at h
    obtain ⟨v, rest, hargs, hv, -, hrest⟩ := CallSite.decodeArgs_cons_eq_ok h
    obtain ⟨v', rest', hargs', hv', -, -⟩ := CallSite.decodeArgs_cons_eq_ok hrest
    cases hargs
    cases hargs'
    obtain rfl := Term.eq_str_of_toValue hv
    obtain ⟨pairs, rfl⟩ := Term.exists_obj_of_toValue hv'
    exact ⟨collection, pairs, rfl, (Term.exists_toValue_iff _).mp ⟨_, hv'⟩⟩

/-- The arguments of a query are taken. -/
theorem arguments_of_wellTyped (h : WellTyped terms) :
    ∃ collection filter,
      CallSite.arguments signature terms = .ok [.str collection, .map filter] := by
  obtain ⟨collection, pairs, rfl, hnative⟩ := h
  obtain ⟨v, hv⟩ := (Term.exists_toValue_iff _).mpr hnative
  obtain ⟨entries, -, rfl⟩ := exists_of_map_eq_ok hv
  refine ⟨collection, Keyed.ofList entries, ?_⟩
  have hfilter : (Term.obj pairs).decodeArgument .object 2 = .ok (.map (Keyed.ofList entries)) := by
    unfold Term.decodeArgument
    rw [hv]
    rfl
  show CallSite.decodeArgs 1 [.str collection, .obj pairs] [.string, .object] = _
  simp only [CallSite.decodeArgs, hfilter]
  rfl

/-- **All other terms are refused**, and the first bad one is blamed. -/
theorem arguments_of_not_wellTyped (h : ¬ WellTyped terms) :
    ∃ message, CallSite.arguments signature terms = .error (.type message (blamed terms)) := by
  match terms with
  | [] => exact ⟨_, rfl⟩
  | [_] => exact ⟨_, rfl⟩
  | _ :: _ :: _ :: _ => exact ⟨_, rfl⟩
  | [t, u] =>
    have harguments : CallSite.arguments signature [t, u]
        = CallSite.decodeArgs 1 [t, u] [.string, .object] := rfl
    rw [harguments]
    rcases t.decodeArgument_ok_or_argument .string 1 with ⟨v, hv⟩ | ⟨message, hm⟩
    · -- The first one is a string, so the second one is bad.
      obtain ⟨hvalue, haccepts⟩ := Term.decodeArgument_eq_ok_iff.mp hv
      obtain ⟨s, rfl⟩ := Shape.exists_str_of_accepts haccepts
      obtain rfl := Term.eq_str_of_toValue hvalue
      rcases u.decodeArgument_ok_or_argument .object 2 with ⟨v', hv'⟩ | ⟨message, hm⟩
      · have htaken : CallSite.arguments signature [.str s, u] = .ok [.str s, v'] := by
          rw [harguments]
          simp only [CallSite.decodeArgs, hv, hv']
          rfl
        exact absurd (wellTyped_of_arguments htaken) h
      · have hrefused : CallSite.decodeArgs 1 [.str s, u] [.string, .object]
            = .error (.argument 2 message) := by
          simp only [CallSite.decodeArgs, hv, hm]
          rfl
        exact ⟨_, hrefused⟩
    · have hrefused : CallSite.decodeArgs 1 [t, u] [.string, .object]
          = .error (.argument 1 message) := by
        simp only [CallSite.decodeArgs, hm]
      have hblamed : blamed [t, u] = some 1 := by
        cases t with
        | str s => cases hm
        | _ => rfl
      rw [hblamed]
      exact ⟨_, hrefused⟩

/-- A query whose values are a collection and a filter finds nothing wrong with them: it is refused
by its thread, or is what `run` makes of it. -/
theorem call_of_arguments (limits : QueryLimits) (thread : Thread) (collection : String)
    (filter : Mapping) (s : Setting) :
    call limits thread [.str collection, .map filter] s
      = if thread.mayBlock then (run limits collection filter s).map resultValue
        else .refused cannotBlock := rfl

end Query

end PolicyLookup

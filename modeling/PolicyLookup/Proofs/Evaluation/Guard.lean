/-
  PolicyLookup.Proofs.Evaluation.Guard — what a slot and its guards have gone through.

  A guard that is given up frees the slot, whichever evaluation is in it.  That it ends its own
  evaluation and no other one rests on an invariant: either no evaluation runs and no guard is held,
  or there is one guard, and it has the identity of the evaluation that runs.  An evaluation that
  has begun under a guard then goes on until the guard is given up, and what the slot says of it can
  be read off the operations since: the last result kept under a key, the keys, and the first
  failure since the last one was taken.

    * `matched_performAll` — the invariant.
    * `held_performAll` — what the slot says of an evaluation that a guard holds.
    * `exists_enter_of_guards_ne_nil` — where a guard is held an evaluation has begun.
    * `performAll_refines` — the main result.
-/

import Mathlib.Data.List.DropRight
import Mathlib.Data.Set.Card
import PolicyLookup.Evaluation.Guard
import PolicyLookup.Proofs.Evaluation.Slot

namespace PolicyLookup

/-! ## §1. Keys of kept results. -/

namespace Keyed

variable {α : Type}

theorem mem_keys_iff {entries : List (String × α)} {key : String} :
    key ∈ entries.map Prod.fst ↔ get? entries key ≠ none := by
  induction entries with
  | nil => simp [get?]
  | cons e rest ih =>
    obtain ⟨k, v⟩ := e
    rw [List.map_cons, List.mem_cons, ih, get?]
    by_cases hk : k = key
    · simp [hk]
    · simp [hk, Ne.symm hk]

end Keyed

namespace Slot

/-- No key has two results. -/
def KeysDistinct (s : Slot) : Prop := ∀ a, s.active = some a → (a.memo.map Prod.fst).Nodup

theorem keysDistinct_opened (s : Slot) (signal : SignalId) (thread : Thread) :
    (s.opened signal thread).KeysDistinct := by
  rintro a ⟨⟩
  exact .nil

/-- A result takes the place of an earlier one under its key. -/
theorem KeysDistinct.memoize {s : Slot} (h : s.KeysDistinct) (key : String) (v : Value) :
    (s.memoize key v).KeysDistinct := by
  intro a ha
  obtain ⟨b, hb, rfl⟩ := Option.map_eq_some_iff.mp ha
  rw [List.map_cons, List.nodup_cons]
  refine ⟨?_, (h b hb).sublist (List.filter_sublist.map _)⟩
  rw [Keyed.mem_keys_iff, not_not]
  -- Nothing is left under the key itself.
  induction b.memo with
  | nil => rfl
  | cons e rest ih =>
    by_cases he : e.1 = key
    · simpa [List.filter_cons, he] using ih
    · simpa [List.filter_cons, he, Keyed.get?] using ih

theorem KeysDistinct.fail {s : Slot} (h : s.KeysDistinct) (e : Error) :
    (s.fail e).KeysDistinct := by
  intro a ha
  obtain ⟨b, hb, rfl⟩ := Option.map_eq_some_iff.mp ha
  exact h b hb

theorem KeysDistinct.clearFailure {s : Slot} (h : s.KeysDistinct) :
    s.clearFailure.KeysDistinct := by
  intro a ha
  obtain ⟨b, hb, rfl⟩ := Option.map_eq_some_iff.mp ha
  exact h b hb

/-- There are as many kept results as keys under which one is found. -/
theorem memoSize_eq_ncard {s : Slot} (h : s.KeysDistinct) :
    s.memoSize = {key | s.memoized? key ≠ none}.ncard := by
  cases ha : s.active with
  | none => simp [memoSize, memoized?, ha]
  | some a =>
    have hkeys : {key | s.memoized? key ≠ none}
        = ((a.memo.map Prod.fst).toFinset : Set String) := by
      ext key
      show s.memoized? key ≠ none ↔ key ∈ ((a.memo.map Prod.fst).toFinset : Set String)
      rw [List.coe_toFinset]
      show s.memoized? key ≠ none ↔ key ∈ a.memo.map Prod.fst
      rw [Keyed.mem_keys_iff]
      simp only [memoized?, ha, Option.bind_some]
    rw [hkeys, Set.ncard_coe_finset, List.toFinset_card_of_nodup (h a ha), List.length_map]
    simp only [memoSize, ha]

end Slot

namespace GuardedSlot

/-! ## §2. Operations. -/

/-- What can be done with a slot and its guards. -/
inductive Operation where
  | enter (name : String) (signal : SignalId) (thread : Thread)
  | finish (name : String)
  | context
  | memoize (key : String) (value : Value)
  | memoized (key : String)
  | memoSize
  | fail (e : Error)
  | takeFailure (name : String)

/-- What an operation leaves, whether it has been refused or not. -/
def perform (s : GuardedSlot) : Operation → GuardedSlot
  | .enter name signal thread => (s.enter name signal thread).2
  | .finish name => (s.finish name).2
  | .context => s
  | .memoize key v => s.memoize key v
  | .memoized _ => s
  | .memoSize => s
  | .fail e => s.fail e
  | .takeFailure name => (s.takeFailure name).2

/-- What operations leave, one after the other. -/
def performAll (s : GuardedSlot) (ops : List Operation) : GuardedSlot := ops.foldl perform s

theorem performAll_append (s : GuardedSlot) (ops ops' : List Operation) :
    s.performAll (ops ++ ops') = (s.performAll ops).performAll ops' := List.foldl_append

/-- The result that an operation keeps under a key. -/
def Operation.kept? (key : String) : Operation → Option Value
  | .memoize k v => if k = key then some v else none
  | _ => none

/-- The failure that an operation keeps. -/
def Operation.failure? : Operation → Option Error
  | .fail e => some e
  | _ => none

/-- Whether an operation takes the failure out of the evaluation of a guard. -/
def Operation.takesFrom (name : String) : Operation → Bool
  | .takeFailure n => n == name
  | _ => false

/-- The last of the results that some operations keep under a key. -/
def lastKept (key : String) (ops : List Operation) : Option Value :=
  (ops.filterMap (Operation.kept? key)).getLast?

/-- The first of the failures that some operations keep, after the last one that takes a failure
out of the evaluation of a guard. -/
def firstFailure (name : String) (ops : List Operation) : Option Error :=
  ((ops.rtakeWhile fun op => !op.takesFrom name).filterMap Operation.failure?).head?

theorem lastKept_concat (key : String) (ops : List Operation) (op : Operation) :
    lastKept key (ops ++ [op]) = (op.kept? key).or (lastKept key ops) := by
  unfold lastKept
  rw [List.filterMap_append, List.getLast?_append]
  cases h : op.kept? key <;> simp [h]

theorem firstFailure_concat_of_takes {name : String} {op : Operation}
    (h : op.takesFrom name = true) (ops : List Operation) :
    firstFailure name (ops ++ [op]) = none := by
  unfold firstFailure
  rw [List.rtakeWhile_concat_neg _ _ _ (by simp [h])]
  rfl

theorem firstFailure_concat {name : String} {op : Operation} (h : op.takesFrom name = false)
    (ops : List Operation) :
    firstFailure name (ops ++ [op]) = (firstFailure name ops).or op.failure? := by
  unfold firstFailure
  rw [List.rtakeWhile_concat_pos _ _ _ (by simp [h]), List.filterMap_append, List.head?_append]
  cases hf : op.failure? <;> simp [hf]

/-- Keys under which something has been kept. -/
theorem lastKept_ne_none_iff {key : String} {ops : List Operation} :
    lastKept key ops ≠ none ↔ ∃ v, .memoize key v ∈ ops := by
  unfold lastKept
  rw [Ne, List.getLast?_eq_none_iff, List.filterMap_eq_nil_iff]
  push Not
  constructor
  · rintro ⟨op, hop, hkept⟩
    cases op with
    | memoize k v =>
      by_cases hk : k = key
      · exact ⟨v, hk ▸ hop⟩
      · exact absurd (if_neg hk) hkept
    | _ => exact absurd rfl hkept
  · rintro ⟨v, hop⟩
    exact ⟨_, hop, by simp [Operation.kept?]⟩

/-! ## §3. The guard that is held is that of the running evaluation. -/

/-- Either no evaluation runs and no guard is held, or one guard is held, and the evaluation that
runs has its identity. -/
def Matched (s : GuardedSlot) : Prop :=
  s.guards = [] ∧ s.slot.IsIdle ∨
    ∃ name c, s.guards = [(name, c.evaluation)] ∧ s.slot.context = .ok c

variable {s : GuardedSlot} {name : String} {c : CallContext}

theorem Matched.isIdle (h : s.Matched) (hguards : s.guards = []) : s.slot.IsIdle := by
  rcases h with ⟨-, hidle⟩ | ⟨name, c, hheld, -⟩
  · exact hidle
  · rw [hheld] at hguards
    cases hguards

/-- Without a guard an evaluation begins, and its guard is the only one. -/
theorem enter_of_guards_nil (hidle : s.slot.IsIdle) (hguards : s.guards = []) (name : String)
    (signal : SignalId) (thread : Thread) :
    s.enter name signal thread = (.ok s.slot.begun, { s with
      slot := s.slot.opened signal thread
      guards := [(name, s.slot.begun)]
      identities := s.slot.begun :: s.identities }) := by
  unfold enter
  rw [Slot.enter_of_isIdle hidle, hguards]
  rfl

/-- While an evaluation runs no other one begins, and nothing changes. -/
theorem enter_of_context (hcontext : s.slot.context = .ok c) (name : String) (signal : SignalId)
    (thread : Thread) : s.enter name signal thread = (.error Slot.busy, s) := by
  unfold enter
  rw [Slot.enter_of_isRunning (Slot.isRunning_of_context hcontext)]

theorem memoize_of_isIdle (hidle : s.slot.IsIdle) (key : String) (v : Value) :
    s.memoize key v = s := by
  unfold memoize
  rw [Slot.memoize_of_isIdle hidle]

theorem fail_of_isIdle (hidle : s.slot.IsIdle) (e : Error) : s.fail e = s := by
  unfold fail
  rw [Slot.fail_of_isIdle hidle]

theorem guard?_of_guards_nil (h : s.guards = []) (n : String) : s.guard? n = none := by
  unfold guard?
  rw [h]
  rfl

theorem guard?_of_guards {id : Nat} (h : s.guards = [(name, id)]) (n : String) :
    s.guard? n = if name = n then some id else none := by
  unfold guard?
  rw [h]
  rfl

theorem finish_of_guard?_none (h : s.guard? name = none) : s.finish name = (false, s) := by
  unfold finish
  rw [h]

theorem takeFailure_of_guard?_none (h : s.guard? name = none) :
    s.takeFailure name = (none, s) := by
  unfold takeFailure
  rw [h]

/-- The one guard that is held is given up. -/
theorem finish_of_guards {id : Nat} (h : s.guards = [(name, id)]) :
    s.finish name = (true, { s with slot := s.slot.leave, guards := [] }) := by
  unfold finish
  rw [guard?_of_guards h, if_pos rfl, h]
  simp

theorem takeFailure_of_guards {id : Nat} (h : s.guards = [(name, id)]) :
    s.takeFailure name = (some s.slot.failure?, { s with slot := s.slot.clearFailure }) := by
  unfold takeFailure
  rw [guard?_of_guards h, if_pos rfl]

/-- **To give a guard up ends its own evaluation**: the guard that is found under a name is that of
the evaluation that runs. -/
theorem Matched.finish_of_guard?_some (h : s.Matched) {id : Nat}
    (hguard : s.guard? name = some id) :
    (∃ c, s.slot.context = .ok c ∧ c.evaluation = id) ∧
      s.finish name = (true, { s with slot := s.slot.leave, guards := [] }) := by
  rcases h with ⟨hguards, -⟩ | ⟨n, c, hguards, hcontext⟩
  · rw [guard?_of_guards_nil hguards] at hguard
    cases hguard
  · rw [guard?_of_guards hguards] at hguard
    obtain ⟨rfl, hid⟩ := Option.ite_none_right_eq_some.mp hguard
    exact ⟨⟨c, hcontext, Option.some.inj hid⟩, finish_of_guards hguards⟩

/-- **Every operation keeps guards and evaluations matched.** -/
theorem Matched.perform (h : s.Matched) (op : Operation) : (s.perform op).Matched := by
  rcases h with ⟨hguards, hidle⟩ | ⟨name, c, hguards, hcontext⟩
  · -- Without an evaluation only `enter` does anything.
    have hnone := guard?_of_guards_nil hguards
    have hsame : s.Matched := Or.inl ⟨hguards, hidle⟩
    cases op with
    | enter name signal thread =>
      show (s.enter name signal thread).2.Matched
      rw [enter_of_guards_nil hidle hguards]
      exact Or.inr ⟨name, ⟨s.slot.begun, signal, thread⟩, rfl, rfl⟩
    | finish name =>
      show (s.finish name).2.Matched
      rw [finish_of_guard?_none (hnone name)]
      exact hsame
    | memoize key v =>
      show (s.memoize key v).Matched
      rw [memoize_of_isIdle hidle]
      exact hsame
    | fail e =>
      show (s.fail e).Matched
      rw [fail_of_isIdle hidle]
      exact hsame
    | takeFailure name =>
      show (s.takeFailure name).2.Matched
      rw [takeFailure_of_guard?_none (hnone name)]
      exact hsame
    | context => exact hsame
    | memoized key => exact hsame
    | memoSize => exact hsame
  · have hsame : s.Matched := Or.inr ⟨name, c, hguards, hcontext⟩
    cases op with
    | enter n signal thread =>
      show (s.enter n signal thread).2.Matched
      rw [enter_of_context hcontext]
      exact hsame
    | finish n =>
      show (s.finish n).2.Matched
      by_cases hn : name = n
      · subst hn
        rw [finish_of_guards hguards]
        exact Or.inl ⟨rfl, Slot.isIdle_leave s.slot⟩
      · rw [finish_of_guard?_none ((guard?_of_guards hguards n).trans (if_neg hn))]
        exact hsame
    | memoize key v => exact Or.inr ⟨name, c, hguards, (Slot.context_memoize ..).trans hcontext⟩
    | fail e => exact Or.inr ⟨name, c, hguards, (Slot.context_fail ..).trans hcontext⟩
    | takeFailure n =>
      show (s.takeFailure n).2.Matched
      by_cases hn : name = n
      · subst hn
        rw [takeFailure_of_guards hguards]
        exact Or.inr ⟨name, c, hguards, (Slot.context_clearFailure _).trans hcontext⟩
      · rw [takeFailure_of_guard?_none ((guard?_of_guards hguards n).trans (if_neg hn))]
        exact hsame
    | context => exact hsame
    | memoized key => exact hsame
    | memoSize => exact hsame

theorem matched_performAll (h : s.Matched) (ops : List Operation) : (s.performAll ops).Matched := by
  induction ops generalizing s with
  | nil => exact h
  | cons op ops ih => exact ih (h.perform op)

theorem matched_empty : empty.Matched := Or.inl ⟨rfl, rfl⟩

/-! ## §4. What the slot says of an evaluation that a guard holds. -/

/-- A guard of the given name holds an evaluation with the given context, and the slot says of it
what some operations have made of it. -/
structure Held (name : String) (c : CallContext) (during : List Operation) (s : GuardedSlot) :
    Prop where
  guards : s.guards = [(name, c.evaluation)]
  context : s.slot.context = .ok c
  memoized : ∀ key, s.slot.memoized? key = lastKept key during
  failure : s.slot.failure? = firstFailure name during
  distinct : s.slot.KeysDistinct

variable {during : List Operation}

/-- An operation that leaves the slot as it is counts for nothing if it neither keeps nor takes
anything. -/
theorem Held.concat_idle (h : Held name c during s) {op : Operation}
    (hkept : ∀ key, op.kept? key = none) (hfailure : op.failure? = none)
    (htakes : op.takesFrom name = false) : Held name c (during ++ [op]) s where
  guards := h.guards
  context := h.context
  memoized := fun key => by rw [lastKept_concat, hkept, Option.none_or, h.memoized]
  failure := by rw [firstFailure_concat htakes, hfailure, Option.or_none, h.failure]
  distinct := h.distinct

/-- **Every operation but the end of the evaluation counts for what it does.** -/
theorem Held.perform (h : Held name c during s) {op : Operation} (hop : op ≠ .finish name) :
    Held name c (during ++ [op]) (s.perform op) := by
  have hrunning := Slot.isRunning_of_context h.context
  cases op with
  | enter n signal thread =>
    show Held name c _ (s.enter n signal thread).2
    rw [enter_of_context h.context]
    exact h.concat_idle (fun _ => rfl) rfl rfl
  | finish n =>
    have hn : name ≠ n := fun hn => hop (hn ▸ rfl)
    show Held name c _ (s.finish n).2
    rw [finish_of_guard?_none ((guard?_of_guards h.guards n).trans (if_neg hn))]
    exact h.concat_idle (fun _ => rfl) rfl rfl
  | memoize k v =>
    refine ⟨h.guards, (Slot.context_memoize ..).trans h.context, fun key => ?_, ?_,
      h.distinct.memoize k v⟩
    · rw [lastKept_concat]
      show (s.slot.memoize k v).memoized? key = (if k = key then some v else none).or _
      rw [Slot.memoized?_memoize hrunning, ← h.memoized]
      split <;> rfl
    · rw [firstFailure_concat rfl]
      exact (Slot.failure?_memoize ..).trans (h.failure.trans (Option.or_none).symm)
  | fail e =>
    refine ⟨h.guards, (Slot.context_fail ..).trans h.context, fun key => ?_, ?_,
      h.distinct.fail e⟩
    · rw [lastKept_concat]
      exact (Slot.memoized?_fail ..).trans (h.memoized key)
    · rw [firstFailure_concat rfl, ← h.failure]
      exact Slot.failure?_fail hrunning e
  | takeFailure n =>
    show Held name c _ (s.takeFailure n).2
    by_cases hn : name = n
    · subst hn
      have htakes : (Operation.takeFailure name).takesFrom name = true := beq_self_eq_true name
      rw [takeFailure_of_guards h.guards]
      refine ⟨h.guards, (Slot.context_clearFailure _).trans h.context, fun key => ?_, ?_,
        h.distinct.clearFailure⟩
      · rw [lastKept_concat]
        exact (Slot.memoized?_clearFailure ..).trans (h.memoized key)
      · rw [firstFailure_concat_of_takes htakes]
        exact Slot.failure?_clearFailure _
    · rw [takeFailure_of_guard?_none ((guard?_of_guards h.guards n).trans (if_neg hn))]
      exact h.concat_idle (fun _ => rfl) rfl (beq_eq_false_iff_ne.mpr (Ne.symm hn))
  | context => exact h.concat_idle (fun _ => rfl) rfl rfl
  | memoized key => exact h.concat_idle (fun _ => rfl) rfl rfl
  | memoSize => exact h.concat_idle (fun _ => rfl) rfl rfl

theorem Held.performAll (h : Held name c during s) {ops : List Operation}
    (hops : .finish name ∉ ops) : Held name c (during ++ ops) (s.performAll ops) := by
  induction ops generalizing s during with
  | nil =>
    rw [List.append_nil]
    exact h
  | cons op ops ih =>
    obtain ⟨hop, hrest⟩ := List.ne_and_not_mem_of_not_mem_cons hops
    rw [List.append_cons]
    exact ih (h.perform hop.symm) hrest

/-- An evaluation that begins has neither results nor a failure. -/
theorem held_enter (hidle : s.slot.IsIdle) (hguards : s.guards = []) (name : String)
    (signal : SignalId) (thread : Thread) :
    Held name ⟨s.slot.begun, signal, thread⟩ [] (s.enter name signal thread).2 := by
  rw [enter_of_guards_nil hidle hguards]
  exact ⟨rfl, rfl, fun _ => rfl, rfl, s.slot.keysDistinct_opened signal thread⟩

/-- **An evaluation that begins goes on, and is what the operations since make of it, until its
guard is given up.** -/
theorem held_performAll {before : List Operation} {signal : SignalId} {thread : Thread}
    (hguards : (empty.performAll before).guards = []) (hduring : .finish name ∉ during) :
    Held name ⟨(empty.performAll before).slot.begun, signal, thread⟩ during
      (empty.performAll (before ++ .enter name signal thread :: during)) := by
  have hidle := (matched_performAll matched_empty before).isIdle hguards
  rw [performAll_append]
  exact (held_enter hidle hguards name signal thread).performAll hduring

/-- **Where a guard is held an evaluation has begun under it, and the guard has not been given up
since.** -/
theorem exists_enter_of_guards_ne_nil {ops : List Operation}
    (h : (empty.performAll ops).guards ≠ []) :
    ∃ before name signal thread during, ops = before ++ .enter name signal thread :: during ∧
      (empty.performAll before).guards = [] ∧ .finish name ∉ during := by
  induction ops using List.reverseRecOn with
  | nil => exact absurd rfl h
  | append_singleton ops op ih =>
    by_cases hguards : (empty.performAll ops).guards = []
    · -- The last operation is the one that begins the evaluation.
      have hidle := (matched_performAll matched_empty ops).isIdle hguards
      rw [performAll_append] at h
      cases op with
      | enter name signal thread => exact ⟨ops, name, signal, thread, [], rfl, hguards, by simp⟩
      | finish name =>
        refine absurd ?_ h
        show ((empty.performAll ops).finish name).2.guards = []
        rw [finish_of_guard?_none (guard?_of_guards_nil hguards name)]
        exact hguards
      | takeFailure name =>
        refine absurd ?_ h
        show ((empty.performAll ops).takeFailure name).2.guards = []
        rw [takeFailure_of_guard?_none (guard?_of_guards_nil hguards name)]
        exact hguards
      | _ => exact absurd hguards h
    · obtain ⟨before, name, signal, thread, during, rfl, hbefore, hduring⟩ := ih hguards
      have hheld : Held name ⟨_, signal, thread⟩ during _ := held_performAll hbefore hduring
      refine ⟨before, name, signal, thread, during ++ [op], by simp, hbefore, ?_⟩
      intro hmem
      rcases List.mem_append.mp hmem with hmem | hmem
      · exact hduring hmem
      · -- To give the guard up leaves none.
        obtain rfl := List.mem_singleton.mp hmem
        rw [performAll_append] at h
        refine h ?_
        show ((empty.performAll _).finish name).2.guards = []
        rw [finish_of_guards hheld.guards]

/-! ## §5. The slot and its guards after any operations. -/

/-- **What a slot and its guards have gone through can be told from the operations.**  At most one
guard is held; an evaluation runs under exactly the identity of the guard that is held, so to give
the guard up ends that evaluation.  While a guard is held no other evaluation begins, and nothing
changes by the attempt.  Without an evaluation nothing is kept and nothing is found.  Within an
evaluation the context is the one it began with, the result under a key is the last one that was
kept, and the failure that is taken is the first one since the begin or since the last take. -/
theorem performAll_refines (ops : List Operation) :
    let s := empty.performAll ops
    s.guards.length ≤ 1 ∧
    (∀ id, (∃ name, s.guards = [(name, id)]) ↔ ∃ c, s.slot.context = .ok c ∧ c.evaluation = id) ∧
    (∀ name, match s.guard? name with
      | some id => (∃ c, s.slot.context = .ok c ∧ c.evaluation = id) ∧
          (s.finish name).1 = true ∧ (s.finish name).2.slot.IsIdle ∧ (s.finish name).2.guards = []
      | none => s.finish name = (false, s) ∧ s.takeFailure name = (none, s)) ∧
    (∀ name signal thread, if s.guards = [] then ∃ id, (s.enter name signal thread).1 = .ok id
      else s.enter name signal thread
        = (.error (.internal "an evaluation is already running on this host"), s)) ∧
    (s.guards = [] →
      (∀ key v, s.memoize key v = s) ∧ (∀ e, s.fail e = s) ∧
      (∀ key, s.slot.memoized? key = none) ∧ s.slot.memoSize = 0 ∧
      s.slot.context = .error (.internal "external function called outside an evaluation")) ∧
    (s.guards ≠ [] → ∃ before name signal thread during,
      ops = before ++ .enter name signal thread :: during ∧
        (empty.performAll before).guards = [] ∧ .finish name ∉ during) ∧
    ∀ before name signal thread during, ops = before ++ .enter name signal thread :: during →
      (empty.performAll before).guards = [] → .finish name ∉ during →
      ∃ id, ((empty.performAll before).enter name signal thread).1 = .ok id ∧
        s.guards = [(name, id)] ∧ s.slot.context = .ok ⟨id, signal, thread⟩ ∧
        (∀ key, s.slot.memoized? key = lastKept key during) ∧
        s.slot.memoSize = {key | ∃ v, .memoize key v ∈ during}.ncard ∧
        (s.takeFailure name).1 = some (firstFailure name during) := by
  intro s
  have hmatched : s.Matched := matched_performAll matched_empty ops
  refine ⟨?_, ?_, ?_, ?_, ?_, exists_enter_of_guards_ne_nil, ?_⟩
  · rcases hmatched with ⟨hguards, -⟩ | ⟨name, c, hguards, -⟩ <;> simp [hguards]
  · intro id
    rcases hmatched with ⟨hguards, hidle⟩ | ⟨name, c, hguards, hcontext⟩
    · simp [hguards, Slot.context_of_isIdle hidle]
    · simp [hguards, hcontext]
  · intro name
    cases hguard : s.guard? name with
    | none => exact ⟨finish_of_guard?_none hguard, takeFailure_of_guard?_none hguard⟩
    | some id =>
      obtain ⟨hruns, hfinish⟩ := hmatched.finish_of_guard?_some hguard
      rw [hfinish]
      exact ⟨hruns, rfl, Slot.isIdle_leave _, rfl⟩
  · intro name signal thread
    split
    · rename_i hguards
      exact ⟨_, congrArg Prod.fst
        (enter_of_guards_nil (hmatched.isIdle hguards) hguards name signal thread)⟩
    · rename_i hguards
      rcases hmatched with ⟨hnil, -⟩ | ⟨n, c, -, hcontext⟩
      · exact absurd hnil hguards
      · exact enter_of_context hcontext name signal thread
  · intro hguards
    have hidle := hmatched.isIdle hguards
    exact ⟨memoize_of_isIdle hidle, fail_of_isIdle hidle, Slot.memoized?_of_isIdle hidle,
      Slot.memoSize_of_isIdle hidle, Slot.context_of_isIdle hidle⟩
  · rintro before name signal thread during rfl hguards hduring
    have hidle := (matched_performAll matched_empty before).isIdle hguards
    have hheld : Held name _ during s := held_performAll hguards hduring
    refine ⟨_, congrArg Prod.fst (enter_of_guards_nil hidle hguards name signal thread),
      hheld.guards, hheld.context, hheld.memoized, ?_, ?_⟩
    · rw [Slot.memoSize_eq_ncard hheld.distinct]
      simp only [hheld.memoized, lastKept_ne_none_iff]
    · rw [takeFailure_of_guards hheld.guards, hheld.failure]

/-- An evaluation that is refused has no guard, so there is none to give up. -/
example : (empty.performAll [.enter "a" 0 .plain, .enter "b" 1 .plain, .finish "b"]).guards =
    [("a", 0)] := by decide

end GuardedSlot

end PolicyLookup

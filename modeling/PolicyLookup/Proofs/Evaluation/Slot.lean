/-
  PolicyLookup.Proofs.Evaluation.Slot — the operations of a slot, seen through its look-ups.

  A slot is looked at in three ways: `context`, `memoized?` and `failure?`.  Each operation on a
  running evaluation changes one of them and leaves the others alone.

    * `memoized?_memoize` — a kept result is found under its key and under no other.
    * `failure?_fail` — the first failure stays.
    * `isRunning_enter` — an evaluation begins without results and without a failure.
-/

import PolicyLookup.Evaluation.Slot

namespace PolicyLookup

namespace Keyed

variable {α : Type}

/-- Entries with other keys do not count. -/
theorem get?_filter_ne (entries : List (String × α)) {key k : String} (h : key ≠ k) :
    get? (entries.filter fun e => !(e.1 == key)) k = get? entries k := by
  have hkept : (!(k == key)) = true := by
    rw [beq_eq_false_iff_ne.mpr h.symm]
    rfl
  have hfilter := get?_filter (fun k' => !(k' == key)) entries k
  rw [hfilter, if_pos hkept]

end Keyed

namespace Slot

/-! ## §1. Running evaluations. -/

/-- An evaluation runs in the slot. -/
def IsRunning (s : Slot) : Prop := s.active ≠ none

/-- No evaluation runs in the slot. -/
def IsIdle (s : Slot) : Prop := s.active = none

/-- A running evaluation has a context. -/
theorem IsRunning.context {s : Slot} (h : s.IsRunning) : ∃ c, s.context = .ok c := by
  cases ha : s.active with
  | none => exact absurd ha h
  | some a => exact ⟨a.context, by simp only [Slot.context, ha]⟩

/-- Where there is a context an evaluation runs. -/
theorem isRunning_of_context {s : Slot} {c : CallContext} (h : s.context = .ok c) :
    s.IsRunning := by
  intro ha
  simp [context, ha] at h

/-- Where a result is found an evaluation runs. -/
theorem isRunning_of_memoized? {s : Slot} {key : String} {v : Value}
    (h : s.memoized? key = some v) : s.IsRunning := by
  intro ha
  simp [memoized?, ha] at h

/-! ## §2. Keeping a result. -/

@[simp] theorem context_memoize (s : Slot) (key : String) (v : Value) :
    (s.memoize key v).context = s.context := by
  cases ha : s.active <;> simp [context, memoize, ha]

@[simp] theorem failure?_memoize (s : Slot) (key : String) (v : Value) :
    (s.memoize key v).failure? = s.failure? := by
  cases ha : s.active <;> simp [failure?, memoize, ha]

@[simp] theorem isRunning_memoize (s : Slot) (key : String) (v : Value) :
    (s.memoize key v).IsRunning ↔ s.IsRunning := by
  cases ha : s.active <;> simp [IsRunning, memoize, ha]

theorem memoized?_memoize {s : Slot} (h : s.IsRunning) (key k : String) (v : Value) :
    (s.memoize key v).memoized? k = if key = k then some v else s.memoized? k := by
  cases ha : s.active with
  | none => exact absurd ha h
  | some a =>
    by_cases hk : key = k
    · simp [memoized?, memoize, ha, Keyed.get?, hk]
    · simp [memoized?, memoize, ha, Keyed.get?, hk, Keyed.get?_filter_ne]

/-! ## §3. Keeping a failure. -/

@[simp] theorem context_fail (s : Slot) (e : Error) : (s.fail e).context = s.context := by
  cases ha : s.active <;> simp [context, fail, ha]

@[simp] theorem memoized?_fail (s : Slot) (e : Error) (key : String) :
    (s.fail e).memoized? key = s.memoized? key := by
  cases ha : s.active <;> simp [memoized?, fail, ha]

@[simp] theorem isRunning_fail (s : Slot) (e : Error) : (s.fail e).IsRunning ↔ s.IsRunning := by
  cases ha : s.active <;> simp [IsRunning, fail, ha]

theorem failure?_fail {s : Slot} (h : s.IsRunning) (e : Error) :
    (s.fail e).failure? = s.failure?.or (some e) := by
  cases ha : s.active with
  | none => exact absurd ha h
  | some a => cases hf : a.failure <;> simp [failure?, fail, ha, hf]

@[simp] theorem memoSize_fail (s : Slot) (e : Error) : (s.fail e).memoSize = s.memoSize := by
  cases ha : s.active <;> simp [memoSize, fail, ha]

/-! ## §4. Forgetting the failure. -/

@[simp] theorem context_clearFailure (s : Slot) : s.clearFailure.context = s.context := by
  cases ha : s.active <;> simp [context, clearFailure, ha]

@[simp] theorem memoized?_clearFailure (s : Slot) (key : String) :
    s.clearFailure.memoized? key = s.memoized? key := by
  cases ha : s.active <;> simp [memoized?, clearFailure, ha]

@[simp] theorem failure?_clearFailure (s : Slot) : s.clearFailure.failure? = none := by
  cases ha : s.active <;> simp [failure?, clearFailure, ha]

/-! ## §5. Idle slots. -/

theorem memoize_of_isIdle {s : Slot} (h : s.IsIdle) (key : String) (v : Value) :
    s.memoize key v = s := by
  obtain ⟨active, begun⟩ := s
  obtain rfl : active = none := h
  rfl

theorem fail_of_isIdle {s : Slot} (h : s.IsIdle) (e : Error) : s.fail e = s := by
  obtain ⟨active, begun⟩ := s
  obtain rfl : active = none := h
  rfl

theorem memoized?_of_isIdle {s : Slot} (h : s.IsIdle) (key : String) : s.memoized? key = none := by
  unfold IsIdle at h
  simp only [memoized?, h, Option.bind_none]

theorem memoSize_of_isIdle {s : Slot} (h : s.IsIdle) : s.memoSize = 0 := by
  unfold IsIdle at h
  simp only [memoSize, h]

theorem context_of_isIdle {s : Slot} (h : s.IsIdle) : s.context = .error idle := by
  unfold IsIdle at h
  simp only [context, h]

/-! ## §6. Beginning and ending. -/

/-- The evaluation that begins in an idle slot. -/
def opened (s : Slot) (signal : SignalId) (thread : Thread) : Slot :=
  ⟨some ⟨⟨s.begun, signal, thread⟩, [], none⟩, s.begun + 1⟩

theorem enter_of_isIdle {s : Slot} (h : s.IsIdle) (signal : SignalId) (thread : Thread) :
    s.enter signal thread = .ok (s.begun, s.opened signal thread) := by
  unfold IsIdle at h
  simp only [enter, h, opened]

theorem enter_of_isRunning {s : Slot} (h : s.IsRunning) (signal : SignalId) (thread : Thread) :
    s.enter signal thread = .error busy := by
  cases ha : s.active with
  | none => exact absurd ha h
  | some a => simp only [enter, ha]

@[simp] theorem isRunning_opened (s : Slot) (signal : SignalId) (thread : Thread) :
    (s.opened signal thread).IsRunning := by
  simp [IsRunning, opened]

@[simp] theorem memoized?_opened (s : Slot) (signal : SignalId) (thread : Thread) (key : String) :
    (s.opened signal thread).memoized? key = none := rfl

@[simp] theorem failure?_opened (s : Slot) (signal : SignalId) (thread : Thread) :
    (s.opened signal thread).failure? = none := rfl

@[simp] theorem isIdle_leave (s : Slot) : s.leave.IsIdle := rfl

end Slot

end PolicyLookup

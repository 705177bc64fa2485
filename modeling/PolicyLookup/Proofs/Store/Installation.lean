/-
  PolicyLookup.Proofs.Store.Installation — one installation, whatever the order of the turns.

  Between the check that no connection is there and the installation an attempt waits for its ping,
  so any number of attempts can have passed the check.  Safety rests on the installation itself,
  which looks again.  What each stage of an attempt stands for is one invariant, kept by every turn:
  who has got past its ping has been answered, who has installed has changed the connection, and who
  has failed has not.

    * `step_connector` — what one turn can do to the connector.
    * `fits_after` — what each stage stands for, after any moves.
    * `alone_five` — an attempt without others is `Connector.connect`.
    * `single_installation` — the main result.
-/

import Mathlib.Data.List.Induction
import Mathlib.Data.List.Infix
import Mathlib.Logic.Function.Iterate
import PolicyLookup.Proofs.Text.Blank
import PolicyLookup.Store.Attempt

namespace PolicyLookup

namespace Contest

open Connector

variable {κ ι : Type} [DecidableEq ι] {wanted : ι → Connection κ}

/-! ## §1. One turn. -/

variable (wanted) in
/-- What one turn can do to the connector: install what the attempt wants, where nothing is. -/
theorem step_connector (s : Contest κ ι) (m : Move ι) :
    (step wanted s m).connector = s.connector ∨
      s.stage m.who = .alive ∧ s.connector.connection = none ∧
        (step wanted s m).connector = ⟨some (wanted m.who)⟩ := by
  show (s.connector.advance (wanted m.who) m.ping (s.stage m.who)).2 = _ ∨ _ ∧ _ ∧
    (s.connector.advance (wanted m.who) m.ping (s.stage m.who)).2 = _
  cases s.stage m.who with
  | begun =>
    left
    rw [advance]
    split <;> rfl
  | named =>
    left
    rw [advance]
    split <;> rfl
  | permitted =>
    left
    cases m.ping <;> rfl
  | alive =>
    -- The installation looks again, so it writes over nothing.
    rw [advance, install]
    cases hconnection : s.connector.connection with
    | some o => exact Or.inl rfl
    | none => exact Or.inr ⟨rfl, rfl, rfl⟩
  | installed =>
    left
    rw [advance]
    split <;> rfl
  | finished result => exact Or.inl rfl

theorem step_stage_self (s : Contest κ ι) (m : Move ι) : (step wanted s m).stage m.who
    = (s.connector.advance (wanted m.who) m.ping (s.stage m.who)).1 :=
  Function.update_self ..

theorem step_stage_of_ne (s : Contest κ ι) {m : Move ι} {i : ι} (h : i ≠ m.who) :
    (step wanted s m).stage i = s.stage i :=
  Function.update_of_ne h ..

/-! ## §2. Histories. -/

variable (wanted) in
/-- The contest after some moves. -/
def after (moves : List (Move ι)) : Contest κ ι := run wanted moves start

variable (wanted) in
/-- The connection that is there after some moves. -/
def held (moves : List (Move ι)) : Option (Connection κ) :=
  (after wanted moves).connector.connection

theorem after_concat (moves : List (Move ι)) (m : Move ι) :
    after wanted (moves ++ [m]) = step wanted (after wanted moves) m := by
  unfold after run
  rw [List.foldl_append]
  rfl

variable (wanted) in
/-- The move `m`, made after the moves `before`, is one of `moves` and changes the connection. -/
def Changes (moves before : List (Move ι)) (m : Move ι) : Prop :=
  before ++ [m] <+: moves ∧ held wanted (before ++ [m]) ≠ held wanted before

variable (wanted) in
/-- A move of the attempt has changed the connection. -/
def Installer (moves : List (Move ι)) (i : ι) : Prop :=
  ∃ before m, Changes wanted moves before m ∧ m.who = i

variable (wanted) in
/-- The store of the attempt has been asked, and has answered. -/
def Answered (moves : List (Move ι)) (i : ι) : Prop :=
  ∃ before m, before ++ [m] <+: moves ∧ m.who = i ∧
    (after wanted before).stage i = .permitted ∧ m.ping = .ok ()

variable {moves before : List (Move ι)} {m : Move ι} {i : ι} {o : Connection κ}

theorem held_concat_of_stage_ne (h : (after wanted moves).stage m.who ≠ .alive) :
    held wanted (moves ++ [m]) = held wanted moves := by
  unfold held
  rw [after_concat]
  rcases step_connector wanted (after wanted moves) m with hsame | ⟨halive, -⟩
  · rw [hsame]
  · exact absurd halive h

/-- A change is from nothing to what the attempt wants, whose store has answered. -/
theorem Changes.spec (h : Changes wanted moves before m) :
    (after wanted before).stage m.who = .alive ∧ held wanted before = none ∧
      held wanted (before ++ [m]) = some (wanted m.who) := by
  obtain ⟨-, hchange⟩ := h
  unfold held at hchange ⊢
  rw [after_concat] at hchange ⊢
  rcases step_connector wanted (after wanted before) m with hsame | ⟨halive, hnone, h⟩
  · rw [hsame] at hchange
    exact absurd rfl hchange
  · exact ⟨halive, hnone, by rw [h]⟩

/-- **A connection stays.** -/
theorem held_mono (hbefore : before <+: moves) (h : held wanted before = some o) :
    held wanted moves = some o := by
  obtain ⟨rest, rfl⟩ := hbefore
  -- On what follows, from its end: a turn that installs would have had to find nothing.
  induction rest using List.reverseRecOn with
  | nil => rwa [List.append_nil]
  | append_singleton rest m ih =>
    rw [← List.append_assoc]
    unfold held at ih ⊢
    rw [after_concat]
    rcases step_connector wanted (after wanted (before ++ rest)) m with
      hsame | ⟨-, hnone, -⟩
    · rw [hsame]
      exact ih
    · rw [hnone] at ih
      cases ih

/-- The second of two changes would find a connection. -/
theorem Changes.length_le {before' : List (Move ι)} {m' : Move ι}
    (h : Changes wanted moves before m) (h' : Changes wanted moves before' m') :
    before'.length ≤ before.length := by
  by_contra hlt
  -- Then the first change has been made before the second.
  have hle : before ++ [m] <+: before' := by
    refine List.prefix_of_prefix_length_le h.1 ((List.prefix_append ..).trans h'.1) ?_
    rw [List.length_append, List.length_singleton]
    omega
  have hheld := held_mono hle h.spec.2.2
  rw [h'.spec.2.1] at hheld
  cases hheld

/-- **There is one change at most.** -/
theorem Changes.unique {before' : List (Move ι)} {m' : Move ι}
    (h : Changes wanted moves before m) (h' : Changes wanted moves before' m') :
    before = before' ∧ m = m' := by
  have hlength : before.length = before'.length :=
    Nat.le_antisymm (h'.length_le h) (h.length_le h')
  have hsame : before ++ [m] = before' ++ [m'] := by
    refine List.IsPrefix.eq_of_length (List.prefix_of_prefix_length_le h.1 h'.1 ?_) ?_
    all_goals
      simp only [List.length_append, List.length_singleton]
      omega
  obtain ⟨hbefore, hm⟩ := List.append_inj hsame hlength
  exact ⟨hbefore, (List.cons.inj hm).1⟩

theorem changes_concat {m' : Move ι} : Changes wanted (moves ++ [m]) before m' ↔
    Changes wanted moves before m' ∨
      (before = moves ∧ m' = m ∧ held wanted (moves ++ [m]) ≠ held wanted moves) := by
  unfold Changes
  rw [List.prefix_concat_iff]
  constructor
  · rintro ⟨hlast | hle, hchange⟩
    · obtain ⟨rfl, hm⟩ := List.append_inj' hlast rfl
      obtain rfl := (List.cons.inj hm).1
      exact Or.inr ⟨rfl, rfl, hchange⟩
    · exact Or.inl ⟨hle, hchange⟩
  · rintro (⟨hle, hchange⟩ | ⟨rfl, rfl, hchange⟩)
    · exact ⟨Or.inr hle, hchange⟩
    · exact ⟨Or.inl rfl, hchange⟩

theorem installer_concat : Installer wanted (moves ++ [m]) i ↔
    Installer wanted moves i ∨ (m.who = i ∧ held wanted (moves ++ [m]) ≠ held wanted moves) := by
  unfold Installer
  simp only [changes_concat]
  constructor
  · rintro ⟨before, m', h | ⟨rfl, rfl, hchange⟩, hwho⟩
    · exact Or.inl ⟨before, m', h, hwho⟩
    · exact Or.inr ⟨hwho, hchange⟩
  · rintro (⟨before, m', h, hwho⟩ | ⟨hwho, hchange⟩)
    · exact ⟨before, m', Or.inl h, hwho⟩
    · exact ⟨moves, m, Or.inr ⟨rfl, rfl, hchange⟩, hwho⟩

theorem Answered.mono (h : Answered wanted before i) (hle : before <+: moves) :
    Answered wanted moves i := by
  obtain ⟨asked, m, hasked, hrest⟩ := h
  exact ⟨asked, m, hasked.trans hle, hrest⟩

/-! ## §3. What a stage stands for. -/

/-- The errors of an attempt that fails. -/
def Refuses (wanted : Connection κ) (e : Error) : Prop :=
  e = .config "mongodb_dbname must not be empty" (some "mongodb_dbname") ∨
  e = .connection "connection manager is already initialized" none ∨
  ∃ cause, e = .connection s!"liveness probe against `{wanted.database}` failed" (some cause)

variable (wanted) in
/-- What the stage of an attempt stands for. -/
def Fits (moves : List (Move ι)) (i : ι) : Stage κ → Prop
  | .begun => ¬ Installer wanted moves i
  | .named | .permitted =>
    Text.IsNonblank (wanted i).database ∧ ¬ Installer wanted moves i
  | .alive => Text.IsNonblank (wanted i).database ∧ Answered wanted moves i ∧
    ¬ Installer wanted moves i
  | .installed => held wanted moves = some (wanted i) ∧ Installer wanted moves i
  | .finished (.ok o) => o = wanted i ∧ Installer wanted moves i
  | .finished (.error e) => Refuses (wanted i) e ∧ ¬ Installer wanted moves i

/-- The turn of another attempt changes nothing of it. -/
theorem Fits.concat_of_ne {stage : Stage κ} (h : Fits wanted moves i stage) (hne : i ≠ m.who) :
    Fits wanted (moves ++ [m]) i stage := by
  have hinstaller : Installer wanted (moves ++ [m]) i ↔ Installer wanted moves i := by
    rw [installer_concat]
    exact or_iff_left fun h => hne h.1.symm
  have hle : moves <+: moves ++ [m] := List.prefix_append ..
  cases stage with
  | begun => exact fun hi => h (hinstaller.mp hi)
  | named => exact ⟨h.1, fun hi => h.2 (hinstaller.mp hi)⟩
  | permitted => exact ⟨h.1, fun hi => h.2 (hinstaller.mp hi)⟩
  | alive => exact ⟨h.1, h.2.1.mono hle, fun hi => h.2.2 (hinstaller.mp hi)⟩
  | installed => exact ⟨held_mono hle h.1, hinstaller.mpr h.2⟩
  | finished result =>
    cases result with
    | ok o => exact ⟨h.1, hinstaller.mpr h.2⟩
    | error e => exact ⟨h.1, fun hi => h.2 (hinstaller.mp hi)⟩

theorem isNonblank_of_require {key value : String} (h : require key value = .ok ()) :
    Text.IsNonblank value := by
  unfold require at h
  split at h
  · cases h
  · next hblank => exact Text.isBlankText_eq_false_iff.mp (Bool.eq_false_iff.mpr hblank)

theorem error_of_require {key value : String} {e : Error} (h : require key value = .error e) :
    e = blank key := by
  unfold require at h
  split at h
  · exact (Except.error.inj h).symm
  · cases h

/-- An attempt's own turn. -/
theorem Fits.concat_self (h : Fits wanted moves m.who ((after wanted moves).stage m.who)) :
    Fits wanted (moves ++ [m]) m.who ((after wanted (moves ++ [m])).stage m.who) := by
  -- Only the turn after the ping changes anything.
  have hinstaller (hstage : (after wanted moves).stage m.who ≠ .alive) :
      Installer wanted (moves ++ [m]) m.who ↔ Installer wanted moves m.who := by
    rw [installer_concat]
    exact or_iff_left fun h => h.2 (held_concat_of_stage_ne hstage)
  have hle : moves <+: moves ++ [m] := List.prefix_append ..
  rw [after_concat, step_stage_self]
  cases hstage : (after wanted moves).stage m.who with
  | begun =>
    rw [hstage] at h hinstaller
    rw [advance]
    split
    · next e he =>
      exact ⟨Or.inl (error_of_require he), fun hi => h ((hinstaller nofun).mp hi)⟩
    · next hname =>
      exact ⟨isNonblank_of_require hname, fun hi => h ((hinstaller nofun).mp hi)⟩
  | named =>
    rw [hstage] at h hinstaller
    rw [advance, requireUnconnected]
    cases (after wanted moves).connector.connection with
    | some o => exact ⟨Or.inr (Or.inl rfl), fun hi => h.2 ((hinstaller nofun).mp hi)⟩
    | none => exact ⟨h.1, fun hi => h.2 ((hinstaller nofun).mp hi)⟩
  | permitted =>
    rw [hstage] at h hinstaller
    have hpending : ¬ Installer wanted (moves ++ [m]) m.who :=
      fun hi => h.2 ((hinstaller nofun).mp hi)
    cases hping : m.ping with
    | error cause => exact ⟨Or.inr (Or.inr ⟨cause, rfl⟩), hpending⟩
    | ok => exact ⟨h.1, ⟨moves, m, List.prefix_refl _, rfl, hstage, hping⟩, hpending⟩
  | alive =>
    rw [hstage] at h
    rw [advance, install]
    cases hconnection : (after wanted moves).connector.connection with
    | some o =>
      -- Another attempt was faster, so nothing has changed.
      have hsame : held wanted (moves ++ [m]) = held wanted moves := by
        rw [show held wanted moves = some o from hconnection]
        exact held_mono hle hconnection
      refine ⟨Or.inr (Or.inl rfl), fun hi => h.2.2 ?_⟩
      exact (installer_concat.mp hi).resolve_right fun hi => hi.2 hsame
    | none =>
      have hheld : held wanted (moves ++ [m]) = some (wanted m.who) := by
        unfold held
        rw [after_concat]
        show (Connector.advance _ _ _ ((after wanted moves).stage m.who)).2.connection = _
        rw [hstage, advance, install, hconnection]
      refine ⟨hheld, installer_concat.mpr (Or.inr ⟨rfl, ?_⟩)⟩
      rw [hheld, show held wanted moves = none from hconnection]
      nofun
  | installed =>
    rw [hstage] at h hinstaller
    have hconnection : (after wanted moves).connector.connection = some (wanted m.who) := h.1
    rw [advance, hconnection]
    exact ⟨rfl, (hinstaller nofun).mpr h.2⟩
  | finished result =>
    rw [hstage] at h hinstaller
    cases result with
    | ok o => exact ⟨h.1, (hinstaller nofun).mpr h.2⟩
    | error e => exact ⟨h.1, fun hi => h.2 ((hinstaller nofun).mp hi)⟩

variable (wanted) in
/-- **What each stage stands for, after any moves.** -/
theorem fits_after (moves : List (Move ι)) (i : ι) :
    Fits wanted moves i ((after wanted moves).stage i) := by
  induction moves using List.reverseRecOn with
  | nil =>
    -- Nobody can have installed anything without a move.
    rintro ⟨before, m, ⟨hle, -⟩, -⟩
    have hnil := List.prefix_nil.mp hle
    simp at hnil
  | append_singleton moves m ih =>
    by_cases hi : i = m.who
    · subst hi
      exact ih.concat_self
    · rw [after_concat, step_stage_of_ne _ hi]
      exact ih.concat_of_ne hi

/-! ## §4. Progress. -/

/-- The turns that lead to a stage; an attempt is finished after five at most. -/
def turns : Stage κ → Nat
  | .begun => 0
  | .named => 1
  | .permitted => 2
  | .alive => 3
  | .installed => 4
  | .finished _ => 5

theorem turns_advance (c : Connector κ) (new : Connection κ) (ping : Except StoreError Unit)
    (stage : Stage κ) : min 5 (turns stage + 1) ≤ turns (c.advance new ping stage).1 := by
  cases stage with
  | begun =>
    rw [advance]
    split <;> simp [turns]
  | named =>
    rw [advance]
    split <;> simp [turns]
  | permitted => cases ping <;> simp [advance, turns]
  | alive =>
    rw [advance]
    split <;> simp [turns]
  | installed =>
    rw [advance]
    split <;> simp [turns]
  | finished result => exact Nat.le_refl 5

variable (wanted) in
/-- Every turn of its own brings an attempt on. -/
theorem turns_after (moves : List (Move ι)) (i : ι) :
    min 5 (moves.countP fun m => m.who = i) ≤ turns ((after wanted moves).stage i) := by
  induction moves using List.reverseRecOn with
  | nil => exact Nat.min_le_right ..
  | append_singleton moves m ih =>
    rw [List.countP_append, List.countP_singleton, after_concat]
    by_cases hi : m.who = i
    · subst hi
      have hadvance := turns_advance (after wanted moves).connector (wanted m.who) m.ping
        ((after wanted moves).stage m.who)
      rw [step_stage_self, if_pos (decide_eq_true rfl)]
      omega
    · -- The turn of another attempt counts on neither side.
      rw [step_stage_of_ne _ (Ne.symm hi), if_neg (by simpa using hi)]
      exact ih

theorem finished_of_turns {stage : Stage κ} (h : 5 ≤ turns stage) : ∃ r, stage = .finished r := by
  cases stage with
  | finished r => exact ⟨r, rfl⟩
  | begun | named | permitted | alive | installed => simp [turns] at h

/-! ## §5. An attempt without others. -/

/-- A turn of an attempt that goes on alone. -/
def alone (new : Connection κ) (ping : Except StoreError Unit) (p : Stage κ × Connector κ) :
    Stage κ × Connector κ :=
  p.2.advance new ping p.1

/-- **An attempt without others** ends as `Connector.connect` says. -/
theorem alone_five (c : Connector κ) (new : Connection κ) (ping : Except StoreError Unit) :
    (alone new ping)^[5] (.begun, c) =
      (.finished (c.connect new.store (fun _ => ping) new.database).1,
        (c.connect new.store (fun _ => ping) new.database).2) := by
  show alone _ _ (alone _ _ (alone _ _ (alone _ _ (alone _ _ _)))) = _
  unfold connect permit
  cases hname : require "mongodb_dbname" new.database with
  | error e => simp only [alone, advance, hname]
  | ok =>
    cases hconnection : c.connection with
    | some o => simp only [alone, advance, hname, requireUnconnected, hconnection]
    | none =>
      cases ping with
      | error cause => simp only [alone, advance, hname, requireUnconnected, hconnection]
      | ok => simp only [alone, advance, hname, requireUnconnected, hconnection, install]

/-- The others are where they were. -/
theorem run_replicate (s : Contest κ ι) (m : Move ι) (n : Nat) :
    run wanted (List.replicate n m) s =
      ⟨((alone (wanted m.who) m.ping)^[n] (s.stage m.who, s.connector)).2,
        Function.update s.stage m.who
          ((alone (wanted m.who) m.ping)^[n] (s.stage m.who, s.connector)).1⟩ := by
  induction n generalizing s with
  | zero =>
    show s = ⟨s.connector, Function.update s.stage m.who (s.stage m.who)⟩
    rw [Function.update_eq_self]
  | succ n ih =>
    -- The first turn moves the stage, and the others start from there.
    rw [List.replicate_succ, run, List.foldl_cons]
    refine (ih (step wanted s m)).trans ?_
    rw [step_stage_self, Function.iterate_succ_apply]
    show Contest.mk _ (Function.update (Function.update s.stage m.who _) m.who _) = _
    rw [Function.update_idem]
    rfl

/-! ## §6. The contest. -/

theorem Refuses.category {new : Connection κ} {e : Error} (h : Refuses new e) :
    e.category = "config" ∨ e.category = "connection" := by
  obtain rfl | rfl | ⟨cause, rfl⟩ := h
  · exact Or.inl rfl
  · exact Or.inr rfl
  · exact Or.inr rfl

/-- What is there has been put there. -/
theorem exists_changes (h : held wanted moves = some o) :
    ∃ before m, Changes wanted moves before m := by
  induction moves using List.reverseRecOn with
  | nil => cases h
  | append_singleton moves m ih =>
    -- Either the last move has put it there, or it has been there before.
    by_cases hsame : held wanted (moves ++ [m]) = held wanted moves
    · obtain ⟨before, m', hchanges⟩ := ih (hsame ▸ h)
      exact ⟨before, m', changes_concat.mpr (Or.inl hchanges)⟩
    · exact ⟨moves, m, List.prefix_refl _, hsame⟩

theorem Installer.unique {j : ι} (h : Installer wanted moves i) (h' : Installer wanted moves j) :
    i = j := by
  obtain ⟨before, m, hchanges, rfl⟩ := h
  obtain ⟨before', m', hchanges', rfl⟩ := h'
  rw [(hchanges.unique hchanges').2]

/-- Who has changed the connection is about to return it, or has done so. -/
theorem Installer.stage (h : Installer wanted moves i) : (after wanted moves).stage i = .installed ∨
    (after wanted moves).stage i = .finished (.ok (wanted i)) := by
  have hfits := fits_after wanted moves i
  revert hfits
  cases (after wanted moves).stage i with
  | begun => exact fun hfits => absurd h hfits
  | named => exact fun hfits => absurd h hfits.2
  | permitted => exact fun hfits => absurd h hfits.2
  | alive => exact fun hfits => absurd h hfits.2.2
  | installed => exact fun _ => Or.inl rfl
  | finished result =>
    cases result with
    | ok o =>
      rintro ⟨rfl, -⟩
      exact Or.inr rfl
    | error e => exact fun hfits => absurd h hfits.2

theorem Changes.nonblank_and_answered (h : Changes wanted moves before m) :
    Text.IsNonblank (wanted m.who).database ∧ Answered wanted before m.who := by
  have hfits := fits_after wanted before m.who
  rw [h.spec.1] at hfits
  exact ⟨hfits.1, hfits.2.1⟩

theorem ok_of_finished (h : (after wanted moves).stage i = .finished (.ok o)) :
    o = wanted i ∧ Installer wanted moves i := by
  have hfits := fits_after wanted moves i
  rw [h] at hfits
  exact hfits

theorem error_of_finished {e : Error} (h : (after wanted moves).stage i = .finished (.error e)) :
    Refuses (wanted i) e ∧ ¬ Installer wanted moves i := by
  have hfits := fits_after wanted moves i
  rw [h] at hfits
  exact hfits

/-- As long as nothing has been installed, whoever has a store that answers can still do it. -/
theorem after_alone (hheld : held wanted moves = none)
    (hbegun : (after wanted moves).stage i = .begun)
    (hname : Text.IsNonblank (wanted i).database) :
    (after wanted (moves ++ List.replicate 5 ⟨i, .ok ()⟩)).stage i = .finished (.ok (wanted i)) ∧
      held wanted (moves ++ List.replicate 5 ⟨i, .ok ()⟩) = some (wanted i) := by
  have hconnect : (after wanted moves).connector.connect (wanted i).store (fun _ => .ok ())
      (wanted i).database = (.ok (wanted i), ⟨some (wanted i)⟩) := by
    have hnone : (after wanted moves).connector.connection = none := hheld
    simp only [connect, permit, require, Text.isBlankText_eq_false_iff.mpr hname,
      Bool.false_eq_true, if_false, requireUnconnected, hnone, install]
  have hafter : after wanted (moves ++ List.replicate 5 ⟨i, .ok ()⟩)
      = run wanted (List.replicate 5 ⟨i, .ok ()⟩) (after wanted moves) := by
    unfold after run
    rw [List.foldl_append]
  unfold held
  rw [hafter, run_replicate]
  simp only
  rw [hbegun, alone_five, hconnect]
  exact ⟨Function.update_self .., rfl⟩

/-- **One installation, whatever the order of the turns.**  Any number of attempts, each with a
store and a database of its own, have their turns in any order and with any answers to their pings.

The connection changes at most once, from nothing to what the attempt wants whose turn it is, whose
database is not blank and whose store has answered; it stays after that.  An attempt succeeds only
if it has made the change, with what it wants, so at most one does; and the one that has made it
fails no more.  An attempt that fails does so with an error of settings or connection, and has
changed nothing.  Five turns of its own bring every attempt to its end.  After failures alone there
is no connection, and as long as there is none a further attempt with a store that answers can
succeed. -/
theorem single_installation (wanted : ι → Connection κ) (moves : List (Move ι)) :
    (∀ before before' m m', Changes wanted moves before m → Changes wanted moves before' m' →
      before = before' ∧ m = m') ∧
    (∀ before m, Changes wanted moves before m →
      held wanted before = none ∧ held wanted (before ++ [m]) = some (wanted m.who) ∧
      Text.IsNonblank (wanted m.who).database ∧ Answered wanted before m.who) ∧
    (∀ before o, before <+: moves → held wanted before = some o → held wanted moves = some o) ∧
    (∀ i o, (after wanted moves).stage i = .finished (.ok o) →
      o = wanted i ∧ Installer wanted moves i) ∧
    (∀ i j o o', (after wanted moves).stage i = .finished (.ok o) →
      (after wanted moves).stage j = .finished (.ok o') → i = j) ∧
    (∀ i, Installer wanted moves i → (after wanted moves).stage i = .installed ∨
      (after wanted moves).stage i = .finished (.ok (wanted i))) ∧
    (∀ i e, (after wanted moves).stage i = .finished (.error e) →
      (e.category = "config" ∨ e.category = "connection") ∧ Refuses (wanted i) e ∧
      ¬ Installer wanted moves i) ∧
    (∀ i, 5 ≤ moves.countP (fun m => m.who = i) → ∃ r, (after wanted moves).stage i = .finished r) ∧
    ((∀ i, (after wanted moves).stage i = .begun ∨
      ∃ e, (after wanted moves).stage i = .finished (.error e)) → held wanted moves = none) ∧
    (held wanted moves = none → ∀ i, (after wanted moves).stage i = .begun →
      Text.IsNonblank (wanted i).database →
      (after wanted (moves ++ List.replicate 5 ⟨i, .ok ()⟩)).stage i = .finished (.ok (wanted i)) ∧
      held wanted (moves ++ List.replicate 5 ⟨i, .ok ()⟩) = some (wanted i)) := by
  refine ⟨fun _ _ _ _ h h' => h.unique h', ?_, fun _ _ => held_mono, fun _ _ => ok_of_finished,
    fun _ _ _ _ h h' => (ok_of_finished h).2.unique (ok_of_finished h').2, fun _ h => h.stage,
    ?_, ?_, ?_,
    fun hheld _ hbegun hname => after_alone hheld hbegun hname⟩
  · intro before m h
    exact ⟨h.spec.2.1, h.spec.2.2, h.nonblank_and_answered⟩
  · intro i e h
    obtain ⟨hrefuses, hinstaller⟩ := error_of_finished h
    exact ⟨hrefuses.category, hrefuses, hinstaller⟩
  · intro i h
    have hturns := turns_after wanted moves i
    exact finished_of_turns (by omega)
  · intro h
    rw [Option.eq_none_iff_forall_ne_some]
    intro o ho
    obtain ⟨before, m, hchanges⟩ := exists_changes ho
    -- Who has made the change is neither at the beginning nor among those who failed.
    rcases (show Installer wanted moves m.who from ⟨before, m, hchanges, rfl⟩).stage with hs | hs
    · rcases h m.who with h | ⟨e, h⟩ <;> rw [hs] at h <;> cases h
    · rcases h m.who with h | ⟨e, h⟩ <;> rw [hs] at h <;> cases h

/-- Two attempts with a store and a database each. -/
def rivals : Bool → Connection Bool := fun i => ⟨i, "policies"⟩

/-- Both have passed the check when the second is the first to be answered and to install. -/
example : (after rivals ([true, true, false, false, false, false, true, true, false].map fun i =>
    ⟨i, .ok ()⟩)).stage = fun i =>
      .finished (bif i then .error alreadyConnected else .ok (rivals false)) := by
  funext i
  cases i <;> rfl

end Contest

end PolicyLookup

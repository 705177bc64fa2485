/-
  PolicyLookup.Proofs.Settings.Startup — the checks that a process makes when it starts.

  Settings are looked at three times: as a whole, when the settings of the store are taken from them,
  and once more by the attempt to connect.  All three ask for the address and for the database, in
  this order, and each has its own way of asking for a text that is not blank.  They agree: the
  settings of the store can be had exactly if both texts have a character that is not white space;
  what is missing is reported with the same error as in the check of all settings; and nothing that
  was taken from settings is called blank later, however many attempts are under way.

    * `required_of_hasText`, `required_of_not_hasText` — one required setting.
    * `store_eq_error_iff`, `validate_eq_ok_iff` — the two checks of settings.
    * `category_of_connectTo`, `Contest.category_of_finished` — attempts to connect.
    * `startup_checks_agree` — all of them together.
-/

import PolicyLookup.Proofs.Store.Installation
import PolicyLookup.Proofs.Text.Blank
import PolicyLookup.Settings.Basic

namespace PolicyLookup

/-! ## §1. Checks in a row. -/

theorem bind_eq_ok_iff {ε α β : Type} {x : Except ε α} {f : α → Except ε β} {b : β} :
    x >>= f = .ok b ↔ ∃ a, x = .ok a ∧ f a = .ok b := by
  cases x with
  | error e => exact ⟨nofun, nofun⟩
  | ok a =>
    show f a = .ok b ↔ _
    simp

/-- The first check that fails is what is reported. -/
theorem bind_eq_error_iff {ε α β : Type} {x : Except ε α} {f : α → Except ε β} {e : ε} :
    x >>= f = .error e ↔ x = .error e ∨ ∃ a, x = .ok a ∧ f a = .error e := by
  cases x with
  | error e' =>
    show Except.error e' = .error e ↔ _
    simp
  | ok a =>
    show f a = .error e ↔ _
    simp

namespace Settings

/-! ## §2. Required settings. -/

/-- There is a text with a character that is not white space. -/
def HasText (value : Option String) : Prop := ∃ text, value = some text ∧ Text.IsNonblank text

variable {f : Field} {value : Option String}

/-- **A setting with a text** is taken without the white space at its ends. -/
theorem required_of_hasText (h : HasText value) :
    ∃ t, required f value = .ok t ∧ Text.IsTrimmed t := by
  obtain ⟨text, rfl, htext⟩ := h
  have htrimmed := Text.isTrimmed_trim htext
  refine ⟨Text.trim text, ?_, htrimmed⟩
  show (if (Text.trim text).isEmpty then _ else _) = _
  rw [if_neg (mt String.isEmpty_iff.mp htrimmed.ne_empty)]

/-- **A setting without a text** is missing, whether there is none or only white space. -/
theorem required_of_not_hasText (h : ¬ HasText value) : required f value = .error (missing f) := by
  cases value with
  | none => rfl
  | some text =>
    have hblank : Text.isBlankText text = true := by
      rw [← Bool.not_eq_false, Text.isBlankText_eq_false_iff]
      exact fun htext => h ⟨text, rfl, htext⟩
    show (if (Text.trim text).isEmpty then _ else _) = _
    rw [if_pos (String.isEmpty_iff.mpr (Text.trim_eq_empty_iff.mpr hblank))]

theorem exists_required_iff : (∃ t, required f value = .ok t) ↔ HasText value := by
  by_cases h : HasText value
  · obtain ⟨t, ht, -⟩ := required_of_hasText (f := f) h
    exact ⟨fun _ => h, fun _ => ⟨t, ht⟩⟩
  · rw [required_of_not_hasText h]
    exact ⟨nofun, fun h' => absurd h' h⟩

theorem isTrimmed_of_required {t : String} (h : required f value = .ok t) : Text.IsTrimmed t := by
  obtain ⟨t', ht', htrimmed⟩ := required_of_hasText (exists_required_iff.mp ⟨t, h⟩)
  rw [h] at ht'
  rw [Except.ok.inj ht']
  exact htrimmed

theorem required_eq_error_iff {e : Error} :
    required f value = .error e ↔ ¬ HasText value ∧ e = missing f := by
  by_cases h : HasText value
  · obtain ⟨t, ht, -⟩ := required_of_hasText (f := f) h
    simp [ht, h]
  · simp [required_of_not_hasText h, h, eq_comm]

theorem positive_eq_ok_iff {n : Nat} {u : Unit} : positive f n = .ok u ↔ 0 < n := by
  unfold positive
  split
  · next h => simp [h]
  · next h => simp [Nat.pos_of_ne_zero h]

/-! ## §3. The checks of settings. -/

variable {s : Settings} {e : Error}

theorem exists_store_iff : (∃ t, s.store = .ok t) ↔ HasText s.address ∧ HasText s.database := by
  simp only [store, bind_eq_ok_iff]
  rw [← exists_required_iff (f := .address), ← exists_required_iff (f := .database)]
  constructor
  · rintro ⟨t, a, ha, d, hd, -⟩
    exact ⟨⟨a, ha⟩, d, hd⟩
  · rintro ⟨⟨a, ha⟩, d, hd⟩
    exact ⟨_, a, ha, d, hd, rfl⟩

/-- What the settings of the store take over. -/
theorem isTrimmed_of_store {t : StoreSettings} (h : s.store = .ok t) :
    Text.IsTrimmed t.address ∧ Text.IsTrimmed t.database := by
  simp only [store, bind_eq_ok_iff] at h
  obtain ⟨a, ha, d, hd, ht⟩ := h
  cases ht
  exact ⟨isTrimmed_of_required ha, isTrimmed_of_required hd⟩

theorem missing_address : missing .address = .config
    "missing required setting mongodb_uri (env TAUTH_MONGODB_URI)" (some "mongodb_uri") := by
  decide +kernel

theorem missing_database : missing .database = .config
    "missing required setting mongodb_dbname (env TAUTH_MONGODB_DBNAME)"
    (some "mongodb_dbname") := by
  decide +kernel

/-- **What the settings of the store lack**: the address counts first. -/
theorem store_eq_error_iff : s.store = .error e ↔
    ¬ HasText s.address ∧ e = missing .address ∨
      HasText s.address ∧ ¬ HasText s.database ∧ e = missing .database := by
  have hlast : ∀ a d, (pure ⟨a, d, s.appName, s.connectTimeout⟩ : Except Error StoreSettings)
      ≠ .error e := fun _ _ => nofun
  simp only [store, bind_eq_error_iff, required_eq_error_iff, hlast, and_false, exists_false,
    or_false, exists_and_right, exists_required_iff]

/-- **When all settings are fit for a start.** -/
theorem validate_eq_ok_iff : s.validate = .ok () ↔ HasText s.address ∧ HasText s.database ∧
    0 < s.connectTimeout ∧ 0 < s.queryTimeout ∧ 0 < s.maxDocuments := by
  simp only [validate, bind_eq_ok_iff, positive_eq_ok_iff, exists_and_right, exists_required_iff,
    exists_const]

/-- What the settings of the store lack, the check of all settings reports alike. -/
theorem validate_of_store_error (h : s.store = .error e) : s.validate = .error e := by
  simp only [store, bind_eq_error_iff] at h
  simp only [validate, bind_eq_error_iff]
  rcases h with h | ⟨a, ha, h | ⟨d, hd, h⟩⟩
  · exact Or.inl h
  · exact Or.inr ⟨a, ha, Or.inl h⟩
  · cases h

end Settings

/-! ## §4. Attempts to connect. -/

namespace Connector

variable {κ : Type} {c : Connector κ} {e : Error}

/-- A text that was taken from settings is not called blank. -/
theorem require_of_isTrimmed {key value : String} (h : Text.IsTrimmed value) :
    require key value = .ok () := by
  rw [require, Text.isBlankText_eq_false_iff.mpr h.isNonblank]
  rfl

theorem category_of_requireUnconnected (h : c.requireUnconnected = .error e) :
    e.category = "connection" := by
  unfold requireUnconnected at h
  split at h
  · cases h
    rfl
  · cases h

theorem category_of_install {new : Connection κ} (h : (c.install new).1 = .error e) :
    e.category = "connection" := by
  unfold install at h
  split at h
  · cases h
    rfl
  · cases h

theorem category_of_connect {database : String} (hdatabase : Text.IsTrimmed database) {store : κ}
    {ping : String → Except StoreError Unit} (h : (c.connect store ping database).1 = .error e) :
    e.category = "connection" := by
  simp only [connect, permit, require_of_isTrimmed hdatabase] at h
  cases hfree : c.requireUnconnected with
  | error e' =>
    rw [hfree] at h
    cases h
    exact category_of_requireUnconnected hfree
  | ok u =>
    simp only [hfree] at h
    cases hping : ping database with
    | error cause =>
      rw [hping] at h
      cases h
      rfl
    | ok u =>
      rw [hping] at h
      exact category_of_install h

/-- **An attempt with texts that are not blank** fails for reasons of the connection only. -/
theorem category_of_connectTo {address database : String} (haddress : Text.IsTrimmed address)
    (hdatabase : Text.IsTrimmed database)
    {client : String → Option (κ × (String → Except StoreError Unit))}
    (h : (c.connectTo client address database).1 = .error e) : e.category = "connection" := by
  simp only [connectTo, permit, require_of_isTrimmed haddress,
    require_of_isTrimmed hdatabase] at h
  cases hfree : c.requireUnconnected with
  | error e' =>
    rw [hfree] at h
    cases h
    exact category_of_requireUnconnected hfree
  | ok u =>
    simp only [hfree] at h
    cases hclient : client address with
    | none =>
      rw [hclient] at h
      cases h
      rfl
    | some made =>
      rw [hclient] at h
      exact category_of_connect hdatabase h

/-- No turn of an attempt ends it with an error of settings. -/
theorem category_of_advance {wanted : Connection κ} (hdatabase : Text.IsTrimmed wanted.database)
    {ping : Except StoreError Unit} {stage : Stage κ}
    (h : (c.advance wanted ping stage).1 = .finished (.error e)) :
    stage = .finished (.error e) ∨ e.category ≠ "config" := by
  cases stage with
  | begun =>
    rw [advance, require_of_isTrimmed hdatabase] at h
    cases h
  | named =>
    rw [advance] at h
    cases hfree : c.requireUnconnected with
    | error e' =>
      rw [hfree] at h
      cases h
      rw [category_of_requireUnconnected hfree]
      exact Or.inr (by decide)
    | ok u =>
      rw [hfree] at h
      cases h
  | permitted =>
    cases ping with
    | error cause =>
      cases h
      exact Or.inr (by decide : ("connection" : String) ≠ "config")
    | ok u => cases h
  | alive =>
    rw [advance] at h
    rcases hinstall : c.install wanted with ⟨e' | new, c'⟩
    · have hrefused : (c.install wanted).1 = .error e' := by rw [hinstall]
      rw [hinstall] at h
      cases h
      rw [category_of_install hrefused]
      exact Or.inr (by decide)
    · rw [hinstall] at h
      cases h
  | installed =>
    rw [advance] at h
    cases hconnection : c.connection with
    | none =>
      rw [hconnection] at h
      cases h
      exact Or.inr (by decide : ("internal" : String) ≠ "config")
    | some o =>
      rw [hconnection] at h
      cases h
  | finished result =>
    left
    exact h

end Connector

/-- **Among any number of attempts** none fails for its settings. -/
theorem Contest.category_of_finished {κ ι : Type} [DecidableEq ι] {wanted : ι → Connection κ}
    {moves : List (Move ι)} {i : ι} {e : Error} (hdatabase : Text.IsTrimmed (wanted i).database)
    (h : (after wanted moves).stage i = .finished (.error e)) : e.category ≠ "config" := by
  induction moves using List.reverseRecOn with
  | nil => cases h
  | append_singleton moves m ih =>
    rw [after_concat] at h
    by_cases hturn : i = m.who
    · subst hturn
      rw [step_stage_self] at h
      exact (Connector.category_of_advance hdatabase h).elim ih id
    · rw [step_stage_of_ne _ hturn] at h
      exact ih h

/-! ## §5. All checks together. -/

/-- **The checks of a start agree.**  The settings of the store can be had exactly if the address
and the database have a character that is not white space; otherwise the first that has none is
reported, and the check of all settings reports the same error.  That check passes exactly if the
settings of the store can be had and all limits are positive.  What is in the settings of the store
has no white space at its ends and passes the checks of an attempt to connect, so such an attempt
fails for reasons of the connection only; and when it is under way among others, whatever the order
of their turns, it does not fail for its settings either. -/
theorem Settings.startup_checks_agree (s : Settings) :
    ((∃ t, s.store = .ok t) ↔ HasText s.address ∧ HasText s.database) ∧
    (∀ e, s.store = .error e ↔
      ¬ HasText s.address ∧ e = .config
        "missing required setting mongodb_uri (env TAUTH_MONGODB_URI)" (some "mongodb_uri") ∨
      HasText s.address ∧ ¬ HasText s.database ∧ e = .config
        "missing required setting mongodb_dbname (env TAUTH_MONGODB_DBNAME)"
        (some "mongodb_dbname")) ∧
    (∀ e, s.store = .error e → s.validate = .error e) ∧
    (s.validate = .ok () ↔ (∃ t, s.store = .ok t) ∧
      0 < s.connectTimeout ∧ 0 < s.limits.timeout ∧ 0 < s.limits.maxDocuments) ∧
    ∀ t, s.store = .ok t → Text.IsTrimmed t.address ∧ Text.IsTrimmed t.database ∧
      Connector.require "mongodb_uri" t.address = .ok () ∧
      Connector.require "mongodb_dbname" t.database = .ok () ∧
      (∀ {κ : Type} (c : Connector κ)
        (client : String → Option (κ × (String → Except StoreError Unit))) e,
        (c.connectTo client t.address t.database).1 = .error e → e.category = "connection") ∧
      ∀ {κ ι : Type} [DecidableEq ι] (wanted : ι → Connection κ) (moves : List (Move ι)) i e,
        (wanted i).database = t.database →
        (Contest.after wanted moves).stage i = .finished (.error e) → e.category ≠ "config" := by
  rw [← missing_address, ← missing_database]
  refine ⟨exists_store_iff, fun e => store_eq_error_iff, fun e => validate_of_store_error, ?_, ?_⟩
  · rw [validate_eq_ok_iff, exists_store_iff, and_assoc]
    rfl
  · intro t ht
    obtain ⟨haddress, hdatabase⟩ := isTrimmed_of_store ht
    refine ⟨haddress, hdatabase, Connector.require_of_isTrimmed haddress,
      Connector.require_of_isTrimmed hdatabase, ?_, ?_⟩
    · intro κ c client e h
      exact Connector.category_of_connectTo haddress hdatabase h
    · intro κ ι _ wanted moves i e hwanted h
      exact Contest.category_of_finished (hwanted ▸ hdatabase) h

end PolicyLookup

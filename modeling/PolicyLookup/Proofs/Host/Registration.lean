/-
  PolicyLookup.Proofs.Host.Registration — the functions of a host and what its engine knows of them.

  A host keeps the functions that it has installed, and its engine keeps their names with their
  numbers of arguments.  Both lists grow together and by nothing but a registration that succeeds:
  at every moment the engine has the names of the host's functions, each once, and all of them are
  valid.  So the checks that a host makes itself are enough.  That a number of arguments is too
  large for the engine, or that the engine refuses a name, comes too late to happen.

    * `Policy.Engine.addExtension_eq_none_iff` — the engine refuses the names that it has.
    * `Consistent` — how the two lists belong together; every operation keeps it.
    * `register_cases` — what a registration does.
    * `functions_performAll` — the functions of a host are those that it has accepted.
    * `registration_consistent` — hosts after any history.
-/

import PolicyLookup.Proofs.Host.Operations
import PolicyLookup.Proofs.Signature

namespace PolicyLookup

/-! ## §1. The engine's list. -/

namespace Policy.Engine

variable {e : Engine} {name : String}

/-- **The engine refuses the names that it has**, and no others. -/
theorem addExtension_eq_none_iff (arity : Nat) :
    e.addExtension name arity = none ↔ name ∈ e.extensions.map Prod.fst := by
  unfold addExtension extension?
  cases hfind : e.extensions.find? fun x => x.1 == name with
  | none =>
    rw [List.find?_eq_none] at hfind
    refine ⟨nofun, fun hmem => ?_⟩
    obtain ⟨x, hx, rfl⟩ := List.mem_map.mp hmem
    exact absurd (beq_self_eq_true x.1) (hfind x hx)
  | some x =>
    have hname : x.1 = name := by simpa using List.find?_some hfind
    exact ⟨fun _ => List.mem_map.mpr ⟨x, List.mem_of_find?_eq_some hfind, hname⟩, fun _ => rfl⟩

theorem addExtension_of_notMem (h : name ∉ e.extensions.map Prod.fst) (arity : Nat) :
    e.addExtension name arity
      = some { e with extensions := e.extensions ++ [(name, arity)] } := by
  have hnone : e.extension? name = none := by
    unfold extension?
    rw [Option.map_eq_none_iff, List.find?_eq_none]
    intro x hx heq
    exact h (List.mem_map.mpr ⟨x, hx, by simpa using heq⟩)
  rw [addExtension, hnone]

theorem extensions_addData (document : Term) :
    (e.addData document).2.extensions = e.extensions := by
  cases document <;> rfl

end Policy.Engine

namespace Host

variable {σ : Type}

/-! ## §2. One registration. -/

/-- The names of the installed functions. -/
def names (h : Host σ) : List String := h.signatures.map Signature.name

/-- The functions of a host and the list of its engine belong together. -/
structure Consistent (h : Host σ) : Prop where
  valid : ∀ s ∈ h.signatures, s.validate = .ok ()
  nodup : h.names.Nodup
  extensions : h.engine.extensions = h.signatures.map fun s => (s.name, s.args.length)

/-- The host with one more function. -/
def install (h : Host σ) (f : ExternalFunction σ) : Host σ :=
  { h with
    functions := h.functions ++ [f]
    engine := { h.engine with
      extensions := h.engine.extensions ++ [(f.signature.name, f.signature.args.length)] } }

variable {h : Host σ} {f : ExternalFunction σ}

theorem any_name_iff {name : String} :
    (h.functions.any fun g => g.signature.name == name) = true ↔ name ∈ h.names := by
  simp [names, signatures]

theorem Consistent.map_fst_extensions (hc : h.Consistent) :
    h.engine.extensions.map Prod.fst = h.names := by
  rw [hc.extensions, List.map_map]
  rfl

/-- **What a registration does**: it fails as the declaration does, or because the name is taken,
and installs the function otherwise. -/
theorem register_cases (hc : h.Consistent) (f : ExternalFunction σ) :
    (∃ e, f.signature.validate = .error e ∧ h.register f = (.error e, h)) ∨
    (f.signature.validate = .ok () ∧ f.signature.name ∈ h.names ∧
      h.register f = (.error (alreadyRegistered f.signature.name), h)) ∨
    (f.signature.validate = .ok () ∧ f.signature.name ∉ h.names ∧
      h.register f = (.ok (), h.install f)) := by
  unfold register
  cases hvalid : f.signature.validate with
  | error e => exact .inl ⟨e, rfl, rfl⟩
  | ok u =>
    right
    by_cases htaken : f.signature.name ∈ h.names
    · refine .inl ⟨rfl, htaken, ?_⟩
      simp only [any_name_iff.mpr htaken, if_true]
    · -- Both of the late checks pass, since the engine has the names of the host.
      have harity : ¬ Signature.maxArity < f.signature.arity :=
        Nat.not_lt.mpr (Signature.validate_eq_ok_iff.mp hvalid).2
      have hnew : f.signature.name ∉ h.engine.extensions.map Prod.fst := by
        rwa [hc.map_fst_extensions]
      refine .inr ⟨rfl, htaken, ?_⟩
      simp only [mt any_name_iff.mp htaken, harity, if_false,
        Policy.Engine.addExtension_of_notMem hnew]
      rfl

theorem register_eq_ok_iff (hc : h.Consistent) : (h.register f).1 = .ok () ↔
    f.signature.validate = .ok () ∧ f.signature.name ∉ h.names := by
  rcases register_cases hc f with ⟨e, hinvalid, hr⟩ | ⟨-, htaken, hr⟩ | ⟨hvalid, hnew, hr⟩
  · simp [hr, hinvalid]
  · simp [hr, htaken]
  · simp [hr, hvalid, hnew]

theorem register_of_ok (hc : h.Consistent) (hok : (h.register f).1 = .ok ()) :
    h.register f = (.ok (), h.install f) := by
  rcases register_cases hc f with ⟨e, -, hr⟩ | ⟨-, -, hr⟩ | ⟨-, -, hr⟩
  · rw [hr] at hok
    cases hok
  · rw [hr] at hok
    cases hok
  · exact hr

/-- **A refused function leaves no trace**, and the reason is one that the host finds itself. -/
theorem register_of_error (hc : h.Consistent) {e : Error} (herror : (h.register f).1 = .error e) :
    (h.register f).2 = h ∧ (f.signature.validate = .error e ∨ f.signature.validate = .ok () ∧
      f.signature.name ∈ h.names ∧ e = alreadyRegistered f.signature.name) := by
  rcases register_cases hc f with ⟨e', hinvalid, hr⟩ | ⟨hvalid, htaken, hr⟩ | ⟨-, -, hr⟩
  · rw [hr] at herror ⊢
    cases herror
    exact ⟨rfl, .inl hinvalid⟩
  · rw [hr] at herror ⊢
    cases herror
    exact ⟨rfl, .inr ⟨hvalid, htaken, rfl⟩⟩
  · rw [hr] at herror
    cases herror

/-- The engine never gets more arguments than it can count. -/
theorem register_ne_arityTooLarge (hc : h.Consistent) (name : String) :
    (h.register f).1 ≠ .error (arityTooLarge name) := by
  intro herror
  rcases (register_of_error hc herror).2 with hinvalid | ⟨-, -, htaken⟩
  · rcases Signature.validate_eq_error_iff.mp hinvalid with ⟨-, hname⟩ | ⟨-, -, hmany⟩
    · simp [arityTooLarge, Signature.badName] at hname
    · -- A declaration with too many arguments is told how many they are.
      have hlength := congrArg (fun e : Error => e.detail.length) hmany
      simp only [arityTooLarge, Signature.tooManyArguments, Error.detail,
        String.length_append] at hlength
      have hlengths : "too many arguments".length = 18 ∧ "too many arguments (".length = 20 := by
        decide
      omega
  · simp [arityTooLarge, alreadyRegistered] at htaken

/-- The engine never gets a name that it has. -/
theorem register_ne_engineRefused (hc : h.Consistent) (name : String) :
    (h.register f).1 ≠ .error (engineRefused name) := by
  intro herror
  rcases (register_of_error hc herror).2 with hinvalid | ⟨-, -, htaken⟩
  · rcases Signature.validate_eq_error_iff.mp hinvalid with ⟨-, hname⟩ | ⟨-, -, hmany⟩
    · simp [engineRefused, Signature.badName] at hname
    · have hletter := congrArg (fun e : Error => e.detail.toList[1]?) hmany
      simp [engineRefused, Signature.tooManyArguments, Error.detail] at hletter
  · simp [engineRefused, alreadyRegistered] at htaken

/-- A new function with a valid declaration fits in. -/
theorem consistent_install (hc : h.Consistent) (hvalid : f.signature.validate = .ok ())
    (hnew : f.signature.name ∉ h.names) : (h.install f).Consistent where
  valid := by
    intro s hs
    obtain ⟨g, hg, rfl⟩ := List.mem_map.mp hs
    rcases List.mem_append.mp hg with hg | hg
    · exact hc.valid _ (List.mem_map.mpr ⟨g, hg, rfl⟩)
    · rw [List.mem_singleton.mp hg]
      exact hvalid
  nodup := by
    have happend : (h.install f).names = h.names ++ [f.signature.name] := by
      simp [names, signatures, install]
    rw [happend]
    refine List.nodup_append.mpr ⟨hc.nodup, List.pairwise_singleton _ _, ?_⟩
    rintro name hname _ hlast rfl
    rw [List.mem_singleton.mp hlast] at hname
    exact hnew hname
  extensions := by
    simp [install, signatures, hc.extensions]

theorem consistent_register (hc : h.Consistent) (f : ExternalFunction σ) :
    (h.register f).2.Consistent := by
  rcases register_cases hc f with ⟨e, -, hr⟩ | ⟨-, -, hr⟩ | ⟨hvalid, hnew, hr⟩
  · rw [hr]
    exact hc
  · rw [hr]
    exact hc
  · rw [hr]
    exact consistent_install hc hvalid hnew

/-! ## §3. Whole histories. -/

/-- The function that an operation installs, if it does. -/
def accepts (h : Host σ) : Operation σ → List (ExternalFunction σ)
  | .register f =>
    match (h.register f).1 with
    | .ok () => [f]
    | .error _ => []
  | _ => []

/-- The functions that operations install, one after the other. -/
def accepted : Host σ → List (Operation σ) → List (ExternalFunction σ)
  | _, [] => []
  | h, op :: rest => h.accepts op ++ accepted (h.perform op) rest

/-- Operations other than registrations leave both lists alone. -/
theorem lists_perform (op : Operation σ) (hop : ∀ f, op ≠ .register f) :
    (h.perform op).functions = h.functions ∧
      (h.perform op).engine.extensions = h.engine.extensions := by
  cases op with
  | register f => exact absurd rfl (hop f)
  | addPolicy path source => cases source <;> exact ⟨rfl, rfl⟩
  | addPolicyFile path file =>
    rcases file with _ | source
    · exact ⟨rfl, rfl⟩
    · cases source <;> exact ⟨rfl, rfl⟩
  | addData text =>
    simp only [perform, addData]
    cases Json.ofText? text with
    | none => exact ⟨rfl, rfl⟩
    | some document =>
      have hextensions := Policy.Engine.extensions_addData (e := h.engine) (.ofJson document)
      dsimp only
      rcases hdata : h.engine.addData (Term.ofJson document) with ⟨_ | _, engine⟩
      · rw [hdata] at hextensions
        exact ⟨rfl, hextensions⟩
      · rw [hdata] at hextensions
        exact ⟨rfl, hextensions⟩
  | setInput text =>
    simp only [perform, setInput]
    cases Json.ofText? text <;> exact ⟨rfl, rfl⟩
  | evaluate signal thread script w => exact ⟨rfl, rfl⟩

theorem consistent_perform (hc : h.Consistent) (op : Operation σ) :
    (h.perform op).Consistent := by
  by_cases hop : ∃ f, op = .register f
  · obtain ⟨f, rfl⟩ := hop
    exact consistent_register hc f
  · obtain ⟨hfunctions, hextensions⟩ := lists_perform (h := h) op (not_exists.mp hop)
    have hsignatures : (h.perform op).signatures = h.signatures := by
      rw [signatures, hfunctions, signatures]
    exact ⟨hsignatures ▸ hc.valid, by rw [names, hsignatures]; exact hc.nodup,
      by rw [hextensions, hsignatures]; exact hc.extensions⟩

theorem consistent_new (site : CallSite σ) : (Host.new site).Consistent :=
  ⟨nofun, List.nodup_nil, rfl⟩

/-- Whatever is done with a host, its two lists belong together. -/
theorem consistent_performAll (hc : h.Consistent) (ops : List (Operation σ)) :
    (h.performAll ops).Consistent := by
  induction ops generalizing h with
  | nil => exact hc
  | cons op rest ih => exact ih (consistent_perform hc op)

theorem functions_perform (hc : h.Consistent) (op : Operation σ) :
    (h.perform op).functions = h.functions ++ h.accepts op := by
  by_cases hop : ∃ f, op = .register f
  · obtain ⟨f, rfl⟩ := hop
    rw [perform, accepts]
    rcases register_cases hc f with ⟨e, -, hr⟩ | ⟨-, -, hr⟩ | ⟨-, -, hr⟩
    · simp [hr]
    · simp [hr]
    · simp [hr, install]
  · have hnone : h.accepts op = [] := by
      cases op with
      | register f => exact absurd ⟨f, rfl⟩ hop
      | _ => rfl
    rw [(lists_perform op (not_exists.mp hop)).1, hnone, List.append_nil]

/-- **The functions of a host are those that it has accepted**, in their order. -/
theorem functions_performAll (hc : h.Consistent) (ops : List (Operation σ)) :
    (h.performAll ops).functions = h.functions ++ accepted h ops := by
  induction ops generalizing h with
  | nil => exact (List.append_nil _).symm
  | cons op rest ih =>
    show ((h.perform op).performAll rest).functions = _
    rw [ih (consistent_perform hc op), functions_perform hc op, accepted, List.append_assoc]

/-- **Registration keeps a host consistent.**  After any history of a host, in which functions with
arbitrary declarations have been offered to it, its functions are those that it has accepted, in
their order; their names are distinct and valid, none of them has more than 255 arguments, and the
engine knows just these names with just these numbers of arguments.  A further function `f` is
accepted exactly if its declaration is valid and its name is new, and then both lists grow by it.
Otherwise nothing changes, and the reason is the first of these that applies: the name is not one,
there are too many arguments, the name is taken.  Neither does the number of arguments exceed what
the engine can count, nor does the engine refuse a name that the host lets pass. -/
theorem registration_consistent (site : CallSite σ) (ops : List (Operation σ))
    (f : ExternalFunction σ) :
    let h := (Host.new site).performAll ops
    let s := f.signature
    h.functions = accepted (Host.new site) ops ∧
    h.names.Nodup ∧
    (∀ g ∈ h.signatures, Signature.IsDotted g.name ∧ g.args.length ≤ 255) ∧
    h.engine.extensions = h.signatures.map (fun g => (g.name, g.args.length)) ∧
    ((h.register f).1 = .ok () ↔
      Signature.IsDotted s.name ∧ s.args.length ≤ 255 ∧ s.name ∉ h.names) ∧
    ((h.register f).1 = .ok () → (h.register f).2.functions = h.functions ++ [f] ∧
      (h.register f).2.engine.extensions = h.engine.extensions ++ [(s.name, s.args.length)]) ∧
    (∀ e, (h.register f).1 = .error e → (h.register f).2 = h ∧
      (¬ Signature.IsDotted s.name ∧ e = Signature.badName s.name ∨
       Signature.IsDotted s.name ∧ 255 < s.args.length ∧ e = s.tooManyArguments ∨
       (Signature.IsDotted s.name ∧ s.args.length ≤ 255) ∧ s.name ∈ h.names ∧
        e = .registration "already registered" s.name)) ∧
    (∀ name, (h.register f).1 ≠ .error (.registration "too many arguments" name)) ∧
    (∀ name, (h.register f).1 ≠ .error (engineRefused name)) ∧
    (h.engine.addExtension s.name s.arity = none ↔ s.name ∈ h.names) := by
  intro h s
  have hc : h.Consistent := consistent_performAll (consistent_new site) ops
  have hengine : h.engine.addExtension s.name s.arity = none ↔ s.name ∈ h.names := by
    rw [Policy.Engine.addExtension_eq_none_iff, hc.map_fst_extensions]
  refine ⟨functions_performAll (consistent_new site) ops, hc.nodup,
    fun g hg => Signature.validate_eq_ok_iff.mp (hc.valid g hg), hc.extensions,
    by rw [register_eq_ok_iff hc, Signature.validate_eq_ok_iff, and_assoc], ?_, ?_,
    fun name => register_ne_arityTooLarge hc name, fun name => register_ne_engineRefused hc name,
    hengine⟩
  · intro hok
    rw [register_of_ok hc hok]
    exact ⟨rfl, rfl⟩
  · intro e herror
    obtain ⟨hsame, hreason⟩ := register_of_error hc herror
    rw [Signature.validate_eq_error_iff, Signature.validate_eq_ok_iff, or_assoc] at hreason
    exact ⟨hsame, hreason⟩

end Host

end PolicyLookup

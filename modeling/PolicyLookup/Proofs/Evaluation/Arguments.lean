/-
  PolicyLookup.Proofs.Evaluation.Arguments — what the terms of a call decode to, and its key.

  A key is made from the text of the arguments, which exists only if no double among them is
  infinite or a NaN.  Terms have no doubles but numbers in their range; a double that is decoded
  from a term has been found by rounding, which never brings one of these.  So every call whose
  terms decode has a key, and with a digest that does not confuse the calls of an evaluation two
  of them have the same key exactly if they are the same call.

    * `isFinite_of_toValue` — what a term decodes to has finite doubles only.
    * `exists_ofCall_of_arguments` — decoded arguments have a key.
    * `CollisionFree.eq_of_ofCall_eq` — equal keys come from equal calls.
-/

import PolicyLookup.Proofs.Evaluation.CallKey
import PolicyLookup.Proofs.Evaluation.History
import PolicyLookup.Proofs.Number.Nearest
import PolicyLookup.Proofs.Term.Native
import PolicyLookup.Proofs.Value.Places

namespace PolicyLookup

/-! ## §1. Doubles that come from terms. -/

namespace Term

/-- What a number decodes to is an integer or a finite double. -/
theorem isFinite_of_numberToValue {q : Rat} {v : Value} (h : numberToValue q = .ok v) :
    ∀ x ∈ v.floats, x.isFinite = true := by
  rcases numberToValue_spec q with ⟨n, -, hq⟩ | ⟨n, -, -, -, hq⟩ | ⟨x, -, hx, hq⟩ | ⟨-, -, hq⟩
  · obtain rfl := Except.ok.inj (hq.symm.trans h)
    exact nofun
  · cases hq.symm.trans h
  · obtain rfl := Except.ok.inj (hq.symm.trans h)
    intro y hy
    obtain rfl := List.mem_singleton.mp hy
    exact Binary64.isFinite_of_ofRat? hx
  · cases hq.symm.trans h

mutual

/-- **What a term decodes to has finite doubles only.** -/
theorem isFinite_of_toValue : ∀ (t : Term) {v : Value}, t.toValue = .ok v →
    ∀ x ∈ v.floats, x.isFinite = true
  | .null, _, h => by cases h; exact nofun
  | .bool _, _, h => by cases h; exact nofun
  | .num _, _, h => isFinite_of_numberToValue h
  | .str _, _, h => by cases h; exact nofun
  | .arr items, _, h => by
    obtain ⟨vs, hvs, rfl⟩ := exists_of_map_eq_ok h
    exact isFinite_of_toValues items hvs
  | .set items, _, h => by
    obtain ⟨vs, hvs, rfl⟩ := exists_of_map_eq_ok h
    exact isFinite_of_toValues items hvs
  | .obj pairs, _, h => by
    obtain ⟨entries, hentries, rfl⟩ := exists_of_map_eq_ok h
    intro x hx
    obtain ⟨e, he, hxe⟩ := Value.mem_entriesFloats.mp hx
    exact isFinite_of_toEntries pairs hentries x
      (Value.mem_entriesFloats.mpr ⟨e, Keyed.mem_of_mem_ofList he, hxe⟩)
  | .undefined, _, h => by cases h

theorem isFinite_of_toValues : ∀ (terms : List Term) {vs : List Value},
    toValues terms = .ok vs → ∀ x ∈ Value.itemsFloats vs, x.isFinite = true
  | [], _, h => by cases h; exact nofun
  | t :: rest, _, h => by
    rw [toValues] at h
    split at h
    · cases h
    · next v hv =>
      obtain ⟨vs, hvs, rfl⟩ := exists_of_map_eq_ok h
      intro x hx
      rcases List.mem_append.mp hx with hx | hx
      · exact isFinite_of_toValue t hv x hx
      · exact isFinite_of_toValues rest hvs x hx

theorem isFinite_of_toEntries : ∀ (pairs : List (Term × Term)) {entries : List (String × Value)},
    toEntries pairs = .ok entries → ∀ x ∈ Value.entriesFloats entries, x.isFinite = true
  | [], _, h => by cases h; exact nofun
  | (k, t) :: rest, _, h => by
    unfold toEntries at h
    split at h
    · split at h
      · cases h
      · next v hv =>
        obtain ⟨entries, hentries, rfl⟩ := exists_of_map_eq_ok h
        intro x hx
        rcases List.mem_append.mp hx with hx | hx
        · exact isFinite_of_toValue t hv x hx
        · exact isFinite_of_toEntries rest hentries x hx
    · cases h

end

end Term

namespace CallSite

theorem decodeArgs_cons_eq_ok {position : Nat} {t : Term} {terms : List Term} {shape : Shape}
    {shapes : List Shape} {args : List Value}
    (h : decodeArgs position (t :: terms) (shape :: shapes) = .ok args) :
    ∃ v rest, args = v :: rest ∧ t.toValue = .ok v ∧ shape.accepts v = true
      ∧ decodeArgs (position + 1) terms shapes = .ok rest := by
  rw [decodeArgs] at h
  split at h
  · cases h
  · next v hv =>
    obtain ⟨rest, hrest, rfl⟩ := exists_of_map_eq_ok h
    obtain ⟨hvalue, haccepts⟩ := Term.decodeArgument_eq_ok_iff.mp hv
    exact ⟨v, rest, rfl, hvalue, haccepts, hrest⟩

theorem isFinite_of_decodeArgs : ∀ (position : Nat) (terms : List Term) (shapes : List Shape)
    {args : List Value}, decodeArgs position terms shapes = .ok args →
      ∀ v ∈ args, ∀ x ∈ v.floats, x.isFinite = true
  | _, [], _, _, h => by
    rw [decodeArgs] at h
    · cases h
      exact nofun
    · exact nofun
  | _, _ :: _, [], _, h => by
    rw [decodeArgs] at h
    · cases h
      exact nofun
    · exact nofun
  | position, t :: terms, _ :: shapes, _, h => by
    obtain ⟨v, rest, rfl, hvalue, -, hrest⟩ := decodeArgs_cons_eq_ok h
    intro u hu
    rcases List.mem_cons.mp hu with rfl | hu
    · exact Term.isFinite_of_toValue t hvalue
    · exact isFinite_of_decodeArgs (position + 1) terms shapes hrest u hu

end CallSite

/-! ## §2. Keys of decoded arguments. -/

namespace CallKey

/-- Arguments with finite doubles have a key. -/
theorem exists_ofCall (digest : List UInt8 → String) (name : String) {args : List Value}
    (hfinite : ∀ v ∈ args, ∀ x ∈ v.floats, x.isFinite = true) :
    ∃ key, ofCall digest name args = .ok key := by
  have hdocuments : ∃ js, args.mapM Value.encodeJson = .ok js := by
    induction args with
    | nil => exact ⟨[], rfl⟩
    | cons v rest ih =>
      obtain ⟨js, hjs⟩ := ih fun u hu => hfinite u (.tail _ hu)
      obtain ⟨j, hj⟩ := Value.exists_toJson (hfinite v (.head _))
      refine ⟨j :: js, ?_⟩
      rw [List.mapM_cons, hjs, Value.encodeJson, hj]
      rfl
  obtain ⟨js, hjs⟩ := hdocuments
  exact ⟨_, by rw [ofCall, message, hjs]; rfl⟩

/-- **Decoded arguments have a key.** -/
theorem exists_ofCall_of_arguments (digest : List UInt8 → String) (name : String) {f : Signature}
    {terms : List Term} {args : List Value} (h : CallSite.arguments f terms = .ok args) :
    ∃ key, ofCall digest name args = .ok key := by
  unfold CallSite.arguments at h
  split at h
  · cases h
  · exact exists_ofCall digest name (CallSite.isFinite_of_decodeArgs 1 terms f.args h)

theorem tellsApart_self (digest : List UInt8 → String) (f : String) (a : List Value) :
    TellsApart digest f a f a := by
  intro m n hm hn _
  rw [hm] at hn
  exact Except.ok.inj hn

theorem TellsApart.symm {digest : List UInt8 → String} {f g : String} {a b : List Value}
    (h : TellsApart digest f a g b) : TellsApart digest g b f a :=
  fun m n hm hn hkey => (h n m hn hm hkey.symm).symm

/-- Calls with different keys are told apart. -/
theorem tellsApart_of_ne {digest : List UInt8 → String} {f g : String} {a b : List Value}
    (h : (ofCall digest f a).toOption ≠ (ofCall digest g b).toOption) :
    TellsApart digest f a g b := by
  intro m n hm hn hkey
  unfold ofCall at h
  rw [hm, hn] at h
  exact absurd (congrArg some hkey) h

end CallKey

/-! ## §3. The calls of an evaluation. -/

/-- The digest confuses no two of some calls. -/
def CollisionFree {σ : Type} (digest : List UInt8 → String) (calls : List (Call σ)) : Prop :=
  ∀ c ∈ calls, ∀ d ∈ calls, ∀ a b, c.arguments = .ok a → d.arguments = .ok b →
    CallKey.TellsApart digest c.name a d.name b

/-- Where the digest confuses no two calls, equal keys come from equal calls. -/
theorem CollisionFree.eq_of_ofCall_eq {σ : Type} {digest : List UInt8 → String}
    {calls : List (Call σ)} (h : CollisionFree digest calls) {c d : Call σ} (hc : c ∈ calls)
    (hd : d ∈ calls) {a b : List Value} (ha : c.arguments = .ok a) (hb : d.arguments = .ok b)
    {key : String} (hkey : CallKey.ofCall digest c.name a = .ok key)
    (hkey' : CallKey.ofCall digest d.name b = .ok key) : c.name = d.name ∧ a = b := by
  obtain ⟨m, hm, hdigest⟩ := exists_of_map_eq_ok hkey
  obtain ⟨n, hn, hdigest'⟩ := exists_of_map_eq_ok hkey'
  obtain rfl : m = n := h c hc d hd a b ha hb m n hm hn (hdigest.symm.trans hdigest')
  exact CallKey.message_injective hm hn

/-- The calls of one function with one list of arguments or another, the keys of which differ. -/
theorem CollisionFree.of_two {σ : Type} {digest : List UInt8 → String} {calls : List (Call σ)}
    {name : String} {a b : List Value}
    (hcalls : ∀ c ∈ calls, c.name = name ∧ (c.arguments = .ok a ∨ c.arguments = .ok b))
    (hne : (CallKey.ofCall digest name a).toOption ≠ (CallKey.ofCall digest name b).toOption) :
    CollisionFree digest calls := by
  have hapart := CallKey.tellsApart_of_ne hne
  intro c hc d hd a' b' ha hb
  obtain ⟨hname, hargs⟩ := hcalls c hc
  obtain ⟨hname', hargs'⟩ := hcalls d hd
  rw [hname, hname']
  rcases hargs with hargs | hargs <;> rcases hargs' with hargs' | hargs' <;>
    cases ha.symm.trans hargs <;> cases hb.symm.trans hargs'
  · exact CallKey.tellsApart_self digest name a
  · exact hapart
  · exact hapart.symm
  · exact CallKey.tellsApart_self digest name b

end PolicyLookup

/-
  PolicyLookup.Proofs.Evaluation.CallKey — keys tell calls apart.

  The message of a call ends in the text of a document, which has no zero byte; so the last zero
  byte of a message shows where the function's name ends, even if the name has zero bytes itself.
  The text determines the arguments, whatever strings and however many levels there are in them.
  A digest that does not confuse two messages therefore does not confuse their calls.

    * `message_injective` — the message of a call determines the call.
    * `ofCall_eq_iff` — two calls have the same key exactly if they are the same call.
-/

import PolicyLookup.Evaluation.CallKey
import PolicyLookup.Proofs.Json.Printable
import PolicyLookup.Proofs.Text.Bytes
import PolicyLookup.Proofs.Value.Encoding
import PolicyLookup.Proofs.Value.Places

namespace PolicyLookup

namespace CallKey

/-! ## §1. Messages. -/

/-- Arguments that are encoded one by one are encoded as a sequence. -/
theorem itemsToJson_of_mapM {args : List Value} {js : List Json} (i : Nat)
    (h : args.mapM Value.encodeJson = .ok js) : Value.itemsToJson i args = .ok js := by
  have hdocuments : List.Forall₂ (fun v j => Value.toJson v = .ok j) args js :=
    (mapM_eq_ok_iff.mp h).imp fun _ _ hj => mapError_eq_ok_iff.mp hj
  rw [Value.itemsToJson_eq_mapM]
  exact (mapM_zipIdx_eq_ok_iff fun _ _ => mapError_eq_ok_iff).mpr hdocuments

/-- A message is the name, a zero byte, and a text without zero bytes. -/
theorem message_eq_ok {f : String} {args : List Value} {m : List UInt8}
    (h : message f args = .ok m) :
    ∃ js, Value.itemsToJson 0 args = .ok js
      ∧ m = f.toUTF8.toList ++ 0 :: (Json.arr js).compact.toUTF8.toList
      ∧ 0 ∉ (Json.arr js).compact.toUTF8.toList := by
  obtain ⟨js, hjs, rfl⟩ := exists_of_map_eq_ok h
  refine ⟨js, itemsToJson_of_mapM 0 hjs, rfl, ?_⟩
  apply Text.zero_notMem_toUTF8
  intro c hc
  have hprintable := Json.printable_chars (.arr js) c hc
  omega

/-- **The message of a call determines the call.** -/
theorem message_injective {f g : String} {a b : List Value} {m : List UInt8}
    (hf : message f a = .ok m) (hg : message g b = .ok m) : f = g ∧ a = b := by
  obtain ⟨js, hjs, hm, hzero⟩ := message_eq_ok hf
  obtain ⟨js', hjs', hm', hzero'⟩ := message_eq_ok hg
  -- The name may have zero bytes itself, so the message is split at its last one.
  obtain ⟨hname, htext⟩ := Text.split_at_last hzero hzero' (hm.symm.trans hm')
  have hchars : (Json.arr js).chars = (Json.arr js').chars :=
    String.ofList_injective (Text.toUTF8_injective htext)
  exact ⟨Text.toUTF8_injective hname, Value.itemsToJson_text_injective hjs hjs' hchars⟩

/-! ## §2. Keys. -/

/-- The digest tells the messages of two calls apart, if they are different. -/
def TellsApart (digest : List UInt8 → String) (f : String) (a : List Value) (g : String)
    (b : List Value) : Prop :=
  ∀ m n, message f a = .ok m → message g b = .ok n → digest m = digest n → m = n

/-- **Keys never confuse two calls.**  With a digest that tells their messages apart, two calls
that have keys have the same key exactly if they call the same function with the same arguments:
the same constructors, strings, names and integers, and the same doubles bit for bit. -/
theorem ofCall_eq_iff {digest : List UInt8 → String} {f g : String} {a b : List Value}
    {k l : String} (hdigest : TellsApart digest f a g b) (hf : ofCall digest f a = .ok k)
    (hg : ofCall digest g b = .ok l) : k = l ↔ f = g ∧ a = b := by
  obtain ⟨m, hm, rfl⟩ := exists_of_map_eq_ok hf
  obtain ⟨n, hn, rfl⟩ := exists_of_map_eq_ok hg
  constructor
  · intro hkey
    obtain rfl : m = n := hdigest m n hm hn hkey
    exact message_injective hm hn
  · rintro ⟨rfl, rfl⟩
    rw [hm] at hn
    rw [Except.ok.inj hn]

/-- The double one. -/
def one : Binary64 := .ofFields false 1023 0

/-- An integer and a double of the same size are different arguments. -/
theorem ofCall_eq_iff_one : ∃ k l, ofCall Digest.Blake3.hex "age" [.int 1] = .ok k
    ∧ ofCall Digest.Blake3.hex "age" [.float one] = .ok l ∧ k ≠ l := by
  have hok : ∀ args, (ofCall Digest.Blake3.hex "age" args).toOption.isSome = true →
      ∃ k, ofCall Digest.Blake3.hex "age" args = .ok k := by
    intro args h
    cases hk : ofCall Digest.Blake3.hex "age" args with
    | error e =>
      rw [hk] at h
      cases h
    | ok k => exact ⟨k, rfl⟩
  obtain ⟨k, hk⟩ := hok [.int 1] (by decide +kernel)
  obtain ⟨l, hl⟩ := hok [.float one] (by decide +kernel)
  have hdigest : TellsApart Digest.Blake3.hex "age" [.int 1] "age" [.float one] := by
    intro m n hm hn hkey
    -- These two messages need no assumption about the digest: their digests are computed.
    have hne : (ofCall Digest.Blake3.hex "age" [.int 1]).toOption
        ≠ (ofCall Digest.Blake3.hex "age" [.float one]).toOption := by decide +kernel
    unfold ofCall at hne
    rw [hm, hn] at hne
    exact absurd (congrArg some hkey) hne
  refine ⟨k, l, hk, hl, ?_⟩
  intro hkey
  obtain ⟨-, hargs⟩ := (ofCall_eq_iff hdigest hk hl).mp hkey
  cases (List.cons.inj hargs).1

end CallKey

end PolicyLookup

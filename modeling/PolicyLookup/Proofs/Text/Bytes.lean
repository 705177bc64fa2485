/-
  PolicyLookup.Proofs.Text.Bytes — texts as bytes.

  The bytes of a text determine the text, and a zero byte stands for the character zero and for
  nothing else: the bytes of every other character are the code itself, if it is below 128, or
  have their highest bit set.  Texts of characters below 128 are therefore in the order of their
  bytes.
-/

namespace PolicyLookup

namespace Text

/-! ## §1. Bytes in an array and in a list. -/

/-- The bytes that are still to come are put behind those that have been seen. -/
theorem toList_loop (bytes : ByteArray) (i : Nat) (seen : List UInt8) :
    ByteArray.toList.loop bytes i seen = seen.reverse ++ bytes.data.toList.drop i := by
  fun_induction ByteArray.toList.loop bytes i seen with
  | case1 i seen h ih =>
    have hbyte : bytes.data.toList.drop i = bytes.get! i :: bytes.data.toList.drop (i + 1) := by
      have hlength : i < bytes.data.toList.length := h
      have hsize : i < bytes.data.size := h
      rw [List.drop_eq_getElem_cons hlength, ByteArray.get!, getElem!_pos bytes.data i hsize,
        Array.getElem_toList]
    rw [ih, hbyte, List.reverse_cons, List.append_assoc, List.singleton_append]
  | case2 i seen h =>
    have hlength : bytes.data.toList.length ≤ i := Nat.le_of_not_lt h
    rw [List.drop_eq_nil_of_le hlength, List.append_nil]

theorem toList_eq (bytes : ByteArray) : bytes.toList = bytes.data.toList :=
  toList_loop bytes 0 []

/-- **The bytes of a text determine the text.** -/
theorem toUTF8_injective {s t : String} (h : s.toUTF8.toList = t.toUTF8.toList) : s = t := by
  rw [toList_eq, toList_eq, Array.toList_inj] at h
  exact String.toByteArray_inj.mp (ByteArray.ext h)

/-! ## §2. Zero bytes. -/

theorem toUTF8_ofList (cs : List Char) :
    (String.ofList cs).toUTF8.toList = cs.flatMap String.utf8EncodeChar := by
  rw [toList_eq, String.toUTF8_eq_toByteArray, String.toByteArray_ofList, List.utf8Encode,
    List.toList_data_toByteArray]

/-- Only the character zero is encoded with a zero byte. -/
theorem zero_notMem_utf8EncodeChar {c : Char} (hc : c.toNat ≠ 0) :
    0 ∉ String.utf8EncodeChar c := by
  have hbyte : ∀ n : Nat, n % 256 ≠ 0 → (0 : UInt8) ≠ UInt8.ofNat n := by
    intro n hn h
    have hnat := congrArg UInt8.toNat h
    rw [UInt8.toNat_ofNat'] at hnat
    exact hn hnat.symm
  have hvalue : c.val.toNat ≠ 0 := hc
  unfold String.utf8EncodeChar
  simp only
  repeat' split
  all_goals simp only [List.mem_cons, List.not_mem_nil, or_false, not_or]
  · exact hbyte _ (by omega)
  · exact ⟨hbyte _ (by omega), hbyte _ (by omega)⟩
  · exact ⟨hbyte _ (by omega), hbyte _ (by omega), hbyte _ (by omega)⟩
  · exact ⟨hbyte _ (by omega), hbyte _ (by omega), hbyte _ (by omega), hbyte _ (by omega)⟩

/-- A text without the character zero has no zero byte. -/
theorem zero_notMem_toUTF8 {cs : List Char} (h : ∀ c ∈ cs, c.toNat ≠ 0) :
    0 ∉ (String.ofList cs).toUTF8.toList := by
  rw [toUTF8_ofList]
  intro hzero
  obtain ⟨c, hc, hbyte⟩ := List.mem_flatMap.mp hzero
  exact zero_notMem_utf8EncodeChar (h c hc) hbyte

/-! ## §3. Two texts with a zero byte between them. -/

/-- The last separator shows where the first part ends, even if the first part has some too. -/
theorem split_at_last {α : Type} {z : α} {as bs cs ds : List α} (hbs : z ∉ bs) (hds : z ∉ ds)
    (h : as ++ z :: bs = cs ++ z :: ds) : as = cs ∧ bs = ds := by
  induction as generalizing cs with
  | nil =>
    cases cs with
    | nil => exact ⟨rfl, (List.cons.inj h).2⟩
    | cons c cs =>
      obtain ⟨-, htail⟩ := List.cons.inj h
      -- Then `bs` would have the separator of the other side.
      exact absurd (htail ▸ List.mem_append_right cs (.head ds)) hbs
  | cons a as ih =>
    cases cs with
    | nil =>
      obtain ⟨-, htail⟩ := List.cons.inj h
      -- Then `ds` would have the separator of this side.
      exact absurd (htail ▸ List.mem_append_right as (.head bs)) hds
    | cons c cs =>
      obtain ⟨rfl, htail⟩ := List.cons.inj h
      obtain ⟨rfl, hbody⟩ := ih htail
      exact ⟨rfl, hbody⟩

/-! ## §4. The order of bytes. -/

/-- Lists that begin with parts of one length are compared by these parts first. -/
theorem append_lt_append_iff {α : Type} [LT α] [Std.Irrefl (α := α) (· < ·)] {as bs : List α}
    (h : as.length = bs.length) (cs ds : List α) :
    as ++ cs < bs ++ ds ↔ as < bs ∨ as = bs ∧ cs < ds := by
  induction as generalizing bs with
  | nil =>
    obtain rfl : bs = [] := List.length_eq_zero_iff.mp h.symm
    simp
  | cons a as ih =>
    cases bs with
    | nil => cases h
    | cons b bs =>
      have ih' := ih (Nat.succ.inj h)
      rw [List.cons_append, List.cons_append, List.cons_lt_cons_iff, ih', List.cons_lt_cons_iff,
        List.cons.injEq]
      grind

theorem utf8EncodeChar_of_ascii {c : Char} (h : c.toNat < 128) :
    String.utf8EncodeChar c = [UInt8.ofNat c.toNat] := by
  have hsize : c.utf8Size = 1 := by
    rw [Char.utf8Size_eq_one_iff, UInt32.le_iff_toNat_le]
    exact Nat.le_of_lt_succ h
  exact String.utf8EncodeChar_eq_singleton hsize

theorem ofNat_lt_ofNat_iff {c d : Char} (hc : c.toNat < 128) (hd : d.toNat < 128) :
    UInt8.ofNat c.toNat < UInt8.ofNat d.toNat ↔ c < d := by
  rw [UInt8.lt_iff_toNat_lt, UInt8.toNat_ofNat', UInt8.toNat_ofNat', Nat.mod_eq_of_lt (by omega),
    Nat.mod_eq_of_lt (by omega), Char.lt_def, UInt32.lt_iff_toNat_lt]
  rfl

/-- **Texts of ASCII characters have bytes in the order of the characters.** -/
theorem toUTF8_lt_iff {cs ds : List Char} (hcs : ∀ c ∈ cs, c.toNat < 128)
    (hds : ∀ d ∈ ds, d.toNat < 128) :
    (String.ofList cs).toUTF8.toList < (String.ofList ds).toUTF8.toList ↔ cs < ds := by
  rw [toUTF8_ofList, toUTF8_ofList]
  induction cs generalizing ds with
  | nil =>
    cases ds with
    | nil => simp
    | cons d ds => simp [utf8EncodeChar_of_ascii (hds d (.head _))]
  | cons c cs ih =>
    cases ds with
    | nil => simp
    | cons d ds =>
      have hc := hcs c (.head _)
      have hd := hds d (.head _)
      have hbytes : UInt8.ofNat c.toNat = UInt8.ofNat d.toNat ↔ c = d := by
        constructor
        · intro heq
          have hnat := congrArg UInt8.toNat heq
          rw [UInt8.toNat_ofNat', UInt8.toNat_ofNat', Nat.mod_eq_of_lt (by omega),
            Nat.mod_eq_of_lt (by omega)] at hnat
          exact Char.toNat_inj.mp hnat
        · intro heq
          rw [heq]
      have htail := ih (fun c hc => hcs c (.tail _ hc)) (fun d hd => hds d (.tail _ hd))
      rw [List.flatMap_cons, List.flatMap_cons, utf8EncodeChar_of_ascii hc,
        utf8EncodeChar_of_ascii hd, List.singleton_append, List.singleton_append,
        List.cons_lt_cons_iff, List.cons_lt_cons_iff, ofNat_lt_ofNat_iff hc hd, hbytes, htail]

end Text

end PolicyLookup

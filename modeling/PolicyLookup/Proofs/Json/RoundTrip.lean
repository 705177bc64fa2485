/-
  PolicyLookup.Proofs.Json.RoundTrip — reading what was written.

  A document whose integers fit 64 bits and whose doubles are finite is found again in its text,
  whatever follows the text, provided only that a number at its end does not go on.  The proof
  follows the document: strings by their characters, containers by their elements.

    * `readString_append` — a string between quotes is read as it was written.
    * `readValue_chars` — a document is read as it was written, at every depth.
    * `chars_injective` — two such documents with the same text are the same.
-/

import PolicyLookup.Json.Reader
import PolicyLookup.Proofs.Json.Literal

namespace PolicyLookup

namespace Json

open Number

/-! ## §1. Strings. -/

/-- The code of a control character survives being written with four hexadecimal digits. -/
theorem unit?_fixed {n : Nat} (h : n < 32) : ∃ a b c d,
    Text.Hex.fixed 4 n = [a, b, c, d] ∧ unit? a b c d = some n := by
  have key : ∀ e : Fin 32, unit? (Text.Hex.digit (e.val / 16 / 16 / 16 % 16))
      (Text.Hex.digit (e.val / 16 / 16 % 16)) (Text.Hex.digit (e.val / 16 % 16))
      (Text.Hex.digit (e.val % 16)) = some e.val := by decide
  exact ⟨_, _, _, _, rfl, key ⟨n, h⟩⟩

theorem readString_unit {a b c d : Char} {n : Nat} (hunit : unit? a b c d = some n) (hn : n < 32)
    (rest : List Char) :
    readString ('\\' :: 'u' :: a :: b :: c :: d :: rest)
      = (readString rest).map fun (s, rest) => (Char.ofNat n :: s, rest) := by
  rw [readString]
  simp only [hunit]
  rw [if_pos (Or.inl (by omega))]

/-- A character that is not escaped is read as it stands. -/
theorem readString_plain {c : Char} (hquote : c ≠ '"') (hslash : c ≠ '\\') (hcontrol : 32 ≤ c.toNat)
    (rest : List Char) :
    readString (c :: rest) = (readString rest).map fun (s, rest) => (c :: s, rest) := by
  rw [readString.eq_def]
  split
  · next h => cases h
  · next h => exact absurd (List.cons.inj h).1 hquote
  · next h => exact absurd (List.cons.inj h).1 hslash
  · next h => exact absurd (List.cons.inj h).1 hslash
  · next h =>
    obtain ⟨rfl, rfl⟩ := List.cons.inj h
    rw [if_neg (by simp only [hslash, or_false]; omega)]

/-- An escape is read as the character that it stands for. -/
theorem readString_escape (c : Char) (rest : List Char) :
    readString (escape c ++ rest) = (readString rest).map fun (s, rest) => (c :: s, rest) := by
  unfold escape
  split
  · next h => subst h; rfl
  split
  · next h => subst h; rfl
  split
  · next h => subst h; rfl
  split
  · next h => subst h; rfl
  split
  · next h => subst h; rfl
  split
  · next h => subst h; rfl
  split
  · next h => subst h; rfl
  split
  · next h =>
    obtain ⟨a, b, d, e, hfixed, hunit⟩ := unit?_fixed h
    rw [hfixed]
    show readString ('\\' :: 'u' :: a :: b :: d :: e :: rest) = _
    rw [readString_unit hunit h, Char.ofNat_toNat]
  · next hquote hslash _ _ _ _ _ hcontrol =>
    exact readString_plain hquote hslash (by omega) rest

/-- **A string is read as it was written**, up to its closing quote. -/
theorem readString_append (s rest : List Char) :
    readString (s.flatMap escape ++ '"' :: rest) = some (s, rest) := by
  induction s with
  | nil => rw [List.flatMap_nil, List.nil_append, readString]
  | cons c s ih =>
    rw [List.flatMap_cons, List.append_assoc, readString_escape, ih]
    rfl

/-! ## §2. Documents that their texts tell apart. -/

mutual

/-- Integers fit 64 bits, signed or unsigned, and doubles are finite, at every depth. -/
def Exact : Json → Prop
  | .null => True
  | .bool _ => True
  | .int n => -9223372036854775808 ≤ n ∧ n < 18446744073709551616
  | .float x => x.isFinite = true
  | .str _ => True
  | .arr items => AllExact items
  | .obj members => MembersExact members

/-- Every element is exact. -/
def AllExact : List Json → Prop
  | [] => True
  | j :: rest => Exact j ∧ AllExact rest

/-- The value of every member is exact. -/
def MembersExact : List (String × Json) → Prop
  | [] => True
  | (_, j) :: rest => Exact j ∧ MembersExact rest

end

mutual

/-- How deep the containers of a document are nested. -/
def depth : Json → Nat
  | .arr items => itemsDepth items + 1
  | .obj members => membersDepth members + 1
  | _ => 0

/-- How deep the deepest element is nested. -/
def itemsDepth : List Json → Nat
  | [] => 0
  | j :: rest => max (depth j) (itemsDepth rest)

/-- How deep the value of the deepest member is nested. -/
def membersDepth : List (String × Json) → Nat
  | [] => 0
  | (_, j) :: rest => max (depth j) (membersDepth rest)

end

/-! ## §3. How texts begin. -/

/-- A character at which no blanks are skipped and no container ends. -/
def Opens (c : Char) : Prop := isBlank c = false ∧ c ≠ ']' ∧ c ≠ '\x7d'

theorem skipBlanks_of_opens {c : Char} (h : isBlank c = false) (rest : List Char) :
    skipBlanks (c :: rest) = c :: rest := by
  unfold skipBlanks
  rw [List.dropWhile_cons_of_neg (by simp [h])]

/-- A character with which a number begins belongs to numbers alone. -/
theorem Literal.Begins.cases {c : Char} (h : Literal.Begins c) : Opens c ∧ c ≠ 'n' ∧ c ≠ 't'
    ∧ c ≠ 'f' ∧ c ≠ '"' ∧ c ≠ '[' ∧ c ≠ '\x7b' := by
  have key : ∀ d : Char, isDigit d = false → d ≠ '-' → c ≠ d := by
    intro d hd hminus
    rcases h with rfl | hc
    · exact hminus.symm
    · exact Literal.ne_of_isDigit hc hd
  have hblank : isBlank c = false := by
    have hspace := key ' ' (by decide) (by decide)
    have htab := key '\t' (by decide) (by decide)
    have hline := key '\n' (by decide) (by decide)
    have hreturn := key '\r' (by decide) (by decide)
    simp [isBlank, hspace, htab, hline, hreturn]
  exact ⟨⟨hblank, key _ (by decide) (by decide), key _ (by decide) (by decide)⟩,
    key _ (by decide) (by decide), key _ (by decide) (by decide), key _ (by decide) (by decide),
    key _ (by decide) (by decide), key _ (by decide) (by decide), key _ (by decide) (by decide)⟩

theorem chars_eq_cons (j : Json) : ∃ c cs, j.chars = c :: cs ∧ Opens c := by
  have opens : ∀ {cs : List Char}, (∃ c rest, cs = c :: rest ∧ Literal.Begins c) →
      ∃ c rest, cs = c :: rest ∧ Opens c := by
    rintro cs ⟨c, rest, hcs, hc⟩
    exact ⟨c, rest, hcs, hc.cases.1⟩
  have hnull : Opens 'n' := ⟨by decide, by decide, by decide⟩
  cases j with
  | null => exact ⟨'n', _, rfl, hnull⟩
  | bool b =>
    cases b with
    | true => exact ⟨'t', _, rfl, by decide, by decide, by decide⟩
    | false => exact ⟨'f', _, rfl, by decide, by decide, by decide⟩
  | int n => exact opens (Literal.begins_intDigits n)
  | float x =>
    show ∃ c cs, floatChars x = c :: cs ∧ Opens c
    unfold floatChars
    split
    · exact opens (Literal.begins_floatLayout x)
    · exact ⟨'n', _, rfl, hnull⟩
  | str s => exact ⟨'"', _, rfl, by decide, by decide, by decide⟩
  | arr items => exact ⟨'[', _, rfl, by decide, by decide, by decide⟩
  | obj members => exact ⟨'\x7b', _, rfl, by decide, by decide, by decide⟩

theorem length_chars_pos (j : Json) : 1 ≤ j.chars.length := by
  obtain ⟨c, cs, hj, -⟩ := chars_eq_cons j
  rw [hj, List.length_cons]
  omega

/-- What begins like a number is read as a number. -/
theorem readValue_number {c : Char} (hc : Literal.Begins c) (fuel depth : Nat) (cs : List Char) :
    readValue (fuel + 1) depth (c :: cs)
      = (Literal.read (c :: cs)).bind fun (l, rest) => l.toJson?.map fun j => (j, rest) := by
  obtain ⟨hopens, hn, ht, hf, hquote, hbracket, hbrace⟩ := hc.cases
  rw [readValue, skipBlanks_of_opens hopens.1]
  split
  · next h => exact absurd (List.cons.inj h).1 hn
  · next h => exact absurd (List.cons.inj h).1 ht
  · next h => exact absurd (List.cons.inj h).1 hf
  · next h => exact absurd (List.cons.inj h).1 hquote
  · next h => exact absurd (List.cons.inj h).1 hbracket
  · next h => exact absurd (List.cons.inj h).1 hbrace
  · rfl

/-! ## §4. One step of the reader. -/

theorem quote_append (s : String) (rest : List Char) :
    quote s ++ rest = '"' :: (s.toList.flatMap escape ++ '"' :: rest) := by
  simp only [quote, List.cons_append, List.append_assoc, List.nil_append]

theorem readString_quoted (s : String) (rest : List Char) :
    readString (s.toList.flatMap escape ++ '"' :: rest) = some (s.toList, rest) :=
  readString_append s.toList rest

theorem readValue_str (fuel depth : Nat) (s : String) (rest : List Char) :
    readValue (fuel + 1) depth (quote s ++ rest) = some (.str s, rest) := by
  rw [quote_append, readValue, skipBlanks_of_opens (by decide)]
  simp only [readString_quoted, Option.map_some, String.ofList_toList]

/-- After an opening bracket there are elements, unless it is closed at once. -/
theorem readValue_arr {c : Char} (hc : Opens c) (fuel depth : Nat) (cs : List Char) :
    readValue (fuel + 1) (depth + 1) ('[' :: c :: cs)
      = (readItems fuel depth (c :: cs)).map fun (items, rest) => (.arr items, rest) := by
  rw [readValue, skipBlanks_of_opens (by decide)]
  simp only [Nat.add_one_ne_zero, if_false, Nat.add_sub_cancel, skipBlanks_of_opens hc.1]
  split
  · next h => exact absurd (List.cons.inj h).1 hc.2.1
  · rfl

/-- After an opening brace there are members, unless it is closed at once. -/
theorem readValue_obj {c : Char} (hc : Opens c) (fuel depth : Nat) (cs : List Char) :
    readValue (fuel + 1) (depth + 1) ('\x7b' :: c :: cs)
      = (readMembers fuel depth (c :: cs)).map fun (members, rest) => (.obj members, rest) := by
  rw [readValue, skipBlanks_of_opens (by decide)]
  simp only [Nat.add_one_ne_zero, if_false, Nat.add_sub_cancel, skipBlanks_of_opens hc.1]
  split
  · next h => exact absurd (List.cons.inj h).1 hc.2.2
  · rfl

theorem readItems_last {fuel depth : Nat} {cs rest : List Char} {j : Json}
    (h : readValue fuel depth cs = some (j, ']' :: rest)) :
    readItems (fuel + 1) depth cs = some ([j], rest) := by
  rw [readItems, h]
  rfl

theorem readItems_cons {fuel depth : Nat} {cs rest : List Char} {j : Json}
    (h : readValue fuel depth cs = some (j, ',' :: rest)) :
    readItems (fuel + 1) depth cs
      = (readItems fuel depth rest).map fun (items, rest) => (j :: items, rest) := by
  rw [readItems, h]
  rfl

theorem readMembers_last {fuel depth : Nat} {k : String} {cs rest : List Char} {j : Json}
    (h : readValue fuel depth cs = some (j, '\x7d' :: rest)) :
    readMembers (fuel + 1) depth (quote k ++ ':' :: cs) = some ([(k, j)], rest) := by
  rw [quote_append, readMembers, skipBlanks_of_opens (by decide)]
  simp only [readString_quoted, skipBlanks_of_opens (by decide : isBlank ':' = false), h,
    skipBlanks_of_opens (by decide : isBlank '\x7d' = false), String.ofList_toList]

theorem readMembers_cons {fuel depth : Nat} {k : String} {cs rest : List Char} {j : Json}
    (h : readValue fuel depth cs = some (j, ',' :: rest)) :
    readMembers (fuel + 1) depth (quote k ++ ':' :: cs)
      = (readMembers fuel depth rest).map fun (members, rest) => ((k, j) :: members, rest) := by
  rw [quote_append, readMembers, skipBlanks_of_opens (by decide)]
  simp only [readString_quoted, skipBlanks_of_opens (by decide : isBlank ':' = false), h,
    skipBlanks_of_opens (by decide : isBlank ',' = false), String.ofList_toList]

/-! ## §5. Whole documents. -/

/-- A number does not go on over a comma or the end of a container. -/
theorem ends_cons {c : Char} (hc : c = ',' ∨ c = ']' ∨ c = '\x7d') (rest : List Char) :
    Literal.Ends (c :: rest) := by
  rcases hc with rfl | rfl | rfl
  all_goals exact ⟨by decide, by decide, by decide, by decide⟩

theorem itemsChars_cons_cons (j i : Json) (items : List Json) :
    itemsChars (j :: i :: items) = j.chars ++ ',' :: itemsChars (i :: items) := rfl

theorem membersChars_cons_cons (k : String) (j : Json) (m : String × Json)
    (members : List (String × Json)) :
    membersChars ((k, j) :: m :: members)
      = quote k ++ ':' :: (j.chars ++ ',' :: membersChars (m :: members)) := rfl

theorem itemsChars_eq_cons (j : Json) (items : List Json) :
    ∃ c cs, itemsChars (j :: items) = c :: cs ∧ Opens c := by
  obtain ⟨c, cs, hj, hc⟩ := chars_eq_cons j
  cases items with
  | nil => exact ⟨c, cs, hj, hc⟩
  | cons i items =>
    rw [itemsChars_cons_cons, hj]
    exact ⟨c, _, rfl, hc⟩

theorem membersChars_eq_cons (k : String) (j : Json) (members : List (String × Json)) :
    ∃ cs, membersChars ((k, j) :: members) = '"' :: cs := by
  cases members with
  | nil => exact ⟨_, rfl⟩
  | cons m members => exact ⟨_, rfl⟩

mutual

/-- **A document is read as it was written**, if the fuel suffices for its text and the depth
for its nesting. -/
theorem readValue_chars : ∀ (j : Json), j.Exact → ∀ (fuel depth : Nat) (rest : List Char),
    2 * j.chars.length ≤ fuel → j.depth ≤ depth → Literal.Ends rest →
      readValue fuel depth (j.chars ++ rest) = some (j, rest)
  | j, hj, 0, _, _, hfuel, _, _ => by
    have := length_chars_pos j
    omega
  | .null, _, fuel + 1, _, _, _, _, _ => rfl
  | .bool true, _, fuel + 1, _, _, _, _, _ => rfl
  | .bool false, _, fuel + 1, _, _, _, _, _ => rfl
  | .int n, hj, fuel + 1, depth, rest, _, _, hrest => by
    obtain ⟨c, cs, hn, hc⟩ := Literal.begins_intDigits n
    have hread := Literal.readInt hj.1 hj.2 hrest
    show readValue (fuel + 1) depth (intDigits n ++ rest) = _
    rw [hn] at hread ⊢
    rw [List.cons_append, readValue_number hc]
    exact hread
  | .float x, hj, fuel + 1, depth, rest, _, _, hrest => by
    obtain ⟨c, cs, hx, hc⟩ := Literal.begins_floatLayout x
    have hread := Literal.readFloat hj hrest
    have hfinite : x.isFinite = true := hj
    show readValue (fuel + 1) depth (floatChars x ++ rest) = _
    unfold floatChars
    rw [if_pos hfinite]
    rw [hx] at hread ⊢
    rw [List.cons_append, readValue_number hc]
    exact hread
  | .str s, _, fuel + 1, depth, rest, _, _, _ => readValue_str fuel depth s rest
  | .arr [], _, fuel + 1, 0, _, _, hdepth, _ => by
    exact absurd hdepth (by simp [Json.depth])
  | .arr [], _, fuel + 1, depth + 1, _, _, _, _ => rfl
  | .arr (j :: items), _, fuel + 1, 0, _, _, hdepth, _ => by
    exact absurd hdepth (by simp [Json.depth])
  | .arr (j :: items), hj, fuel + 1, depth + 1, rest, hfuel, hdepth, _ => by
    -- The brackets pay for the step into the container: two characters, one of fuel.
    have hlength : (chars (.arr (j :: items))).length = (itemsChars (j :: items)).length + 2 := by
      simp [chars]
    have hread := readItems_chars j items hj fuel depth rest (by omega)
      (Nat.le_of_succ_le_succ hdepth)
    obtain ⟨c, cs, hitems, hc⟩ := itemsChars_eq_cons j items
    show readValue (fuel + 1) (depth + 1) ('[' :: (itemsChars (j :: items) ++ [']'] ++ rest)) = _
    rw [List.append_assoc, List.singleton_append]
    rw [hitems, List.cons_append] at hread ⊢
    rw [readValue_arr hc, hread]
    rfl
  | .obj [], _, fuel + 1, 0, _, _, hdepth, _ => by
    exact absurd hdepth (by simp [Json.depth])
  | .obj [], _, fuel + 1, depth + 1, _, _, _, _ => rfl
  | .obj ((k, j) :: members), _, fuel + 1, 0, _, _, hdepth, _ => by
    exact absurd hdepth (by simp [Json.depth])
  | .obj ((k, j) :: members), hj, fuel + 1, depth + 1, rest, hfuel, hdepth, _ => by
    have hlength : (chars (.obj ((k, j) :: members))).length
        = (membersChars ((k, j) :: members)).length + 2 := by
      simp [chars]
    have hread := readMembers_chars k j members hj fuel depth rest (by omega)
      (Nat.le_of_succ_le_succ hdepth)
    obtain ⟨cs, hmembers⟩ := membersChars_eq_cons k j members
    show readValue (fuel + 1) (depth + 1)
      ('\x7b' :: (membersChars ((k, j) :: members) ++ ['\x7d'] ++ rest)) = _
    rw [List.append_assoc, List.singleton_append]
    rw [hmembers, List.cons_append] at hread ⊢
    rw [readValue_obj ⟨by decide, by decide, by decide⟩, hread]
    rfl

/-- The elements of an array are read as they were written. -/
theorem readItems_chars : ∀ (j : Json) (items : List Json), AllExact (j :: items) →
    ∀ (fuel depth : Nat) (rest : List Char), 2 * (itemsChars (j :: items)).length < fuel →
      itemsDepth (j :: items) ≤ depth →
      readItems fuel depth (itemsChars (j :: items) ++ ']' :: rest) = some (j :: items, rest)
  | j, [], hj, fuel + 1, depth, rest, hfuel, hdepth => by
    simp only [itemsDepth, Nat.max_le] at hdepth
    have hfirst := readValue_chars j hj.1 fuel depth (']' :: rest)
      (by simp only [itemsChars] at hfuel; omega) hdepth.1 (ends_cons (by simp) rest)
    exact readItems_last hfirst
  | j, i :: items, hj, fuel + 1, depth, rest, hfuel, hdepth => by
    -- The comma pays for the step to the next element.
    simp only [itemsChars, List.length_append, List.length_cons] at hfuel
    have hdepths : j.depth ≤ depth ∧ itemsDepth (i :: items) ≤ depth := Nat.max_le.mp hdepth
    have hrest := readItems_chars i items hj.2 fuel depth rest (by omega) hdepths.2
    have hfirst := readValue_chars j hj.1 fuel depth
      (',' :: (itemsChars (i :: items) ++ ']' :: rest)) (by omega) hdepths.1
      (ends_cons (by simp) _)
    rw [itemsChars_cons_cons, List.append_assoc, List.cons_append, readItems_cons hfirst, hrest]
    rfl

/-- The members of an object are read as they were written. -/
theorem readMembers_chars : ∀ (k : String) (j : Json) (members : List (String × Json)),
    MembersExact ((k, j) :: members) → ∀ (fuel depth : Nat) (rest : List Char),
      2 * (membersChars ((k, j) :: members)).length < fuel →
      membersDepth ((k, j) :: members) ≤ depth →
      readMembers fuel depth (membersChars ((k, j) :: members) ++ '\x7d' :: rest)
        = some ((k, j) :: members, rest)
  | k, j, [], hj, fuel + 1, depth, rest, hfuel, hdepth => by
    simp only [membersChars, List.length_append, List.length_cons] at hfuel
    have hdepths : j.depth ≤ depth ∧ membersDepth [] ≤ depth := Nat.max_le.mp hdepth
    have hfirst := readValue_chars j hj.1 fuel depth ('\x7d' :: rest) (by omega) hdepths.1
      (ends_cons (by simp) rest)
    rw [membersChars, List.append_assoc, List.cons_append, readMembers_last hfirst]
  | k, j, (l, i) :: members, hj, fuel + 1, depth, rest, hfuel, hdepth => by
    simp only [membersChars, List.length_append, List.length_cons] at hfuel
    have hdepths : j.depth ≤ depth ∧ membersDepth ((l, i) :: members) ≤ depth :=
      Nat.max_le.mp hdepth
    have hrest := readMembers_chars l i members hj.2 fuel depth rest (by omega) hdepths.2
    have hfirst := readValue_chars j hj.1 fuel depth
      (',' :: (membersChars ((l, i) :: members) ++ '\x7d' :: rest)) (by omega) hdepths.1
      (ends_cons (by simp) _)
    rw [membersChars_cons_cons, List.append_assoc, List.cons_append, List.append_assoc,
      List.cons_append, readMembers_cons hfirst, hrest]
    rfl

end

/-- **The text of a document determines the document.** -/
theorem chars_injective {j k : Json} (hj : j.Exact) (hk : k.Exact) (h : j.chars = k.chars) :
    j = k := by
  have hread := readValue_chars j hj (2 * k.chars.length) (max j.depth k.depth) []
    (by rw [h]) (Nat.le_max_left _ _) trivial
  have hreadk := readValue_chars k hk (2 * k.chars.length) (max j.depth k.depth) []
    (Nat.le_refl _) (Nat.le_max_right _ _) trivial
  rw [h, hreadk] at hread
  exact (Prod.mk.inj (Option.some.inj hread)).1.symm

/-- A document that is not nested too deep is read from its text. -/
theorem ofText?_compact {j : Json} (hj : j.Exact) (hdepth : j.depth ≤ depthLimit) :
    ofText? j.compact = some j := by
  have hread := readValue_chars j hj (2 * j.chars.length + 2) depthLimit [] (by omega) hdepth
    trivial
  rw [List.append_nil] at hread
  unfold ofText? read? compact
  rw [String.toList_ofList, hread]
  rfl

end Json

end PolicyLookup

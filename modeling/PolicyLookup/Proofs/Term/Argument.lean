/-
  PolicyLookup.Proofs.Term.Argument — what an argument is decoded into, and what is said if it
  cannot be.

  A value is the image of a term if it has the same structure, with sequences for arrays and sets,
  and mappings for objects.  An argument is taken exactly if no part of it is bad and its image has
  the declared shape; what is handed on is the image.  Otherwise the error names the argument once
  and tells the first bad part in reading order, or the shape if there is none.

    * `toValue_eq_ok_iff` — decoding brings the image.
    * `image_obj_iff` — the images of objects whose pairs are in term order.
    * `label_once` — a label before a text without a colon stands there once.
    * `decodeArgument_exact` — arguments.
-/

import Mathlib.Data.List.Forall2
import PolicyLookup.Proofs.Number.Rounding
import PolicyLookup.Proofs.Term.Parts
import PolicyLookup.Proofs.Text.Bytes

namespace PolicyLookup

/-- Members correspond under two relations exactly if they do under each of them. -/
theorem forall₂_and_iff {α β : Type} {R S : α → β → Prop} {as : List α} {bs : List β} :
    List.Forall₂ (fun a b => R a b ∧ S a b) as bs ↔
      List.Forall₂ R as bs ∧ List.Forall₂ S as bs := by
  induction as generalizing bs with
  | nil => simp only [List.forall₂_nil_left_iff, and_self]
  | cons a rest ih => cases bs <;> simp [ih, and_and_and_comm]

/-- Lists whose members correspond under one relation do so under another that says the same of
them. -/
theorem forall₂_congr_of_mem {α β : Type} {R S : α → β → Prop} {as : List α} {bs : List β}
    (h : ∀ a ∈ as, ∀ b, R a b ↔ S a b) : List.Forall₂ R as bs ↔ List.Forall₂ S as bs := by
  induction as generalizing bs with
  | nil => rw [List.forall₂_nil_left_iff, List.forall₂_nil_left_iff]
  | cons a rest ih =>
    simp only [List.forall₂_cons_left_iff, h a (.head _), ih fun a' ha' => h a' (.tail _ ha')]

namespace Term

/-! ## §1. Images. -/

/-- The image of a term: arrays and sets as sequences of the images in their order, objects as
mappings with the same keys, integers of the signed range as they are, and all other numbers as the
nearest double. -/
inductive Image : Term → Value → Prop where
  | null : Image .null .null
  | bool (b : Bool) : Image (.bool b) (.bool b)
  | int {q : Rat} {n : Int64} (h : q = n.toInt) : Image (.num q) (.int n)
  | float {q : Rat} {x : Binary64} (h : ∀ n : Int64, q ≠ n.toInt) (hx : Binary64.IsNearest q x) :
      Image (.num q) (.float x)
  | str (s : String) : Image (.str s) (.str s)
  | arr {items : List Term} {vs : List Value} (h : List.Forall₂ Image items vs) :
      Image (.arr items) (.seq vs)
  | set {items : List Term} {vs : List Value} (h : List.Forall₂ Image items vs) :
      Image (.set items) (.seq vs)
  | obj {pairs : List (Term × Term)} {entries : List (String × Value)}
      (keys : pairs.map Prod.fst = entries.map fun e => .str e.1)
      (h : List.Forall₂ Image (pairs.map Prod.snd) (entries.map Prod.snd)) :
      Image (.obj pairs) (.map (Keyed.ofList entries))

/-- Every number in a term can be read as a double. -/
def Readable (t : Term) : Prop :=
  ∀ q, t.Has (.value (.num q)) → ∃ x, Binary64.ofRat? q = some x

/-- The values of items are their values one by one. -/
theorem toValues_eq_ok_iff {items : List Term} {vs : List Value} :
    toValues items = .ok vs ↔ List.Forall₂ (fun t v => t.toValue = .ok v) items vs := by
  rw [toValues_eq_mapM, mapM_eq_ok_iff]

theorem entry_eq_ok_iff {p : Term × Term} {e : String × Value} :
    entry p = .ok e ↔ p.1 = .str e.1 ∧ p.2.toValue = .ok e.2 := by
  obtain ⟨k, t⟩ := p
  obtain ⟨key, v⟩ := e
  cases k with
  | str key' =>
    simp only [entry, map_eq_ok_iff, Prod.mk.injEq, Term.str.injEq]
    constructor
    · rintro ⟨v', hv', rfl, rfl⟩
      exact ⟨rfl, hv'⟩
    · rintro ⟨rfl, hv⟩
      exact ⟨v, hv, rfl, rfl⟩
  | _ => simp [entry]

/-- The entries of an object have its keys, and the values of what is under them. -/
theorem toEntries_eq_ok_iff {pairs : List (Term × Term)} {entries : List (String × Value)} :
    toEntries pairs = .ok entries ↔ pairs.map Prod.fst = entries.map (fun e => .str e.1) ∧
      List.Forall₂ (fun t v => t.toValue = .ok v) (pairs.map Prod.snd) (entries.map Prod.snd) := by
  rw [toEntries_eq_mapM, mapM_eq_ok_iff]
  simp only [entry_eq_ok_iff, forall₂_and_iff]
  rw [← List.forall₂_eq_eq_eq]
  simp only [List.forall₂_map_left_iff, List.forall₂_map_right_iff]

/-- The image of a number. -/
theorem numberToValue_eq_ok_iff {q : Rat} (hnative : (Term.num q).IsNative) {v : Value} :
    numberToValue q = .ok v ↔ (Term.num q).Image v := by
  rcases numberToValue_spec q with ⟨n, hq, hkept⟩ | ⟨n, hq, hlow, hhigh, -⟩ |
    ⟨x, -, hx, hrounded⟩ | ⟨-, hx, -⟩
  · rw [hkept, Except.ok.injEq]
    constructor
    · rintro rfl
      exact .int hq
    · intro h
      cases h with
      | int hm => rw [Int64.toInt_inj.mp (Rat.intCast_inj.mp (hq.symm.trans hm))]
      | float hno => exact absurd hq (hno n)
  · exact absurd ⟨hlow, hhigh⟩ (hnative.1 n hq)
  -- The number is rounded, and it has only one nearest double.
  · have hno : ∀ n : Int64, q ≠ n.toInt := by
      rintro n rfl
      rw [numberToValue_int64 n] at hrounded
      cases hrounded
    rw [hrounded, Except.ok.injEq]
    constructor
    · rintro rfl
      exact .float hno (Binary64.isNearest_of_ofRat? hx)
    · intro h
      cases h with
      | int hm => exact absurd hm (hno _)
      | float _ hy => rw [(Binary64.isNearest_iff hx).mp hy]
  · exact absurd (Binary64.exists_ofRat?_iff.mpr hnative.2) (by rw [hx]; exact nofun)

/-- **Decoding brings the image**, if no part of the term is bad. -/
theorem toValue_eq_ok_iff {t : Term} (hnative : t.IsNative) {v : Value} :
    t.toValue = .ok v ↔ t.Image v := by
  induction t using treeInduction generalizing v with
  | leaf t hleaf =>
    cases t with
    | num q => exact numberToValue_eq_ok_iff hnative
    | undefined => cases hnative
    | arr items => cases hleaf
    | set items => cases hleaf
    | obj pairs => cases hleaf
    | null => exact ⟨fun h => by cases h; exact .null, fun h => by cases h; rfl⟩
    | bool b => exact ⟨fun h => by cases h; exact .bool b, fun h => by cases h; rfl⟩
    | str s => exact ⟨fun h => by cases h; exact .str s, fun h => by cases h; rfl⟩
  | arr items ih =>
    have hitems : ∀ t ∈ items, ∀ v, t.toValue = .ok v ↔ t.Image v := fun t ht v =>
      ih t ht (allNative_iff.mp hnative t ht)
    rw [toValue, map_eq_ok_iff]
    simp only [toValues_eq_ok_iff, forall₂_congr_of_mem hitems]
    constructor
    · rintro ⟨vs, hvs, rfl⟩
      exact .arr hvs
    · intro h
      cases h with
      | arr hvs => exact ⟨_, hvs, rfl⟩
  | set items ih =>
    have hitems : ∀ t ∈ items, ∀ v, t.toValue = .ok v ↔ t.Image v := fun t ht v =>
      ih t ht (allNative_iff.mp hnative t ht)
    rw [toValue, map_eq_ok_iff]
    simp only [toValues_eq_ok_iff, forall₂_congr_of_mem hitems]
    constructor
    · rintro ⟨vs, hvs, rfl⟩
      exact .set hvs
    · intro h
      cases h with
      | set hvs => exact ⟨_, hvs, rfl⟩
  | obj pairs ih =>
    have hvalues : ∀ t ∈ pairs.map Prod.snd, ∀ v, t.toValue = .ok v ↔ t.Image v := by
      intro t ht v
      obtain ⟨p, hp, rfl⟩ := List.mem_map.mp ht
      exact ih p hp (pairsNative_iff.mp hnative p hp).2
    rw [toValue, map_eq_ok_iff]
    simp only [toEntries_eq_ok_iff, forall₂_congr_of_mem hvalues]
    constructor
    · rintro ⟨entries, ⟨hkeys, hentries⟩, rfl⟩
      exact .obj hkeys hentries
    · intro h
      cases h with
      | obj hkeys hentries => exact ⟨_, ⟨hkeys, hentries⟩, rfl⟩

theorem lt_of_cmp_str {s t : String} (h : cmp (.str s) (.str t) = .lt) : s < t := by
  have hlt : cmpString s t = .lt := h
  unfold cmpString at hlt
  split at hlt
  · assumption
  · split at hlt <;> cases hlt

/-- The entries of an object in term order are in the order of a mapping. -/
theorem ofList_of_ordered {pairs : List (Term × Term)} {entries : List (String × Value)}
    (hordered : pairs.Pairwise fun p p' => cmp p.1 p'.1 = .lt)
    (hkeys : pairs.map Prod.fst = entries.map fun e => .str e.1) :
    Keyed.ofList entries = entries := by
  have hcmp : (pairs.map Prod.fst).Pairwise fun k k' => cmp k k' = .lt :=
    List.pairwise_map.mpr hordered
  rw [hkeys, List.pairwise_map] at hcmp
  exact Keyed.ofList_of_ascending (hcmp.imp lt_of_cmp_str)

/-- **An object in term order becomes a mapping entry by entry.** -/
theorem image_obj_iff {pairs : List (Term × Term)} {m : Mapping}
    (hordered : pairs.Pairwise fun p p' => cmp p.1 p'.1 = .lt) :
    (Term.obj pairs).Image (.map m) ↔ pairs.map Prod.fst = m.map (fun e => .str e.1) ∧
      List.Forall₂ Image (pairs.map Prod.snd) (m.map Prod.snd) := by
  constructor
  · intro h
    cases h with
    | obj hkeys hvalues =>
      rw [ofList_of_ordered hordered hkeys]
      exact ⟨hkeys, hvalues⟩
  · rintro ⟨hkeys, hvalues⟩
    rw [← ofList_of_ordered hordered hkeys]
    exact .obj hkeys hvalues

/-! ## §2. The label of an argument. -/

/-- The words that tell which argument is meant. -/
def argumentLabel (position : Nat) : String := s!"argument {position}: "

/-- A label ends with its only colon and a blank. -/
theorem toList_argumentLabel (position : Nat) :
    ∃ cs, (argumentLabel position).toList = cs ++ [':', ' '] ∧ ':' ∉ cs := by
  refine ⟨"argument ".toList ++ (toString position).toList, ?_, ?_⟩
  · unfold argumentLabel
    rw [String.toList_append, String.toList_append]
    rfl
  · rw [List.mem_append, not_or]
    refine ⟨by decide, fun hmem => ?_⟩
    rw [Nat.toString_eq_ofList_toDigits, String.toList_ofList] at hmem
    exact absurd (Nat.isDigit_of_mem_toDigits (by decide) (by decide) hmem) (by decide)

/-- **A label before a text without a colon stands there once.** -/
theorem label_once {position : Nat} {text : String} (htext : ':' ∉ text.toList)
    {before after : List Char} (h : (argumentLabel position ++ text).toList
      = before ++ (argumentLabel position).toList ++ after) : before = [] := by
  obtain ⟨cs, hlabel, hcs⟩ := toList_argumentLabel position
  rw [String.toList_append, hlabel] at h
  have hblank : ':' ∉ ' ' :: text.toList := by simpa using htext
  -- One colon is all there is, so there is none after that of the label on the other side.
  have hafter : ':' ∉ ' ' :: after := by
    have hcount := congrArg (List.count ':') h
    simp only [List.count_append, List.count_eq_zero_of_not_mem hcs,
      List.count_eq_zero_of_not_mem htext] at hcount
    have hnone : List.count ':' after = 0 := by omega
    simpa using List.count_eq_zero.mp hnone
  have hsplit : cs ++ ':' :: (' ' :: text.toList) = (before ++ cs) ++ ':' :: (' ' :: after) := by
    simpa using h
  exact List.self_eq_append_left.mp (Text.split_at_last hblank hafter hsplit).1

/-! ## §3. What is said. -/

/-- What is said of an argument that has the wrong shape. -/
def mismatch (t : Term) (shape : Shape) : String :=
  "expected " ++ shape.name ++ ", got " ++ t.kind

theorem colon_notMem_append {s t : String} :
    ':' ∉ (s ++ t).toList ↔ ':' ∉ s.toList ∧ ':' ∉ t.toList := by
  rw [String.toList_append, List.mem_append, not_or]

theorem colon_notMem_kind (t : Term) : ':' ∉ t.kind.toList := by
  cases t <;> rw [kind] <;> decide

theorem colon_notMem_name (shape : Shape) : ':' ∉ shape.name.toList := by
  induction shape with
  | array items ih =>
    rw [Shape.name, colon_notMem_append, colon_notMem_append]
    exact ⟨⟨by decide, ih⟩, by decide⟩
  | _ => decide

theorem colon_notMem_mismatch (t : Term) (shape : Shape) : ':' ∉ (t.mismatch shape).toList := by
  unfold mismatch
  rw [colon_notMem_append, colon_notMem_append, colon_notMem_append]
  exact ⟨⟨⟨by decide, colon_notMem_name shape⟩, by decide⟩, colon_notMem_kind t⟩

theorem colon_notMem_toString (n : Int) : ':' ∉ (toString n).toList := by
  have hdigits : ':' ∉ Number.digits n.natAbs := fun hmem =>
    absurd (Number.isDigit_of_mem_digits _ _ hmem) (by decide)
  rw [← Number.ofList_intDigits, String.toList_ofList, Number.intDigits]
  split
  · simpa using hdigits
  · exact hdigits

/-- What is said of a bad part has no colon. -/
theorem colon_notMem_complaint {p : Part} {text : String} (h : p.complaint? = some text) :
    ':' ∉ text.toList := by
  cases p with
  | key k =>
    have hkey : ':' ∉ ("object keys must be strings, got " ++ k.kind ++ " key").toList := by
      rw [colon_notMem_append, colon_notMem_append]
      exact ⟨⟨by decide, colon_notMem_kind k⟩, by decide⟩
    cases k with
    | str s => cases h
    | _ =>
      obtain rfl := Option.some.inj h
      exact hkey
  | value t =>
    cases t with
    | num q =>
      have hinteger : ':' ∉
          ("integer " ++ toString q.num ++ " is out of the 64-bit signed range").toList := by
        rw [colon_notMem_append, colon_notMem_append]
        exact ⟨⟨by decide, colon_notMem_toString q.num⟩, by decide⟩
      rw [Part.complaint?] at h
      split at h
      · obtain rfl := Option.some.inj h
        exact hinteger
      · split at h
        · obtain rfl := Option.some.inj h
          decide
        · cases h
    | undefined =>
      obtain rfl := Option.some.inj h
      decide
    | _ => cases h

/-! ## §4. Arguments. -/

/-- A term with readable numbers is without a bad part exactly if it has no undefined value, no
integer above the signed range that fits 64 unsigned bits, and no key that is not a string. -/
theorem isNative_iff_has {t : Term} (hreadable : t.Readable) :
    t.IsNative ↔ ¬ t.Has (.value .undefined) ∧
      (∀ n : Int, t.Has (.value (.num n)) →
        ¬ (9223372036854775808 ≤ n ∧ n < 18446744073709551616)) ∧
      ∀ k, t.Has (.key k) → ∃ s, k = .str s := by
  simp only [isNative_iff, Part.defect?_eq_none_iff]
  constructor
  · intro h
    exact ⟨fun hu => (h _ hu).1 rfl, fun n hn => ((h _ hn).2.1 n rfl).1 n rfl,
      fun k hk => (h _ hk).2.2 k rfl⟩
  · rintro ⟨hundefined, hnumbers, hkeys⟩ p hp
    refine ⟨?_, ?_, ?_⟩
    · rintro rfl
      exact hundefined hp
    · rintro q rfl
      refine ⟨?_, Binary64.exists_ofRat?_iff.mp (hreadable q hp)⟩
      rintro n rfl
      exact hnumbers n hp
    · rintro k rfl
      exact hkeys k hp

/-- **Which arguments are taken, what they become, and what is said of the others.**  An argument
with readable numbers is taken exactly if it has no undefined value, no integer above the signed
range that fits 64 unsigned bits and no key that is not a string, and its image has the declared
shape; then it becomes the image.  Otherwise the error has the position, and a text that begins with
the label of the argument and has it nowhere else.  The rest of the text is about the first bad part
in reading order; only if there is none it is about the shape. -/
theorem decodeArgument_exact {t : Term} (hreadable : t.Readable) (shape : Shape) (position : Nat) :
    (∀ v, t.decodeArgument shape position = .ok v ↔
      (¬ t.Has (.value .undefined) ∧
        (∀ n : Int, t.Has (.value (.num n)) →
          ¬ (9223372036854775808 ≤ n ∧ n < 18446744073709551616)) ∧
        ∀ k, t.Has (.key k) → ∃ s, k = .str s) ∧
      t.Image v ∧ shape.accepts v = true) ∧
    ∀ e, t.decodeArgument shape position = .error e → ∃ text,
      e = .type (argumentLabel position ++ text) (some position) ∧
      (∀ before after, (argumentLabel position ++ text).toList
        = before ++ (argumentLabel position).toList ++ after → before = []) ∧
      ((∃ before p after, t.parts = before ++ p :: after ∧
          (∀ b ∈ before, b.complaint? = none) ∧ p.complaint? = some text) ∨
        ((∀ p ∈ t.parts, p.complaint? = none) ∧ (∃ v, t.Image v ∧ shape.accepts v = false) ∧
          text = t.mismatch shape)) := by
  constructor
  · intro v
    rw [decodeArgument_eq_ok_iff, ← isNative_iff_has hreadable, ← and_assoc]
    refine and_congr_left fun _ => ?_
    constructor
    · intro hv
      have hnative := (exists_toValue_iff t).mp ⟨v, hv⟩
      exact ⟨hnative, (toValue_eq_ok_iff hnative).mp hv⟩
    · rintro ⟨hnative, himage⟩
      exact (toValue_eq_ok_iff hnative).mpr himage
  · intro e he
    cases hvalue : t.toValue with
    -- Without a value there is a bad part, and the shape has not been looked at.
    | error d =>
      rw [decodeArgument_of_error hvalue] at he
      cases he
      have hfirst : firstDefect? t.parts = some d := by
        rw [← fault?_toValue, fault?_eq_some_iff]
        exact hvalue
      obtain ⟨before, p, after, hparts, hp, hbefore⟩ := List.findSome?_eq_some_iff.mp hfirst
      have hcomplaint : p.complaint? = some d.message := by
        rw [Part.complaint?_eq, hp]
        rfl
      refine ⟨d.message, rfl, fun _ _ => label_once (colon_notMem_complaint hcomplaint),
        Or.inl ⟨before, p, after, hparts, fun b hb => ?_, hcomplaint⟩⟩
      rw [Part.complaint?_eq, hbefore b hb]
      rfl
    -- With one there is none, and the value is the image.
    | ok v =>
      have hnative := (exists_toValue_iff t).mp ⟨v, hvalue⟩
      have hgood : ∀ p ∈ t.parts, p.complaint? = none := by
        intro p hp
        rw [Part.complaint?_eq, isNative_iff.mp hnative p (mem_parts_iff.mp hp)]
        rfl
      have himage := (toValue_eq_ok_iff hnative).mp hvalue
      have hshape : shape.accepts v = false := by
        by_contra haccepts
        rw [Bool.not_eq_false] at haccepts
        rw [decodeArgument_eq_ok_iff.mpr ⟨hvalue, haccepts⟩] at he
        cases he
      rw [decodeArgument_of_not_accepts hvalue hshape] at he
      cases he
      exact ⟨t.mismatch shape, rfl, fun _ _ => label_once (colon_notMem_mismatch t shape),
        Or.inr ⟨hgood, ⟨v, himage, hshape⟩, rfl⟩⟩

/-- A filter with a fraction in an object and an integer in a set. -/
def ages : Term :=
  .obj [(.str "age", .num (1 / 2)), (.str "tags", .set [.num 3, .str "new"])]

/-- An object with three bad parts, a key that is a number first. -/
def jumble : Term :=
  .obj [(.num 1, .undefined), (.str "age", .num 9223372036854775808)]

theorem readable_ages : ages.Readable := by
  intro q hq
  rw [← mem_parts_iff] at hq
  simp only [ages, parts, pairsParts, itemsParts, List.append_nil, List.cons_append,
    List.nil_append, List.mem_cons, Part.value.injEq, reduceCtorEq, num.injEq, List.not_mem_nil,
    or_self, or_false, false_or] at hq
  rcases hq with rfl | rfl
  · exact ⟨.ofFields false 1022 0, by decide +kernel⟩
  · exact ⟨.ofFields false 1024 2251799813685248, by decide +kernel⟩

theorem readable_jumble : jumble.Readable := by
  intro q hq
  rw [← mem_parts_iff] at hq
  simp only [jumble, parts, pairsParts, List.append_nil, List.cons_append, List.nil_append,
    List.mem_cons, Part.value.injEq, reduceCtorEq, num.injEq, List.not_mem_nil, or_false,
    false_or] at hq
  rw [hq]
  exact ⟨.ofFields false 1086 0, by decide +kernel⟩

/-- A half is no integer. -/
theorem half_ne_intCast (n : Int) : (1 / 2 : Rat) ≠ n := by
  intro hn
  have hden := congrArg Rat.den hn
  rw [Rat.den_intCast] at hden
  exact absurd hden (by decide +kernel)

theorem isNative_ages : ages.IsNative := by
  refine ⟨⟨_, rfl⟩, ⟨fun n hn => absurd hn (half_ne_intCast n), by decide +kernel⟩, ⟨_, rfl⟩,
    ⟨⟨?_, by decide +kernel⟩, trivial, trivial⟩, trivial⟩
  intro n hn
  have hthree : (3 : Int) = n := Rat.intCast_inj.mp hn
  omega

/-- The image of the filter. -/
theorem image_ages : ages.Image (.map [("age", .float (.ofFields false 1022 0)),
    ("tags", .seq [.int 3, .str "new"])]) := by
  have hstrings : cmpString "age" "tags" = .lt := if_pos (by decide)
  have hkeys : cmp (.str "age") (.str "tags") = .lt := hstrings
  refine (image_obj_iff (List.pairwise_pair.mpr hkeys)).mpr ⟨rfl, .cons ?_ (.cons ?_ .nil)⟩
  · refine .float (fun n => half_ne_intCast n.toInt) (Binary64.isNearest_of_ofRat? ?_)
    decide +kernel
  · exact .set (.cons (.int rfl) (.cons (.str "new") .nil))

theorem decodeArgument_exact_ages : ages.Readable ∧ jumble.Readable ∧
    ages.decodeArgument .object 2 = .ok (.map [("age", .float (.ofFields false 1022 0)),
      ("tags", .seq [.int 3, .str "new"])]) ∧
    ages.decodeArgument .string 1 = .error (.type
      "argument 1: expected string, got object" (some 1)) ∧
    ∃ after, jumble.parts = .value jumble :: .key (.num 1) :: after ∧
      jumble.decodeArgument .object 2 = .error (.type
        "argument 2: object keys must be strings, got number key" (some 2)) := by
  refine ⟨readable_ages, readable_jumble, ?_, ?_, _, rfl, ?_⟩
  · have htaken := (decodeArgument_exact readable_ages .object 2).1
    exact (htaken _).mpr ⟨(isNative_iff_has readable_ages).mp isNative_ages, image_ages, rfl⟩
  · obtain ⟨hok, herror⟩ := decodeArgument_exact readable_ages .string 1
    cases h : ages.decodeArgument .string 1 with
    | ok v =>
      -- The image of an object is no string.
      obtain ⟨-, himage, haccepts⟩ := (hok v).mp h
      cases himage
      cases haccepts
    | error e =>
      obtain ⟨text, rfl, -, ⟨before, p, after, hparts, -, hp⟩ | ⟨-, -, rfl⟩⟩ := herror e h
      · -- No part of this object is bad.
        have hmem : p ∈ ages.parts := by simp [hparts]
        rw [Part.complaint?_eq, isNative_iff.mp isNative_ages p (mem_parts_iff.mp hmem)] at hp
        cases hp
      · exact congrArg (fun m => Except.error (Error.type m (some 1))) (by decide +kernel)
  · cases h : jumble.decodeArgument .object 2 with
    | ok v =>
      obtain ⟨⟨hundefined, -⟩, -⟩ := ((decodeArgument_exact readable_jumble .object 2).1 v).mp h
      exact absurd (.under (.head _) (.self _)) hundefined
    | error e =>
      obtain ⟨text, rfl, -, hreason⟩ := (decodeArgument_exact readable_jumble .object 2).2 e h
      rcases hreason with ⟨before, p, after, hparts, hbefore, hp⟩ | ⟨hgood, -⟩
      · -- The object itself is good, so the first bad part is the key right behind it.
        rcases before with _ | ⟨b, _ | ⟨c, before⟩⟩
        · obtain ⟨rfl, -⟩ := List.cons.inj hparts
          cases hp
        · obtain ⟨-, hparts⟩ := List.cons.inj hparts
          obtain ⟨rfl, -⟩ := List.cons.inj hparts
          cases hp
          exact congrArg (fun m => Except.error (Error.type m (some 2))) (by decide +kernel)
        · obtain ⟨-, hparts⟩ := List.cons.inj hparts
          obtain ⟨rfl, -⟩ := List.cons.inj hparts
          cases hbefore _ (.tail _ (.head _))
      · cases hgood (.key (.num 1)) (.tail _ (.head _))

end Term

end PolicyLookup

/-
  PolicyLookup.Term.Order — the total order of terms.

  Kinds come in the order null, booleans, numbers, strings, arrays, sets, objects, undefined.
  Numbers are ordered by value and strings by code points; arrays and sets are compared element
  by element and then by length, objects as lists of pairs.
-/

import PolicyLookup.Term.Basic

namespace PolicyLookup

namespace Term

/-- The place of a term's kind among the kinds. -/
def rank : Term → Nat
  | .null => 0
  | .bool _ => 1
  | .num _ => 2
  | .str _ => 3
  | .arr _ => 4
  | .set _ => 5
  | .obj _ => 6
  | .undefined => 7

/-- Numbers by value. -/
def cmpRat (p q : Rat) : Ordering := if p < q then .lt else if q < p then .gt else .eq

/-- Texts by code points. -/
def cmpString (s t : String) : Ordering := if s < t then .lt else if t < s then .gt else .eq

/-- Truth values, `false` first. -/
def cmpBool : Bool → Bool → Ordering
  | false, true => .lt
  | true, false => .gt
  | _, _ => .eq

/-- Natural numbers by size. -/
def cmpNat (m n : Nat) : Ordering := if m < n then .lt else if n < m then .gt else .eq

mutual

/-- The order of terms. -/
def cmp : Term → Term → Ordering
  | .bool a, .bool b => cmpBool a b
  | .num p, .num q => cmpRat p q
  | .str s, .str t => cmpString s t
  | .arr xs, .arr ys => cmpItems xs ys
  | .set xs, .set ys => cmpItems xs ys
  | .obj xs, .obj ys => cmpPairs xs ys
  | a, b => cmpNat a.rank b.rank

/-- Element by element; of two lists one of which begins the other, the shorter comes first. -/
def cmpItems : List Term → List Term → Ordering
  | [], [] => .eq
  | [], _ :: _ => .lt
  | _ :: _, [] => .gt
  | x :: xs, y :: ys =>
    match cmp x y with
    | .eq => cmpItems xs ys
    | o => o

/-- Pair by pair, the key before the value. -/
def cmpPairs : List (Term × Term) → List (Term × Term) → Ordering
  | [], [] => .eq
  | [], _ :: _ => .lt
  | _ :: _, [] => .gt
  | (k, v) :: xs, (l, w) :: ys =>
    match cmp k l with
    | .eq =>
      match cmp v w with
      | .eq => cmpPairs xs ys
      | o => o
    | o => o

end

/-- Equality of terms as values. -/
def same (a b : Term) : Bool :=
  match cmp a b with
  | .eq => true
  | _ => false

/-! ## §1. Building sets and objects. -/

/-- Puts an element at its place; an equal one stays alone. -/
def insertItem (x : Term) : List Term → List Term
  | [] => [x]
  | y :: rest =>
    match cmp x y with
    | .lt => x :: y :: rest
    | .eq => y :: rest
    | .gt => y :: insertItem x rest

/-- The set of the given elements. -/
def setOf (items : List Term) : Term :=
  .set (items.foldl (fun s x => insertItem x s) [])

/-- Puts a pair at its key's place, replacing the value that was there. -/
def insertPair (k v : Term) : List (Term × Term) → List (Term × Term)
  | [] => [(k, v)]
  | (l, w) :: rest =>
    match cmp k l with
    | .lt => (k, v) :: (l, w) :: rest
    | .eq => (l, v) :: rest
    | .gt => (l, w) :: insertPair k v rest

/-- The object of the given pairs; of two values for a key the later one counts. -/
def objectOf (pairs : List (Term × Term)) : Term :=
  .obj (pairs.foldl (fun o p => insertPair p.1 p.2 o) [])

/-- The value at a key. -/
def lookup (k : Term) : List (Term × Term) → Option Term
  | [] => none
  | (l, v) :: rest => if same k l then some v else lookup k rest

/-! ## §2. Parts of a term. -/

/-- The element of an array at a whole number. -/
def item? (items : List Term) (q : Rat) : Option Term :=
  if q.den = 1 ∧ 0 ≤ q.num then items[q.num.toNat]? else none

/-- The part of a term that a key selects: a value of an object, an element of an array, or a
member of a set; anything else is undefined. -/
def part (t k : Term) : Term :=
  match t with
  | .obj pairs => (lookup k pairs).getD .undefined
  | .arr items =>
    match k with
    | .num q => (item? items q).getD .undefined
    | _ => .undefined
  | .set items => if items.any (same k) then k else .undefined
  | _ => .undefined

end Term

end PolicyLookup

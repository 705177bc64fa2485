/-
  PolicyLookup.Yaml.Node — the nodes of a YAML document.

  A plain scalar is null, a truth value, a number or a string, by its form or by its tag.  A
  reference stands for a copy of the node with its anchor.  The fuel of the recursion is
  computed from the number of tokens.
-/

import PolicyLookup.Number.Decimal
import PolicyLookup.Yaml.Token

namespace PolicyLookup.Yaml

/-- A node. -/
inductive Node where
  | null
  | bool (b : Bool)
  | int (n : Int)
  /-- A number with a point or an exponent, as it is written. -/
  | real (text : String)
  | str (s : String)
  | seq (items : List Node)
  | map (pairs : List (Node × Node))
deriving Inhabited

/-! ## §1. Plain scalars. -/

/-- Spellings of infinity and of no number with a point. -/
def pointWords : List String :=
  [".inf", ".Inf", ".INF", "+.inf", "+.Inf", "+.INF", "-.inf", "-.Inf", "-.INF", ".nan", ".NAN"]

/-- Whether a text is a number with a point or an exponent. -/
def isReal (s : String) : Bool := pointWords.contains s || (Number.float? s.toList).isSome

/-- An integer of 64 bits in another base, with an optional sign. -/
def inBase? (base : Nat) (cs : List Char) : Option Int :=
  let (negative, ds) := Json.Literal.readSign true cs
  (Number.inBase? base ds).bind fun n =>
    let i : Int := if negative then -n else n
    if -9223372036854775808 ≤ i ∧ i ≤ 9223372036854775807 then some i else none

/-- An integer, in base ten or with the mark of another base; a plus may come before its sign. -/
def int? (cs : List Char) : Option Int :=
  let marked := match cs with
    | '0' :: 'x' :: ds => inBase? 16 ds
    | '0' :: 'o' :: ds => inBase? 8 ds
    | '+' :: cs => Number.int64Text? cs
    | _ => none
  marked <|> Number.int64Text? cs

/-- The node of a plain text. -/
def Node.ofPlain (s : String) : Node :=
  match int? s.toList with
  | some n => .int n
  | none =>
    if s == "~" || s == "null" then .null
    else if s == "true" then .bool true
    else if s == "false" then .bool false
    else if isReal s then .real s
    else .str s

/-- The node of a plain text under a standard tag; null if the text does not fit the tag. -/
def Node.ofTagged (tag s : String) : Node :=
  match tag with
  | "int" => ((Number.int64Text? s.toList).map Node.int).getD .null
  | "float" => if isReal s then .real s else .null
  | "bool" => if s == "true" then .bool true else if s == "false" then .bool false else .null
  | "null" => .null
  | _ => .str s

/-- The node of a scalar. -/
def Node.ofScalar (tag : Option (String × String)) (plain : Bool) (s : String) : Node :=
  if plain then
    match tag with
    | none => ofPlain s
    | some (handle, suffix) => if handle == "!!" then ofTagged suffix s else .str s
  else .str s

/-! ## §2. Anchors. -/

/-- The anchors so far. -/
structure Anchors where
  /-- The number of the last anchor of each name. -/
  names : List (String × Nat)
  /-- The nodes of anchors that are complete. -/
  nodes : List (Nat × Node)

namespace Anchors

/-- No anchors. -/
def empty : Anchors := ⟨[], []⟩

/-- A new anchor and its number. -/
def add (a : Anchors) (name : String) : Nat × Anchors :=
  (a.names.length, { a with names := (name, a.names.length) :: a.names })

/-- Completes an anchor, if there is one. -/
def complete (a : Anchors) (anchor : Option Nat) (n : Node) : Anchors :=
  match anchor with
  | none => a
  | some i => { a with nodes := (i, n) :: a.nodes }

/-- The node of a name; null while it is incomplete, nothing for a name without anchor. -/
def get? (a : Anchors) (name : String) : Option Node :=
  (a.names.lookup name).map fun i => (a.nodes.lookup i).getD .null

end Anchors

/-! ## §3. Nodes from tokens. -/

/-- The end of a sequence or a mapping, or the beginning of its next part. -/
def endsPart : List Token → Bool
  | .key :: _ => true
  | .value :: _ => true
  | .blockEnd :: _ => true
  | _ => false

/-- The end of a part of a flow sequence. -/
def endsFlowItem : List Token → Bool
  | .comma :: _ => true
  | .flowSequenceEnd :: _ => true
  | _ => false

/-- The end of a part of a flow mapping. -/
def endsFlowPair : List Token → Bool
  | .comma :: _ => true
  | .flowMappingEnd :: _ => true
  | _ => false

/-- The dash of an item comes next. -/
def startsItem : List Token → Bool
  | .item :: _ => true
  | _ => false

/-- The anchors and the tokens after what has been read. -/
abbrev Rest := Anchors × List Token

mutual

/-- A node with its tag and anchor, or a reference.  Block collections may be wanted or not;
the same holds for a sequence whose dashes are not indented. -/
def node? (fuel : Nat) (block loose : Bool) (a : Anchors) (ts : List Token) :
    Option (Node × Rest) :=
  match fuel with
  | 0 => none
  | fuel + 1 =>
    match ts with
    | .alias name :: ts => (a.get? name).map fun n => (n, a, ts)
    | .anchor name :: .tag handle suffix :: ts =>
      let (i, a) := a.add name
      content? fuel block loose (some i) (some (handle, suffix)) a ts
    | .anchor name :: ts =>
      let (i, a) := a.add name
      content? fuel block loose (some i) none a ts
    | .tag handle suffix :: .anchor name :: ts =>
      let (i, a) := a.add name
      content? fuel block loose (some i) (some (handle, suffix)) a ts
    | .tag handle suffix :: ts => content? fuel block loose none (some (handle, suffix)) a ts
    | ts => content? fuel block loose none none a ts

/-- A node without its tag and anchor; they may stand for an empty text. -/
def content? (fuel : Nat) (block loose : Bool) (anchor : Option Nat)
    (tag : Option (String × String)) (a : Anchors) (ts : List Token) : Option (Node × Rest) :=
  match fuel with
  | 0 => none
  | fuel + 1 =>
    let finish := fun (n : Node) ((a, ts) : Rest) => (n, a.complete anchor n, ts)
    let seq := fun (r : List Node × Rest) => finish (.seq r.1) r.2
    let map := fun (r : List (Node × Node) × Rest) => finish (.map r.1) r.2
    let empty :=
      if tag.isSome || anchor.isSome then some (finish (.ofScalar tag true "") (a, ts)) else none
    match ts with
    | .scalar plain text :: ts => some (finish (.ofScalar tag plain text) (a, ts))
    | .flowSequence :: ts => (flowItems? fuel true a ts).map seq
    | .flowMapping :: ts => (flowPairs? fuel true a ts).map map
    | .item :: ts => if loose then (looseItems? fuel a (.item :: ts)).map seq else empty
    | .blockSequence :: ts => if block then (items? fuel a ts).map seq else empty
    | .blockMapping :: ts => if block then (pairs? fuel a ts).map map else empty
    | _ => empty

/-- The items of a block sequence to its end. -/
def items? (fuel : Nat) (a : Anchors) (ts : List Token) : Option (List Node × Rest) :=
  match fuel with
  | 0 => none
  | fuel + 1 =>
    match ts with
    | .blockEnd :: ts => some ([], a, ts)
    | .item :: ts => do
      let isEmpty := startsItem ts || match ts with
        | .blockEnd :: _ => true
        | _ => false
      let (n, a, ts) ← if isEmpty then some (.null, a, ts) else node? fuel true false a ts
      let (ns, r) ← items? fuel a ts
      return (n :: ns, r)
    | _ => none

/-- The items of a sequence whose dashes are not indented. -/
def looseItems? (fuel : Nat) (a : Anchors) (ts : List Token) : Option (List Node × Rest) :=
  match fuel with
  | 0 => none
  | fuel + 1 =>
    match ts with
    | .item :: ts => do
      let (n, a, ts) ←
        if startsItem ts || endsPart ts then some (.null, a, ts) else node? fuel true false a ts
      let (ns, r) ← looseItems? fuel a ts
      return (n :: ns, r)
    | ts => some ([], a, ts)

/-- The pairs of a block mapping to its end. -/
def pairs? (fuel : Nat) (a : Anchors) (ts : List Token) : Option (List (Node × Node) × Rest) :=
  match fuel with
  | 0 => none
  | fuel + 1 => do
    let key : Option (Option Node × Rest) := match ts with
      | .blockEnd :: ts => some (none, a, ts)
      | .key :: ts =>
        if endsPart ts then some (some .null, a, ts)
        else (node? fuel true true a ts).map fun (n, r) => (some n, r)
      | .value :: ts => some (some .null, a, .value :: ts)
      | _ => none
    match ← key with
    | (none, r) => return ([], r)
    | (some k, a, ts) =>
      let (v, a, ts) ← match ts with
        | .value :: ts =>
          if endsPart ts then some (.null, a, ts) else node? fuel true true a ts
        | ts => some (.null, a, ts)
      let (ps, r) ← pairs? fuel a ts
      return ((k, v) :: ps, r)

/-- The items of a flow sequence to its end. -/
def flowItems? (fuel : Nat) (first : Bool) (a : Anchors) (ts : List Token) :
    Option (List Node × Rest) :=
  match fuel with
  | 0 => none
  | fuel + 1 => do
    let ts ← match ts, first with
      | .flowSequenceEnd :: ts, _ => some (.flowSequenceEnd :: ts)
      | ts, true => some ts
      | .comma :: ts, false => some ts
      | _, false => none
    match ts with
    | .flowSequenceEnd :: ts => return ([], a, ts)
    | .key :: ts =>
      let (n, a, ts) ← flowPair? fuel a ts
      let (ns, r) ← flowItems? fuel false a ts
      return (n :: ns, r)
    | ts =>
      let (n, a, ts) ← node? fuel false false a ts
      let (ns, r) ← flowItems? fuel false a ts
      return (n :: ns, r)

/-- A single pair in a flow sequence, from after the mark of its key. -/
def flowPair? (fuel : Nat) (a : Anchors) (ts : List Token) : Option (Node × Rest) :=
  match fuel with
  | 0 => none
  | fuel + 1 => do
    let isEmpty := endsFlowItem ts || match ts with
      | .value :: _ => true
      | _ => false
    let (k, a, ts) ← if isEmpty then some (.null, a, ts.tail) else node? fuel false false a ts
    let (v, a, ts) ← match ts with
      | .value :: ts => if endsFlowItem ts then some (.null, a, ts) else node? fuel false false a ts
      | ts => some (.null, a, ts)
    return (.map [(k, v)], a, ts)

/-- The pairs of a flow mapping to its end. -/
def flowPairs? (fuel : Nat) (first : Bool) (a : Anchors) (ts : List Token) :
    Option (List (Node × Node) × Rest) :=
  match fuel with
  | 0 => none
  | fuel + 1 => do
    let ts ← match ts, first with
      | .flowMappingEnd :: ts, _ => some (.flowMappingEnd :: ts)
      | ts, true => some ts
      | .comma :: ts, false => some ts
      | _, false => none
    let pair : Option (Option (Node × Node) × Rest) := match ts with
      | .flowMappingEnd :: ts => some (none, a, ts)
      | .key :: ts => do
        let isEmpty := endsFlowPair ts || match ts with
          | .value :: _ => true
          | _ => false
        let (k, a, ts) ← if isEmpty then some (.null, a, ts) else node? fuel false false a ts
        let (v, r) ← flowValue? fuel a ts
        return (some (k, v), r)
      | .value :: ts => (flowValue? fuel a (.value :: ts)).map fun (v, r) => (some (.null, v), r)
      | ts => (node? fuel false false a ts).map fun (k, r) => (some (k, .null), r)
    match ← pair with
    | (none, r) => return ([], r)
    | (some p, a, ts) =>
      let (ps, r) ← flowPairs? fuel false a ts
      return (p :: ps, r)

/-- The value after a key in a flow mapping, if there is one. -/
def flowValue? (fuel : Nat) (a : Anchors) (ts : List Token) : Option (Node × Rest) :=
  match fuel with
  | 0 => none
  | fuel + 1 =>
    match ts with
    | .value :: ts => if endsFlowPair ts then some (.null, a, ts) else node? fuel false false a ts
    | ts => some (.null, a, ts)

end

/-! ## §4. Documents. -/

/-- The node of a document, from after its start; it may be missing. -/
def documentNode? (ts : List Token) (a : Anchors) : Option (Node × Rest) :=
  match ts with
  | [] => some (.null, a, [])
  | .directive :: _ => some (.null, a, ts)
  | .documentStart :: _ => some (.null, a, ts)
  | .documentEnd :: _ => some (.null, a, ts)
  | _ => node? (4 * ts.length + 8) true false a ts

/-- The tokens after directives. -/
def skipDirectives : List Token → List Token
  | .directive :: ts => skipDirectives ts
  | ts => ts

/-- The tokens after the ends of documents. -/
def skipEnds : List Token → List Token
  | .documentEnd :: ts => skipEnds ts
  | ts => ts

/-- Documents one after the other.  Only the first one may do without a mark at its start. -/
def documents? (fuel : Nat) (first : Bool) (a : Anchors) (ts : List Token) : Option (List Node) :=
  match fuel with
  | 0 => none
  | fuel + 1 =>
    let ts := if first then ts else skipEnds ts
    let start := match ts with
      | [] => some none
      | _ =>
        match skipDirectives ts with
        | .documentStart :: rest => some (some (documentNode? rest a))
        | _ =>
          match ts with
          | .directive :: _ => none
          | _ => if first then some (some (node? (4 * ts.length + 8) true false a ts)) else none
    match start with
    | none => none
    | some none => some []
    | some (some none) => none
    | some (some (some (n, a, ts))) =>
      let ts := match ts with
        | .documentEnd :: ts => ts
        | ts => ts
      (documents? fuel false a ts).map (n :: ·)

/-- The documents of a text. -/
def Node.ofText? (text : List Char) : Option (List Node) :=
  (Token.ofText? text).bind fun ts => documents? (ts.length + 2) true .empty ts

/-! ## §5. As JSON. -/

mutual

/-- A node as JSON; a number that is not written in digits fails. -/
def Node.toJson? : Node → Option Json
  | .null => some .null
  | .bool b => some (.bool b)
  | .int n => some (.int n)
  | .real text => (Number.float? text.toList).map .float
  | .str s => some (.str s)
  | .seq items => (itemsToJson? items).map .arr
  | .map pairs => (pairsToJson? pairs).map .obj

/-- The items of a sequence as JSON. -/
def itemsToJson? : List Node → Option (List Json)
  | [] => some []
  | n :: rest => do
    let j ← n.toJson?
    let js ← itemsToJson? rest
    return j :: js

/-- The pairs of a mapping as JSON.  Only those whose keys are texts are wanted, and of several
with one key the last. -/
def pairsToJson? : List (Node × Node) → Option (List (String × Json))
  | [] => some []
  | (.str k, v) :: rest => do
    let js ← pairsToJson? rest
    if js.any fun m => m.1 == k then return js
    else
      let j ← v.toJson?
      return (k, j) :: js
  | _ :: rest => pairsToJson? rest

end

/-- The single document of a text as JSON; an empty object if there is no document, nothing if
there are several. -/
def ofText? (text : String) : Option Json :=
  match Node.ofText? text.toList with
  | none => none
  | some [] => some (.obj [])
  | some [n] => n.toJson?
  | some _ => none

end PolicyLookup.Yaml

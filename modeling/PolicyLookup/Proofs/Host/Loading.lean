/-
  PolicyLookup.Proofs.Host.Loading — what a refused load leaves of itself.

  A host is given policies, data and an input, and some of them are refused.  A policy or an input
  is taken as a whole or not at all.  A data document is merged member by member, and what has been
  merged ahead of a conflict stays: the host has gained members that nobody was told it has.  Every
  such member can be noticed later, so a refused load is as good as none exactly if it gained
  nothing.

    * `refused_load_eq` — a refused load has merged what it offers, as far as that went.
    * `datum?_refused_load` — what the data have after it.
    * `refused_load_unnoticed_iff` — which refused loads no later request notices.
-/

import PolicyLookup.Host.Basic
import PolicyLookup.Proofs.Json.RoundTrip
import PolicyLookup.Proofs.Policy.Merging

namespace PolicyLookup

namespace Host

/-- Something that a host is given to evaluate with. -/
inductive Load where
  | policy (path : String) (source : Option Policy.Module)
  | policyFile (path : String) (file : Option (Option Policy.Module))
  | data (text : String)
  | input (text : String)

/-- The members that a load offers to the data. -/
def Load.offers : Load → List (String × Term)
  | .data text =>
    match Json.ofText? text with
    | some (.obj members) => Term.entriesOf members
    | _ => []
  | _ => []

/-- What is asked of a host from outside. -/
inductive Request (σ : Type) where
  | register (f : ExternalFunction σ)
  | load (l : Load)
  | evaluate (signal : SignalId) (thread : Thread) (query : Policy.Expr) (w : σ)

/-- What comes back: whether something was taken, or a value and the world that is left. -/
inductive Response (σ : Type) where
  | taken (result : Except Error Unit)
  | evaluated (result : Except Error Term) (w : σ)

variable {σ : Type}

/-- Gives something to a host. -/
def load (h : Host σ) : Load → Except Error Unit × Host σ
  | .policy path source => h.addPolicy path source
  | .policyFile path file => h.addPolicyFile path file
  | .data text => h.addData text
  | .input text => h.setInput text

/-- A request: the response to it, and the host after it. -/
def ask (h : Host σ) : Request σ → Response σ × Host σ
  | .register f =>
    let (result, h) := h.register f
    (.taken result, h)
  | .load l =>
    let (result, h) := h.load l
    (.taken result, h)
  | .evaluate signal thread query w =>
    let (result, h, w) := h.evaluate signal thread query w
    (.evaluated result w, h)

/-- The responses to requests, one after the other. -/
def responses (h : Host σ) : List (Request σ) → List (Response σ)
  | [] => []
  | r :: rest => (h.ask r).1 :: (h.ask r).2.responses rest

/-- What the data have under a name. -/
def datum? (h : Host σ) (k : String) : Option Term := Term.lookup (.str k) h.engine.data

/-- The members that a load puts into the data: those of its offers that are new, as far as the
merge gets. -/
def gains (h : Host σ) (l : Load) : List (String × Term) :=
  (Policy.Engine.reached h.engine.data l.offers).filter fun e => (h.datum? e.1).isNone

/-! ## §1. A refused load. -/

variable {h : Host σ} {l : Load} {e : Error}

theorem ascending_offers (l : Load) : Keyed.Ascending l.offers := by
  unfold Load.offers
  split
  · split
    · exact Keyed.ascending_ofList _
    · exact .nil
  · exact .nil

/-- A document with members is merged, and it is refused if the merge does not come to its end. -/
theorem addData_obj {text : String} {members : List (String × Json)}
    (htext : Json.ofText? text = some (.obj members)) :
    h.addData text
      = (if (Policy.Engine.mergePairs (Term.pairsOf (Term.entriesOf members)) h.engine.data).1
          then Except.ok () else Except.error (.evaluation .dataRefused),
        { h with engine := { h.engine with
          data := (Policy.Engine.mergePairs (Term.pairsOf (Term.entriesOf members))
            h.engine.data).2 } }) := by
  simp only [addData, htext, Policy.Engine.addData, Term.ofJson_obj]
  rcases Policy.Engine.mergePairs (Term.pairsOf (Term.entriesOf members)) h.engine.data with
    ⟨_ | _, data⟩
  · rfl
  · rfl

/-- **A refused load has merged what it offers, as far as that went**, and has done nothing else. -/
theorem refused_load_eq (hrefused : (h.load l).1 = .error e) :
    (h.load l).2 = { h with engine := { h.engine with
      data := (Policy.Engine.mergePairs (Term.pairsOf l.offers) h.engine.data).2 } } := by
  cases l with
  | policy path source =>
    cases source with
    | none => rfl
    | some m => cases hrefused
  | policyFile path file =>
    rcases file with _ | _ | m
    · rfl
    · rfl
    · cases hrefused
  | input text =>
    simp only [load, setInput] at hrefused ⊢
    cases hj : Json.ofText? text with
    | none => rfl
    | some document =>
      rw [hj] at hrefused
      cases hrefused
  | data text =>
    -- Only a document with members offers anything; the others are refused as they are.
    simp only [load, Load.offers]
    cases hj : Json.ofText? text with
    | none =>
      simp only [addData, hj]
      rfl
    | some document =>
      cases document with
      | obj members => rw [addData_obj hj]
      | _ =>
        simp only [addData, hj]
        rfl

/-- **What the data have after a refused load** they had before, or the load has put it in. -/
theorem datum?_refused_load (hrefused : (h.load l).1 = .error e) (k : String) :
    (h.load l).2.datum? k = (h.datum? k).or (Keyed.get? (h.gains l) k) := by
  have hgains : Keyed.get? (h.gains l) k
      = if (h.datum? k).isNone then Keyed.get? (Policy.Engine.reached h.engine.data l.offers) k
        else none :=
    Keyed.get?_filter (fun name => (h.datum? name).isNone) _ k
  have hmerged : (h.load l).2.datum? k
      = (h.datum? k).or (Keyed.get? (Policy.Engine.reached h.engine.data l.offers) k) := by
    rw [refused_load_eq hrefused]
    exact Policy.Engine.lookup_mergePairs (ascending_offers l) k
  -- What the merge has got to and was there before is not among the gains.
  rw [hmerged, hgains]
  cases h.datum? k with
  | none => rfl
  | some v => rfl

/-- A refused load that gains nothing leaves the host as it was. -/
theorem load_of_gains_nil (hrefused : (h.load l).1 = .error e) (hgains : h.gains l = []) :
    (h.load l).2 = h := by
  have hknown : ∀ e ∈ Policy.Engine.reached h.engine.data l.offers,
      Term.lookup (.str e.1) h.engine.data ≠ none := by
    intro e he hnew
    refine List.filter_eq_nil_iff.mp hgains e he ?_
    unfold datum?
    rw [hnew]
    rfl
  rw [refused_load_eq hrefused, Policy.Engine.mergePairs_of_known hknown]

/-! ## §2. What is noticed later. -/

/-- The text of a document with one member. -/
def probe (k : String) (j : Json) : String := (Json.obj [(k, j)]).compact

/-- A single member is refused exactly if it is there with another value. -/
theorem addData_probe {k : String} {j : Json} (hj : j.Exact) (hdepth : j.depth = 0) :
    (h.addData (probe k j)).1
      = if Policy.Engine.Agrees h.engine.data (k, Term.ofJson j) then Except.ok ()
        else Except.error (.evaluation .dataRefused) := by
  have htext : Json.ofText? (probe k j) = some (.obj [(k, j)]) := by
    apply Json.ofText?_compact
    · exact ⟨hj, trivial⟩
    · simp [Json.depth, Json.membersDepth, hdepth, Json.depthLimit]
  have hentries : Term.entriesOf [(k, j)] = [(k, Term.ofJson j)] := rfl
  rw [addData_obj htext, hentries]
  rcases Policy.Engine.mergePairs_cons k (Term.ofJson j) [] h.engine.data with
    ⟨-, hagrees, hstep⟩ | ⟨_, -, hagrees, hstep⟩ | ⟨hagrees, hstep⟩
  · rw [hstep, hagrees]
    rfl
  · rw [hstep, hagrees]
    rfl
  · rw [hstep, hagrees]

/-- No value is equal to both. -/
theorem not_same_null_or_true (v : Term) :
    Term.same v .null = false ∨ Term.same v (.bool true) = false := by
  cases v with
  | null => exact Or.inr rfl
  | _ => exact Or.inl rfl

/-- A member that one of two hosts has and the other one has not is noticed by one more load. -/
theorem exists_noticing {h' : Host σ} {k : String} {v : Term} (hnew : h.datum? k = none)
    (hv : h'.datum? k = some v) :
    ∃ request : Request σ, h'.responses [request] ≠ h.responses [request] := by
  have hnotices : ∀ j : Json, j.Exact → j.depth = 0 → Term.same v (Term.ofJson j) = false →
      h'.responses [.load (.data (probe k j))] ≠ h.responses [.load (.data (probe k j))] := by
    intro j hj hdepth hsame
    have htaken : (h.addData (probe k j)).1 = .ok () := by
      rw [addData_probe hj hdepth]
      unfold datum? at hnew
      simp only [Policy.Engine.Agrees, hnew, if_true]
    have hrefused : (h'.addData (probe k j)).1 = .error (.evaluation .dataRefused) := by
      rw [addData_probe hj hdepth]
      unfold datum? at hv
      simp only [Policy.Engine.Agrees, hv, hsame, Bool.false_eq_true, if_false]
    simp [responses, ask, load, htaken, hrefused]
  -- One of the two values differs from the one that is there.
  rcases not_same_null_or_true v with hsame | hsame
  · exact ⟨_, hnotices .null trivial rfl hsame⟩
  · exact ⟨_, hnotices (.bool true) trivial rfl hsame⟩

/-- **Which refused loads go unnoticed**: a refused load changes nothing but the data, where it
leaves what it has gained; and later requests are answered as if it had not been made exactly if it
has gained nothing. -/
theorem refused_load_unnoticed_iff (hrefused : (h.load l).1 = .error e) :
    (h.load l).2 = { h with engine := { h.engine with data := (h.load l).2.engine.data } } ∧
    (∀ k, (h.load l).2.datum? k = (h.datum? k).or (Keyed.get? (h.gains l) k)) ∧
    ((∀ requests, (h.load l).2.responses requests = h.responses requests) ↔ h.gains l = []) := by
  refine ⟨by rw [refused_load_eq hrefused], datum?_refused_load hrefused, ?_, ?_⟩
  · intro hunnoticed
    by_contra hgains
    -- The first member that was gained is new, and it is there afterwards.
    obtain ⟨⟨k, v⟩, rest, hcons⟩ := List.exists_cons_of_ne_nil hgains
    have hnew : h.datum? k = none := by
      have hmem : (k, v) ∈ h.gains l := hcons ▸ List.mem_cons_self
      exact Option.isNone_iff_eq_none.mp (List.mem_filter.mp hmem).2
    have hv : (h.load l).2.datum? k = some v := by
      rw [datum?_refused_load hrefused, hnew, hcons, Keyed.get?, if_pos rfl]
      rfl
    obtain ⟨request, hnoticed⟩ := exists_noticing hnew hv
    exact hnoticed (hunnoticed [request])
  · intro hgains requests
    rw [load_of_gains_nil hrefused hgains]

/-! ## §3. A limit and a document that is refused. -/

/-- What a document's text is, it reads as. -/
theorem ofText?_of_compact {text : String} {j : Json} (htext : j.compact = text) (hj : j.Exact)
    (hdepth : j.depth ≤ Json.depthLimit) : Json.ofText? text = some j := by
  rw [← htext]
  exact Json.ofText?_compact hj hdepth

/-- A new host that has been given a limit. -/
def limited : Host Unit :=
  ((Host.new ⟨fun _ => "", fun _ w => w⟩).load (.data "\x7b\"limit\":1\x7d")).2

/-- A document that opens everything and changes the limit. -/
def overreaching : Load := .data "\x7b\"admin\":true,\"limit\":2\x7d"

theorem limited_eq :
    limited = { Host.new ⟨fun _ => "", fun _ w => w⟩ with
      engine := { Policy.Engine.empty with data := [(.str "limit", .num 1)] } } := by
  have htext : Json.ofText? "\x7b\"limit\":1\x7d" = some (.obj [("limit", .int 1)]) :=
    ofText?_of_compact (by decide +kernel) (by simp [Json.Exact, Json.MembersExact]) (by decide)
  have hentries : Term.entriesOf [("limit", .int 1)] = [("limit", .num 1)] := by rfl
  rw [limited, load, addData_obj htext, hentries]
  rfl

theorem ofText?_overreaching :
    Json.ofText? "\x7b\"admin\":true,\"limit\":2\x7d"
      = some (.obj [("admin", .bool true), ("limit", .int 2)]) :=
  ofText?_of_compact (by decide +kernel) (by simp [Json.Exact, Json.MembersExact]) (by decide)

theorem entriesOf_overreaching :
    Term.entriesOf [("admin", .bool true), ("limit", .int 2)]
      = [("admin", .bool true), ("limit", .num 2)] := by
  have hlt : ¬ "limit" < "admin" := by decide +kernel
  have hne : ("limit" : String) ≠ "admin" := by decide
  show Keyed.insert "limit" (Term.num 2) [("admin", Term.bool true)] = _
  rw [Keyed.insert, if_neg hlt, if_neg hne]
  rfl

/-- The limit is refused, what comes ahead of it is not. -/
theorem load_overreaching :
    limited.load overreaching
      = (.error (.evaluation .dataRefused), { limited with engine := { limited.engine with
          data := [(.str "admin", .bool true), (.str "limit", .num 1)] } }) := by
  have hmerged : Policy.Engine.mergePairs
      (Term.pairsOf [("admin", .bool true), ("limit", .num 2)]) limited.engine.data
      = (false, [(.str "admin", .bool true), (.str "limit", .num 1)]) := by
    have hcmp : Term.cmpString "admin" "limit" = .lt := if_pos (by decide +kernel)
    rw [limited_eq]
    simp only [Term.pairsOf, List.map_cons, List.map_nil, Policy.Engine.mergePairs, Term.lookup,
      Term.same_str_str, Term.insertPair, Term.cmp_str_str, hcmp]
    rfl
  rw [overreaching, load, addData_obj ofText?_overreaching, entriesOf_overreaching, hmerged]
  rfl

theorem refused_load_unnoticed_iff_overreaching :
    (limited.load overreaching).1 = .error (.evaluation .dataRefused) ∧
    ∃ requests, (limited.load overreaching).2.responses requests ≠ limited.responses requests := by
  have hrefused : (limited.load overreaching).1 = .error (.evaluation .dataRefused) := by
    rw [load_overreaching]
  have hadmin : limited.datum? "admin" = none := by
    rw [limited_eq]
    rfl
  have hlimit : limited.datum? "limit" = some (.num 1) := by
    rw [limited_eq]
    rfl
  have hgains : limited.gains overreaching = [("admin", .bool true)] := by
    unfold gains overreaching Load.offers
    simp only [ofText?_overreaching, entriesOf_overreaching]
    unfold datum? at hadmin hlimit
    rw [Policy.Engine.reached_cons_of_agrees (by simp only [Policy.Engine.Agrees, hadmin]),
      Policy.Engine.reached_cons_of_not_agrees (by simp only [Policy.Engine.Agrees, hlimit]; rfl),
      List.filter_cons_of_pos (by unfold datum?; rw [hadmin]; rfl), List.filter_nil]
  refine ⟨hrefused, not_forall.mp ?_⟩
  intro hunnoticed
  have hnil := (refused_load_unnoticed_iff hrefused).2.2.mp hunnoticed
  rw [hgains] at hnil
  cases hnil

/-- A query finds what was refused: the value of a member ahead of the conflict. -/
theorem refused_data_found :
    (limited.load overreaching).1 = .error (.evaluation .dataRefused) ∧
    limited.responses [.evaluate 0 .plain (.ref "data" [.str "admin"]) ()]
      = [.evaluated (.ok .undefined) ()] ∧
    (limited.load overreaching).2.responses [.evaluate 0 .plain (.ref "data" [.str "admin"]) ()]
      = [.evaluated (.ok (.bool true)) ()] := by
  rw [load_overreaching, limited_eq]
  exact ⟨rfl, rfl, rfl⟩

end Host

end PolicyLookup

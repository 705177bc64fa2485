/-
  PolicyLookup.Host.Basic — a policy engine with external functions.

  A host takes functions, policies, data and an input, and evaluates queries.  A function is
  installed under a valid name that no other one has; the engine learns the same names with the
  same numbers of arguments.  What cannot be loaded is an error, and the host goes on.
-/

import PolicyLookup.Host.Call
import PolicyLookup.Json.Reader
import PolicyLookup.Policy.Evaluation
import PolicyLookup.Policy.Text

namespace PolicyLookup

/-- A host whose functions act on a world `σ`. -/
structure Host (σ : Type) where
  site : CallSite σ
  /-- The installed functions in the order of their installation. -/
  functions : List (ExternalFunction σ)
  engine : Policy.Engine
  slot : Slot

namespace Host

variable {σ : Type}

/-- A host without functions and policies. -/
def new (site : CallSite σ) : Host σ := ⟨site, [], .empty, .empty⟩

/-- The declarations of the installed functions. -/
def signatures (h : Host σ) : List Signature := h.functions.map (·.signature)

/-! ## §1. Functions. -/

/-- The name of a function is taken. -/
def alreadyRegistered (name : String) : Error := .registration "already registered" name

/-- The engine cannot count the arguments of a function. -/
def arityTooLarge (name : String) : Error := .registration "too many arguments" name

/-- The engine did not take a function. -/
def engineRefused (name : String) : Error :=
  .registration "the engine has an extension of this name" name

/-- Installs a function. -/
def register (h : Host σ) (f : ExternalFunction σ) : Except Error Unit × Host σ :=
  let name := f.signature.name
  match f.signature.validate with
  | .error e => (.error e, h)
  | .ok () =>
    if h.functions.any fun g => g.signature.name == name then (.error (alreadyRegistered name), h)
    else if Signature.maxArity < f.signature.arity then (.error (arityTooLarge name), h)
    else
      match h.engine.addExtension name f.signature.arity with
      | none => (.error (engineRefused name), h)
      | some engine => (.ok (), { h with functions := h.functions ++ [f], engine := engine })

/-! ## §2. Policies and documents. -/

/-- Adds a policy.  `source` is the module that its text denotes, if it is a policy; `path` is
for messages only. -/
def addPolicy (h : Host σ) (path : String) (source : Option Policy.Module) :
    Except Error Unit × Host σ :=
  match source with
  | none => (.error (.evaluation (.policyRefused path)), h)
  | some m => (.ok (), { h with engine := h.engine.addModule m })

/-- A file could not be read. -/
def unreadable : Error := .io "cannot read file"

/-- Adds a policy from a file that may be missing. -/
def addPolicyFile (h : Host σ) (path : String) (file : Option (Option Policy.Module)) :
    Except Error Unit × Host σ :=
  match file with
  | none => (.error unreadable, h)
  | some source => h.addPolicy path source

/-- Merges the text of a document into the data. -/
def addData (h : Host σ) (text : String) : Except Error Unit × Host σ :=
  match Json.ofText? text with
  | none => (.error (.evaluation .dataUnreadable), h)
  | some document =>
    match h.engine.addData (Term.ofJson document) with
    | (true, engine) => (.ok (), { h with engine := engine })
    | (false, engine) => (.error (.evaluation .dataRefused), { h with engine := engine })

/-- Sets the input from the text of a document. -/
def setInput (h : Host σ) (text : String) : Except Error Unit × Host σ :=
  match Json.ofText? text with
  | none => (.error (.evaluation .inputUnreadable), h)
  | some document => (.ok (), { h with engine := h.engine.setInput (Term.ofJson document) })

/-! ## §3. Queries. -/

/-- Evaluates whatever script an engine follows. -/
def evaluateScript (h : Host σ) {α : Type} (signal : SignalId) (thread : Thread)
    (script : Script σ (Except EvaluationFault α)) (w : σ) : Except Error α × Host σ × σ :=
  let (result, s) := h.site.evaluate h.functions signal thread script ⟨h.slot, w⟩
  (result, { h with slot := s.slot }, s.world)

/-- What an engine does for a query. -/
def queryScript (engine : Policy.Engine) (query : Policy.Expr) :
    Script σ (Except EvaluationFault Term) :=
  (engine.evaluate query).bind fun outcome => .done (outcome.mapError fun _ => .engine)

/-- Evaluates a query; its value may be undefined. -/
def evaluate (h : Host σ) (signal : SignalId) (thread : Thread) (query : Policy.Expr) (w : σ) :
    Except Error Term × Host σ × σ :=
  h.evaluateScript signal thread (queryScript h.engine query) w

/-- The document of a query's value, if it is defined. -/
def valueDocument (t : Term) : Option Json := if t.isDefined then some t.toJson else none

/-- The document of a query's results: one expression with its value, text and place. -/
def resultsDocument (query : Policy.Expr) (t : Term) : Json :=
  match valueDocument t with
  | none => .obj []
  | some value =>
    .obj [("result", .arr [.obj [("expressions", .arr [.obj [
      ("value", value),
      ("text", .str query.text),
      ("location", .obj [("row", .int 1), ("col", .int 1)])]])]])]

end Host

end PolicyLookup

/-
  PolicyLookup.Error — why an operation of the library fails.

  An error belongs to a category and carries what that category knows about the cause.  An
  external function may fail with any error, so messages are data here; the library's own
  causes have names where they arise.  `detail` is the message, `message` puts the words of
  the category before it.
-/

namespace PolicyLookup

/-- A failure that a store reports. -/
inductive StoreError where
  /-- The store gives its own reason. -/
  | reported (message : String)
  /-- The client of a remote store failed, in words of its own. -/
  | client
deriving DecidableEq, Inhabited

/-- What went wrong with a query. -/
inductive QueryFailure where
  | notInitialized
  | storeFailure
  | deadlineExceeded
  | cancelled
  | resultTooLarge
deriving DecidableEq, Inhabited

/-- The name of a query failure in messages. -/
def QueryFailure.name : QueryFailure → String
  | .notInitialized => "not_initialized"
  | .storeFailure => "store_failure"
  | .deadlineExceeded => "deadline_exceeded"
  | .cancelled => "cancelled"
  | .resultTooLarge => "result_too_large"

/-- What went wrong in the policy engine. -/
inductive EvaluationFault where
  /-- The engine gave up a query; its words are not known here. -/
  | engine
  /-- The cause in given words: those of the engine, or of an external function. -/
  | stated (message : String)
  | policyRefused (path : String)
  | dataUnreadable
  | dataRefused
  | inputUnreadable
deriving DecidableEq, Inhabited

namespace EvaluationFault

/-- The message of a fault, as far as it is worded here. -/
def detail : EvaluationFault → String
  | .engine => "query failed"
  | .stated message => message
  | .policyRefused path => "failed to load policy " ++ path
  | .dataUnreadable => "invalid data document"
  | .dataRefused => "failed to add data"
  | .inputUnreadable => "invalid input document"

end EvaluationFault

/-- A failure, by category. -/
inductive Error where
  | config (message : String) (key : Option String)
  /-- The settings could not be read, for a reason worded by the reader of their format. -/
  | configUnreadable
  | connection (message : String) (cause : Option StoreError)
  | type (message : String) (position : Option Nat)
  | encoding (message : String) (path : String)
  | query (failure : QueryFailure) (message : String) (cause : Option StoreError)
  | registration (message : String) (function : String)
  | evaluation (fault : EvaluationFault)
  | io (message : String)
  | serialization (message : String)
  | internal (message : String)
deriving DecidableEq, Inhabited

namespace Error

/-- The error of an argument, counted from 1. -/
def argument (position : Nat) (message : String) : Error :=
  .type (s!"argument {position}: " ++ message) (some position)

/-- The error of a find that the store answered with a failure. -/
def storeFailure (message : String) (cause : StoreError) : Error :=
  .query .storeFailure message (some cause)

/-- The name of an error's category. -/
def category : Error → String
  | .config .. => "config"
  | .configUnreadable => "config"
  | .connection .. => "connection"
  | .type .. => "type"
  | .encoding .. => "encoding"
  | .query .. => "query"
  | .registration .. => "registration"
  | .evaluation .. => "evaluation"
  | .io .. => "io"
  | .serialization .. => "serialization"
  | .internal .. => "internal"

/-- What the error says beyond its category. -/
def detail : Error → String
  | .config message _ => message
  | .configUnreadable => "failed to load configuration"
  | .connection message _ => message
  | .type message _ => message
  | .encoding message _ => message
  | .query _ message _ => message
  | .registration message _ => message
  | .evaluation fault => fault.detail
  | .io message => message
  | .serialization message => message
  | .internal message => message

/-- The words before the detail. -/
def heading : Error → String
  | .config .. => "Configuration error"
  | .configUnreadable => "Configuration error"
  | .connection .. => "Connection error"
  | .type .. => "Type error"
  | .encoding _ path => s!"Encoding error at `{path}`"
  | .query failure .. => s!"Query error ({failure.name})"
  | .registration _ function => s!"Registration error for `{function}`"
  | .evaluation .. => "Evaluation error"
  | .io .. => "I/O error"
  | .serialization .. => "Serialization error"
  | .internal .. => "Internal error"

/-- The whole text of an error. -/
def message (e : Error) : String := e.heading ++ ": " ++ e.detail

/-! ## §1. What callers ask about an error. -/

/-- Whether a later attempt may succeed: the store failed or was too slow. -/
def isRecoverable : Error → Bool
  | .query .storeFailure .. => true
  | .query .deadlineExceeded .. => true
  | _ => false

/-- Whether the process should stop: its settings or its connection are unusable. -/
def isFatal : Error → Bool
  | .config .. => true
  | .configUnreadable => true
  | .connection .. => true
  | _ => false

/-- The kind of a failed query. -/
def queryFailure? : Error → Option QueryFailure
  | .query failure .. => some failure
  | _ => none

/-- The store's failure behind the error. -/
def cause? : Error → Option StoreError
  | .connection _ cause => cause
  | .query _ _ cause => cause
  | _ => none

/-- The position of the argument that is to blame. -/
def position? : Error → Option Nat
  | .type _ position => position
  | _ => none

/-- The path to the part that could not be converted. -/
def path? : Error → Option String
  | .encoding _ path => some path
  | _ => none

/-- The setting that is to blame. -/
def key? : Error → Option String
  | .config _ key => key
  | _ => none

/-- The function whose registration failed. -/
def function? : Error → Option String
  | .registration _ function => some function
  | _ => none

end Error

end PolicyLookup

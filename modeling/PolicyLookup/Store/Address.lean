/-
  PolicyLookup.Store.Address — addresses of remote stores.

  An address is `mongodb://`, optional credentials and `@`, hosts separated by commas, each with
  an optional number after a colon, and optionally a slash with the name of a database, a
  question mark, and options.  Addresses whose hosts would have to be looked up are refused,
  because there is no name service here.
-/

import PolicyLookup.Store.AddressOption

namespace PolicyLookup

/-- Where a server listens. -/
inductive Endpoint where
  /-- A host and the number of the service on it. -/
  | host (name : String) (service : Nat)
  | socket (path : String)
deriving DecidableEq, Inhabited

/-- Where a remote store listens. -/
structure Address where
  endpoints : List Endpoint
deriving DecidableEq, Inhabited

namespace Address

open AddressOption

/-- The rest of a text after a beginning that it must have. -/
def after? : (start text : List Char) → Option (List Char)
  | [], text => some text
  | _ :: _, [] => none
  | s :: start, c :: text => if s = c then after? start text else none

/-- The service of a host that names none. -/
def defaultService : Nat := 27017

/-- The number of a service. -/
def service? (cs : List Char) : Option Nat :=
  match natural? 65535 cs with
  | some 0 => none
  | p => p

/-- The end of the name of a socket. -/
def socketSuffix : List Char := ['.', 's', 'o', 'c', 'k']

/-- A host with an optional service, or a socket. -/
def endpoint? (cs : List Char) : Option Endpoint :=
  if socketSuffix.isSuffixOf cs then some (.socket (String.ofList cs))
  else
    match splitAt ':' cs with
    | [name] => if name.isEmpty then none else some (.host (lower name) defaultService)
    | [name, number] => if name.isEmpty then none else (service? number).map (.host (lower name))
    | _ => none

/-! ## §1. Credentials. -/

/-- Characters that credentials must not have unencoded. -/
def isReserved (c : Char) : Bool := [':', '/', '?', '#', '[', ']', '@'].contains c

/-- Every percent sign begins the code of a byte. -/
def percentsAreCodes : List Char → Bool
  | [] => true
  | '%' :: rest =>
    match rest with
    | a :: b :: _ =>
      (Text.Hex.digit? a).isSome && (Text.Hex.digit? b).isSome && percentsAreCodes rest
    | _ => false
  | _ :: rest => percentsAreCodes rest

/-- Whether a name or a password is properly encoded. -/
def isUserInfo (cs : List Char) : Bool :=
  !cs.any isReserved && percentsAreCodes cs && (percentDecode? cs).isSome

/-- The name and the password before the hosts, as far as they are there. -/
structure Credentials where
  username : Option (List Char)
  password : Option (List Char)

/-- Nothing for an empty text. -/
def nonEmpty (cs : List Char) : Option (List Char) := if cs.isEmpty then none else some cs

/-- Takes credentials apart at the first colon. -/
def Credentials.ofChars (cs : List Char) : Credentials :=
  match cut? ':' cs with
  | none => ⟨nonEmpty cs, none⟩
  | some (username, password) => ⟨nonEmpty username, some password⟩

/-- Whether credentials are properly encoded. -/
def Credentials.areEncoded (c : Credentials) : Bool :=
  match c.username with
  | none => true
  | some name => isUserInfo name && isUserInfo (c.password.getD [])

/-- Whether credentials are what a mechanism of authentication needs. -/
def Credentials.suit (c : Credentials) (source : List String) (mechanism : String) : Bool :=
  if mechanism == "MONGODB-X509" then
    (c.username.isNone || c.password.isNone) && source.all (· == "$external")
  else if mechanism == "PLAIN" then c.username.isSome && c.password.isSome
  else if mechanism == "GSSAPI" then true
  else c.username.isSome

/-- Whether credentials and options say how to authenticate, if an `@` asks for it. -/
def authenticates (requested : Bool) (c : Credentials) (options : List AddressOption) : Bool :=
  match values options "authmechanism" with
  | [] => c.username.isSome || !requested
  | mechanisms => mechanisms.all (c.suit (values options "authsource"))

/-! ## §2. Reading. -/

/-- Characters that the name of a database must not have. -/
def isIllegalInDatabase (c : Char) : Bool := ['/', '\\', ' ', '"', '$'].contains c

/-- Whether a text can name the database of an address. -/
def isDatabase (cs : List Char) : Bool :=
  match percentDecode? cs with
  | some name => !name.toList.any isIllegalInDatabase
  | none => false

/-- The text before the last `@`, if there is one, and the text after it. -/
def cutCredentials (cs : List Char) : Option (List Char) × List Char :=
  match cut? '@' cs.reverse with
  | none => (none, cs)
  | some (hosts, credentials) => (some credentials.reverse, hosts.reverse)

/-- The part with the hosts, the database, and the options. -/
def sections? (cs : List Char) : Option (List Char × List Char × List Char) :=
  match cut? '/' cs with
  | none => if cs.contains '?' then none else some (cs, [], [])
  | some (place, tail) =>
    match cut? '?' tail with
    | none => some (place, tail, [])
    | some (database, options) => some (place, database, options)

/-- Reads an address; `none` if a client cannot be made for it. -/
def ofText? (text : String) : Option Address := do
  let rest ← after? ['m', 'o', 'n', 'g', 'o', 'd', 'b', ':', '/', '/'] text.toList
  let (place, database, options) ← sections? rest
  let (user, hosts) := cutCredentials place
  let endpoints ← (splitAt ',' hosts).mapM endpoint?
  let options ← AddressOption.ofChars? options
  let credentials := Credentials.ofChars (user.getD [])
  if isDatabase database && credentials.areEncoded
      && authenticates user.isSome credentials options
      && areConsistent options endpoints.length then
    return ⟨endpoints⟩
  else none

end Address

end PolicyLookup

/-
  PolicyLookup.Store.AddressOption — options at the end of an address.

  Options are pairs joined by `&`, their values percent-encoded.  Names are compared without
  regard to case.  Each option has a form that its value must have, unknown options are refused,
  and some options exclude each other.
-/

import PolicyLookup.Number.Digits
import PolicyLookup.Text.Hex

namespace PolicyLookup

/-- An option: its name in lower case, and its decoded value. -/
structure AddressOption where
  key : String
  value : String
deriving DecidableEq, Inhabited

namespace AddressOption

/-! ## §1. Parts of a text. -/

/-- The parts of a text between separators. -/
def splitAt (separator : Char) : List Char → List (List Char)
  | [] => [[]]
  | c :: rest =>
    if c = separator then [] :: splitAt separator rest
    else
      match splitAt separator rest with
      | [] => [[c]]
      | part :: parts => (c :: part) :: parts

/-- A text before and after the first separator, if it has one. -/
def cut? (separator : Char) (cs : List Char) : Option (List Char × List Char) :=
  match cs.dropWhile (· != separator) with
  | [] => none
  | _ :: rest => some (cs.takeWhile (· != separator), rest)

/-- The bytes of a text in which `%` and two hexadecimal digits stand for a byte. -/
def percentBytes : List Char → List UInt8
  | '%' :: a :: b :: rest =>
    match Text.Hex.digit? a, Text.Hex.digit? b with
    | some x, some y => UInt8.ofNat (16 * x + y) :: percentBytes rest
    | _, _ => 37 :: percentBytes (a :: b :: rest)
  | c :: rest => (String.singleton c).toUTF8.toList ++ percentBytes rest
  | [] => []

/-- A percent-encoded text, if its bytes are UTF-8. -/
def percentDecode? (cs : List Char) : Option String :=
  String.fromUTF8? (ByteArray.mk (percentBytes cs).toArray)

/-- Letters of the alphabet in lower case. -/
def lower (cs : List Char) : String := String.ofList (cs.map Char.toLower)

/-! ## §2. Forms of values. -/

/-- A number up to `largest`, with an optional plus sign. -/
def natural? (largest : Nat) (cs : List Char) : Option Nat :=
  let ds := match cs with
    | '+' :: ds => ds
    | ds => ds
  let n := Number.ofDigits ds
  if !ds.isEmpty && ds.all Number.isDigit && decide (n ≤ largest) then some n else none

/-- A number with an optional sign, as far as both bounds allow. -/
def integer? (smallest largest : Int) (cs : List Char) : Option Int :=
  let (negative, ds) := match cs with
    | '-' :: ds => (true, ds)
    | '+' :: ds => (false, ds)
    | ds => (false, ds)
  let n : Int := if negative then -Number.ofDigits ds else Number.ofDigits ds
  if !ds.isEmpty && ds.all Number.isDigit && decide (smallest ≤ n) && decide (n ≤ largest) then
    some n
  else none

/-- The form of an option's value. -/
inductive Form where
  | text
  | flag
  /-- A number of milliseconds, at least as many as given. -/
  | duration (least : Nat)
  /-- A count of at least the given size. -/
  | count (least : Nat)
  /-- A number between two bounds. -/
  | range (smallest largest : Int)
  /-- One of some words, in any case. -/
  | word (words : List String)
  /-- One of some words, in the given spelling. -/
  | name (words : List String)
  /-- A replica tag list: pairs joined by commas. -/
  | tags
  /-- Pairs joined by commas. -/
  | properties
  /-- A number that is not negative, or the name of a write rule. -/
  | acknowledgement

/-- Whether a text is a list of pairs with a colon, joined by commas. -/
def isPairs (cs : List Char) : Bool := (splitAt ',' cs).all fun part => part.contains ':'

/-- Whether a value has a form. -/
def Form.accepts (form : Form) (value : String) : Bool :=
  let cs := value.toList
  match form with
  | .text => true
  | .flag => value == "true" || value == "false"
  | .duration least =>
    match natural? 18446744073709551615 cs with
    | some n => decide (least ≤ n)
    | none => false
  | .count least =>
    match natural? 4294967295 cs with
    | some n => decide (least ≤ n)
    | none => false
  | .range smallest largest => (integer? smallest largest cs).isSome
  | .word words => words.contains (lower cs)
  | .name words => words.contains value
  | .tags => cs.isEmpty || isPairs cs
  | .properties => isPairs cs
  | .acknowledgement =>
    match integer? (-2147483648) 2147483647 cs with
    | some n => decide (0 ≤ n)
    | none => true

/-- The options and their forms. -/
def forms : List (String × Form) :=
  [("appname", .text),
   ("authmechanism", .name ["SCRAM-SHA-1", "SCRAM-SHA-256", "MONGODB-X509", "GSSAPI", "PLAIN"]),
   ("authmechanismproperties", .properties),
   ("authsource", .text),
   ("compressors", .text),
   ("connecttimeoutms", .duration 0),
   ("directconnection", .flag),
   ("heartbeatfrequencyms", .duration 500),
   ("journal", .flag),
   ("loadbalanced", .flag),
   ("localthresholdms", .duration 0),
   ("maxconnecting", .count 1),
   ("maxidletimems", .duration 0),
   ("maxpoolsize", .count 1),
   ("maxstalenessseconds", .range (-1) 9223372036854775807),
   ("minpoolsize", .count 0),
   ("readconcernlevel", .text),
   ("readpreference",
     .word ["primary", "secondary", "primarypreferred", "secondarypreferred", "nearest"]),
   ("readpreferencetags", .tags),
   ("replicaset", .text),
   ("retryreads", .flag),
   ("retrywrites", .flag),
   ("serverselectiontimeoutms", .duration 0),
   ("sockettimeoutms", .duration 0),
   ("srvmaxhosts", .count 0),
   ("ssl", .flag),
   ("tls", .flag),
   ("tlsallowinvalidcertificates", .flag),
   ("tlscafile", .text),
   ("tlscertificatekeyfile", .text),
   ("tlsinsecure", .flag),
   ("uuidrepresentation", .word ["csharplegacy", "javalegacy", "pythonlegacy"]),
   ("w", .acknowledgement),
   ("waitqueuetimeoutms", .duration 0),
   ("wtimeoutms", .duration 0),
   ("zlibcompressionlevel", .range (-1) 9)]

/-- The form of the option of a name. -/
def form? (key : String) : Option Form := (forms.find? fun f => f.1 == key).map Prod.snd

/-! ## §3. Reading. -/

/-- Whether no name is given twice; lists of tags may be. -/
def allDistinct : List (List Char) → Bool
  | [] => true
  | key :: rest =>
    (lower key == "readpreferencetags" || !rest.contains key) && allDistinct rest

/-- One option of a known name, its value being of the right form. -/
def ofPair? (pair : List Char × List Char) : Option AddressOption := do
  let key := lower pair.1
  let value ← percentDecode? pair.2
  let form ← form? key
  if form.accepts value then return ⟨key, value⟩ else none

/-- Reads the options of an address. -/
def ofChars? (cs : List Char) : Option (List AddressOption) := do
  if cs.isEmpty then return []
  let pairs ← (splitAt '&' cs).mapM (cut? '=')
  if allDistinct (pairs.map Prod.fst) then pairs.mapM ofPair? else none

/-! ## §4. Options that depend on each other. -/

/-- The values of an option. -/
def values (options : List AddressOption) (key : String) : List String :=
  options.filterMap fun o => if o.key = key then some o.value else none

/-- Whether an option is there. -/
def has (options : List AddressOption) (key : String) : Bool :=
  options.any fun o => o.key == key

/-- Whether an option has a value. -/
def is (options : List AddressOption) (key value : String) : Bool :=
  options.any fun o => o.key == key && o.value == value

/-- Encryption is switched on or off, but not both, and details of it need it on. -/
def tlsAgrees (options : List AddressOption) : Bool :=
  let on := is options "tls" "true" || is options "ssl" "true"
  let off := is options "tls" "false" || is options "ssl" "false"
  let detailed := ["tlsinsecure", "tlsallowinvalidcertificates", "tlscafile",
    "tlscertificatekeyfile"].any (has options)
  !(off && (on || detailed))

/-- Tags and staleness refine a preference for certain servers. -/
def preferenceAgrees (options : List AddressOption) : Bool :=
  has options "readpreference"
    || !(has options "readpreferencetags" || has options "maxstalenessseconds")

/-- One server, and how it is connected to. -/
def topologyAgrees (options : List AddressOption) (hosts : Nat) : Bool :=
  let direct := is options "directconnection" "true"
  let balanced := is options "loadbalanced" "true"
  !(direct && decide (1 < hosts))
    && !(balanced && (decide (1 < hosts) || direct || has options "replicaset"))

/-- A write that nobody acknowledges cannot ask for the journal. -/
def writesAgree (options : List AddressOption) : Bool :=
  !(is options "w" "0" && is options "journal" "true")

/-- Whether the options are consistent, for so many hosts. -/
def areConsistent (options : List AddressOption) (hosts : Nat) : Bool :=
  tlsAgrees options && preferenceAgrees options && topologyAgrees options hosts
    && writesAgree options && !is options "authsource" ""

end AddressOption

end PolicyLookup

import MernChat.Library.Pattern
import MernChat.Runtime.IsoDate
import MernChat.Runtime.JsonText

/-!
# The logger

Metadata is a tree of objects, arrays, strings, numbers, booleans, null and errors. What the logger
makes of it has no errors, and a field `__proto__` becomes the prototype of its object.

## Main definitions

* `sanitizeString`: a text with its connection URLs and bearer tokens redacted
* `LogValue`, `Sanitized`: metadata, and what is left of it
* `sanitizeValue`: metadata with its sensitive fields redacted
* `write`: the line of a log entry
-/

namespace MernChat

open Library

/-! ## Texts -/

def isDigitUnit (c : UInt16) : Bool := 0x30 ≤ c && c ≤ 0x39

/-- `[a-z0-9+.-]`, in either case. -/
def schemeUnit (c : UInt16) : Bool :=
  isLetter c || isDigitUnit c || c == 0x2B || c == 0x2E || c == 0x2D

/-- `[^\s:@/]`. -/
def userUnit (c : UInt16) : Bool := !(isWhiteSpace c || c == 0x3A || c == 0x40 || c == 0x2F)

/-- `[^\s@/]`. -/
def passwordUnit (c : UInt16) : Bool := !(isWhiteSpace c || c == 0x40 || c == 0x2F)

/-- A unit of `\w`. -/
def wordUnit (c : UInt16) : Bool := isLetter c || isDigitUnit c || c == 0x5F

/-- `[a-z][a-z0-9+.-]*:\/\/`. -/
def schemePieces : List (Piece UInt16) :=
  [.one isLetter, .star schemeUnit, .one (· == 0x3A), .one (· == 0x2F), .one (· == 0x2F)]

/-- `[^\s:@/]+:[^\s@/]+@`. -/
def credentialPieces : List (Piece UInt16) :=
  [.plus userUnit, .one (· == 0x3A), .plus passwordUnit, .one (· == 0x40)]

/-- `/([a-z][a-z0-9+.-]*:\/\/)([^\s:@/]+):([^\s@/]+)@/gi`. -/
def connectionPattern : List (Piece UInt16) := schemePieces ++ credentialPieces

/-- `/\bBearer\s+[^\s]+/gi`. -/
def bearerPattern : List (Piece UInt16) :=
  .boundary wordUnit :: (js "bearer").map (fun x => .one fun c => asciiLower c == x) ++
    [.plus isWhiteSpace, .plus fun c => !isWhiteSpace c]

/-- `$1[REDACTED]@`. -/
def redactedConnection (texts : List JsString) : JsString :=
  (texts.take schemePieces.length).flatten ++ js "[REDACTED]@"

def sanitizeString (value : JsString) : JsString :=
  replaceAll bearerPattern (fun _ => js "Bearer [REDACTED]")
    (replaceAll connectionPattern redactedConnection value)

/-! ## Metadata -/

/-- A number of JavaScript. -/
inductive LogNumber
  | finite (n : JsonNumber)
  | NaN
  | Infinity
  | negativeInfinity
deriving DecidableEq

/-- A tree of metadata. The fields of an object stand in the order of `Object.entries`; an error
has its name, its message, its stack if it has one, and fields of its own. -/
inductive LogValue
  | null
  | bool (b : Bool)
  | num (n : LogNumber)
  | str (s : JsString)
  | arr (elements : List LogValue)
  | obj (fields : List (JsString × LogValue))
  | error (name message : JsString) (stack : Option JsString) (fields : List (JsString × LogValue))

/-- What `sanitizeValue` returns. An object has a prototype of its own, if one was set. -/
inductive Sanitized
  | null
  | bool (b : Bool)
  | num (n : LogNumber)
  | str (s : JsString)
  | arr (elements : List Sanitized)
  | obj (prototype : Option Sanitized) (fields : List (JsString × Sanitized))

def REDACTED : JsString := js "[REDACTED]"

def SENSITIVE_KEYS : List JsString :=
  [js "authorization", js "authorizationheader", js "cookie", js "password", js "passwordhash",
    js "token", js "accesstoken", js "refreshtoken", js "jwt", js "secret", js "sessionsecret",
    js "databaseurl", js "connectionstring", js "postgrespassword", js "messagebody",
    js "messagecontent", js "privatemessage", js "privateconversation"]

/-- The letters and digits of a key, in lower case. -/
def normalizeKey (key : JsString) : JsString :=
  (key.filter fun c => isLetter c || isDigitUnit c).map asciiLower

/-- A key whose values are redacted. -/
def Sensitive (key : JsString) : Prop := normalizeKey key ∈ SENSITIVE_KEYS

instance (key : JsString) : Decidable (Sensitive key) :=
  inferInstanceAs (Decidable (normalizeKey key ∈ SENSITIVE_KEYS))

/-- A field of a new object, in the place of one of its name. -/
def defineField (fields : List (JsString × Sanitized)) (field : JsString × Sanitized) :
    List (JsString × Sanitized) :=
  if fields.any (·.1 == field.1) then
    fields.map fun f => if f.1 = field.1 then field else f
  else fields ++ [field]

/-- `result[key] = value`. The name `__proto__` sets the prototype, to an object or null. -/
def assign (prototype : Option Sanitized) (fields : List (JsString × Sanitized))
    (field : JsString × Sanitized) : Option Sanitized × List (JsString × Sanitized) :=
  if field.1 = js "__proto__" then
    match field.2 with
    | .null => (some .null, fields)
    | .arr elements => (some (.arr elements), fields)
    | .obj prototype' fields' => (some (.obj prototype' fields'), fields)
    | _ => (prototype, fields)
  else (prototype, defineField fields field)

/-- An empty object with the fields assigned one after the other. -/
def assemble (fields : List (JsString × Sanitized)) : Sanitized :=
  let result := fields.foldl (fun result field => assign result.1 result.2 field) (none, [])
  .obj result.1 result.2

/-- The fields of an error that are logged. -/
def sanitizeError (name message : JsString) (stack : Option JsString) : Sanitized :=
  .obj none ([(js "name", .str name), (js "message", .str (sanitizeString message))] ++
    match stack with
    | none | some [] => []
    | some stack => [(js "stack", .str (sanitizeString stack))])

mutual

def sanitizeValue (key : JsString) (value : LogValue) : Sanitized :=
  if Sensitive key then .str REDACTED
  else
    match value with
    | .error name message stack _ => sanitizeError name message stack
    | .str s => .str (sanitizeString s)
    | .arr elements => .arr (sanitizeElements key elements)
    | .obj fields => assemble (sanitizeFields fields)
    | .num n => .num n
    | .bool b => .bool b
    | .null => .null

/-- The elements of an array, under the key of the array. -/
def sanitizeElements (key : JsString) : List LogValue → List Sanitized
  | [] => []
  | value :: elements => sanitizeValue key value :: sanitizeElements key elements

/-- The fields of an object, each under its own key. -/
def sanitizeFields : List (JsString × LogValue) → List (JsString × Sanitized)
  | [] => []
  | (key, value) :: fields => (key, sanitizeValue key value) :: sanitizeFields fields

end

/-! ## Lines -/

inductive LogLevel
  | debug
  | info
  | warn
  | error
deriving DecidableEq

def LEVEL_PRIORITY : LogLevel → Nat
  | .debug => 10
  | .info => 20
  | .warn => 30
  | .error => 40

def LogLevel.text : LogLevel → JsString
  | .debug => js "debug"
  | .info => js "info"
  | .warn => js "warn"
  | .error => js "error"

/-- The settings of the logger. -/
structure LogConfig where
  logLevel : LogLevel
  nodeEnv : JsString

/-- The methods of the console. -/
inductive Console
  | error
  | warn
  | log
deriving DecidableEq

/-- The name of an array index. -/
def indexName (i : Nat) : JsString := js (toString i)

/-- A name that is an array index. -/
def isArrayIndex (name : JsString) : Bool :=
  indexName (digitsValue name) == name && decide (digitsValue name < 2 ^ 32 - 1)

/-- The fields of an object in the order of its keys: array indices first, in increasing order. -/
def keyOrder (fields : List (JsString × Sanitized)) : List (JsString × Sanitized) :=
  (fields.filter fun f => isArrayIndex f.1).mergeSort
      (fun f g => decide (digitsValue f.1 ≤ digitsValue g.1)) ++
    fields.filter fun f => !isArrayIndex f.1

/-- The fields that `...value` copies. -/
def spread : Sanitized → List (JsString × Sanitized)
  | .obj _ fields => fields
  | .arr elements => elements.mapIdx fun i value => (indexName i, value)
  | .str s => s.mapIdx fun i c => (indexName i, .str [c])
  | _ => []

mutual

/-- A value as `JSON.stringify` sees it: a number that is not finite is null, and prototypes are
left out. -/
def Sanitized.toJson : Sanitized → Json
  | .null => .null
  | .bool b => .bool b
  | .num (.finite n) => .num n
  | .num _ => .null
  | .str s => .str s
  | .arr elements => .arr (elementsToJson elements)
  | .obj _ fields => .obj (fieldsToJson fields)

def elementsToJson : List Sanitized → List Json
  | [] => []
  | value :: elements => value.toJson :: elementsToJson elements

def fieldsToJson : List (JsString × Sanitized) → List (JsString × Json)
  | [] => []
  | (name, value) :: fields => (name, value.toJson) :: fieldsToJson fields

end

section Write

variable (numberText : JsonNumber → JsString) (config : LogConfig) (now : Int)

/-- The fields of a line. -/
def logEntry (level : LogLevel) (message : JsString) (metadata : LogValue) :
    List (JsString × Sanitized) :=
  (spread (sanitizeValue (js "metadata") metadata)).foldl defineField
    [(js "timestamp", .str (isoText now)), (js "level", .str level.text),
      (js "service", .str (js "mern-chat-app-api")), (js "environment", .str config.nodeEnv),
      (js "message", .str message)]

/-- What is written, and where. -/
def write (level : LogLevel) (message : JsString) (metadata : LogValue) :
    Option (Console × JsString) :=
  if LEVEL_PRIORITY level < LEVEL_PRIORITY config.logLevel then none
  else
    let output := stringify numberText
      (.obj (fieldsToJson (keyOrder (logEntry config now level message metadata))))
    match level with
    | .error => some (.error, output)
    | .warn => some (.warn, output)
    | _ => some (.log, output)

end Write

end MernChat

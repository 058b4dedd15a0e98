import SecureTelemetryGateway.Models.TelemetryData

/-!
# JSON values as nlohmann holds them

The parser is not part of the repository: `Nlohmann` is a parameter of
everything that parses. A number keeps the kind the parser gave it, an object
is its `std::map` in iteration order.
-/

namespace SecureTelemetryGateway.Ingestion

inductive Json
  | null
  | boolean (b : Bool)
  | numberInteger (i : Int64)
  | numberUnsigned (u : UInt64)
  | numberFloat (d : Double)
  | string (s : String)
  | array (elements : List Json)
  | object (members : List (String × Json))

inductive JsonError
  | parseError
  | outOfRange
  | typeError
  deriving DecidableEq

/-- The library: `json::parse`, and what `static_cast<uint64_t>` makes of a
double whose value does not fit, which the language leaves undefined. -/
structure Nlohmann where
  parse : Bytes → Except JsonError Json
  castOutOfRange : Double → UInt64

namespace Json

def member? : Json → String → Option Json
  | .object members, key => members.lookup key
  | _, _ => none

def contains (j : Json) (key : String) : Bool := (j.member? key).isSome

/-- `j[key]`, which the callers use only after `contains`. -/
def get (j : Json) (key : String) : Json := (j.member? key).getD .null

def isNumber : Json → Bool
  | .numberInteger _ | .numberUnsigned _ | .numberFloat _ => true
  | _ => false

def getString : Json → Except JsonError String
  | .string s => .ok s
  | _ => .error .typeError

def getUInt64 (nl : Nlohmann) : Json → Except JsonError UInt64
  | .numberUnsigned u => .ok u
  | .numberInteger i => .ok i.toUInt64
  | .numberFloat d => .ok (d.toUInt64?.getD (nl.castOutOfRange d))
  | _ => .error .typeError

def getDouble : Json → Except JsonError Double
  | .numberUnsigned u => .ok (Lib.Binary64.ofUInt64 u)
  | .numberInteger i => .ok (Lib.Binary64.ofInt64 i)
  | .numberFloat d => .ok d
  | _ => .error .typeError

/-- An array's keys are its indices; a value that is no container is one item
with an empty key. -/
def items : Json → List (String × Json)
  | .object members => members
  | .array elements => elements.zipIdx.map fun (value, i) => (toString i, value)
  | .null => []
  | j => [("", j)]

end Json

end SecureTelemetryGateway.Ingestion

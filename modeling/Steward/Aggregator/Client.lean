import Steward.Secret.Resolution

/-!
# Talking to an aggregator

A client lists, finds, registers and removes the applications of one aggregator.  Applications are
found by name, so that registering again replaces what is there and keeps its id.

This is `ProwlarrClient`, with `client_for` (`forManaged`).
-/

namespace Steward

/-- How to reach an aggregator (`ProwlarrClient`). -/
structure AggregatorClient where
  baseUrl : String
  apiKey : String
  timeout : Int := 30
  insecureSkipVerify : Bool := false
  deriving DecidableEq, Repr

namespace AggregatorClient

/-- A client for a URL, whose final slashes do not count. -/
def new (baseUrl apiKey : String) (timeout : Int) (insecureSkipVerify : Bool) :
    AggregatorClient where
  baseUrl := String.ofList (Text.dropRight (· == '/') baseUrl.toList)
  apiKey
  timeout
  insecureSkipVerify

/-- Where the applications of an aggregator are (`APPLICATIONS_PATH`). -/
def endpoint : String := "/api/v1/applications"

/-- Send a request below the applications, and read the answer; an empty answer is none
(`_request`). -/
def send (c : AggregatorClient) (method below : String) (payload : Option Json) :
    Pass (Option Json) := do
  let url := c.baseUrl ++ endpoint ++ below
  let request : HttpRequest :=
    { method, url, apiKey := c.apiKey, payload, verify := !c.insecureSkipVerify
      timeout := c.timeout }
  match ← Pass.attempt (Pass.http request) with
  | .error (.transport text) => throw (.registration (.transport method url text))
  | .error e => throw e
  | .ok response =>
    if response.status < 200 || 300 ≤ response.status then
      throw (.registration (.status response.status response.body))
    if response.body.isEmpty then return none
    match Json.parse response.body with
    | .ok v => return some v
    | .error refusal => throw (.answer (.unreadable response.body refusal))

/-! ## 1. Answers -/

/-- All applications as the aggregator answers them (`list_applications`). -/
def list (c : AggregatorClient) : Pass Json := do
  match ← c.send "GET" "" none with
  | some v => return if v.isBlank then .array [] else v
  | none => return .array []

/-- The entries of a list of applications. -/
def entries (answer : Json) : Except AnswerError (List Json) :=
  match answer.entries? with
  | some vs => .ok vs
  | none => .error (.notList answer)

/-- The first entry of a name. -/
def findIn (name : String) : List Json → Except AnswerError (Option Json)
  | [] => .ok none
  | .object members :: rest =>
    if Table.get? members "name" = some (.string name) then .ok (some (.object members))
    else findIn name rest
  | v :: _ => .error (.notEntry v)

/-- The application of a name (`find_application`). -/
def find (c : AggregatorClient) (name : String) : Pass (Option Json) := do
  let answer ← c.list
  Pass.settle ((entries answer >>= findIn name).mapError .answer)

/-- The id of an application as a document. -/
def idOf (application : Json) : Except Failure Json :=
  match application.get? "id" with
  | some id => .ok id
  | none => .error (.answer .noId)

/-- The whole number that an id stands for. -/
def idNumber : Json → Except Failure Int
  | .int n => .ok n
  | .bool b => .ok (if b then 1 else 0)
  | .float x => if x.isFinite then .ok x.truncate else .error (.answer (.idNotNumber (.float x)))
  | .string s => (Text.readInteger s).mapError fun e => .answer (.idNotNumeral e)
  | v => .error (.answer (.idNotNumber v))

/-! ## 2. Registering -/

/-- The document of a registration. -/
def payloadOf (r : Registration) (id : Option Json) : Pass Json :=
  Pass.settle ((r.payload id).mapError .registration)

/-- The id in the answer to a registration, or else that of the application that was there. -/
def registeredId (r : Registration) (answer existing : Option Json) : Except Failure Int :=
  match answer.bind (·.get? "id"), existing with
  | some id, _ => idNumber id
  | none, some application => idOf application >>= idNumber
  | none, none => .error (.registration (.noId r.name))

/-- Register a service, in the place of an application of its name if there is one. -/
def register (c : AggregatorClient) (r : Registration) : Pass Int := do
  let existing ← c.find r.name
  let answer ← match existing with
    | some application => do
      let id ← Pass.settle (idOf application)
      let payload ← payloadOf r (if id = .null then none else some id)
      c.send "PUT" ("/" ++ id.plain) (some payload)
    | none => do
      let payload ← payloadOf r none
      c.send "POST" "" (some payload)
  Pass.settle (registeredId r answer existing)

/-- Remove the application of a name; false if there is none. -/
def unregister (c : AggregatorClient) (name : String) : Pass Bool := do
  match ← c.find name with
  | none => return false
  | some application =>
    let id ← Pass.settle (idOf application)
    let _ ← c.send "DELETE" ("/" ++ id.plain) none
    return true

/-! ## 3. Clients of resources -/

/-- A client for the service of a resource, with the key of its own connection (`client_for`). -/
def forManaged (m : Managed) (timeout : Int) : Pass AggregatorClient := do
  let secrets ← Secret.resolveConnection m.ns m.connection
  let apiKey := secrets.value SecretMap.connectionKey
  if apiKey.isEmpty then throw (.registration (.noApiKey m.ns m.name))
  let own : Int := (m.connection.timeout.getD 0 : Nat)
  return new m.connection.url apiKey (if own = 0 then timeout else own)
    m.connection.insecureSkipVerify

end AggregatorClient

end Steward

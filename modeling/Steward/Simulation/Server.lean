import Steward.Aggregator.Client

/-!
# Simulated aggregators

An aggregator that keeps its applications in a list, and answers otherwise where it is told to.
-/

namespace Steward.Simulation

/-- An answer that is given instead of the usual one, a number of times. -/
structure Override where
  method : String
  times : Int := 1
  answer : Except Failure HttpResponse

/-- An aggregator under a URL. -/
structure Server where
  url : String
  apps : List Json := []
  nextId : Int := 1
  overrides : List Override := []

namespace Server

/-- Use up an override of a method, if there is one. -/
def takeOverride (method : String) :
    List Override → Option (Except Failure HttpResponse × List Override)
  | [] => none
  | o :: rest =>
    if o.method = method && 0 < o.times then
      some (o.answer, { o with times := o.times - 1 } :: rest)
    else (takeOverride method rest).map fun (answer, rest) => (answer, o :: rest)

/-- An application has the id that a path ends in. -/
def hasId (id : String) (app : Json) : Bool :=
  match app.get? "id" with
  | some v => v.plain == id
  | none => false

/-- An application under another id. -/
def withId (id : Int) : Json → Json
  | .object members => .object (Table.set members "id" (.int id))
  | v => v

/-- An answer with a document. -/
def document (status : Int) (v : Json) : HttpResponse := ⟨status, v.text⟩

/-- Put another application, or none, in the place of the first one of an id. -/
def replaceFirst (id : String) (new : Option Json) : List Json → List Json
  | [] => []
  | app :: rest => if hasId id app then new.toList ++ rest else app :: replaceFirst id new rest

/-- The usual answer to a request; `id` is what the path adds to that of the applications. -/
def respond (s : Server) (method id : String) (payload : Json) : HttpResponse × Server :=
  if method = "GET" then (document 200 (.array s.apps), s)
  else if method = "POST" then
    let app := withId s.nextId payload
    (document 201 app, { s with apps := s.apps ++ [app], nextId := s.nextId + 1 })
  else if !s.apps.any (hasId id) then (⟨404, "not found"⟩, s)
  else if method = "PUT" then
    (document 202 payload, { s with apps := replaceFirst id (some payload) s.apps })
  else (⟨200, ""⟩, { s with apps := replaceFirst id none s.apps })

/-- The answer to a request. -/
def handle (s : Server) (r : HttpRequest) (id : String) : Except Failure HttpResponse × Server :=
  match takeOverride r.method s.overrides with
  | some (answer, overrides) => (answer, { s with overrides })
  | none =>
    let (response, s) := s.respond r.method id (r.payload.getD .null)
    (.ok response, s)

end Server

/-- The URL of the aggregator that a request is for, and what its path adds to that of the
applications. -/
def destination (url : String) : String × String :=
  let (before, after) := Text.cutAround AggregatorClient.endpoint.toList url.toList
  (String.ofList before, String.ofList (after.dropWhile (· == '/')))

/-- Send a request to the aggregator of its URL. -/
def exchange (servers : List Server) (r : HttpRequest) :
    Except Failure HttpResponse × List Server :=
  let (url, id) := destination r.url
  match servers.find? (·.url == url) with
  | none => (.error (.transport ("no server at " ++ url)), servers)
  | some s =>
    let (answer, s) := s.handle r id
    (answer, servers.map fun t => if t.url = url then s else t)

/-- Put an aggregator in the place of the one under its URL, or at the end. -/
def putServer (servers : List Server) (s : Server) : List Server :=
  if servers.any (·.url == s.url) then servers.map fun t => if t.url = s.url then s else t
  else servers ++ [s]

end Steward.Simulation

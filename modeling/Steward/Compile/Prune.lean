import Steward.Change

/-!
# Pruning

A desired configuration is cut down to what the service can do, and what is cut is reported: one
entry for a section that is dropped as a whole, and one for each client or indexer of an
implementation that the service lacks.

This is `BasicCompiler._prune`.
-/

namespace Steward

namespace Prune

/-- The report of something that was dropped. -/
def dropped (feature : String) : State.Unrealized := ⟨feature, "not supported by service"⟩

/-- Cut a list of items with implementations: what is kept, and the report of what is not. -/
def items {α : Type} (implementation : α → String) (all single : String) (supported : Bool)
    (types : List String) (is : List α) : List α × List State.Unrealized :=
  if is.isEmpty then (is, [])
  else if !supported then ([], [dropped all])
  else if types.isEmpty then (is, [])
  else
    (is.filter fun i => types.contains (implementation i),
     (is.filter fun i => !types.contains (implementation i)).map fun i =>
       dropped (single ++ ":" ++ implementation i))

/-- Cut a section that is dropped as a whole. -/
def whole {α : Type} (feature : String) (supported : Bool) (section? : Option α) :
    Option α × List State.Unrealized :=
  match section? with
  | some s => if supported then (some s, []) else (none, [dropped feature])
  | none => (none, [])

end Prune

/-- Cut a configuration down to what the service can do, with the report of what was cut
(`_prune`). -/
def prune (caps : Capabilities) (s : ServiceState) : ServiceState × List State.Unrealized :=
  let (clients, r1) := Prune.items (·.implementation) "downloadclients" "downloadclient"
    (caps.supports .downloadClient) caps.downloadClientTypes s.downloadClients
  let (direct, r2) := Prune.items (·.implementation) "indexers" "indexer"
    (caps.supports .indexer) caps.indexerTypes ((s.indexers.map (·.direct)).getD [])
  let (lists, r3) := Prune.items (fun _ => "") "importlists" "importlist"
    (caps.supports .importList) [] s.importLists
  let (media, r4) := Prune.whole "mediamanagement" (caps.supports .mediaManagement)
    s.mediaManagement
  let (auth, r5) := Prune.whole "authentication" (caps.supports .authentication) s.authentication
  ({ s with
      downloadClients := clients
      indexers := s.indexers.map fun i => { i with direct }
      importLists := lists
      mediaManagement := media
      authentication := auth },
   r1 ++ r2 ++ r3 ++ r4 ++ r5)

end Steward

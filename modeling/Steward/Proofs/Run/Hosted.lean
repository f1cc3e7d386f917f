import Steward.Proofs.Aggregator.Host
import Steward.Proofs.Coordinate.Considered
import Steward.Proofs.Reconcile.Withdrawal
import Steward.Proofs.Run.Actors
import Steward.Proofs.Run.Writers
import Steward.Proofs.Store.Held

/-!
# A service and its aggregator

One service refers to an aggregator (`Referral`).  Reconciliation passes over the service and
coordination passes over the aggregator take turns, one of each at a time, on a store of resources
and on the applications that the aggregator holds (`Estate`).  Resources are created and deleted
meanwhile.  The specification of the service, its secrets and the aggregator do not change, and what
is sent to the aggregator is carried out, and logged, the latest request first.
-/

namespace Steward.Run

open Pass Coordinate Reconcile Secret Holding

/-! ## 1. Services that refer to an aggregator -/

theorem baseUrl_of_clientIn {f : Vault} {m : Managed} {timeout : Int} {c : AggregatorClient}
    (h : AggregatorClient.clientIn f m timeout = .ok c) :
    c.baseUrl = AggregatorClient.baseOf m := by
  rw [AggregatorClient.clientIn] at h
  cases hsecrets : connectionIn f m.ns m.connection with
  | error e =>
    rw [hsecrets] at h
    cases h
  | ok secrets =>
    rw [hsecrets] at h
    dsimp only [bind, Except.bind] at h
    split at h
    · cases h
    · cases h
      rfl

/-- A service that refers to an aggregator, and how the aggregator is reached for it. -/
structure Referral where
  settings : Settings.Controller
  kind : ManagerKind
  ns : String
  name : String
  spec : Json.Members
  declared : Declared
  aggregator : Resource
  target : Managed
  vault : Vault
  client : AggregatorClient
  reads : Declared.read (.manager kind) spec = .ok declared
  refers : ∃ ref, declared.aggregatorRef = some ref ∧ ref.name = aggregator.name
  isAggregator : aggregator.kind = Kind.aggregatorName
  sameNamespace : aggregator.ns = ns
  isRead : Managed.ofResource aggregator = .ok target
  reaches : AggregatorClient.clientIn vault target settings.httpTimeout = .ok client

namespace Referral

variable (x : Referral)

/-- The resource is the one of the service. -/
def Owns (r : Resource) : Prop := r.IsAt x.kind.resourceKind x.ns x.name

/-- The name that the service is registered under. -/
def application : String :=
  Registration.pullName x.settings.registrationPrefix x.name x.kind.service

def finalizer : String := finalizerFor x.kind.resourceKind

/-- The base URL of the aggregator. -/
def base : String := AggregatorClient.baseOf x.target

/-- The resource has the specification of the service, and a status that can be read. -/
def Fit (r : Resource) : Prop :=
  r.spec = x.spec ∧ ∃ s, Status.ofMembers r.status = .ok s ∧ s.Dated

/-- The service is stored with its finalizer. -/
def Held (s : MemoryStore) : Prop := s.Held x.kind.resourceKind x.ns x.name x.finalizer

/-- Reconciliation passes are over the service, and coordination passes over its aggregator. -/
def Admits : Actor → Prop
  | .reconciler ctx r => x.Owns r ∧ ctx.settings = x.settings ∧ ctx.now.Valid
  | .coordinator ctx r => r = x.aggregator ∧ ctx.settings = x.settings ∧ ctx.now.Valid
  | .other _ => False

theorem baseUrl_client : x.client.baseUrl = x.base := baseUrl_of_clientIn x.reaches

end Referral

/-- The actor is a coordination pass. -/
def Actor.isCoordinator : Actor → Bool
  | .coordinator .. => true
  | _ => false

/-! ## 2. Estates -/

/-- The store, the parties at work, the applications that the aggregator holds, and the requests
that it was sent. -/
structure Estate where
  store : MemoryStore
  tasks : List (Task actors) := []
  holdings : List Holding := []
  calls : List HttpRequest := []

/-- A step of the service and its aggregator. -/
inductive Referral.Step (x : Referral) : Estate → Estate → Prop where
  /-- A pass begins over a resource as it is stored; none of its kind is under way. -/
  | begin {e : Estate} (p : Actor) : x.Admits p →
      (∀ r ∈ p.given, e.store.find? r.kind r.ns r.name = some r) →
      (∀ t ∈ e.tasks, t.party.isCoordinator ≠ p.isCoordinator) →
      Step x e { e with tasks := ⟨p, [], p.program.program⟩ :: e.tasks }
  /-- A request that does not go to the aggregator is replied to. -/
  | ask {e : Estate} {pre post : List (Task actors)} {p : Actor} {asked : List Exchange}
      {request : Request} {next : request.Reply → Program signature (Except Failure p.Result)}
      {reply : request.Reply} {store : MemoryStore} :
      e.tasks = pre ++ ⟨p, asked, .ask request next⟩ :: post → request.SparesAggregator →
      Serves e.store ⟨request, reply⟩ store → Steady x.vault x.aggregator ⟨request, reply⟩ →
      Step x e
        { e with
          store
          tasks := pre ++ ⟨p, asked ++ [⟨request, reply⟩], next reply⟩ :: post }
  /-- A request to the aggregator is carried out. -/
  | call {e : Estate} {pre post : List (Task actors)} {p : Actor} {asked : List Exchange}
      {q : HttpRequest}
      {next : Except Failure HttpResponse → Program signature (Except Failure p.Result)}
      {reply : Except Failure HttpResponse} {holdings : List Holding} :
      e.tasks = pre ++ ⟨p, asked, .ask (.http q) next⟩ :: post →
      Answers x.base e.holdings ⟨.http q, reply⟩ holdings →
      Step x e
        { store := e.store
          tasks := pre ++ ⟨p, asked ++ [⟨.http q, reply⟩], next reply⟩ :: post
          holdings
          calls := q :: e.calls }
  /-- A status write is accepted. -/
  | write {e : Estate} {pre post : List (Task actors)} {p : Actor} {asked : List Exchange}
      {r before : Resource} {status : Json.Members}
      {next : Except Failure Resource → Program signature (Except Failure p.Result)}
      {reply : Except Failure Resource} :
      e.tasks = pre ++ ⟨p, asked, .ask (.updateStatus r status) next⟩ :: post →
      e.store.current r = .ok before →
      Arrives (.ok (MemoryStore.written before status)) reply →
      Step x e
        { e with
          store := e.store.put (MemoryStore.written before status)
          tasks := pre ++ ⟨p, asked ++ [⟨.updateStatus r status, reply⟩], next reply⟩ :: post }
  /-- A pass is done. -/
  | leave {e : Estate} {pre post : List (Task actors)} {p : Actor} {asked : List Exchange}
      {out : Except Failure p.Result} : e.tasks = pre ++ ⟨p, asked, .done out⟩ :: post →
      Step x e { e with tasks := pre ++ post }
  /-- A resource is created. -/
  | create {e : Estate} (r : Resource) : e.store.find? r.kind r.ns r.name = none →
      (x.Owns r → x.Fit r) → Step x e { e with store := e.store.create r }
  /-- A deletion is requested. -/
  | delete {e : Estate} (kind ns name : String) (now : Timestamp) :
      Step x e { e with store := e.store.requestDeletion kind ns name now }

/-- Any number of steps. -/
def Referral.Runs (x : Referral) : Estate → Estate → Prop := Relation.ReflTransGen x.Step

/-! ## 3. A party alone -/

section Alone

variable {x : Referral} {store : MemoryStore} {hs hs' : List Holding} {calls : List HttpRequest}
  {p : Actor} {asked xs ys : List Exchange} {rest : Program signature (Except Failure p.Result)}
  {out : Except Failure p.Result}

/-- The exchange leaves the store as it is, and does not ask the aggregator. -/
def Referral.Replies (x : Referral) (s : MemoryStore) (y : Exchange) : Prop :=
  y.request.SparesAggregator ∧ Serves s y s ∧ Steady x.vault x.aggregator y

/-- A party alone goes on as long as it asks neither the aggregator nor to change the store. -/
theorem runs_asked (h : Program.Follows rest (xs ++ ys) out)
    (hxs : ∀ y ∈ xs, x.Replies store y) :
    ∃ rest', Program.Follows rest' ys out ∧
      x.Runs ⟨store, [⟨p, asked, rest⟩], hs, calls⟩
        ⟨store, [⟨p, asked ++ xs, rest'⟩], hs, calls⟩ := by
  induction xs generalizing asked rest with
  | nil => exact ⟨rest, h, by rw [List.append_nil]; exact .refl⟩
  | cons y xs ih =>
    obtain ⟨next, rfl, hrest⟩ := Program.follows_cons_iff.mp h
    obtain ⟨hspares, hserves, hsteady⟩ := hxs y List.mem_cons_self
    have hstep : x.Step ⟨store, [⟨p, asked, .ask y.request next⟩], hs, calls⟩
        ⟨store, [⟨p, asked ++ [y], next y.reply⟩], hs, calls⟩ :=
      @Referral.Step.ask x _ [] [] p asked _ _ _ _ rfl hspares hserves hsteady
    obtain ⟨rest', hfollows, hruns⟩ :=
      @ih (asked ++ [y]) _ hrest fun z hz => hxs z (List.mem_cons_of_mem _ hz)
    rw [List.append_assoc] at hruns
    exact ⟨rest', hfollows, .head hstep hruns⟩

/-- A request of a party alone is carried out by the aggregator. -/
theorem runs_called {q : HttpRequest} {reply : Except Failure HttpResponse}
    (h : Program.Follows rest (⟨.http q, reply⟩ :: ys) out)
    (hanswers : Answers x.base hs ⟨.http q, reply⟩ hs') :
    ∃ rest', Program.Follows rest' ys out ∧
      x.Runs ⟨store, [⟨p, asked, rest⟩], hs, calls⟩
        ⟨store, [⟨p, asked ++ [⟨.http q, reply⟩], rest'⟩], hs',
          q :: calls⟩ := by
  obtain ⟨next, rfl, hrest⟩ := Program.follows_cons_iff.mp h
  exact ⟨_, hrest, .single (@Referral.Step.call x _ [] [] p asked _ _ _ _ rfl hanswers)⟩

/-- A status write of a party alone is accepted. -/
theorem runs_written {r before : Resource} {status : Json.Members}
    (h : Program.Follows rest
      (⟨.updateStatus r status, .ok (MemoryStore.written before status)⟩ :: ys) out)
    (hcurrent : store.current r = .ok before) :
    ∃ asked' rest', Program.Follows rest' ys out ∧
      x.Runs ⟨store, [⟨p, asked, rest⟩], hs, calls⟩
        ⟨store.put (MemoryStore.written before status), [⟨p, asked', rest'⟩], hs, calls⟩ := by
  obtain ⟨next, rfl, hrest⟩ := Program.follows_cons_iff.mp h
  exact ⟨_, _, hrest, .single (@Referral.Step.write x _ [] [] p asked _ _ _ _ _ rfl hcurrent
    (.inl rfl))⟩

theorem runs_done (h : Program.Follows rest [] out) :
    x.Runs ⟨store, [⟨p, asked, rest⟩], hs, calls⟩ ⟨store, [], hs, calls⟩ := by
  obtain rfl := Program.follows_nil_iff.mp h
  exact .single (@Referral.Step.leave x _ [] [] p asked _ rfl)

end Alone

end Steward.Run

import Steward.Proofs.Run.Tended

/-!
# What is left of a service

Once a service is gone, its aggregator should not hold an application for it.  The finalizer is what
keeps the service until its application is removed.  So a registration that is sent while the
service is stored with its finalizer, and while no reconciliation pass has looked for the
application (`Sheltered`), is removed before the service goes (`Covered`).

A coordination pass (`_coordinate`) does not look at the finalizer, and goes by resources that it
listed before.  So a registration is also sent to an estate that is not sheltered: the service has
no finalizer, or is gone, or its application was looked for already.  Unless the estate is sheltered
later on, what was sent so may be left when the service is gone, and nothing else is
(`left_exposed`).
-/

namespace Steward.Run

open Pass Coordinate Reconcile Secret Holding

variable {x : Referral} {hs hs' : List Holding} {t : Task actors} {e e₀ e' : Estate}

/-! ## 1. Applications that will be removed -/

/-- The reconciliation pass has asked the aggregator. -/
def LookedUp (t : Task actors) : Prop := t.party.isCoordinator = false ∧ Called t.asked

/-- The service is kept until its application was looked for, and it was not looked for yet. -/
structure Sheltered (x : Referral) (e : Estate) : Prop where
  held : x.Held e.store
  ahead : ∀ t ∈ e.tasks, ¬ LookedUp t

/-- The application is not held, or the pass is about to remove it. -/
def Removing (x : Referral) (hs : List Holding) (t : Task actors) : Prop :=
  Free x.application hs ∨
    ∃ q, t.rest.pending = [.http q] ∧ q.method = "DELETE" ∧ Under x.base x.application q.url hs

/-- The application of the service is removed before the service goes. -/
structure Covered (x : Referral) (e : Estate) : Prop where
  held : x.Held e.store ∨ Free x.application e.holdings
  withdrawn : ∀ t ∈ e.tasks, LookedUp t → Removing x e.holdings t

theorem Sheltered.covered (h : Sheltered x e) : Covered x e :=
  ⟨.inl h.held, fun t ht hlooked => absurd hlooked (h.ahead t ht)⟩

/-- Nobody is at work, and there is no application of the service. -/
structure Fresh (x : Referral) (e : Estate) : Prop where
  tasks : e.tasks = []
  fit : ∀ r ∈ e.store.resources, x.Owns r → x.Fit r
  free : Free x.application e.holdings

theorem Fresh.tended (h : Fresh x e) : Tended x e where
  apt _ ht := nomatch h.tasks ▸ ht
  fit := h.fit
  single := by
    rw [h.tasks]
    exact List.nodup_nil
  sending _ ht := nomatch h.tasks ▸ ht
  gathered := ⟨"", h.free.under⟩

theorem Fresh.covered (h : Fresh x e) : Covered x e where
  held := .inr h.free
  withdrawn _ ht := nomatch h.tasks ▸ ht

/-- A pass that does not ask the aggregator next has nothing to remove. -/
theorem Removing.free {q : Request} (h : Removing x hs t) (hpending : t.rest.pending = [q])
    (hspares : q.SparesAggregator) : Free x.application hs := by
  rcases h with hfree | ⟨removal, hremoval, -⟩
  · exact hfree
  · cases hpending.symm.trans hremoval
    exact absurd rfl hspares

theorem called_append {asked more : List Exchange} :
    Called (asked ++ more) ↔ Called asked ∨ Called more := by
  simp only [Called, List.mem_append, or_and_right, exists_or]

theorem not_called_iff {asked : List Exchange} :
    ¬ Called asked ↔ ∀ y ∈ asked, y.request.SparesAggregator := by
  simp only [Called, Request.SparesAggregator, not_exists, not_and, ne_eq]

/-- A pass that looked the application up and asks others now has nothing to remove. -/
theorem Covered.removing_replied {p : Actor} {asked : List Exchange} {request : Request}
    {next : request.Reply → Program signature (Except Failure p.Result)} {reply : request.Reply}
    {rest : Program signature (Except Failure p.Result)} (h : Covered x e)
    (ht : ⟨p, asked, .ask request next⟩ ∈ e.tasks) (hspares : request.SparesAggregator)
    (hlooked : LookedUp ⟨p, asked ++ [⟨request, reply⟩], rest⟩) :
    Removing x e.holdings ⟨p, asked ++ [⟨request, reply⟩], rest⟩ := by
  obtain ⟨hparty, hcalled⟩ := hlooked
  have hbefore := (called_append.mp hcalled).resolve_right
    (not_called_iff.mpr (List.forall_mem_singleton.mpr hspares))
  exact .inl ((h.withdrawn _ ht ⟨hparty, hbefore⟩).free rfl hspares)

/-! ## 2. Finalizers -/

/-- The finalizer is removed when the application is. -/
theorem Covered.free_of_removes {p : Actor} {asked : List Exchange} {request : Request}
    {next : request.Reply → Program signature (Except Failure p.Result)} (h : Covered x e)
    (ht : ⟨p, asked, .ask request next⟩ ∈ e.tasks) (hapt : Apt x ⟨p, asked, .ask request next⟩)
    (hremoves : request.Removes) : Free x.application e.holdings := by
  have hspares : request.SparesAggregator := by
    obtain ⟨_, _, rfl⟩ := hremoves
    exact Addressee.noConfusion
  cases p with
  | reconciler ctx r =>
    have hcalled : Called asked := by
      rw [← not_not (a := Called asked), not_called_iff]
      exact fun hasked =>
        hapt.withdrawing.not_removes hasked _ (List.mem_singleton_self request) hremoves
    exact (h.withdrawn _ ht ⟨rfl, hcalled⟩).free rfl hspares
  | coordinator ctx r =>
    exact absurd hremoves (hapt.considered _ (List.mem_singleton_self request)).finalizers.2
  | other p => exact hapt.admitted.elim

theorem Covered.held_ask {p : Actor} {asked : List Exchange} {request : Request}
    {next : request.Reply → Program signature (Except Failure p.Result)} {reply : request.Reply}
    {store : MemoryStore} (h : Covered x e) (ht : ⟨p, asked, .ask request next⟩ ∈ e.tasks)
    (hapt : Apt x ⟨p, asked, .ask request next⟩) (hserves : Serves e.store ⟨request, reply⟩ store) :
    x.Held store ∨ Free x.application e.holdings := by
  cases hserves with
  | finalizerAdded r finalizer _ => exact h.held.imp_left .addFinalizer
  | finalizerRemoved r finalizer _ => exact .inr (h.free_of_removes ht hapt ⟨_, _, rfl⟩)
  | _ => exact h.held

/-! ## 3. Calls -/

/-- A pass is about to remove what it finds in the list of all applications. -/
theorem removing_of_listed {ctx : Reconcile.Context} {r : Resource} {asked : List Exchange}
    {reply : Except Failure HttpResponse}
    {rest : Program signature (Except Failure Reconciliation)}
    (hanswers : Answers x.base hs ⟨.http (x.client.request "GET" "" none), reply⟩ hs')
    (hasked : ∀ y ∈ asked, y.request.SparesAggregator)
    (hgathered : ∃ url, Under x.base x.application url hs')
    (hapt : Apt x ⟨.reconciler ctx r,
      asked ++ [⟨.http (x.client.request "GET" "" none), reply⟩], rest⟩) :
    Removing x hs' ⟨.reconciler ctx r,
      asked ++ [⟨.http (x.client.request "GET" "" none), reply⟩], rest⟩ := by
  cases hanswers.eq_of_get rfl
  rcases hapt.withdrawing.of_listed hasked with ⟨application, id, hfound, hid, hpending⟩ |
    ⟨removed, hcalls⟩
  · obtain ⟨holding, hmem, hnamed, hid'⟩ := hanswers.found rfl hfound
    cases hid.symm.trans hid'
    obtain ⟨url, hunder⟩ := hgathered
    refine .inr ⟨_, hpending, rfl, fun y hy hy_named => ?_⟩
    rw [hunder y hy hy_named, ← hunder holding hmem hnamed, Holding.url, AggregatorClient.request,
      x.baseUrl_client]
  · cases hcalls with
    | unread hunread => cases hunread.symm.trans (hanswers.foundIn _ rfl)
    | absent habsent => exact .inl (hanswers.found rfl habsent)
    | unsent hfound hid =>
      obtain ⟨_, -, -, hid'⟩ := hanswers.found rfl hfound
      cases hid.symm.trans hid'

/-- What a pass is about to remove is removed by any request of it, and nobody else adds it. -/
theorem Removing.other {q : HttpRequest} {reply : Except Failure HttpResponse}
    (h : Removing x hs t) (hanswers : Answers x.base hs ⟨.http q, reply⟩ hs')
    (hq : ¬ q.Names x.application) : Removing x hs' t :=
  h.imp (hanswers.free hq) fun ⟨removal, hpending, hmethod, hunder⟩ =>
    ⟨removal, hpending, hmethod, hanswers.under hq hunder⟩

/-- The party that has asked the aggregator removes what it found, or is about to. -/
theorem Covered.removing_call {p : Actor} {asked : List Exchange} {q : HttpRequest}
    {reply : Except Failure HttpResponse}
    {next : Except Failure HttpResponse → Program signature (Except Failure p.Result)}
    (h : Covered x e) (htended : Tended x e)
    (ht : ⟨p, asked, .ask (.http q) next⟩ ∈ e.tasks)
    (hanswers : Answers x.base e.holdings ⟨.http q, reply⟩ hs')
    (hgathered : ∃ url, Under x.base x.application url hs')
    (hapt : Apt x ⟨p, asked ++ [⟨.http q, reply⟩], next reply⟩)
    (hlooked : LookedUp ⟨p, asked ++ [⟨.http q, reply⟩], next reply⟩) :
    Removing x hs' ⟨p, asked ++ [⟨.http q, reply⟩], next reply⟩ := by
  obtain ⟨hparty, -⟩ := hlooked
  cases p with
  | reconciler ctx r =>
    have hbefore := htended.apt _ ht
    rcases hbefore.withdrawing.call (List.mem_singleton_self _) with
      ⟨rfl, hasked⟩ | ⟨hmethod, hasked⟩
    · exact removing_of_listed hanswers hasked hgathered hapt
    · have hcalled : Called asked := by rwa [← not_called_iff, not_not] at hasked
      left
      rcases h.withdrawn _ ht ⟨rfl, hcalled⟩ with hfree | ⟨removal, hpending, -, hunder⟩
      · exact hanswers.free (hbefore.not_names rfl (List.mem_singleton_self _)) hfree
      · cases hpending
        exact hanswers.free_of_removed hmethod hunder
  | coordinator ctx r => cases hparty
  | other p => exact hapt.admitted.elim

/-! ## 4. Steps -/

/-- The step sends a registration of the service. -/
def Registers (x : Referral) (e e' : Estate) : Prop :=
  ∃ q, e'.calls = q :: e.calls ∧ q.Names x.application

/-- What is covered stays so, unless a registration is sent. -/
theorem Covered.step (h : Covered x e) (htended : Tended x e) (hstep : x.Step e e')
    (hregisters : ¬ Registers x e e') : Covered x e' := by
  have hafter := htended.step hstep
  have hwithdrawn := h.withdrawn
  cases hstep with
  | begin p _ _ _ =>
    refine ⟨h.held, fun t ht hlooked => ?_⟩
    rcases List.mem_cons.mp ht with rfl | ht
    · obtain ⟨-, y, hy, -⟩ := hlooked
      cases hy
    · exact hwithdrawn t ht hlooked
  | ask htasks hspares hserves _ =>
    have hcaller := htasks ▸ List.mem_append_cons_self
    rw [htasks] at hwithdrawn
    exact ⟨h.held_ask hcaller (htended.apt _ hcaller) hserves, forall_replaced
      (fun t ht => hwithdrawn t (mem_of_left ht)) (h.removing_replied hcaller hspares)⟩
  | call htasks hanswers =>
    have hcaller := htasks ▸ List.mem_append_cons_self
    have hq := fun hnames => hregisters ⟨_, rfl, hnames⟩
    rw [htasks] at hwithdrawn
    exact ⟨h.held.imp_right (hanswers.free hq), forall_replaced
      (fun t ht hlooked => (hwithdrawn t (mem_of_left ht) hlooked).other hanswers hq)
      (h.removing_call htended hcaller hanswers hafter.gathered
        (hafter.apt _ List.mem_append_cons_self))⟩
  | write htasks hcurrent _ =>
    have hcaller := htasks ▸ List.mem_append_cons_self
    rw [htasks] at hwithdrawn
    exact ⟨h.held.imp_left fun hheld => hheld.written hcurrent, forall_replaced
      (fun t ht => hwithdrawn t (mem_of_left ht))
      (h.removing_replied hcaller Addressee.noConfusion)⟩
  | leave htasks => exact ⟨h.held, fun t ht => hwithdrawn t (htasks ▸ mem_of_left ht)⟩
  | create r hnone _ => exact ⟨h.held.imp_left fun hheld => hheld.create hnone, hwithdrawn⟩
  | delete _ _ _ _ => exact ⟨h.held.imp_left .requestDeletion, hwithdrawn⟩

/-- A registration that is sent to a sheltered estate leaves it so. -/
theorem Sheltered.step (h : Sheltered x e) (htended : Tended x e) (hstep : x.Step e e')
    (hregisters : Registers x e e') : Sheltered x e' := by
  obtain ⟨q, hcalls, hnames⟩ := hregisters
  have hsame : e.calls ≠ q :: e.calls := (List.cons_ne_self q e.calls).symm
  have hahead := h.ahead
  cases hstep with
  | call htasks _ =>
    obtain ⟨rfl, -⟩ := List.cons.inj hcalls
    have hcaller := htasks ▸ List.mem_append_cons_self
    rw [htasks] at hahead
    refine ⟨h.held, forall_replaced (fun t ht => hahead t (mem_of_left ht)) fun ⟨hparty, _⟩ => ?_⟩
    -- only coordination passes send registrations
    exact (htended.apt _ hcaller).not_names hparty (List.mem_singleton_self _) hnames
  | _ => exact absurd hcalls hsame

/-! ## 5. Films without the finalizer -/

namespace Leftover

/-- A service without the finalizer. -/
def films : Resource :=
  { kind := "RadarrConfig", name := "films"
    spec := [("connection", .object [("url", .string "http://films")]),
      ("indexers", .object [("prowlarrRef", .object [("name", .string "main")])])] }

/-- Its aggregator. -/
def main : Resource :=
  { kind := "ProwlarrConfig", name := "main", status := [("connected", .bool true)]
    spec := [("connection", .object [("url", .string "http://main"),
      ("apiKeySecretRef", .object [("name", .string "key")])])] }

/-- The service as it is read. -/
def service : Managed where
  resource := films
  declared := .manager .radarr
    { connection := ⟨"http://films", none, false, none⟩
      indexers := some ⟨some ⟨"main", true, [], []⟩, []⟩
      tuning := none, downloadClients := [], importLists := [], authentication := none
      mediaManagement := none, rootFolders := [], qualityPreset := none, pathMappings := [] }
  status := {}

/-- The aggregator as it is read. -/
def aggregator : Managed where
  resource := main
  declared := .aggregator
    { connection := ⟨"http://main", some ⟨"key", none⟩, false, none⟩
      indexers := [], proxies := [], applications := [], downloadClients := [], tuning := none }
  status := { connected := true }

def client : AggregatorClient := .new "http://main" "key" 30 false

/-- The stored values of all secrets. -/
def data : SecretData := [("apiKey", "a2V5")]

def referral : Referral where
  settings := {}
  kind := .radarr
  ns := "default"
  name := "films"
  spec := films.spec
  declared := service.declared
  aggregator := main
  target := aggregator
  vault _ _ := .ok (some data)
  client
  reads := rfl
  refers := ⟨_, rfl, rfl⟩
  isAggregator := rfl
  sameNamespace := rfl
  isRead := rfl
  reaches := rfl

def ctx : Coordinate.Context := ⟨{}, ⟨2024, 1, 1, 0, 0, 0, 0, some 0⟩⟩

def registration : Registration := registrationOf ctx aggregator service "key"

/-- The secrets that were read when the films have their turn. -/
def cache : Cache := [("default/key", data)]

def record : RegistrationRecord where
  registered := true
  aggregator := some "main"
  applicationId := some 7
  lastSync := some ctx.now
  message := some ("Registered as " ++ registration.name)

/-! ### What the pass asks -/

def secret (name : String) : Exchange := ⟨.getSecret "default" name, .ok (some data)⟩

def list (kind : String) (rs : List Resource) : Exchange := ⟨.listResources kind "default", .ok rs⟩

def get : Exchange := ⟨.http (client.request "GET" "" none), .ok ⟨200, "[]"⟩⟩

def post (payload : Json) : Exchange :=
  ⟨.http (client.request "POST" "" (some payload)), .ok ⟨200, "\x7b\"id\": 7\x7d"⟩⟩

def announced : Exchange :=
  ⟨.record (.normal films "Registered" ("Registered with main as " ++ registration.name)), ()⟩

def saved : Exchange :=
  ⟨.updateStatus films (withRecord service record),
    .ok (MemoryStore.written films (withRecord service record))⟩

/-! ### The pass -/

theorem parse_none : Json.parse "[]" = .ok (.array []) := by decide +kernel

theorem parse_added : Json.parse "\x7b\"id\": 7\x7d" = .ok (.object [("id", .int 7)]) := by
  decide +kernel

/-- A registration is added where there are none. -/
theorem follows_register_added (client : AggregatorClient) {registration : Registration}
    {payload : Json} (hpayload : registration.payload none = .ok payload) (cache : Cache) :
    Follows (client.register registration) cache
      [⟨.http (client.request "GET" "" none), .ok ⟨200, "[]"⟩⟩,
        ⟨.http (client.request "POST" "" (some payload)), .ok ⟨200, "\x7b\"id\": 7\x7d"⟩⟩]
      (.ok 7) cache := by
  have hfound : client.foundIn registration.name (.ok ⟨200, "[]"⟩) = .ok none := by
    rw [AggregatorClient.foundIn, AggregatorClient.listedIn,
      AggregatorClient.answerTo_of_parse parse_none (by decide) (by decide)]
    rfl
  have hsent := @AggregatorClient.follows_register_sent client cache registration none _ _ hfound
    (AggregatorClient.writing_none_iff.mpr ⟨payload, hpayload, rfl⟩)
    (.ok ⟨200, "\x7b\"id\": 7\x7d"⟩)
  rw [AggregatorClient.answerTo_of_parse parse_added (by decide) (by decide)] at hsent
  exact hsent

section

variable {payload : Json} (hpayload : registration.payload none = .ok payload)

include hpayload

theorem follows_decideOrFail : ∃ after, Follows (decideOrFail ctx aggregator service client) cache
    [secret "radarr-api-key", get, post payload, announced] (.ok (some (record, none))) after := by
  obtain ⟨after, hkey⟩ : ∃ after, Follows (registrationKey service) cache
      [secret "radarr-api-key"] (.ok "key") after := ⟨_, .ask (.done _)⟩
  have hservice : Follows (registerService ctx aggregator service client "key") after
      [get, post payload, announced] (.ok (record, none)) after :=
    follows_attempt_bind.mpr
      ⟨[get, post payload], _, _, _, rfl, follows_register_added client hpayload after,
        .ask (.done _)⟩
  have hdecide : Follows (Coordinate.decide ctx aggregator service client) cache
      [secret "radarr-api-key", get, post payload, announced] (.ok (some (record, none)))
      after := by
    refine follows_attempt_bind.mpr ⟨[secret _], _, _, _, rfl, hkey, ?_⟩
    exact follows_bind.mpr (.inl ⟨_, [], _, _, (List.append_nil _).symm, hservice, .done _⟩)
  exact ⟨after,
    follows_attempt_bind.mpr ⟨_, [], _, _, (List.append_nil _).symm, hdecide, .done _⟩⟩

theorem follows_service : ∃ after, Follows (Coordinate.service ctx aggregator client {} films) cache
    [secret "radarr-api-key", get, post payload, announced, saved]
    (.ok { processed := 1, registered := 1 }) after := by
  obtain ⟨after, hdecide⟩ := follows_decideOrFail hpayload
  exact ⟨after, follows_bind.mpr (.inl
    ⟨[secret _, get, post payload, announced], _, _, _, rfl, hdecide, .ask (.done _)⟩)⟩

/-- The films are registered, and the pass comes to its end. -/
theorem follows_coordinate : Program.Follows (coordinate ctx main).program
    ([secret "key", list "SonarrConfig" [], list "RadarrConfig" [films], secret "radarr-api-key"] ++
      get :: post payload :: ([announced] ++
        saved :: ([list "LidarrConfig" [], list "ReadarrConfig" []] ++ [])))
    (.ok { processed := 1, registered := 1, requeueAfter := some 300 }) := by
  obtain ⟨after, hservice⟩ := follows_service hpayload
  have hclient : Follows (AggregatorClient.forManaged aggregator 30) [] [secret "key"] (.ok client)
      cache := .ask (.done _)
  have hkinds : Follows (kinds ctx aggregator client {} ManagerKind.all) cache
      [list "SonarrConfig" [], list "RadarrConfig" [films], secret "radarr-api-key", get,
        post payload, announced, saved, list "LidarrConfig" [], list "ReadarrConfig" []]
      (.ok { processed := 1, registered := 1 }) after := by
    refine follows_attempt_bind.mpr ⟨[list _ _], _, _, _, rfl, .ask (.done _), ?_⟩
    refine follows_attempt_bind.mpr ⟨[list _ _], _, _, _, rfl, .ask (.done _), ?_⟩
    refine follows_bind.mpr (.inl
      ⟨[secret _, get, post payload, announced, saved], _, _, _, rfl, ?_, .ask (.ask (.done _))⟩)
    exact follows_bind.mpr (.inl ⟨_, [], _, _, (List.append_nil _).symm, hservice, .done _⟩)
  refine follows_program.mpr ⟨after, ?_⟩
  refine follows_attempt_bind.mpr ⟨[secret "key"], _, _, _, rfl, hclient, ?_⟩
  exact follows_bind.mpr (.inl ⟨_, [], _, _, (List.append_nil _).symm, hkinds, .done _⟩)

end

/-! ### The run -/

def store : MemoryStore := { resources := [films, main] }

theorem fresh : Fresh referral { store } where
  tasks := rfl
  fit r hr howns := by
    rcases List.mem_cons.mp hr with rfl | hr
    · exact ⟨rfl, {}, rfl, ⟨fun _ h => (nomatch h), fun _ h => (nomatch h), fun _ h => (nomatch h),
        fun _ h => (nomatch h)⟩⟩
    · rw [List.mem_singleton.mp hr] at howns
      exact absurd howns.1 (by decide)
  free _ h := nomatch h

theorem valid_now : ctx.now.Valid := by
  simp [ctx, Timestamp.Valid, Timestamp.TimeValid, Timestamp.daysInMonth]

theorem replies_list {s : MemoryStore} {kind : String} {rs : List Resource}
    (h : s.list kind (some "default") = rs) : referral.Replies s (list kind rs) := by
  refine ⟨Addressee.noConfusion, ?_, fun _ _ _ h => (nomatch h), fun _ h => (nomatch h)⟩
  rw [← h]
  exact .listed kind "default"

theorem replies_secret (s : MemoryStore) (name : String) : referral.Replies s (secret name) := by
  refine ⟨Addressee.noConfusion, .elsewhere rfl, fun _ _ _ h => ?_, fun _ h => (nomatch h)⟩
  cases h
  rfl

theorem replies_announced (s : MemoryStore) : referral.Replies s announced :=
  ⟨Addressee.noConfusion, .elsewhere rfl, fun _ _ _ h => (nomatch h), fun _ h => (nomatch h)⟩

/-- The pass registers the films, and they are deleted afterwards. -/
theorem runs_left : ∃ e, referral.Runs { store } e ∧ e.tasks = [] ∧
    e.store.find? "RadarrConfig" "default" "films" = none ∧
    ∃ h ∈ e.holdings, h.Named referral.application := by
  obtain ⟨members, hpayload, hnamed⟩ : ∃ members,
      registration.payload none = .ok (.object members) ∧
      Table.get? members "name" = some (.string referral.application) := ⟨_, rfl, rfl⟩
  let after : MemoryStore := store.put (MemoryStore.written films (withRecord service record))
  have hbegin : referral.Step { store }
      ⟨store, [⟨.coordinator ctx main, [], (coordinate ctx main).program⟩], [], []⟩ := by
    refine .begin (e := { store }) (.coordinator ctx main) ⟨rfl, rfl, valid_now⟩ ?_ ?_
    · exact List.forall_mem_singleton.mpr rfl
    · exact fun _ h => nomatch h
  have hreads : ∀ y ∈ [secret "key", list "SonarrConfig" [], list "RadarrConfig" [films],
      secret "radarr-api-key"], referral.Replies store y := by
    simp only [List.forall_mem_cons]
    exact ⟨replies_secret _ _, replies_list List.mergeSort_nil,
      replies_list (List.mergeSort_singleton _), replies_secret _ _, fun _ h => (nomatch h)⟩
  have hleft : ∀ y ∈ [list "LidarrConfig" [], list "ReadarrConfig" []],
      referral.Replies after y := by
    simp only [List.forall_mem_cons]
    exact ⟨replies_list List.mergeSort_nil, replies_list List.mergeSort_nil, fun _ h => (nomatch h)⟩
  have hget : Answers referral.base [] get [] :=
    .listed rfl (by decide) (by decide) parse_none
  have hpost : Answers referral.base [] (post (.object members)) [⟨.int 7, members⟩] :=
    .added (.int 7) _ rfl rfl
  have hcurrent : store.current films = .ok films := rfl
  obtain ⟨rest₁, h₁, hrun₁⟩ := @runs_asked referral store [] [] (.coordinator ctx main) [] _ _ _ _
    (follows_coordinate hpayload) hreads
  obtain ⟨rest₂, h₂, hrun₂⟩ := runs_called h₁ hget
  obtain ⟨rest₃, h₃, hrun₃⟩ := runs_called h₂ hpost
  obtain ⟨rest₄, h₄, hrun₄⟩ :=
    runs_asked h₃ (List.forall_mem_singleton.mpr (replies_announced store))
  obtain ⟨asked₅, rest₅, h₅, hrun₅⟩ := runs_written h₄ hcurrent
  obtain ⟨rest₆, h₆, hrun₆⟩ := runs_asked h₅ hleft
  have hrun := Relation.ReflTransGen.head hbegin (hrun₁.trans (hrun₂.trans (hrun₃.trans
    (hrun₄.trans (hrun₅.trans (hrun₆.trans (runs_done h₆)))))))
  refine ⟨_, hrun.tail (.delete "RadarrConfig" "default" "films" ctx.now), rfl, ?_, ?_⟩
  · rfl
  · exact ⟨_, List.mem_singleton_self _, hnamed⟩

end Leftover

/-! ## 6. Runs -/

/-- The step leaves the estate exposed, and sends no registration of the service. -/
def Drifts (x : Referral) (e e' : Estate) : Prop :=
  x.Step e e' ∧ ¬ Sheltered x e' ∧ ¬ Registers x e e'

/-- The last registration of the service was sent to an exposed estate, and the estate was not
sheltered ever since. -/
def Exposed (x : Referral) (e₀ e : Estate) : Prop :=
  ∃ e₁ e₂, x.Runs e₀ e₁ ∧ ¬ Sheltered x e₁ ∧ x.Step e₁ e₂ ∧ Registers x e₁ e₂ ∧
    Relation.ReflTransGen (Drifts x) e₂ e

theorem tended_of_runs (hfresh : Fresh x e₀) (hrun : x.Runs e₀ e) : Tended x e := by
  induction hrun with
  | refl => exact hfresh.tended
  | tail _ hstep ih => exact ih.step hstep

theorem covered_or_exposed (hfresh : Fresh x e₀) (hrun : x.Runs e₀ e) :
    Covered x e ∨ Exposed x e₀ e := by
  induction hrun with
  | refl => exact .inl hfresh.covered
  | @tail e e' hbefore hstep ih =>
    have htended := tended_of_runs hfresh hbefore
    by_cases hsheltered' : Sheltered x e'
    · exact .inl hsheltered'.covered
    by_cases hregisters : Registers x e e'
    · refine .inr ⟨e, e', hbefore, fun hsheltered => hsheltered' ?_, hstep, hregisters, .refl⟩
      exact hsheltered.step htended hstep hregisters
    · refine ih.imp (fun hcovered => hcovered.step htended hstep hregisters) ?_
      rintro ⟨e₁, e₂, hrun₁, hexposed, hsent, hregisters₁, hdrifts⟩
      exact ⟨e₁, e₂, hrun₁, hexposed, hsent, hregisters₁,
        hdrifts.tail ⟨hstep, hsheltered', hregisters⟩⟩

/-- **What is left of a service.**  However reconciliation passes over a service, coordination
passes over its aggregator and deletions take turns: when the service is gone, the aggregator holds
no application of its name, unless the last registration of it was sent to an estate that was not
sheltered, and was not sheltered ever since. -/
theorem left_exposed (hfresh : Fresh x e₀) (hrun : x.Runs e₀ e)
    (hgone : e.store.find? x.kind.resourceKind x.ns x.name = none) :
    Free x.application e.holdings ∨ Exposed x e₀ e := by
  refine (covered_or_exposed hfresh hrun).imp_left fun hcovered => ?_
  refine hcovered.held.resolve_left fun ⟨r, hr, _⟩ => ?_
  cases hgone.symm.trans hr

/-- The films are gone, and what is left of them was sent while nothing sheltered it. -/
theorem left_exposed_films : ∃ e, Leftover.referral.Runs { store := Leftover.store } e ∧
    e.store.find? "RadarrConfig" "default" "films" = none ∧
    (∃ h ∈ e.holdings, h.Named Leftover.referral.application) ∧
    (Free Leftover.referral.application e.holdings ∨
      Exposed Leftover.referral { store := Leftover.store } e) := by
  obtain ⟨e, hrun, -, hgone, hleft⟩ := Leftover.runs_left
  exact ⟨e, hrun, hgone, hleft, left_exposed Leftover.fresh hrun hgone⟩

/-- The films want to be registered with an aggregator that is connected and does not list them
itself.  Once they are gone and nobody is at work, the aggregator holds an application for them. -/
theorem left_films :
    let x := Leftover.referral
    let e₀ : Estate := { store := Leftover.store }
    (∃ ref, x.declared.aggregatorRef = some ref ∧ ref.autoRegister = true) ∧
    x.target.status.connected = true ∧ x.target.declared.applications = [] ∧ Fresh x e₀ ∧
    ∃ e, x.Runs e₀ e ∧ e.tasks = [] ∧
      e.store.find? x.kind.resourceKind x.ns x.name = none ∧ ¬ Free x.application e.holdings := by
  obtain ⟨e, hrun, hidle, hgone, h, hmem, hnamed⟩ := Leftover.runs_left
  exact ⟨⟨_, rfl, rfl⟩, rfl, rfl, Leftover.fresh, e, hrun, hidle, hgone,
    fun hfree => hfree h hmem hnamed⟩

end Steward.Run

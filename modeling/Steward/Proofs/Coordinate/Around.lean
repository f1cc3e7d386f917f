import Steward.Proofs.Aggregator.Registration
import Steward.Proofs.Coordinate.Conduct
import Steward.Proofs.Secret.Fixed
import Steward.Proofs.Store.Memory

/-!
# The world around one service

A coordination pass is run in a world of which one service is set apart.  What the world does for
all others is described without that service (`Surroundings`), and the whole world keeps to it
whatever becomes of the service itself (`Around`).  Then the turns of the others in a pass follow
from the surroundings alone (`Course`): the turns of the service can be left out, with the secrets
that were read and the requests that were made in them.
-/

namespace Steward

/-- The record but for the time of the last registration. -/
def RegistrationRecord.unsynced (r : RegistrationRecord) : RegistrationRecord :=
  { r with lastSync := none }

namespace Coordinate

open Pass Secret

/-! ## 1. Worlds -/

/-- A service that the aggregator may be asked to register. -/
structure Service where
  kind : ManagerKind
  ns : String
  name : String

namespace Service

/-- The resource is the one of the service. -/
def Owns (x : Service) (r : Resource) : Prop := r.IsAt x.kind.resourceKind x.ns x.name

instance (x : Service) (r : Resource) : Decidable (x.Owns r) :=
  inferInstanceAs (Decidable (r.IsAt ..))

/-- All resources but that of the service. -/
def others (x : Service) (rs : List Resource) : List Resource := rs.filter fun r => ¬ x.Owns r

/-- All turns but those of the service. -/
def otherTurns (x : Service) (ts : List Turn) : List Turn := ts.filter fun t => ¬ x.Owns t.resource

/-- The name of the service at the aggregator. -/
def pullName (x : Service) (pre : String) : String :=
  Registration.pullName pre x.name x.kind.service

end Service

/-- What a world does for all services but one, whatever that one is like. -/
structure Surroundings where
  State : Type
  /-- What comes of asking the aggregator to register a service. -/
  register : AggregatorClient → Registration → State → Except Failure Int × State
  /-- What comes of a status write. -/
  save : Resource → Json.Members → State → Except Failure Unit × State
  /-- What is read afresh under a key. -/
  find : String → String → String → State → Except Failure (Option Resource) × State
  /-- The time of the last registration has no say in what comes of a write. -/
  save_congr : ∀ (q : Resource) (m : Managed) (record record' : RegistrationRecord) (s : State),
    record.unsynced = record'.unsynced →
      save q (withRecord m record) s = save q (withRecord m record') s
  isAt_of_find : ∀ (kind ns name : String) (s : State) (q : Resource),
    (find kind ns name s).1 = .ok (some q) → q.IsAt kind ns name

/-- A world with these surroundings of the service `x`.  Of a state of the world, the surroundings
see what the view shows. -/
structure Around (e : Surroundings) (pre : String) (x : Service) where
  State : Type
  world : Program.World signature State
  view : State → e.State
  /-- Secrets do not change. -/
  vault : Vault
  listing : String → String → Except Failure (List Resource)
  getSecret : ∀ ns name s, (world (.getSecret ns name) s).1 = vault ns name
  listResources : ∀ kind ns s, (world (.listResources kind ns) s).1 = listing kind ns
  listed : ∀ kind ns rs, listing kind ns = .ok rs → ∀ r ∈ rs, r.kind = kind ∧ r.ns = ns
  view_getSecret : ∀ ns name s, view (world (.getSecret ns name) s).2 = view s
  view_listResources : ∀ kind ns s, view (world (.listResources kind ns) s).2 = view s
  view_record : ∀ event s, view (world (.record event) s).2 = view s
  /-- What is asked for the others, the surroundings reply. -/
  register_other : ∀ (client : AggregatorClient) (registration : Registration) cache s,
    registration.name ≠ x.pullName pre →
    let run := ((client.register registration).run cache).run world s
    (run.1.1, view run.2) = e.register client registration (view s)
  save_other : ∀ q document s, ¬ x.Owns q →
    let reply := world (.updateStatus q document) s
    (reply.1.map fun _ => (), view reply.2) = e.save q document (view s)
  find_other : ∀ (q : Resource) s, ¬ x.Owns q →
    let reply := world (.getResource q.kind q.ns q.name) s
    (reply.1, view reply.2) = e.find q.kind q.ns q.name (view s)
  /-- What is asked for the service itself may be replied to at will, but the surroundings do not
  see it. -/
  register_own : ∀ (client : AggregatorClient) (registration : Registration) cache s,
    registration.name = x.pullName pre →
    view (((client.register registration).run cache).run world s).2 = view s
  save_own : ∀ q document s, x.Owns q → view (world (.updateStatus q document) s).2 = view s
  find_own : ∀ (q : Resource) s, x.Owns q →
    let reply := world (.getResource q.kind q.ns q.name) s
    view reply.2 = view s ∧ ∀ fresh, reply.1 = .ok (some fresh) → x.Owns fresh

/-! ## 2. What the surroundings come to -/

/-- The exchanges that write a record, as the surroundings reply. -/
inductive Surroundings.Answers (e : Surroundings) : e.State → List Exchange → e.State → Prop where
  | nil (s : e.State) : e.Answers s [] s
  | save {q : Resource} {document : Json.Members} {reply : Except Failure Resource}
      {rest : List Exchange} {s s' : e.State} :
      (reply.map fun _ => ()) = (e.save q document s).1 →
      e.Answers (e.save q document s).2 rest s' →
      e.Answers s (⟨.updateStatus q document, reply⟩ :: rest) s'
  | find {kind ns name : String} {rest : List Exchange} {s s' : e.State} :
      e.Answers (e.find kind ns name s).2 rest s' →
      e.Answers s (⟨.getResource kind ns name, (e.find kind ns name s).1⟩ :: rest) s'

/-- What is sent to the aggregator for a service, what is decided about it, and what the surroundings
are like then. -/
structure Verdict (e : Surroundings) where
  sent : Option Registration
  decision : Option (RegistrationRecord × Option String)
  state : e.State

/-- The verdict on a service, by the secrets of the vault. -/
def verdict (e : Surroundings) (f : Vault) (ctx : Context) (a m : Managed)
    (client : AggregatorClient) (s : e.State) : Verdict e :=
  match m.declared.aggregatorRef with
  | none =>
    ⟨none, if wasRegistered a m then some ({ message := some refRemovedMessage }, none) else none, s⟩
  | some ref =>
    if ref.name ≠ a.name then ⟨none, none, s⟩
    else if isPushed a m then
      ⟨none, some (notRegistered a conflictMessage,
        some ("conflict: " ++ m.service ++ "/" ++ m.name ++ " defined in both Push and Pull model")),
        s⟩
    else if ref.autoRegister = false then ⟨none, some (notRegistered a disabledMessage, none), s⟩
    else
      match keyIn f m with
      | .error error => ⟨none, some (notRegistered a (keyMessage m error), some error.message), s⟩
      | .ok key =>
        let made := e.register client (registrationOf ctx a m key) s
        ⟨some (registrationOf ctx a m key),
          some (match made.1 with
            | .error error =>
              (notRegistered a ("Registration failed: " ++ error.message), some error.message)
            | .ok id => (registeredAs ctx a m id, none)),
          made.2⟩

/-- In the turn the aggregator is asked to register this. -/
def Turn.Sends (ctx : Context) (a : Managed) (client : AggregatorClient) (t : Turn)
    (registration : Registration) : Prop :=
  ∃ m key rest mid calls events outcome after, Managed.ofResource t.resource = .ok m ∧
    Resolves m t.before t.asked key rest mid ∧ registration = registrationOf ctx a m key ∧
    rest = calls ++ events ∧ Follows (client.register registration) mid calls outcome after

/-- How a turn goes in the surroundings. -/
inductive TurnIn (e : Surroundings) (f : Vault) (ctx : Context) (a : Managed)
    (client : AggregatorClient) : e.State → Turn → e.State → Prop where
  | skipped {t : Turn} (s : e.State) :
      t.resource.beingDeleted = true ∨ (∃ error, Managed.ofResource t.resource = .error error) →
      t.asked = [] → t.decision = none → t.written = [] → TurnIn e f ctx a client s t s
  | decided {t : Turn} {m : Managed} {s s' : e.State} : t.resource.beingDeleted = false →
      Managed.ofResource t.resource = .ok m →
      t.decision = (verdict e f ctx a m client s).decision →
      (∀ registration, t.Sends ctx a client registration ↔
        (verdict e f ctx a m client s).sent = some registration) →
      Saves m t.decision t.written →
      e.Answers (verdict e f ctx a m client s).state t.written s' → TurnIn e f ctx a client s t s'

/-- Turns in order. -/
inductive Course (e : Surroundings) (f : Vault) (ctx : Context) (a : Managed)
    (client : AggregatorClient) : e.State → List Turn → e.State → Prop where
  | nil (s : e.State) : Course e f ctx a client s [] s
  | cons {t : Turn} {ts : List Turn} {s mid s' : e.State} : TurnIn e f ctx a client s t mid →
      Course e f ctx a client mid ts s' → Course e f ctx a client s (t :: ts) s'

theorem Course.append {e : Surroundings} {f : Vault} {ctx : Context} {a : Managed}
    {client : AggregatorClient} {s mid s' : e.State} {ts us : List Turn}
    (h : Course e f ctx a client s ts mid) (k : Course e f ctx a client mid us s') :
    Course e f ctx a client s (ts ++ us) s' := by
  induction h with
  | nil s => exact k
  | cons hturn _ ih => exact .cons hturn (ih k)

/-! ## 3. Secrets and names -/

variable {ctx : Context} {a m : Managed} {client : AggregatorClient} {before after : Cache}
  {asked : List Exchange} {f : Vault}

/-- Deciding about a service leaves the secrets that were read in agreement with the vault. -/
theorem keeps_decideOrFail (f : Vault) (ctx : Context) (a m : Managed) (client : AggregatorClient) :
    Keeps (From f) (Agrees f m.ns) (decideOrFail ctx a m client) := by
  have hregister (key : String) :
      Keeps (From f) (Agrees f m.ns) (registerService ctx a m client key) := by
    refine (AggregatorClient.keeps_register _ _).attempt_bind fun outcome => ?_
    cases outcome with
    | error e => exact (keeps_ask _).bind fun _ => keeps_pure _
    | ok id =>
      dsimp only
      split
      · exact (keeps_ask _).bind fun _ => keeps_pure _
      · exact keeps_pure _
  have hdecide : Keeps (From f) (Agrees f m.ns) (decide ctx a m client) := by
    cases href : m.declared.aggregatorRef with
    | none =>
      rw [decide_of_unreferenced href]
      exact keeps_pure _
    | some ref =>
      rw [decide, href]
      dsimp only
      refine keeps_ite (keeps_pure _) (keeps_ite ((keeps_ask _).bind fun _ => keeps_pure _) ?_)
      refine keeps_ite (keeps_pure _) ?_
      refine (yields_registrationKey f m).keeps.attempt_bind fun key => ?_
      cases key with
      | error e => cases e <;> first | exact keeps_pure _ | exact keeps_throw _
      | ok key => exact (hregister key).bind fun _ => keeps_pure _
  refine hdecide.attempt_bind fun decision => ?_
  cases decision <;> exact keeps_pure _

section Names

variable {q : Resource} {k : ManagerKind} {x : Service} {key : String}

/-- The name under which a service is registered. -/
theorem registrationOf_name (hkind : q.kind = k.resourceKind) (hm : Managed.ofResource q = .ok m) :
    (registrationOf ctx a m key).name =
      Registration.pullName ctx.settings.registrationPrefix q.name k.service := by
  rw [registrationOf, Managed.service_of_ofResource hkind hm, Managed.name,
    Managed.resource_of_ofResource hm]

/-- Only the service itself is registered under its name. -/
theorem registrationOf_name_iff (hkind : q.kind = k.resourceKind) (hns : q.ns = x.ns)
    (hm : Managed.ofResource q = .ok m) :
    (registrationOf ctx a m key).name = x.pullName ctx.settings.registrationPrefix ↔ x.Owns q := by
  rw [registrationOf_name hkind hm, Service.pullName]
  constructor
  · intro h
    obtain ⟨hname, hk⟩ := Registration.pullName_inj h
    exact ⟨hkind.trans (congrArg _ hk), hns, hname⟩
  · rintro ⟨hkind', -, hname⟩
    rw [hkind] at hkind'
    have hk : k = x.kind := by revert hkind'; cases k <;> cases x.kind <;> decide
    rw [hk, hname]

end Names

/-! ## 4. What is asked for a service -/

/-- What is asked for its key, then the registration, then events. -/
theorem Attempt.parts {auto : Bool} {record : RegistrationRecord} {error : Option String}
    (h : Attempt ctx a m client auto before asked record error) :
    ∃ reads calls events, asked = reads ++ (calls ++ events) ∧
      (∀ x ∈ reads, x.request.ReadsSecret) ∧ (∀ x ∈ events, x.request.Records) ∧
      (calls = [] ∨ ∃ key mid outcome after,
        Follows (client.register (registrationOf ctx a m key)) mid calls outcome after) := by
  have hreads {reads : List Exchange} {key : Except Failure String} {mid : Cache}
      (h : Follows (registrationKey m) before reads key mid) :
      ∀ x ∈ reads, x.request.ReadsSecret :=
    asks_registrationKey m _ _ _ _ h
  cases h with
  | conflict _ =>
    exact ⟨[], [], _, rfl, fun _ h => (nomatch h), List.forall_mem_singleton.mpr ⟨_, rfl⟩, .inl rfl⟩
  | disabled _ _ => exact ⟨[], [], [], rfl, fun _ h => (nomatch h), fun _ h => (nomatch h), .inl rfl⟩
  | noKey _ _ hkey =>
    exact ⟨asked, [], [], (List.append_nil _).symm, hreads hkey, fun _ h => (nomatch h), .inl rfl⟩
  | failed _ _ hkey hcalls =>
    exact ⟨_, _, _, rfl, hreads hkey, List.forall_mem_singleton.mpr ⟨_, rfl⟩,
      .inr ⟨_, _, _, _, hcalls⟩⟩
  | registered _ _ hkey hcalls hevents =>
    exact ⟨_, _, _, rfl, hreads hkey, fun x hx => isRecord_iff.mp (hevents x hx),
      .inr ⟨_, _, _, _, hcalls⟩⟩

namespace Turn

variable {t : Turn} {registration : Registration}

theorem Sends.called (h : t.Sends ctx a client registration) : Called t.asked := by
  obtain ⟨m, key, rest, mid, calls, events, outcome, after, -, ⟨reads, hasked, -⟩, -, rfl, hcalls⟩ := h
  obtain ⟨x, hx, hto⟩ := called_of_register hcalls
  exact ⟨x, hasked ▸ List.mem_append_right _ (List.mem_append_left _ hx), hto⟩

/-- What is sent for a service carries the key that was resolved for it. -/
theorem sends_iff {reads calls events : List Exchange} {key : String} {mid after : Cache}
    {outcome : Except Failure Int} (hm : Managed.ofResource t.resource = .ok m)
    (hasked : t.asked = reads ++ (calls ++ events))
    (hreads : Follows (registrationKey m) t.before reads (.ok key) mid)
    (hcalls : Follows (client.register (registrationOf ctx a m key)) mid calls outcome after) :
    t.Sends ctx a client registration ↔ some (registrationOf ctx a m key) = some registration := by
  rw [Option.some.injEq]
  constructor
  · rintro ⟨m', key', rest, mid', calls', events', outcome', after', hm', ⟨reads', hasked', hkey'⟩,
      rfl, -, -⟩
    rw [hm, Except.ok.injEq] at hm'
    subst hm'
    have hsame := (hreads.unique hkey' (hasked.symm.trans hasked')).2.1
    rw [Except.ok.inj hsame]
  · rintro rfl
    exact ⟨m, key, calls ++ events, mid, calls, events, outcome, after, hm, ⟨reads, hasked, hreads⟩,
      rfl, rfl, hcalls⟩

end Turn

/-! ## 5. One run -/

namespace Around

variable {e : Surroundings} {pre : String} {x : Service} (w : Around e pre x)

/-- The exchanges of a run in the world. -/
abbrev Plays (s : w.State) (xs : List Exchange) (s' : w.State) : Prop :=
  Program.Plays w.world s xs s'

variable {w} {s s' : w.State} {xs : List Exchange}

/-- What is listed is what the world lists. -/
theorem listing_of_plays (h : w.Plays s xs s') : ∀ kind ns reply,
    (⟨.listResources kind ns, reply⟩ : Exchange) ∈ xs → reply = w.listing kind ns := by
  induction h with
  | nil s => exact fun _ _ _ hmem => nomatch hmem
  | cons _ ih =>
    intro kind ns reply hmem
    rcases List.mem_cons.mp hmem with heq | hmem
    · cases heq
      exact w.listResources kind ns _
    · exact ih kind ns reply hmem

/-- Secrets are those of the vault. -/
theorem from_of_plays (h : w.Plays s xs s') : ∀ y ∈ xs, From w.vault y := by
  induction h with
  | nil s => exact fun y hy => nomatch hy
  | cons _ ih =>
    refine List.forall_mem_cons.mpr ⟨?_, ih⟩
    rintro ns name reply heq
    cases heq
    exact w.getSecret ns name _

/-- Reading secrets and recording events shows nothing. -/
theorem view_of_quiet (h : w.Plays s xs s')
    (hquiet : ∀ y ∈ xs, y.request.ReadsSecret ∨ y.request.Records) : w.view s' = w.view s := by
  refine h.keeps fun y hy t => ?_
  rcases hquiet y hy with ⟨ns, name, hrequest⟩ | ⟨event, hrequest⟩
  · rw [hrequest]
    exact w.view_getSecret ns name t
  · rw [hrequest]
    exact w.view_record event t

/-- A run of a registration ends as it ends in the world. -/
theorem run_of_plays {registration : Registration} {outcome : Except Failure Int}
    {mid : Cache} (hcalls : Follows (client.register registration) mid xs outcome after)
    (h : w.Plays s xs s') :
    ((client.register registration).run mid).run w.world s = ((outcome, after), s') :=
  Program.Follows.run_eq hcalls h

/-- What is asked to decide about the service itself is not seen. -/
theorem view_of_decideOrFail {out : Except Failure (Option (RegistrationRecord × Option String))}
    (hown : ∀ key, (registrationOf ctx a m key).name = x.pullName pre)
    (h : Follows (decideOrFail ctx a m client) before asked out after)
    (hplays : w.Plays s asked s') : w.view s' = w.view s := by
  have hsilent (hasked : asked = []) : w.view s' = w.view s := by
    rw [hasked] at hplays
    rw [Program.plays_nil_iff.mp hplays]
  cases href : m.declared.aggregatorRef with
  | none => exact hsilent (follows_decideOrFail_pure (decide_of_unreferenced href) h).1
  | some ref =>
  by_cases hname : ref.name = a.name
  swap
  · exact hsilent (follows_decideOrFail_pure (decide_of_elsewhere href hname) h).1
  obtain ⟨record, error, -, hattempt⟩ := attempt_of_follows href hname h
  obtain ⟨reads, calls, events, rfl, hreads, hevents, hcalls⟩ := hattempt.parts
  obtain ⟨s₁, hplays₁, hplays⟩ := Program.plays_append_iff.mp hplays
  obtain ⟨s₂, hplays₂, hplays₃⟩ := Program.plays_append_iff.mp hplays
  rw [view_of_quiet hplays₃ fun y hy => .inr (hevents y hy),
    ← view_of_quiet hplays₁ fun y hy => .inl (hreads y hy)]
  rcases hcalls with rfl | ⟨key, mid, outcome, after, hcalls⟩
  · rw [Program.plays_nil_iff.mp hplays₂]
  · have hrun := w.register_own client (registrationOf ctx a m key) mid s₁ (hown key)
    rwa [run_of_plays hcalls hplays₂] at hrun

/-- The key of a registration is that of the vault. -/
theorem key_of_plays {reads : List Exchange} {key : Except Failure String} {mid : Cache}
    (hns : m.ns = x.ns) (hagrees : Agrees w.vault x.ns before)
    (h : Follows (registrationKey m) before reads key mid) (hplays : w.Plays s reads s') :
    keyIn w.vault m = key ∧ w.view s' = w.view s := by
  rw [← hns] at hagrees
  exact ⟨(yields_registrationKey w.vault m _ _ _ _ h (from_of_plays hplays) hagrees).1.symm,
    view_of_quiet hplays fun y hy => .inl (asks_registrationKey m _ _ _ _ h y hy)⟩

/-- What comes of a registration for another service is what the surroundings say. -/
theorem register_of_plays {registration : Registration} {outcome : Except Failure Int}
    {mid : Cache} {calls events : List Exchange} (hname : registration.name ≠ x.pullName pre)
    (hcalls : Follows (client.register registration) mid calls outcome after)
    (hevents : ∀ y ∈ events, y.request.Records) (h : w.Plays s (calls ++ events) s') :
    (outcome, w.view s') = e.register client registration (w.view s) := by
  obtain ⟨s₁, hplays, hplays'⟩ := Program.plays_append_iff.mp h
  have hrun := w.register_other client registration mid s hname
  rw [run_of_plays hcalls hplays] at hrun
  rw [view_of_quiet hplays' fun y hy => .inr (hevents y hy)]
  exact hrun

/-- The verdict on another service. -/
theorem verdict_of_follows {t : Turn}
    (hother : ∀ key, (registrationOf ctx a m key).name ≠ x.pullName pre)
    (hns : m.ns = x.ns) (hm : Managed.ofResource t.resource = .ok m)
    (h : Follows (decideOrFail ctx a m client) t.before t.asked (.ok t.decision) after)
    (hplays : w.Plays s t.asked s') (hagrees : Agrees w.vault x.ns t.before) :
    t.decision = (verdict e w.vault ctx a m client (w.view s)).decision ∧
      (∀ registration, t.Sends ctx a client registration ↔
        (verdict e w.vault ctx a m client (w.view s)).sent = some registration) ∧
      w.view s' = (verdict e w.vault ctx a m client (w.view s)).state := by
  have hnever (hcalled : ¬ Called t.asked) (registration : Registration) :
      t.Sends ctx a client registration ↔ none = some registration :=
    iff_of_false (fun h => hcalled h.called) (Option.some_ne_none _).symm
  have hsilent (hasked : t.asked = []) : ¬ Called t.asked ∧ w.view s' = w.view s := by
    rw [hasked] at hplays ⊢
    exact ⟨fun ⟨_, hx, _⟩ => (nomatch hx), by rw [Program.plays_nil_iff.mp hplays]⟩
  rw [verdict]
  cases href : m.declared.aggregatorRef with
  | none =>
    obtain ⟨hasked, hdecision⟩ := follows_decideOrFail_pure (decide_of_unreferenced href) h
    obtain ⟨hcalled, hview⟩ := hsilent hasked
    exact ⟨Except.ok.inj hdecision, hnever hcalled, hview⟩
  | some ref =>
  dsimp only
  by_cases hname : ref.name = a.name
  swap
  · obtain ⟨hasked, hdecision⟩ := follows_decideOrFail_pure (decide_of_elsewhere href hname) h
    obtain ⟨hcalled, hview⟩ := hsilent hasked
    rw [if_pos hname]
    exact ⟨Except.ok.inj hdecision, hnever hcalled, hview⟩
  rw [if_neg (not_not.mpr hname)]
  obtain ⟨record, error, hdecision, hattempt⟩ := attempt_of_follows href hname h
  rw [Except.ok.injEq] at hdecision
  rw [hdecision]
  generalize hasked : t.asked = asked at hattempt hplays
  cases hattempt with
  | conflict hpushed =>
    rw [if_pos hpushed]
    refine ⟨rfl, hnever ?_, view_of_quiet hplays (List.forall_mem_singleton.mpr (.inr ⟨_, rfl⟩))⟩
    rw [hasked]
    rintro ⟨y, hy, hto⟩
    rw [List.mem_singleton.mp hy] at hto
    cases hto
  | disabled hpushed hauto =>
    obtain ⟨hcalled, hview⟩ := hsilent hasked
    rw [if_neg (Bool.eq_false_iff.mp hpushed), if_pos hauto]
    exact ⟨rfl, hnever hcalled, hview⟩
  | noKey hpushed hauto hkey =>
    obtain ⟨hvault, hview⟩ := key_of_plays hns hagrees hkey hplays
    rw [if_neg (Bool.eq_false_iff.mp hpushed), if_neg (Bool.ne_false_iff.mpr hauto),
      hvault]
    exact ⟨rfl, hnever (hasked ▸ not_called_of_key hkey), hview⟩
  | failed hpushed hauto hkey hcalls =>
    obtain ⟨s₁, hplays, hplays'⟩ := Program.plays_append_iff.mp hplays
    obtain ⟨hvault, hview⟩ := key_of_plays hns hagrees hkey hplays
    have hmade := register_of_plays (hother _) hcalls (List.forall_mem_singleton.mpr ⟨_, rfl⟩) hplays'
    rw [if_neg (Bool.eq_false_iff.mp hpushed), if_neg (Bool.ne_false_iff.mpr hauto),
      hvault]
    dsimp only
    rw [← hview, ← hmade]
    exact ⟨rfl, fun registration => t.sends_iff hm hasked hkey hcalls, rfl⟩
  | registered hpushed hauto hkey hcalls hevents =>
    obtain ⟨s₁, hplays, hplays'⟩ := Program.plays_append_iff.mp hplays
    obtain ⟨hvault, hview⟩ := key_of_plays hns hagrees hkey hplays
    have hmade := register_of_plays (hother _) hcalls (fun y hy => isRecord_iff.mp (hevents y hy))
      hplays'
    rw [if_neg (Bool.eq_false_iff.mp hpushed), if_neg (Bool.ne_false_iff.mpr hauto),
      hvault]
    dsimp only
    rw [← hview, ← hmade]
    exact ⟨rfl, fun registration => t.sends_iff hm hasked hkey hcalls, rfl⟩

/-- What is asked to write the record of the service itself is not seen. -/
theorem view_of_records {record : RegistrationRecord} (hown : x.Owns m.resource)
    (h : Records m record xs) (hplays : w.Plays s xs s') : w.view s' = w.view s := by
  cases h with
  | settled reply _ =>
    obtain ⟨-, hend⟩ := Program.plays_cons_iff.mp hplays
    rw [Program.plays_nil_iff.mp hend]
    exact w.save_own _ _ _ hown
  | unread key version _ =>
    obtain ⟨-, hplays⟩ := Program.plays_cons_iff.mp hplays
    obtain ⟨-, hend⟩ := Program.plays_cons_iff.mp hplays
    rw [Program.plays_nil_iff.mp hend]
    exact (w.find_own _ _ hown).1.trans (w.save_own _ _ _ hown)
  | again key version reply _ =>
    obtain ⟨-, hplays⟩ := Program.plays_cons_iff.mp hplays
    obtain ⟨hfound, hplays⟩ := Program.plays_cons_iff.mp hplays
    obtain ⟨-, hend⟩ := Program.plays_cons_iff.mp hplays
    obtain ⟨hview, hfresh⟩ := w.find_own m.resource
      (w.world (.updateStatus m.resource (withRecord m record)) s).2 hown
    rw [Program.plays_nil_iff.mp hend, w.save_own _ _ _ (hfresh _ hfound.symm), hview]
    exact w.save_own _ _ _ hown

/-- What is asked to write the record of another service is what the surroundings reply. -/
theorem answers_of_records {record : RegistrationRecord} (hother : ¬ x.Owns m.resource)
    (h : Records m record xs) (hplays : w.Plays s xs s') :
    e.Answers (w.view s) xs (w.view s') := by
  have hsave {q : Resource} {document : Json.Members} {rest : List Exchange} {s : w.State}
      (hq : ¬ x.Owns q)
      (hrest : e.Answers (w.view (w.world (.updateStatus q document) s).2) rest (w.view s')) :
      e.Answers (w.view s)
        (⟨.updateStatus q document, (w.world (.updateStatus q document) s).1⟩ :: rest)
        (w.view s') := by
    obtain ⟨hreply, hview⟩ := Prod.mk.inj (w.save_other q document s hq)
    refine .save hreply ?_
    rwa [← hview]
  have hfind {q : Resource} {rest : List Exchange} {s : w.State} (hq : ¬ x.Owns q)
      (hrest : e.Answers (w.view (w.world (.getResource q.kind q.ns q.name) s).2) rest
        (w.view s')) :
      e.Answers (w.view s) (reread q (w.world (.getResource q.kind q.ns q.name) s).1 :: rest)
        (w.view s') := by
    obtain ⟨hreply, hview⟩ := Prod.mk.inj (w.find_other q s hq)
    rw [hview] at hrest
    rw [reread, hreply]
    exact .find hrest
  cases h with
  | settled reply _ =>
    obtain ⟨rfl, hend⟩ := Program.plays_cons_iff.mp hplays
    rw [Program.plays_nil_iff.mp hend] at hsave ⊢
    exact hsave hother (.nil _)
  | unread key version _ =>
    obtain ⟨hlost, hplays⟩ := Program.plays_cons_iff.mp hplays
    obtain ⟨rfl, hend⟩ := Program.plays_cons_iff.mp hplays
    rw [Program.plays_nil_iff.mp hend] at hsave hfind ⊢
    rw [lostRace, hlost]
    exact hsave hother (hfind hother (.nil _))
  | @again fresh m' key version reply _ =>
    obtain ⟨hlost, hplays⟩ := Program.plays_cons_iff.mp hplays
    obtain ⟨hfound, hplays⟩ := Program.plays_cons_iff.mp hplays
    obtain ⟨rfl, hend⟩ := Program.plays_cons_iff.mp hplays
    have hfresh : ¬ x.Owns fresh := by
      obtain ⟨hreply, -⟩ := Prod.mk.inj (w.find_other m.resource
        (w.world (.updateStatus m.resource (withRecord m record)) s).2 hother)
      obtain ⟨hkind, hns, hname⟩ := e.isAt_of_find _ _ _ _ _ (hreply.symm.trans hfound.symm)
      rintro ⟨hkind', hns', hname'⟩
      exact hother ⟨hkind.symm.trans hkind', hns.symm.trans hns', hname.symm.trans hname'⟩
    rw [Program.plays_nil_iff.mp hend] at hsave hfind ⊢
    rw [lostRace, hlost, reread, hfound]
    exact hsave hother (hfind hother (hsave hfresh (.nil _)))

/-- A turn is one of the service itself, which is not seen, or it goes as the surroundings say. -/
theorem turn_of_goes {t : Turn} {k : ManagerKind} (hpre : pre = ctx.settings.registrationPrefix)
    (hkind : t.resource.kind = k.resourceKind) (hns : t.resource.ns = x.ns)
    (h : Goes ctx a client t after) (hplays : w.Plays s t.exchanges s')
    (hagrees : Agrees w.vault x.ns t.before) :
    Agrees w.vault x.ns after ∧
      (x.Owns t.resource → w.view s' = w.view s) ∧
      (¬ x.Owns t.resource → TurnIn e w.vault ctx a client (w.view s) t (w.view s')) := by
  cases h with
  | skipped cache hskip =>
    rw [Program.plays_nil_iff.mp hplays]
    exact ⟨hagrees, fun _ => rfl, fun _ => .skipped _ hskip rfl rfl rfl⟩
  | @decided t m after hlive hm hdecide hsaves =>
    have hresource := Managed.resource_of_ofResource hm
    have hns' : m.ns = x.ns := by rw [Managed.ns, hresource, hns]
    obtain ⟨mid, hasked, hwritten⟩ := Program.plays_append_iff.mp hplays
    have hname (key : String) := @registrationOf_name_iff ctx a m t.resource k x key hkind hns hm
    rw [← hpre] at hname
    refine ⟨?_, fun hown => ?_, fun hother => ?_⟩
    · rw [← hns'] at hagrees ⊢
      exact keeps_decideOrFail _ _ _ _ _ _ _ _ _ hdecide (from_of_plays hasked) hagrees
    · rw [← view_of_decideOrFail (fun key => (hname key).mpr hown) hdecide hasked]
      generalize t.decision = decision, t.written = written at hsaves hwritten
      cases hsaves with
      | untouched => rw [Program.plays_nil_iff.mp hwritten]
      | record error hrecords => exact view_of_records (hresource ▸ hown) hrecords hwritten
    · obtain ⟨hdecision, hsends, hview⟩ := verdict_of_follows (fun key => (hname key).not.mpr hother)
        hns' hm hdecide hasked hagrees
      refine .decided hlive hm hdecision hsends hsaves ?_
      rw [← hview]
      clear hdecision hsends hdecide
      generalize t.decision = decision, t.written = written at hsaves hwritten ⊢
      cases hsaves with
      | untouched =>
        rw [Program.plays_nil_iff.mp hwritten]
        exact .nil _
      | record error hrecords => exact answers_of_records (hresource ▸ hother) hrecords hwritten

/-- The turns of the others in a run of turns. -/
theorem course_of_chain {ts : List Turn} (hpre : pre = ctx.settings.registrationPrefix)
    (h : Chain (Goes ctx a client) before ts after)
    (hlisted : ∀ t ∈ ts, ∃ k : ManagerKind, t.resource.kind = k.resourceKind ∧ t.resource.ns = x.ns)
    (hplays : w.Plays s (ts.flatMap Turn.exchanges) s') (hagrees : Agrees w.vault x.ns before) :
    Agrees w.vault x.ns after ∧
      Course e w.vault ctx a client (w.view s) (x.otherTurns ts) (w.view s') := by
  induction h generalizing s with
  | nil cache =>
    rw [Program.plays_nil_iff.mp hplays]
    exact ⟨hagrees, .nil _⟩
  | @cons t ts mid after hgoes _ ih =>
    obtain ⟨s₁, hturn, hrest⟩ := Program.plays_append_iff.mp hplays
    obtain ⟨⟨k, hkind, hns⟩, hlisted⟩ := List.forall_mem_cons.mp hlisted
    obtain ⟨hmid, hown, hother⟩ := turn_of_goes hpre hkind hns hgoes hturn hagrees
    obtain ⟨hafter, hcourse⟩ := ih hlisted hrest hmid
    refine ⟨hafter, ?_⟩
    by_cases hx : x.Owns t.resource
    · rw [Service.otherTurns, List.filter_cons_of_neg (by simpa using hx), ← hown hx]
      exact hcourse
    · rw [Service.otherTurns, List.filter_cons_of_pos (by simpa using hx)]
      exact .cons (hother hx) hcourse

/-- **One run.**  Each kind is listed as the world lists it, and the turns of the others go as the
surroundings say, whatever becomes of the service itself. -/
theorem course_of_surveys {surveys : List Survey} (hpre : pre = ctx.settings.registrationPrefix)
    (ha : a.ns = x.ns) (hcomplete : ∀ v ∈ surveys, v.Complete)
    (h : Chain (Goes ctx a client) before (surveys.flatMap (·.turns)) after)
    (hplays : w.Plays s (surveys.flatMap (Survey.exchanges a)) s')
    (hagrees : Agrees w.vault x.ns before) :
    (∀ v ∈ surveys, v.listing = w.listing v.kind.resourceKind x.ns) ∧
      Course e w.vault ctx a client (w.view s) (x.otherTurns (surveys.flatMap (·.turns)))
        (w.view s') := by
  induction surveys generalizing before s with
  | nil =>
    rw [Program.plays_nil_iff.mp hplays]
    exact ⟨fun _ hv => (nomatch hv), .nil _⟩
  | cons v surveys ih =>
    obtain ⟨hv, hcomplete⟩ := List.forall_mem_cons.mp hcomplete
    obtain ⟨mid, hturns, hrest⟩ := h.of_append
    rw [List.flatMap_cons, Survey.exchanges, ha] at hplays
    obtain ⟨s₁, hplays, hlater⟩ := Program.plays_append_iff.mp hplays
    obtain ⟨hlisting, hplays⟩ := Program.plays_cons_iff.mp hplays
    rw [w.listResources] at hlisting
    have hlisted : ∀ t ∈ v.turns, ∃ k : ManagerKind,
        t.resource.kind = k.resourceKind ∧ t.resource.ns = x.ns := by
      intro t ht
      rw [Survey.Complete] at hv
      cases hrs : v.listing with
      | ok rs =>
        rw [hrs] at hv hlisting
        exact ⟨v.kind, w.listed _ _ rs hlisting.symm _ (hv ▸ List.mem_map_of_mem ht)⟩
      | error e =>
        rw [hrs] at hv
        rw [show v.turns = [] from hv] at ht
        cases ht
    obtain ⟨hmid, hfirst⟩ := course_of_chain hpre hturns hlisted hplays hagrees
    obtain ⟨hall, hcourse⟩ := ih hcomplete hrest hlater hmid
    rw [w.view_listResources] at hfirst
    refine ⟨List.forall_mem_cons.mpr ⟨hlisting, hall⟩, ?_⟩
    rw [List.flatMap_cons, Service.otherTurns, List.filter_append]
    exact hfirst.append hcourse

end Around

end Coordinate

end Steward

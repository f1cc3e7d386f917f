import Steward.Proofs.Coordinate.Turns
import Steward.Proofs.Run.Orphans
import Steward.Proofs.Status.Dated

/-!
# Which registrations are announced

A registration is announced by an event (`_process`), unless it was on record already.  Over the
history of one resource (`History`), with registrations by whatever aggregators, and with edits and
other records in between, what is on record is what was recorded last, so each registration is
announced exactly if the one on record is not live under the same id (`registrations_announced`).

The record says which aggregator it is about, but only the ids are compared.  Each aggregator
numbers its applications on its own.  So a service that moves to another aggregator, and gets the id
there that it had before, is a new registration that is not announced.
-/

namespace Steward.Pass

/-! ## 1. Events -/

/-- The event that is recorded. -/
def eventOf? (x : Exchange) : Option Event :=
  match x.request with
  | .record e => some e
  | _ => none

/-- All events that are recorded, in order. -/
def eventsOf (xs : List Exchange) : List Event := xs.filterMap eventOf?

theorem eventsOf_append (xs ys : List Exchange) :
    eventsOf (xs ++ ys) = eventsOf xs ++ eventsOf ys :=
  List.filterMap_append ..

theorem eventsOf_eq_nil {xs : List Exchange}
    (h : ∀ x ∈ xs, x.request.addressee ≠ .recorder) : eventsOf xs = [] := by
  refine List.filterMap_eq_nil_iff.mpr fun x hx => ?_
  have hx := h x hx
  obtain ⟨request, reply⟩ := x
  cases request with
  | record e => exact absurd rfl hx
  | _ => rfl

theorem eventsOf_of_readsSecret {xs : List Exchange} (h : ∀ x ∈ xs, x.request.ReadsSecret) :
    eventsOf xs = [] := by
  refine eventsOf_eq_nil fun x hx => ?_
  rw [(h x hx).addressee]
  exact Addressee.noConfusion

end Steward.Pass

namespace Steward.Coordinate

open Pass

/-! ## 2. What a registration is compared with -/

/-- A live registration under the id is on record, with whatever aggregator. -/
def LiveUnder (previous : Option RegistrationRecord) (id : Int) : Prop :=
  ∃ r ∈ previous, r.registered = true ∧ r.applicationId = some id

/-- A live registration with the aggregator under the id is on record. -/
def LiveWith (previous : Option RegistrationRecord) (aggregator : String) (id : Int) : Prop :=
  ∃ r ∈ previous, r.registered = true ∧ r.aggregator = some aggregator ∧ r.applicationId = some id

/-- A live registration under the id is on record, but not with the aggregator. -/
def LiveElsewhere (previous : Option RegistrationRecord) (aggregator : String) (id : Int) : Prop :=
  ∃ r ∈ previous, r.registered = true ∧ r.aggregator ≠ some aggregator ∧ r.applicationId = some id

variable {previous : Option RegistrationRecord} {aggregator : String} {id : Int}

theorem alreadyRegistered_iff : alreadyRegistered previous id = true ↔ LiveUnder previous id := by
  cases previous with
  | none => simp [alreadyRegistered, LiveUnder]
  | some r => simp [alreadyRegistered, LiveUnder]

theorem LiveWith.liveUnder (h : LiveWith previous aggregator id) : LiveUnder previous id := by
  obtain ⟨r, hr, hlive, -, hid⟩ := h
  exact ⟨r, hr, hlive, hid⟩

theorem LiveElsewhere.liveUnder (h : LiveElsewhere previous aggregator id) :
    LiveUnder previous id := by
  obtain ⟨r, hr, hlive, -, hid⟩ := h
  exact ⟨r, hr, hlive, hid⟩

/-- There is only one record. -/
theorem LiveElsewhere.not_liveWith (h : LiveElsewhere previous aggregator id) :
    ¬ LiveWith previous aggregator id := by
  rintro ⟨r, hr, -, hsame, -⟩
  obtain ⟨r', hr', -, hother, -⟩ := h
  cases Option.mem_unique hr hr'
  exact hother hsame

theorem LiveUnder.liveWith (h : LiveUnder previous id)
    (k : ¬ LiveElsewhere previous aggregator id) : LiveWith previous aggregator id := by
  obtain ⟨r, hr, hlive, hid⟩ := h
  by_cases hname : r.aggregator = some aggregator
  · exact ⟨r, hr, hlive, hname, hid⟩
  · exact absurd ⟨r, hr, hlive, hname, hid⟩ k

/-! ## 3. Turns -/

variable {ctx : Context} {a m : Managed} {client : AggregatorClient} {before after : Cache}
  {xs : List Exchange}

/-- The event that announces the registration of the resource. -/
def announcement (ctx : Context) (a m : Managed) (r : Resource) : Event :=
  .normal r "Registered" ("Registered with " ++ a.name ++ " as " ++
    Registration.pullName ctx.settings.registrationPrefix m.name m.service)

/-- What is recorded where a service is registered under the id. -/
def announcements (ctx : Context) (a m : Managed) (id : Int) : List Event :=
  if alreadyRegistered m.status.registration id then [] else [announcement ctx a m m.resource]

theorem eventsOf_registerService {key : String}
    (h : Follows (registerService ctx a m client key) before xs
      (.ok (registeredAs ctx a m id, none)) after) :
    eventsOf xs = announcements ctx a m id := by
  rw [registerService] at h
  obtain ⟨calls, rest, outcome, mid, rfl, hcalls, hrest⟩ := follows_attempt_bind.mp h
  have hquiet : eventsOf calls = [] := by
    refine eventsOf_eq_nil fun x hx => ?_
    rw [AggregatorClient.asks_register client _ _ _ _ _ hcalls x hx]
    exact Addressee.noConfusion
  rw [eventsOf_append, hquiet, List.nil_append]
  cases outcome with
  | error e =>
    obtain ⟨_, rfl, hend⟩ := follows_record_bind.mp hrest
    cases (Prod.mk.inj (Except.ok.inj (follows_pure.mp hend).2.1)).2
  | ok id' =>
    have hsame {record : RegistrationRecord} (hid : record.applicationId = some id')
        (hout : (.ok (registeredAs ctx a m id, none) : Except Failure (_ × Option String)) =
          .ok (record, none)) : id' = id := by
      rw [← (Prod.mk.inj (Except.ok.inj hout)).1] at hid
      exact (Option.some.inj hid).symm
    dsimp only at hrest
    rw [announcements]
    split at hrest
    · rename_i hnew
      obtain ⟨_, rfl, hend⟩ := follows_record_bind.mp hrest
      obtain ⟨rfl, hout, -⟩ := follows_pure.mp hend
      obtain rfl := hsame rfl hout
      rw [Bool.not_eq_true'] at hnew
      rw [hnew]
      rfl
    · rename_i hknown
      obtain ⟨rfl, hout, -⟩ := follows_pure.mp hrest
      obtain rfl := hsame rfl hout
      rw [Bool.not_eq_true', Bool.not_eq_false] at hknown
      rw [hknown]
      rfl

/-- A service is only registered once its key was read, and then it is registered. -/
theorem registerService_of_decide
    (h : Follows (Coordinate.decide ctx a m client) before xs
      (.ok (some (registeredAs ctx a m id, none))) after) :
    ∃ reads rest key mid, xs = reads ++ rest ∧ (∀ x ∈ reads, x.request.ReadsSecret) ∧
      Follows (registerService ctx a m client key) mid rest
        (.ok (registeredAs ctx a m id, none)) after := by
  -- any other decision leaves the service unregistered
  have hother {before after : Cache} {xs : List Exchange}
      {d : Option (RegistrationRecord × Option String)}
      (hd : (d.map (·.1.registered)).getD false = false)
      (hend : Follows (pure d) before xs (.ok (some (registeredAs ctx a m id, none))) after) :
      False := by
    rw [← Except.ok.inj (follows_pure.mp hend).2.1] at hd
    cases hd
  rw [Coordinate.decide] at h
  split at h
  · split at h
    · split at h
      · exact (hother rfl h).elim
      · exact (hother rfl h).elim
    · exact (hother rfl h).elim
  split at h
  · exact (hother rfl h).elim
  split at h
  · obtain ⟨_, -, hend⟩ := follows_record_bind.mp h
    exact (hother rfl hend).elim
  split at h
  · exact (hother rfl h).elim
  obtain ⟨reads, rest, key, mid, rfl, hreads, hrest⟩ := follows_attempt_bind.mp h
  cases key with
  | error e =>
    cases e with
    | secret e => exact (hother rfl hrest).elim
    | _ => cases (follows_throw.mp hrest).2.1
  | ok key =>
    rcases follows_bind.mp hrest with ⟨ys, zs, made, mid', rfl, hregister, hend⟩ | ⟨e, he, -⟩
    · obtain ⟨rfl, hout, rfl⟩ := follows_pure.mp hend
      rw [← Option.some.inj (Except.ok.inj hout)] at hregister
      rw [List.append_nil]
      exact ⟨reads, ys, key, mid, rfl, Secret.asks_registrationKey m _ _ _ _ hreads, hregister⟩
    · cases he

/-- **The events of a registration.**  What is recorded in a turn that registers a service follows
from the record that was read and from the id that was returned. -/
theorem Goes.eventsOf_exchanges {t : Turn} (h : Goes ctx a client t after)
    (hm : Managed.ofResource t.resource = .ok m)
    (hdecision : t.decision = some (registeredAs ctx a m id, none)) :
    eventsOf t.exchanges = announcements ctx a m id := by
  cases h with
  | skipped _ _ => cases hdecision
  | @decided t m' after hlive hm' hdecide hsaves =>
    obtain rfl : m' = m := Except.ok.inj (hm'.symm.trans hm)
    rw [hdecision] at hdecide hsaves
    obtain ⟨decision, hdecide, hout⟩ := follows_decideOrFail hdecide
    have hwritten : eventsOf t.written = [] := by
      refine eventsOf_eq_nil fun x hx => ?_
      rw [hsaves.addressee x hx]
      exact Addressee.noConfusion
    cases decision with
    | error e =>
      cases (Prod.mk.inj (Option.some.inj (Except.ok.inj hout))).2
    | ok d =>
      rw [← Except.ok.inj hout] at hdecide
      obtain ⟨reads, rest, key, mid, hasked, hreads, hregister⟩ := registerService_of_decide hdecide
      rw [Turn.exchanges, eventsOf_append, hwritten, hasked, eventsOf_append,
        eventsOf_of_readsSecret hreads, eventsOf_registerService hregister, List.nil_append,
        List.append_nil]

/-- What is stored last is the record, in a status that was read. -/
theorem Records.eq_withRecord {record : RegistrationRecord} {q stored : Resource}
    {document : Json.Members} (h : Records m record xs) (hm : Managed.ofResource m.resource = .ok m)
    (hlast : xs.getLast? = some ⟨.updateStatus q document, .ok stored⟩) :
    ∃ m', Managed.ofResource q = .ok m' ∧ document = withRecord m' record := by
  cases h with
  | settled reply _ =>
    cases hlast
    exact ⟨m, hm, rfl⟩
  | unread key version _ => cases hlast
  | again key version reply hfresh =>
    cases hlast
    exact ⟨_, hfresh, rfl⟩

end Steward.Coordinate

namespace Steward.Run

open Pass Coordinate

/-! ## 4. Registrations -/

/-- A registration of a service that a coordination pass has made. -/
structure Made where
  ctx : Context
  aggregator : Managed
  /-- The service as it was read. -/
  service : Managed
  /-- The id that the aggregator returned. -/
  id : Int
  /-- The events that were recorded in the turn of the service. -/
  events : List Event

/-- What is to be put on record. -/
def Made.record (e : Made) : RegistrationRecord := registeredAs e.ctx e.aggregator e.service e.id

/-- The turn makes the registration. -/
structure Makes (t : Turn) (e : Made) : Prop where
  clock : e.ctx.now.Valid
  read : Managed.ofResource t.resource = .ok e.service
  goes : ∃ client after, Goes e.ctx e.aggregator client t after
  decision : t.decision = some (e.record, none)
  events : eventsOf t.exchanges = e.events

/-- The record of the turn was written, and this is what is stored then. -/
structure Stores (t : Turn) (stored : Resource) : Prop where
  written : ∃ q, t.written.getLast? = some ⟨.updateStatus q stored.status, .ok stored⟩
  isAt : stored.IsAt t.resource.kind t.resource.ns t.resource.name

/-- The registration record of a resource. -/
def recordOf (r : Resource) : Option RegistrationRecord :=
  match Status.ofMembers r.status with
  | .ok s => s.registration
  | .error _ => none

variable {t : Turn} {e : Made} {r₀ q stored : Resource}

theorem recordOf_of_read {m : Managed} (h : Managed.ofResource q = .ok m) :
    recordOf q = m.status.registration := by
  rw [recordOf, Managed.status_of_ofResource h]

/-- A registration that is stored is on record. -/
theorem Makes.recordOf_stored (h : Makes t e) (hstores : Stores t stored) :
    recordOf stored = some e.record := by
  have hdated : e.record.Dated := by
    intro now hnow
    cases hnow
    exact h.clock
  have hdecision := h.decision
  obtain ⟨client, after, hgoes⟩ := h.goes
  obtain ⟨q, hlast⟩ := hstores.written
  cases hgoes with
  | skipped _ _ => cases hdecision
  | @decided t m after hlive hm hdecide hsaves =>
    rw [hdecision] at hsaves
    cases hsaves with
    | record _ hrecords =>
      have hm' : Managed.ofResource m.resource = .ok m := by
        rwa [Managed.resource_of_ofResource hm]
      obtain ⟨m', hq, hstatus⟩ := hrecords.eq_withRecord hm' hlast
      rw [recordOf, hstatus, withRecord,
        Status.ofMembers_withRecord (Managed.status_of_ofResource hq) hdated]

/-- Every registration that a coordination pass counts was made in a turn of it. -/
theorem makes_of_registered {ctx : Context} {a : Managed} {client : AggregatorClient}
    {after : Cache} (hgoes : Goes ctx a client t after) (hnow : ctx.now.Valid)
    (hregistered : t.registered = true) : ∃ e, Makes t e ∧ e.ctx = ctx ∧ e.aggregator = a := by
  have hgoes' := hgoes
  cases hgoes with
  | skipped _ _ => cases hregistered
  | @decided t m after hlive hm hdecide hsaves =>
    suffices ∃ id, t.decision = some (registeredAs ctx a m id, none) by
      obtain ⟨id, hdecision⟩ := this
      exact ⟨⟨ctx, a, m, id, _⟩, ⟨hnow, hm, ⟨client, after, hgoes'⟩, hdecision, rfl⟩, rfl, rfl⟩
    rw [Turn.registered] at hregistered
    obtain ⟨decision, hdecision, hdecides⟩ := decides_of_follows hdecide
    rw [← Except.ok.inj hdecision] at hdecides
    cases href : m.declared.aggregatorRef with
    | none =>
      rw [(hdecides.unreferenced href).2] at hregistered
      split at hregistered
      · cases hregistered
      · cases hregistered
    | some ref =>
      by_cases hname : ref.name = a.name
      · obtain ⟨record, error, hdecided, hattempt⟩ := attempt_of_follows href hname hdecide
        rw [Except.ok.inj hdecided] at hregistered ⊢
        generalize t.asked = asked at hattempt
        cases hattempt with
        | registered _ _ _ _ _ => exact ⟨_, rfl⟩
        | _ => cases hregistered
      · rw [(hdecides.elsewhere ref href hname).2] at hregistered
        cases hregistered

/-- The record that a registration is compared with is the one that was read. -/
theorem Makes.events_eq (h : Makes t e) :
    e.events = if alreadyRegistered (recordOf t.resource) e.id then []
      else [announcement e.ctx e.aggregator e.service t.resource] := by
  obtain ⟨client, after, hgoes⟩ := h.goes
  rw [← h.events, hgoes.eventsOf_exchanges h.read h.decision, announcements,
    recordOf_of_read h.read, Managed.resource_of_ofResource h.read]

/-! ## 5. Histories -/

/-- What became of the registration record of a resource. -/
inductive Happening where
  /-- It was registered, and the record of this was stored. -/
  | registered (e : Made)
  /-- It was registered, and the record of this was lost. -/
  | unsaved (e : Made)
  /-- Something else was put on record, or the record is gone. -/
  | noted (record : Option RegistrationRecord)

/-- The registration that was made. -/
def Happening.made? : Happening → Option Made
  | .registered e | .unsaved e => some e
  | .noted _ => none

/-- What is on record after all this, the latest first, where it was `start` before. -/
def onRecord (start : Option RegistrationRecord) : List Happening → Option RegistrationRecord
  | [] => start
  | .registered e :: _ => some e.record
  | .unsaved _ :: hs => onRecord start hs
  | .noted record :: _ => record

/-- One resource, which was `r₀` at first, over time.  What happens to its record is logged, the
latest first. -/
inductive History (r₀ : Resource) : List Happening → Resource → Prop where
  | start : History r₀ [] r₀
  | registered {t : Turn} {e : Made} {stored : Resource} {hs : List Happening} :
      History r₀ hs t.resource → Makes t e → Stores t stored →
      History r₀ (.registered e :: hs) stored
  | unsaved {t : Turn} {e : Made} {hs : List Happening} :
      History r₀ hs t.resource → Makes t e → History r₀ (.unsaved e :: hs) t.resource
  /-- All of the resource may change but its record. -/
  | edited {q q' : Resource} {hs : List Happening} :
      History r₀ hs q → q'.IsAt q.kind q.ns q.name → recordOf q' = recordOf q → History r₀ hs q'
  | noted {q q' : Resource} {hs : List Happening} :
      History r₀ hs q → q'.IsAt q.kind q.ns q.name → History r₀ (.noted (recordOf q') :: hs) q'

variable {hs later earlier : List Happening} {x : Happening}

/-- What was recorded last is on record. -/
theorem History.recordOf_eq (h : History r₀ hs q) : recordOf q = onRecord (recordOf r₀) hs := by
  induction h with
  | start => rfl
  | registered _ hmakes hstores _ => exact hmakes.recordOf_stored hstores
  | unsaved _ _ ih => exact ih
  | edited _ _ hsame ih => rw [hsame, ih]
  | noted _ _ _ => rfl

theorem History.isAt (h : History r₀ hs q) : q.IsAt r₀.kind r₀.ns r₀.name := by
  induction h with
  | start => exact ⟨rfl, rfl, rfl⟩
  | registered _ _ hstores ih => exact hstores.isAt.trans ih
  | unsaved _ _ ih => exact ih
  | edited _ hat _ ih => exact hat.trans ih
  | noted _ hat ih => exact hat.trans ih

/-- A registration of the history was made of the resource as it was after the earlier ones. -/
theorem History.makes (h : History r₀ (later ++ x :: earlier) q) (hx : x.made? = some e) :
    ∃ t, History r₀ earlier t.resource ∧ Makes t e := by
  generalize hall : later ++ x :: earlier = hs at h
  -- what was logged last is `x` or one of the later ones, and edits are not logged
  induction h generalizing later with
  | start => cases (List.append_eq_nil_iff.mp hall).2
  | registered hbefore hmakes hstores ih =>
    cases later with
    | nil =>
      obtain ⟨rfl, rfl⟩ := List.cons.inj hall
      cases hx
      exact ⟨_, hbefore, hmakes⟩
    | cons y later => exact ih (List.cons.inj hall).2
  | unsaved hbefore hmakes ih =>
    cases later with
    | nil =>
      obtain ⟨rfl, rfl⟩ := List.cons.inj hall
      cases hx
      exact ⟨_, hbefore, hmakes⟩
    | cons y later => exact ih (List.cons.inj hall).2
  | edited _ _ _ ih => exact ih hall
  | noted _ _ ih =>
    cases later with
    | nil =>
      obtain ⟨rfl, -⟩ := List.cons.inj hall
      cases hx
    | cons y later => exact ih (List.cons.inj hall).2

/-- How a registration of the resource `r₀` is announced that had this record before. -/
structure Announces (r₀ : Resource) (previous : Option RegistrationRecord) (e : Made) : Prop where
  /-- Nothing is said where a live registration under the same id is on record. -/
  silent : LiveUnder previous e.id → e.events = []
  /-- Otherwise there is one event, which names the aggregator and the application. -/
  told : ¬ LiveUnder previous e.id →
    e.events = [announcement e.ctx e.aggregator e.service r₀]
  /-- So the event marks what was not on record for this aggregator under this id, exactly if there
  is no live registration with another aggregator under the same id on record. -/
  marks : ((∃ event ∈ e.events, event.reason = "Registered") ↔
      ¬ LiveWith previous e.aggregator.name e.id) ↔
    ¬ LiveElsewhere previous e.aggregator.name e.id

/-- The events depend on the key of the resource only. -/
theorem announcement_congr {ctx : Context} {a m : Managed} {r r' : Resource}
    (h : r'.IsAt r.kind r.ns r.name) : announcement ctx a m r' = announcement ctx a m r := by
  obtain ⟨hkind, hns, hname⟩ := h
  rw [announcement, announcement, Event.normal, Event.normal, Event.about, Event.about, hkind, hns,
    hname]

theorem announces_of_events {previous : Option RegistrationRecord}
    (h : e.events = if alreadyRegistered previous e.id then []
      else [announcement e.ctx e.aggregator e.service r₀]) : Announces r₀ previous e := by
  by_cases hlive : LiveUnder previous e.id
  · rw [if_pos (alreadyRegistered_iff.mpr hlive)] at h
    refine ⟨fun _ => h, fun hnone => absurd hlive hnone, ?_⟩
    have hnothing : ¬ ∃ event ∈ e.events, event.reason = "Registered" := by
      rw [h]
      exact fun ⟨_, hevent, _⟩ => nomatch hevent
    rw [iff_false_left hnothing, not_not]
    exact ⟨fun hwith helsewhere => helsewhere.not_liveWith hwith, hlive.liveWith⟩
  · rw [if_neg (mt alreadyRegistered_iff.mp hlive)] at h
    refine ⟨fun hsome => absurd hsome hlive, fun _ => h, ?_⟩
    have htold : ∃ event ∈ e.events, event.reason = "Registered" := by
      rw [h]
      exact ⟨_, List.mem_singleton_self _, rfl⟩
    exact iff_of_true (iff_of_true htold fun hwith => hlive hwith.liveUnder)
      fun helsewhere => hlive helsewhere.liveUnder

/-- **Which registrations are announced.**  Whatever happened to a resource, each registration of it
is announced unless a live registration under the same id was recorded last.  So the events mark the
registrations that were not on record with their aggregator and id, but for those where the same id
was on record with another aggregator. -/
theorem registrations_announced (h : History r₀ (later ++ x :: earlier) q)
    (hx : x.made? = some e) : Announces r₀ (onRecord (recordOf r₀) earlier) e := by
  obtain ⟨t, hbefore, hmakes⟩ := h.makes hx
  have hevents := hmakes.events_eq
  rw [hbefore.recordOf_eq, announcement_congr hbefore.isAt] at hevents
  exact announces_of_events hevents

/-! ## 6. Films that move -/

namespace Moved

open Leftover (films service ctx secret get post announced saved)

/-- Another aggregator. -/
def other : Resource :=
  { kind := "ProwlarrConfig", name := "other", status := [("connected", .bool true)]
    spec := [("connection", .object [("url", .string "http://other"),
      ("apiKeySecretRef", .object [("name", .string "key")])])] }

/-- The other aggregator as it is read. -/
def aggregator : Managed where
  resource := other
  declared := .aggregator
    { connection := ⟨"http://other", some ⟨"key", none⟩, false, none⟩
      indexers := [], proxies := [], applications := [], downloadClients := [], tuning := none }
  status := { connected := true }

def client : AggregatorClient := .new "http://other" "key" 30 false

/-- The films are registered with their aggregator. -/
def first : Made where
  ctx
  aggregator := Leftover.aggregator
  service
  id := 7
  events := [.normal films "Registered" ("Registered with main as " ++ Leftover.registration.name)]

/-- The films as they are stored then. -/
def kept : Resource := MemoryStore.written films (withRecord service Leftover.record)

/-- The films are edited, and refer to the other aggregator. -/
def moved : Resource :=
  { kept with
    version := kept.version + 1
    generation := 2
    spec := [("connection", .object [("url", .string "http://films")]),
      ("indexers", .object [("prowlarrRef", .object [("name", .string "other")])])] }

/-- The films that have moved, as they are read. -/
def movedService : Managed where
  resource := moved
  declared := .manager .radarr
    { connection := ⟨"http://films", none, false, none⟩
      indexers := some ⟨some ⟨"other", true, [], []⟩, []⟩
      tuning := none, downloadClients := [], importLists := [], authentication := none
      mediaManagement := none, rootFolders := [], qualityPreset := none, pathMappings := [] }
  status := { registration := some Leftover.record }

/-- They are registered with the other aggregator, which returns the same id. -/
def second : Made where
  ctx
  aggregator
  service := movedService
  id := 7
  events := []

theorem makes_first : ∃ t, t.resource = films ∧ Makes t first ∧ Stores t kept := by
  obtain ⟨payload, hpayload⟩ : ∃ payload, Leftover.registration.payload none = .ok payload :=
    ⟨_, rfl⟩
  obtain ⟨after, hdecide⟩ := Leftover.follows_decideOrFail hpayload
  let t : Turn := ⟨films, Leftover.cache,
    [secret "radarr-api-key", get, post payload, announced], some (Leftover.record, none), [saved]⟩
  have hgoes : Goes ctx Leftover.aggregator Leftover.client t after :=
    .decided rfl rfl hdecide (.record none (.settled _ fun _ _ h => nomatch h))
  exact ⟨t, rfl, ⟨Leftover.valid_now, rfl, ⟨_, after, hgoes⟩, rfl, rfl⟩,
    ⟨films, rfl⟩, rfl, rfl, rfl⟩

theorem ofResource_moved : Managed.ofResource moved = .ok movedService := by
  have hstatus : Status.ofMembers moved.status = .ok movedService.status := by
    have hempty : Status.ofMembers films.status = .ok service.status := rfl
    refine Status.ofMembers_withRecord hempty fun now hnow => ?_
    cases hnow
    exact Leftover.valid_now
  have hread : Declared.read (.manager .radarr) moved.spec = .ok movedService.declared := rfl
  rw [Managed.ofResource, show Kind.ofName? moved.kind = some (.manager .radarr) from rfl]
  dsimp only
  rw [hread, hstatus]
  rfl

theorem recordOf_moved : recordOf moved = recordOf kept := rfl

theorem makes_second : ∃ t stored, t.resource = moved ∧ Makes t second ∧ Stores t stored := by
  let registration : Registration := registrationOf ctx aggregator movedService "key"
  obtain ⟨payload, hpayload⟩ : ∃ payload, registration.payload none = .ok payload := ⟨_, rfl⟩
  let calls : List Exchange := [⟨.http (client.request "GET" "" none), .ok ⟨200, "[]"⟩⟩,
    ⟨.http (client.request "POST" "" (some payload)), .ok ⟨200, "\x7b\"id\": 7\x7d"⟩⟩]
  obtain ⟨after, hkey⟩ : ∃ after, Follows (Secret.registrationKey movedService) []
      [secret "radarr-api-key"] (.ok "key") after := ⟨_, .ask (.done _)⟩
  have hservice : Follows (registerService ctx aggregator movedService client "key") after
      calls (.ok (second.record, none)) after :=
    follows_attempt_bind.mpr ⟨calls, [], _, _, rfl,
      Leftover.follows_register_added client hpayload after, .done _⟩
  have hdecide : Follows (Coordinate.decide ctx aggregator movedService client) []
      (secret "radarr-api-key" :: calls) (.ok (some (second.record, none))) after := by
    refine follows_attempt_bind.mpr ⟨[secret _], _, _, _, rfl, hkey, ?_⟩
    exact follows_bind.mpr (.inl ⟨_, [], _, _, (List.append_nil _).symm, hservice, .done _⟩)
  have hdecideOrFail : Follows (decideOrFail ctx aggregator movedService client) []
      (secret "radarr-api-key" :: calls) (.ok (some (second.record, none))) after :=
    follows_attempt_bind.mpr ⟨_, [], _, _, (List.append_nil _).symm, hdecide, .done _⟩
  let stored : Resource := MemoryStore.written moved (withRecord movedService second.record)
  let t : Turn := ⟨moved, [], secret "radarr-api-key" :: calls, some (second.record, none),
    [⟨.updateStatus moved stored.status, .ok stored⟩]⟩
  have hgoes : Goes ctx aggregator client t after :=
    .decided rfl ofResource_moved hdecideOrFail (.record none (.settled _ fun _ _ h => nomatch h))
  exact ⟨t, stored, rfl, ⟨Leftover.valid_now, ofResource_moved, ⟨_, after, hgoes⟩, rfl, rfl⟩,
    ⟨moved, rfl⟩, rfl, rfl, rfl⟩

/-- The films are registered with one aggregator, and then with the other one. -/
theorem history : ∃ q, History films [.registered second, .registered first] q := by
  obtain ⟨t, hfilms, hmakes, hstores⟩ := makes_first
  obtain ⟨u, stored, hmoved, hmakes', hstores'⟩ := makes_second
  have hfirst : History films [.registered first] kept :=
    .registered (hfilms ▸ .start) hmakes hstores
  have hedited : History films [.registered first] moved :=
    .edited hfirst ⟨rfl, rfl, rfl⟩ recordOf_moved
  exact ⟨stored, .registered (hmoved ▸ hedited) hmakes' hstores'⟩

end Moved

/-- The films are announced when they are registered for the first time, and not when they have
moved. -/
theorem registrations_announced_films : ∃ q,
    History Leftover.films [.registered Moved.second, .registered Moved.first] q ∧
    Announces Leftover.films none Moved.first ∧ Moved.first.events ≠ [] ∧
    Announces Leftover.films (some Moved.first.record) Moved.second ∧
    Moved.second.events = [] := by
  obtain ⟨q, h⟩ := Moved.history
  have hfirst := @registrations_announced Moved.first Leftover.films q [.registered Moved.second] []
    (.registered Moved.first) h rfl
  have hsecond := @registrations_announced Moved.second Leftover.films q []
    [.registered Moved.first] (.registered Moved.second) h rfl
  exact ⟨q, h, hfirst, List.cons_ne_nil _ _, hsecond, rfl⟩

/-- The films that have moved are on record with the aggregator that they had before. -/
theorem not_announced_films : ¬ ∀ (r₀ q : Resource) (later earlier : List Happening)
    (x : Happening) (e : Made), History r₀ (later ++ x :: earlier) q → x.made? = some e →
      ((∃ event ∈ e.events, event.reason = "Registered") ↔
        ¬ LiveWith (onRecord (recordOf r₀) earlier) e.aggregator.name e.id) := by
  intro hall
  obtain ⟨q, h⟩ := Moved.history
  have hnew : ¬ LiveWith (some Moved.first.record) "other" 7 := by
    rintro ⟨r, hr, -, hname, -⟩
    cases hr
    exact absurd hname (by decide)
  obtain ⟨event, hevent, -⟩ := (hall _ q [] [.registered Moved.first] (.registered Moved.second)
    Moved.second h rfl).mpr hnew
  cases hevent

end Steward.Run

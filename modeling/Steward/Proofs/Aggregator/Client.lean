import Steward.Aggregator.Client
import Steward.Proofs.Pass.Addressee
import Steward.Proofs.Pass.Kept
import Steward.Proofs.Secret.Reads

/-!
# What a client of an aggregator asks

Sending asks the aggregator once, and the reply decides what comes of it.  So looking up an
application asks once, and registering or removing one asks once or twice: what the look-up comes to
says what is sent then (`Registering`, `Unregistering`).  A client is built from the secrets of the
connection, and from nothing else.
-/

namespace Steward.AggregatorClient

open Pass

variable {c : AggregatorClient} {cache after : Cache} {xs : List Exchange}

/-! ## 1. Sending -/

/-- The request that is sent. -/
def request (c : AggregatorClient) (method below : String) (payload : Option Json) :
    HttpRequest where
  method
  url := c.baseUrl ++ endpoint ++ below
  apiKey := c.apiKey
  payload
  verify := !c.insecureSkipVerify
  timeout := c.timeout

/-- What a reply to a request comes to. -/
def answerTo (request : HttpRequest) : Except Failure HttpResponse → Except Failure (Option Json)
  | .error (.transport text) =>
    .error (.registration (.transport request.method request.url text))
  | .error e => .error e
  | .ok response =>
    if response.status < 200 || 300 ≤ response.status then
      .error (.registration (.status response.status response.body))
    else if response.body.isEmpty then .ok none
    else
      match Json.parse response.body with
      | .ok v => .ok (some v)
      | .error refusal => .error (.answer (.unreadable response.body refusal))

/-- No text without characters is a document. -/
theorem isEmpty_of_parse {text : String} {v : Json} (h : Json.parse text = .ok v) :
    text.isEmpty = false := by
  rw [← Bool.not_eq_true]
  intro hempty
  have hnone : (Json.parse "").isOk = false := by decide +kernel
  rw [String.isEmpty_iff.mp hempty] at h
  rw [h] at hnone
  cases hnone

/-- A document in the body of an answer is what the answer comes to. -/
theorem answerTo_of_parse {request : HttpRequest} {status : Int} {body : String} {v : Json}
    (hparse : Json.parse body = .ok v) (hlow : 200 ≤ status) (hhigh : status < 300) :
    answerTo request (.ok ⟨status, body⟩) = .ok (some v) := by
  rw [answerTo, if_neg, isEmpty_of_parse hparse, if_neg Bool.false_ne_true, hparse]
  rw [Bool.or_eq_true, decide_eq_true_eq, decide_eq_true_eq]
  exact fun h => h.elim (Int.not_lt.mpr hlow) (Int.not_le.mpr hhigh)

/-- Sending asks once, and the reply decides what comes of it. -/
theorem follows_send {method below : String} {payload : Option Json}
    {out : Except Failure (Option Json)}
    (h : Follows (c.send method below payload) cache xs out after) :
    ∃ reply, xs = [⟨.http (c.request method below payload), reply⟩] ∧
      out = answerTo (c.request method below payload) reply ∧ after = cache := by
  rw [send, follows_attempt_bind] at h
  obtain ⟨ys, zs, reply, mid, rfl, hask, hrest⟩ := h
  obtain ⟨reply', rfl, rfl, rfl⟩ := follows_ask_settle.mp hask
  have hend : zs = [] ∧ out = answerTo (c.request method below payload) reply ∧ after = mid := by
    cases reply with
    | error e => cases e <;> exact follows_throw.mp hrest
    | ok response =>
      rw [answerTo]
      dsimp only at hrest
      split at hrest
      · rw [if_pos ‹_›]
        rcases follows_bind.mp hrest with ⟨_, _, _, _, -, hthrow, -⟩ | ⟨e, rfl, hthrow⟩
        · cases (follows_throw.mp hthrow).2.1
        · obtain ⟨hzs, he, hafter⟩ := follows_throw.mp hthrow
          cases he
          exact ⟨hzs, rfl, hafter⟩
      rw [if_neg ‹_›]
      split at hrest
      · rw [if_pos ‹_›]
        exact follows_pure.mp hrest
      rw [if_neg ‹_›]
      cases hparse : Json.parse response.body with
      | ok v =>
        rw [hparse] at hrest
        exact follows_pure.mp hrest
      | error refusal =>
        rw [hparse] at hrest
        exact follows_throw.mp hrest
  obtain ⟨rfl, rfl, rfl⟩ := hend
  exact ⟨reply, rfl, rfl, rfl⟩

/-- Any reply to what is sent decides what comes of it. -/
theorem follows_send_reply (c : AggregatorClient) (cache : Cache) (method below : String)
    (payload : Option Json) (reply : Except Failure HttpResponse) :
    Follows (c.send method below payload) cache
      [⟨.http (c.request method below payload), reply⟩]
      (answerTo (c.request method below payload) reply) cache := by
  obtain ⟨ys, ⟨out, after⟩, h⟩ : ∃ ys out, Program.Follows ((c.send method below payload).run cache)
      (⟨.http (c.request method below payload), reply⟩ :: ys) out := by
    obtain ⟨ys, out, h⟩ := Program.exists_follows (S := signature) _
    exact ⟨ys, out, .ask h⟩
  obtain ⟨reply', hxs, hout, hafter⟩ := follows_send h
  cases hxs
  subst hout hafter
  exact h

/-- The applications in an answer. -/
def listed : Option Json → Json
  | some v => if v.isBlank then .array [] else v
  | none => .array []

/-- All applications, as a reply gives them. -/
def listedIn (c : AggregatorClient) (reply : Except Failure HttpResponse) : Except Failure Json :=
  (answerTo (c.request "GET" "" none) reply).map listed

/-- The application of a name, as a reply gives it. -/
def foundIn (c : AggregatorClient) (name : String) (reply : Except Failure HttpResponse) :
    Except Failure (Option Json) := do
  let answer ← c.listedIn reply
  (entries answer >>= findIn name).mapError .answer

/-- Listing asks once. -/
theorem follows_list {out : Except Failure Json} (h : Follows c.list cache xs out after) :
    ∃ reply, xs = [⟨.http (c.request "GET" "" none), reply⟩] ∧
      out = c.listedIn reply ∧ after = cache := by
  rcases follows_bind.mp h with ⟨ys, zs, answer, mid, rfl, hsend, hrest⟩ | ⟨e, rfl, hsend⟩
  · obtain ⟨reply, rfl, hanswer, rfl⟩ := follows_send hsend
    have hend : zs = [] ∧ out = .ok (listed answer) ∧ after = mid := by
      cases answer with
      | none => exact follows_pure.mp hrest
      | some v => exact follows_pure.mp hrest
    obtain ⟨rfl, rfl, rfl⟩ := hend
    exact ⟨reply, rfl, by rw [listedIn, ← hanswer]; rfl, rfl⟩
  · obtain ⟨reply, rfl, hanswer, rfl⟩ := follows_send hsend
    exact ⟨reply, rfl, by rw [listedIn, ← hanswer]; rfl, rfl⟩

/-! ## 2. Applications -/

/-- Looking up an application asks once. -/
theorem follows_find {name : String} {out : Except Failure (Option Json)}
    (h : Follows (c.find name) cache xs out after) :
    ∃ reply, xs = [⟨.http (c.request "GET" "" none), reply⟩] ∧ out = c.foundIn name reply ∧
      after = cache := by
  rcases follows_bind.mp h with ⟨ys, zs, answer, mid, rfl, hlist, hrest⟩ | ⟨e, rfl, hlist⟩
  · obtain ⟨reply, rfl, hanswer, rfl⟩ := follows_list hlist
    obtain ⟨rfl, rfl, rfl⟩ := follows_settle.mp hrest
    exact ⟨reply, rfl, by rw [foundIn, ← hanswer]; rfl, rfl⟩
  · obtain ⟨reply, rfl, hanswer, rfl⟩ := follows_list hlist
    exact ⟨reply, rfl, by rw [foundIn, ← hanswer]; rfl, rfl⟩

/-- Any reply to a look-up decides what is found. -/
theorem follows_find_reply (c : AggregatorClient) (cache : Cache) (name : String)
    (reply : Except Failure HttpResponse) :
    Follows (c.find name) cache [⟨.http (c.request "GET" "" none), reply⟩] (c.foundIn name reply)
      cache := by
  obtain ⟨ys, ⟨out, after⟩, h⟩ : ∃ ys out, Program.Follows ((c.find name).run cache)
      (⟨.http (c.request "GET" "" none), reply⟩ :: ys) out := by
    obtain ⟨ys, out, h⟩ := Program.exists_follows (S := signature) _
    exact ⟨ys, out, .ask h⟩
  obtain ⟨reply', hxs, hout, hafter⟩ := follows_find h
  cases hxs
  subst hout hafter
  exact h

/-- The request that registers a service, in the place of an application of its name if there is
one. -/
def writing (c : AggregatorClient) (r : Registration) :
    Option Json → Except Failure HttpRequest
  | some application => do
    let id ← idOf application
    let payload ← (r.payload (if id = .null then none else some id)).mapError .registration
    return c.request "PUT" ("/" ++ id.plain) (some payload)
  | none => do
    let payload ← (r.payload none).mapError .registration
    return c.request "POST" "" (some payload)

theorem writing_none_iff {r : Registration} {q : HttpRequest} :
    c.writing r none = .ok q ↔
      ∃ payload, r.payload none = .ok payload ∧ q = c.request "POST" "" (some payload) := by
  rw [writing]
  cases r.payload none with
  | error e => exact ⟨by rintro ⟨⟩, by rintro ⟨_, ⟨⟩, _⟩⟩
  | ok payload => exact ⟨by rintro ⟨⟩; exact ⟨payload, rfl, rfl⟩, by rintro ⟨_, ⟨⟩, rfl⟩; rfl⟩

theorem writing_some_iff {r : Registration} {application id : Json} {q : HttpRequest}
    (hid : idOf application = .ok id) :
    c.writing r (some application) = .ok q ↔
      ∃ payload, r.payload (if id = .null then none else some id) = .ok payload ∧
        q = c.request "PUT" ("/" ++ id.plain) (some payload) := by
  rw [writing, hid]
  dsimp only [bind, Except.bind]
  cases r.payload (if id = .null then none else some id) with
  | error e => exact ⟨by rintro ⟨⟩, by rintro ⟨_, ⟨⟩, _⟩⟩
  | ok payload => exact ⟨by rintro ⟨⟩; exact ⟨payload, rfl, rfl⟩, by rintro ⟨_, ⟨⟩, rfl⟩; rfl⟩

/-- How a registration goes. -/
inductive Registering (c : AggregatorClient) (r : Registration) :
    List Exchange → Except Failure Int → Prop where
  /-- The applications cannot be read. -/
  | unread {reply : Except Failure HttpResponse} {e : Failure} : c.foundIn r.name reply = .error e →
      Registering c r [⟨.http (c.request "GET" "" none), reply⟩] (.error e)
  /-- There is nothing that could be sent. -/
  | unsent {reply : Except Failure HttpResponse} {existing : Option Json} {e : Failure} :
      c.foundIn r.name reply = .ok existing → c.writing r existing = .error e →
      Registering c r [⟨.http (c.request "GET" "" none), reply⟩] (.error e)
  | sent {reply reply' : Except Failure HttpResponse} {existing : Option Json}
      {request : HttpRequest} : c.foundIn r.name reply = .ok existing →
      c.writing r existing = .ok request →
      Registering c r [⟨.http (c.request "GET" "" none), reply⟩, ⟨.http request, reply'⟩]
        (answerTo request reply' >>= fun answer => registeredId r answer existing)

/-- How the removal of an application goes. -/
inductive Unregistering (c : AggregatorClient) (name : String) :
    List Exchange → Except Failure Bool → Prop where
  /-- The applications cannot be read. -/
  | unread {reply : Except Failure HttpResponse} {e : Failure} : c.foundIn name reply = .error e →
      Unregistering c name [⟨.http (c.request "GET" "" none), reply⟩] (.error e)
  | absent {reply : Except Failure HttpResponse} : c.foundIn name reply = .ok none →
      Unregistering c name [⟨.http (c.request "GET" "" none), reply⟩] (.ok false)
  /-- The application has no id. -/
  | unsent {reply : Except Failure HttpResponse} {application : Json} {e : Failure} :
      c.foundIn name reply = .ok (some application) → idOf application = .error e →
      Unregistering c name [⟨.http (c.request "GET" "" none), reply⟩] (.error e)
  | sent {reply reply' : Except Failure HttpResponse} {application id : Json} :
      c.foundIn name reply = .ok (some application) → idOf application = .ok id →
      Unregistering c name [⟨.http (c.request "GET" "" none), reply⟩,
          ⟨.http (c.request "DELETE" ("/" ++ id.plain) none), reply'⟩]
        ((answerTo (c.request "DELETE" ("/" ++ id.plain) none) reply').map fun _ => true)

/-- The document of a registration is sent if there is one, and the answer decides what comes of
it. -/
theorem follows_sendPayload {r : Registration} {id : Option Json} {method below : String}
    {g : Option Json → Except Failure Int} {out : Except Failure Int}
    (h : Follows (do
      let payload ← payloadOf r id
      let answer ← c.send method below (some payload)
      Pass.settle (g answer)) cache xs out after) :
    after = cache ∧
      match (r.payload id).mapError Failure.registration with
      | .error e => xs = [] ∧ out = .error e
      | .ok payload => ∃ reply, xs = [⟨.http (c.request method below (some payload)), reply⟩] ∧
          out = answerTo (c.request method below (some payload)) reply >>= g := by
  have hbind := follows_settle_bind.mp h
  split at hbind
  · rename_i payload hpayload
    rw [hpayload]
    rcases follows_bind.mp hbind with ⟨ys, zs, answer, mid, rfl, hsend, hend⟩ | ⟨e, rfl, hsend⟩
    · obtain ⟨reply, rfl, hanswer, rfl⟩ := follows_send hsend
      obtain ⟨rfl, rfl, rfl⟩ := follows_settle.mp hend
      exact ⟨rfl, reply, rfl, by rw [← hanswer]; rfl⟩
    · obtain ⟨reply, rfl, hanswer, rfl⟩ := follows_send hsend
      exact ⟨rfl, reply, rfl, by rw [← hanswer]; rfl⟩
  · rename_i e hpayload
    rw [hpayload]
    exact ⟨hbind.2.2, hbind.1, hbind.2.1⟩

/-- After the look-up at most one request is sent. -/
theorem follows_write {r : Registration} {existing : Option Json} {out : Except Failure Int}
    (h : Follows (match existing with
      | some application => do
        let id ← Pass.settle (idOf application)
        let payload ← payloadOf r (if id = .null then none else some id)
        let answer ← c.send "PUT" ("/" ++ id.plain) (some payload)
        Pass.settle (registeredId r answer existing)
      | none => do
        let payload ← payloadOf r none
        let answer ← c.send "POST" "" (some payload)
        Pass.settle (registeredId r answer existing)) cache xs out after) :
    after = cache ∧
      match c.writing r existing with
      | .error e => xs = [] ∧ out = .error e
      | .ok request => ∃ reply, xs = [⟨.http request, reply⟩] ∧
          out = answerTo request reply >>= fun answer => registeredId r answer existing := by
  cases existing with
  | none =>
    obtain ⟨rfl, hsent⟩ := follows_sendPayload h
    refine ⟨rfl, ?_⟩
    rw [writing]
    cases hpayload : (r.payload none).mapError Failure.registration <;>
      (rw [hpayload] at hsent; exact hsent)
  | some application =>
    have hbind := follows_settle_bind.mp h
    rw [writing]
    cases hid : idOf application with
    | error e =>
      rw [hid] at hbind
      exact ⟨hbind.2.2, hbind.1, hbind.2.1⟩
    | ok id =>
      rw [hid] at hbind
      obtain ⟨rfl, hsent⟩ := follows_sendPayload hbind
      refine ⟨rfl, ?_⟩
      dsimp only [bind, Except.bind]
      cases hpayload : (r.payload (if id = .null then none else some id)).mapError
          Failure.registration <;>
        (rw [hpayload] at hsent; exact hsent)

theorem follows_register {r : Registration} {out : Except Failure Int}
    (h : Follows (c.register r) cache xs out after) : Registering c r xs out ∧ after = cache := by
  rcases follows_bind.mp h with ⟨ys, zs, existing, mid, rfl, hfind, hrest⟩ | ⟨e, rfl, hfind⟩
  · obtain ⟨reply, rfl, hfound, rfl⟩ := follows_find hfind
    obtain ⟨rfl, hsent⟩ := follows_write hrest
    cases hwriting : c.writing r existing with
    | error e =>
      rw [hwriting] at hsent
      obtain ⟨rfl, rfl⟩ := hsent
      exact ⟨.unsent hfound.symm hwriting, rfl⟩
    | ok request =>
      rw [hwriting] at hsent
      obtain ⟨reply', rfl, rfl⟩ := hsent
      exact ⟨.sent hfound.symm hwriting, rfl⟩
  · obtain ⟨reply, rfl, hfound, rfl⟩ := follows_find hfind
    exact ⟨.unread hfound.symm, rfl⟩

/-- What is sent in the light of a look-up, and any reply to it. -/
theorem follows_register_sent {r : Registration} {existing : Option Json} {q : HttpRequest}
    {reply : Except Failure HttpResponse} (hfound : c.foundIn r.name reply = .ok existing)
    (hwriting : c.writing r existing = .ok q) (reply' : Except Failure HttpResponse) :
    Follows (c.register r) cache [⟨.http (c.request "GET" "" none), reply⟩, ⟨.http q, reply'⟩]
      (answerTo q reply' >>= fun answer => registeredId r answer existing) cache := by
  have hfind := follows_find_reply c cache r.name reply
  rw [hfound] at hfind
  -- the reply to what is sent is read
  have hread {method below : String} {payload : Json}
      (hq : q = c.request method below (some payload)) :
      Follows (do
          let answer ← c.send method below (some payload)
          Pass.settle (registeredId r answer existing)) cache [⟨.http q, reply'⟩]
        (answerTo q reply' >>= fun answer => registeredId r answer existing) cache := by
    subst hq
    have hsend := follows_send_reply c cache method below (some payload) reply'
    cases hanswer : answerTo (c.request method below (some payload)) reply' with
    | ok answer =>
      rw [hanswer] at hsend
      exact follows_bind.mpr (.inl
        ⟨[_], [], answer, cache, rfl, hsend, follows_settle.mpr ⟨rfl, rfl, rfl⟩⟩)
    | error e =>
      rw [hanswer] at hsend
      exact follows_bind.mpr (.inr ⟨e, rfl, hsend⟩)
  refine follows_bind.mpr (.inl ⟨[_], [_], existing, cache, rfl, hfind, ?_⟩)
  cases existing with
  | none =>
    obtain ⟨payload, hpayload, hq⟩ := writing_none_iff.mp hwriting
    refine follows_settle_bind.mpr ?_
    rw [hpayload]
    exact hread hq
  | some application =>
    cases hid : idOf application with
    | error e =>
      rw [writing, hid] at hwriting
      cases hwriting
    | ok id =>
      obtain ⟨payload, hpayload, hq⟩ := (writing_some_iff hid).mp hwriting
      refine follows_settle_bind.mpr ?_
      rw [hid]
      refine follows_settle_bind.mpr ?_
      rw [hpayload]
      exact hread hq

theorem follows_unregister {name : String} {out : Except Failure Bool}
    (h : Follows (c.unregister name) cache xs out after) :
    Unregistering c name xs out ∧ after = cache := by
  rcases follows_bind.mp h with ⟨ys, zs, found, mid, rfl, hfind, hrest⟩ | ⟨e, rfl, hfind⟩
  · obtain ⟨reply, rfl, hfound, rfl⟩ := follows_find hfind
    cases found with
    | none =>
      obtain ⟨rfl, rfl, rfl⟩ := follows_pure.mp hrest
      exact ⟨.absent hfound.symm, rfl⟩
    | some application =>
      have hbind := follows_settle_bind.mp hrest
      cases hid : idOf application with
      | error e =>
        rw [hid] at hbind
        obtain ⟨rfl, rfl, rfl⟩ := hbind
        exact ⟨.unsent hfound.symm hid, rfl⟩
      | ok id =>
        rw [hid] at hbind
        rcases follows_bind.mp hbind with ⟨us, vs, answer, mid', rfl, hsend, hend⟩ | ⟨e, rfl, hsend⟩
        · obtain ⟨reply', rfl, hanswer, rfl⟩ := follows_send hsend
          obtain ⟨rfl, rfl, rfl⟩ := follows_pure.mp hend
          have hsent := @Unregistering.sent c name reply reply' application id hfound.symm hid
          rw [← hanswer] at hsent
          exact ⟨hsent, rfl⟩
        · obtain ⟨reply', rfl, hanswer, rfl⟩ := follows_send hsend
          have hsent := @Unregistering.sent c name reply reply' application id hfound.symm hid
          rw [← hanswer] at hsent
          exact ⟨hsent, rfl⟩
  · obtain ⟨reply, rfl, hfound, rfl⟩ := follows_find hfind
    exact ⟨.unread hfound.symm, rfl⟩

/-- What is asked to remove what a look-up found, and any reply to it. -/
theorem follows_unregister_sent {name : String} {application id : Json}
    {reply : Except Failure HttpResponse} (hfound : c.foundIn name reply = .ok (some application))
    (hid : idOf application = .ok id) (reply' : Except Failure HttpResponse) :
    Follows (c.unregister name) cache [⟨.http (c.request "GET" "" none), reply⟩,
        ⟨.http (c.request "DELETE" ("/" ++ id.plain) none), reply'⟩]
      ((answerTo (c.request "DELETE" ("/" ++ id.plain) none) reply').map fun _ => true) cache := by
  have hfind := follows_find_reply c cache name reply
  rw [hfound] at hfind
  refine follows_bind.mpr (.inl ⟨[_], [_], some application, cache, rfl, hfind, ?_⟩)
  refine follows_settle_bind.mpr ?_
  rw [hid]
  have hsend := follows_send_reply c cache "DELETE" ("/" ++ id.plain) none reply'
  cases hanswer : answerTo (c.request "DELETE" ("/" ++ id.plain) none) reply' with
  | ok answer =>
    rw [hanswer] at hsend
    exact follows_bind.mpr (.inl
      ⟨[_], [], answer, cache, rfl, hsend, follows_pure.mpr ⟨rfl, rfl, rfl⟩⟩)
  | error e =>
    rw [hanswer] at hsend
    exact follows_bind.mpr (.inr ⟨e, rfl, hsend⟩)

theorem asks_register (c : AggregatorClient) (r : Registration) :
    Asks (fun r => r.addressee = .aggregator) (c.register r) := by
  intro cache after xs out h x hx
  cases (follows_register h).1 with
  | sent _ _ =>
    rcases List.mem_cons.mp hx with rfl | hx
    · rfl
    · rw [List.mem_singleton.mp hx]
      rfl
  | _ =>
    rw [List.mem_singleton.mp hx]
    rfl

theorem asks_unregister (c : AggregatorClient) (name : String) :
    Asks (fun r => r.addressee = .aggregator) (c.unregister name) := by
  intro cache after xs out h x hx
  cases (follows_unregister h).1 with
  | sent _ _ =>
    rcases List.mem_cons.mp hx with rfl | hx
    · rfl
    · rw [List.mem_singleton.mp hx]
      rfl
  | _ =>
    rw [List.mem_singleton.mp hx]
    rfl

/-- Registering asks the aggregator in any case. -/
theorem ne_nil_of_register {r : Registration} {out : Except Failure Int}
    (h : Follows (c.register r) cache xs out after) : xs ≠ [] := by
  cases (follows_register h).1 <;> exact List.cons_ne_nil _ _

/-- No secrets are read to register a service, so what holds of those that were read is kept. -/
theorem keeps_register {P : Exchange → Prop} {I : Cache → Prop} (c : AggregatorClient)
    (r : Registration) : Keeps P I (c.register r) := by
  intro cache after xs out h _ hcache
  rwa [(follows_register h).2]

/-! ## 3. Clients -/

theorem asks_forManaged (m : Managed) (timeout : Int) :
    Asks Request.ReadsSecret (forManaged m timeout) := by
  refine (Secret.asks_resolveUses _ _ _).bind fun secrets => ?_
  dsimp only
  split
  · exact (asks_throw _).bind fun _ => asks_pure _
  · exact asks_pure _

end Steward.AggregatorClient

import Steward.Proofs.Aggregator.Client
import Steward.Proofs.Aggregator.Registration

/-!
# What an aggregator holds

An aggregator lists the applications that it holds, and carries out what a client sends to add,
replace or remove one (`Answers`).  A client finds an application by its name, and sends what
concerns it to where it is found; so while all applications of a name are found in one place, its
removal leaves none (`Answers.free_of_removed`).
-/

namespace Steward

open Pass AggregatorClient

/-- An application that an aggregator holds. -/
structure Holding where
  id : Json
  members : Json.Members

/-- What is sent carries the name of an application. -/
def HttpRequest.Names (name : String) (q : HttpRequest) : Prop :=
  ∃ payload, q.payload = some payload ∧ payload.get? "name" = some (.string name)

namespace Holding

/-- The application as it is listed. -/
def document (h : Holding) : Json := .object (Table.set h.members "id" h.id)

/-- The application has this name. -/
def Named (name : String) (h : Holding) : Prop :=
  Table.get? h.members "name" = some (.string name)

instance (name : String) (h : Holding) : Decidable (h.Named name) :=
  inferInstanceAs (Decidable (_ = _))

/-- Where the application is found. -/
def url (base : String) (h : Holding) : String := base ++ endpoint ++ ("/" ++ h.id.plain)

/-- No application has the name. -/
def Free (name : String) (hs : List Holding) : Prop := ∀ h ∈ hs, ¬ h.Named name

/-- All applications of the name are found at this place. -/
def Under (base name url : String) (hs : List Holding) : Prop :=
  ∀ h ∈ hs, h.Named name → h.url base = url

variable {base name url : String} {hs hs' : List Holding} {h : Holding} {q : HttpRequest}
  {reply : Except Failure HttpResponse}

theorem Free.under (h : Free name hs) : Under base name url hs :=
  fun x hx hnamed => absurd hnamed (h x hx)

/-- What an aggregator replies, and what it holds then.  A change is carried out, whatever is
replied to it. -/
inductive Answers (base : String) (hs : List Holding) : Exchange → List Holding → Prop where
  | listed {q : HttpRequest} {response : HttpResponse} : q.method = "GET" →
      200 ≤ response.status → response.status < 300 →
      Json.parse response.body = .ok (.array (hs.map document)) →
      Answers base hs ⟨.http q, .ok response⟩ hs
  | added {q : HttpRequest} {members : Json.Members} (id : Json)
      (reply : Except Failure HttpResponse) : q.method = "POST" →
      q.payload = some (.object members) →
      Answers base hs ⟨.http q, reply⟩ (hs ++ [⟨id, members⟩])
  | replaced {q : HttpRequest} {members : Json.Members} (reply : Except Failure HttpResponse) :
      q.method = "PUT" → q.payload = some (.object members) →
      Answers base hs ⟨.http q, reply⟩
        (hs.map fun h => if h.url base = q.url then ⟨h.id, members⟩ else h)
  | removed {q : HttpRequest} (reply : Except Failure HttpResponse) : q.method = "DELETE" →
      Answers base hs ⟨.http q, reply⟩ (hs.filter fun h => h.url base ≠ q.url)

/-! ## 1. Finding an application -/

theorem get?_document (h : Holding) (key : String) :
    h.document.get? key = if key = "id" then some h.id else Table.get? h.members key := by
  rw [document, Json.get?, Table.get?_set]

theorem idOf_document (h : Holding) : idOf h.document = .ok h.id := by
  rw [idOf, get?_document, if_pos rfl]

/-- Among the applications of a list the first one of a name is found. -/
theorem findIn_map_document (name : String) (hs : List Holding) :
    findIn name (hs.map document) = .ok ((hs.find? (·.Named name)).map document) := by
  induction hs with
  | nil => rfl
  | cons h hs ih =>
    have hname : Table.get? (Table.set h.members "id" h.id) "name" =
        Table.get? h.members "name" := by
      rw [Table.get?_set, if_neg (by decide)]
    rw [List.map_cons, List.find?_cons, document, findIn, hname]
    by_cases hnamed : h.Named name
    · rw [decide_eq_true hnamed]
      exact if_pos hnamed
    · rw [decide_eq_false hnamed]
      exact (if_neg hnamed).trans ih

/-- A client finds the first application of a name in the list that is answered. -/
theorem foundIn_of_answer {c : AggregatorClient} (name : String)
    (h : answerTo (c.request "GET" "" none) reply = .ok (some (.array (hs.map document)))) :
    c.foundIn name reply = .ok ((hs.find? (·.Named name)).map document) := by
  have hlisted (vs : List Json) : AggregatorClient.listed (some (.array vs)) = .array vs := by
    cases vs <;> rfl
  rw [AggregatorClient.foundIn, listedIn, h]
  change Except.mapError Failure.answer
    (entries (AggregatorClient.listed (some (.array _))) >>= findIn name) = _
  rw [hlisted]
  change Except.mapError Failure.answer (findIn name _) = _
  rw [findIn_map_document]
  rfl

/-- A client finds the first application of a name that the aggregator holds. -/
theorem Answers.foundIn {c : AggregatorClient} (name : String) (hq : q.method = "GET")
    (h : Answers base hs ⟨.http q, reply⟩ hs') :
    c.foundIn name reply = .ok ((hs.find? (·.Named name)).map document) := by
  cases h with
  | listed _ hlow hhigh hparse =>
    exact foundIn_of_answer name (answerTo_of_parse hparse hlow hhigh)
  | added _ _ hmethod => exact absurd (hq.symm.trans hmethod) (by decide)
  | replaced _ hmethod => exact absurd (hq.symm.trans hmethod) (by decide)
  | removed _ hmethod => exact absurd (hq.symm.trans hmethod) (by decide)

/-- What may be found under a name: nothing if it is free, or else an application of the name. -/
def Finds (name : String) (hs : List Holding) : Option Json → Prop
  | none => Free name hs
  | some application => ∃ x ∈ hs, x.Named name ∧ idOf application = .ok x.id

theorem finds_find? (name : String) (hs : List Holding) :
    Finds name hs ((hs.find? (·.Named name)).map document) := by
  cases hfind : hs.find? (·.Named name) with
  | none =>
    intro x hx hnamed
    exact List.find?_eq_none.mp hfind x hx (decide_eq_true hnamed)
  | some x =>
    have hnamed := List.find?_some hfind
    exact ⟨x, List.mem_of_find?_eq_some hfind, of_decide_eq_true hnamed, idOf_document x⟩

theorem Answers.found {c : AggregatorClient} {existing : Option Json} (hq : q.method = "GET")
    (h : Answers base hs ⟨.http q, reply⟩ hs') (hfound : c.foundIn name reply = .ok existing) :
    Finds name hs existing := by
  rw [h.foundIn name hq, Except.ok.injEq] at hfound
  subst hfound
  exact finds_find? name hs

/-! ## 2. Changes -/

/-- A list changes nothing. -/
theorem Answers.eq_of_get (h : Answers base hs ⟨.http q, reply⟩ hs') (hq : q.method = "GET") :
    hs' = hs := by
  cases h with
  | listed _ _ _ _ => rfl
  | added _ _ hmethod => exact absurd (hq.symm.trans hmethod) (by decide)
  | replaced _ hmethod => exact absurd (hq.symm.trans hmethod) (by decide)
  | removed _ hmethod => exact absurd (hq.symm.trans hmethod) (by decide)

/-- Nothing that a request changes takes the name, unless the request carries it. -/
theorem Answers.mem_of_named (h : Answers base hs ⟨.http q, reply⟩ hs') (hq : ¬ q.Names name) :
    ∀ x ∈ hs', x.Named name → x ∈ hs := by
  have hcarried {members : Json.Members} (hpayload : q.payload = some (.object members))
      {id : Json} (hnamed : Named name ⟨id, members⟩) : False := hq ⟨_, hpayload, hnamed⟩
  intro x hx hnamed
  cases h with
  | listed _ _ _ _ => exact hx
  | added id _ _ hpayload =>
    rcases List.mem_append.mp hx with hx | hx
    · exact hx
    · rw [List.mem_singleton.mp hx] at hnamed
      exact (hcarried hpayload hnamed).elim
  | replaced _ _ hpayload =>
    obtain ⟨y, hy, rfl⟩ := List.mem_map.mp hx
    split at hnamed
    · exact (hcarried hpayload hnamed).elim
    · rename_i hurl
      rwa [if_neg hurl]
  | removed _ _ => exact (List.mem_filter.mp hx).1

theorem Answers.free (h : Answers base hs ⟨.http q, reply⟩ hs') (hq : ¬ q.Names name)
    (hs_free : Free name hs) : Free name hs' :=
  fun x hx hnamed => hs_free x (h.mem_of_named hq x hx hnamed) hnamed

theorem Answers.under (h : Answers base hs ⟨.http q, reply⟩ hs') (hq : ¬ q.Names name)
    (hs_under : Under base name url hs) : Under base name url hs' :=
  fun x hx hnamed => hs_under x (h.mem_of_named hq x hx hnamed) hnamed

/-- What is removed from where all applications of a name are found leaves none. -/
theorem Answers.free_of_removed (h : Answers base hs ⟨.http q, reply⟩ hs')
    (hq : q.method = "DELETE") (hs_under : Under base name q.url hs) : Free name hs' := by
  cases h with
  | removed _ _ =>
    intro x hx hnamed
    obtain ⟨hx, hurl⟩ := List.mem_filter.mp hx
    exact of_decide_eq_true hurl (hs_under x hx hnamed)
  | listed hmethod => exact absurd (hq.symm.trans hmethod) (by decide)
  | added _ _ hmethod => exact absurd (hq.symm.trans hmethod) (by decide)
  | replaced _ hmethod => exact absurd (hq.symm.trans hmethod) (by decide)

/-! ## 3. Registrations -/

/-- The request adds an application of a name that is free, or replaces the application where all of
the name are found. -/
def Sent (base name : String) (hs : List Holding) (q : HttpRequest) : Prop :=
  (q.method = "POST" ∧ Free name hs) ∨ (q.method = "PUT" ∧ Under base name q.url hs)

theorem Answers.sent_of_other {q' : HttpRequest} (h : Answers base hs ⟨.http q, reply⟩ hs')
    (hq : ¬ q.Names name) (hsent : Sent base name hs q') : Sent base name hs' q' :=
  hsent.imp (fun ⟨hmethod, hfree⟩ => ⟨hmethod, h.free hq hfree⟩)
    fun ⟨hmethod, hunder⟩ => ⟨hmethod, h.under hq hunder⟩

/-- A registration is sent to where the application of its name is found. -/
theorem Answers.sent {c : AggregatorClient} {r : Registration} {existing : Option Json}
    {get : HttpRequest} (hbase : c.baseUrl = base) (hget : get.method = "GET")
    (h : Answers base hs ⟨.http get, reply⟩ hs') (hfound : c.foundIn r.name reply = .ok existing)
    (hwriting : c.writing r existing = .ok q) (hq : q.Names name)
    (hgathered : ∃ url, Under base name url hs) : Sent base name hs q := by
  have hexisting := h.found hget hfound
  -- the request carries the name of the registration, and no other
  have hname {id : Option Json} {payload : Json} (hpayload : r.payload id = .ok payload)
      (hsent : q.payload = some payload) : r.name = name := by
    obtain ⟨v, hv, hnamed⟩ := hq
    rw [hsent, Option.some.injEq] at hv
    subst hv
    rw [Registration.get?_name_of_payload hpayload] at hnamed
    exact Json.string.inj (Option.some.inj hnamed)
  cases existing with
  | none =>
    obtain ⟨payload, hpayload, rfl⟩ := writing_none_iff.mp hwriting
    exact .inl ⟨rfl, hname hpayload rfl ▸ hexisting⟩
  | some application =>
    obtain ⟨x, hx, hnamed, hid⟩ := hexisting
    obtain ⟨payload, hpayload, rfl⟩ := (writing_some_iff hid).mp hwriting
    obtain ⟨url, hunder⟩ := hgathered
    refine .inr ⟨rfl, fun y hy hy_named => ?_⟩
    rw [hname hpayload rfl] at hnamed
    rw [hunder y hy hy_named, ← hunder x hx hnamed, Holding.url, AggregatorClient.request, hbase]

/-- What was sent leaves all applications of the name in one place. -/
theorem Answers.gathered (h : Answers base hs ⟨.http q, reply⟩ hs') (hq : Sent base name hs q) :
    ∃ url, Under base name url hs' := by
  rcases hq with ⟨hmethod, hfree⟩ | ⟨hmethod, hunder⟩
  · cases h with
    | @added _ members id _ _ _ =>
      refine ⟨url base ⟨id, members⟩, fun x hx hnamed => ?_⟩
      rcases List.mem_append.mp hx with hx | hx
      · exact absurd hnamed (hfree x hx)
      · rw [List.mem_singleton.mp hx]
    | listed hmethod' => exact absurd (hmethod.symm.trans hmethod') (by decide)
    | replaced _ hmethod' => exact absurd (hmethod.symm.trans hmethod') (by decide)
    | removed _ hmethod' => exact absurd (hmethod.symm.trans hmethod') (by decide)
  · cases h with
    | replaced _ _ _ =>
      refine ⟨q.url, fun x hx hnamed => ?_⟩
      obtain ⟨y, hy, rfl⟩ := List.mem_map.mp hx
      split at hnamed
      · rename_i hurl
        rwa [if_pos hurl]
      · rename_i hurl
        exact absurd (hunder y hy hnamed) hurl
    | listed hmethod' => exact absurd (hmethod.symm.trans hmethod') (by decide)
    | added _ _ hmethod' => exact absurd (hmethod.symm.trans hmethod') (by decide)
    | removed _ hmethod' => exact absurd (hmethod.symm.trans hmethod') (by decide)

end Holding

end Steward

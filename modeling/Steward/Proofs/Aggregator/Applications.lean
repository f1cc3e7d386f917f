import Mathlib.Data.List.Nodup
import Steward.Proofs.Aggregator.Host

/-!
# Applications are registered by name

An aggregator hands out the ids of its applications, and a client knows an application by its name.
Registering (`ProwlarrClient.register`) looks the name up (`find_application`) and then adds or
replaces, and between the two and after them any request may fail, carried out or not.  Still no
name ever occurs twice, and a call touches no application but that of its name
(`registrations_kept`): what a single call can do to the applications is said once (`Alters`), and a
sequence of calls keeps what each of them keeps.
-/

namespace Steward

open Pass AggregatorClient

/-- A call of a client, and what came of it. -/
inductive Call where
  | register (r : Registration) (out : Except Failure Int)
  | unregister (name : String) (out : Except Failure Bool)

/-- The name that is passed. -/
def Call.name : Call → String
  | .register r _ => r.name
  | .unregister name _ => name

/-! ## 1. Ids in places -/

namespace Json

/-- The text of a whole number says which one it is. -/
theorem intText_inj {m n : Int} (h : intText m = intText n) : m = n := by
  have hminus (k : Nat) : '-' ∉ Nat.toDigits 10 k := by
    intro hmem
    exact absurd (Nat.isDigit_of_mem_toDigits (by decide) (by decide) hmem) (by decide)
  have hdigits {j k : Nat} (hjk : Nat.toDigits 10 j = Nat.toDigits 10 k) : j = k := by
    have hvalue := congrArg (Nat.ofDigitChars 10 · 0) hjk
    simpa only [Nat.ofDigitChars_ten_toDigits] using hvalue
  rw [intText, intText] at h
  by_cases hm : m < 0 <;> by_cases hn : n < 0
  · rw [if_pos hm, if_pos hn] at h
    have habs := hdigits (List.append_cancel_left h)
    omega
  · rw [if_pos hm, if_neg hn, List.nil_append] at h
    refine absurd ?_ (hminus n.natAbs)
    rw [← h]
    exact List.mem_cons_self
  · rw [if_neg hm, if_pos hn, List.nil_append] at h
    refine absurd ?_ (hminus m.natAbs)
    rw [h]
    exact List.mem_cons_self
  · rw [if_neg hm, if_neg hn] at h
    have habs := hdigits h
    omega

theorem plain_int_inj {m n : Int} (h : (int m).plain = (int n).plain) : m = n :=
  intText_inj (String.ofList_injective h)

end Json

namespace Holding

variable {base name : String} {hs hs' : List Holding} {x y : Holding} {q : HttpRequest}
  {reply : Except Failure HttpResponse}

/-- The name of the application, if it has one. -/
def name? (h : Holding) : Option String :=
  match Table.get? h.members "name" with
  | some (.string name) => some name
  | _ => none

theorem named_iff : x.Named name ↔ x.name? = some name := by
  rw [Named, name?]
  split
  · rename_i other hname
    rw [hname, Option.some.injEq, Option.some.injEq, Json.string.injEq]
  · rename_i hnot
    exact ⟨fun h => absurd h (hnot name), fun h => nomatch h⟩

/-- Ids are whole numbers, and neither an id nor a name occurs twice. -/
structure Orderly (hs : List Holding) : Prop where
  numbers : ∀ h ∈ hs, ∃ n : Int, h.id = .int n
  ids : (hs.map (·.id)).Nodup
  names : (hs.filterMap name?).Nodup

/-- In order, a place holds one application. -/
theorem Orderly.eq_of_url (h : Orderly hs) (hx : x ∈ hs) (hy : y ∈ hs)
    (hurl : x.url base = y.url base) : x = y := by
  obtain ⟨m, hm⟩ := h.numbers x hx
  obtain ⟨n, hn⟩ := h.numbers y hy
  refine List.inj_on_of_nodup_map h.ids hx hy ?_
  rw [url, url, String.append_right_inj, String.append_right_inj, hm, hn] at hurl
  rw [hm, hn, Json.plain_int_inj hurl]

theorem Orderly.url_ne {before after : List Holding} (h : Orderly (before ++ x :: after))
    (hy : y ∈ before ++ after) : y.url base ≠ x.url base := by
  intro hurl
  have hx : x ∈ before ++ x :: after := List.mem_append_right _ List.mem_cons_self
  have hall : y ∈ before ++ x :: after := by
    rw [List.mem_append, List.mem_cons]
    exact (List.mem_append.mp hy).imp_right Or.inr
  have hids := h.ids
  rw [List.map_append, List.map_cons, List.nodup_middle, List.nodup_cons, ← List.map_append] at hids
  rw [← h.eq_of_url hall hx hurl] at hids
  exact hids.1 (List.mem_map_of_mem hy)

/-! ## 2. What the aggregator does -/

/-- A request is carried out: what is answered, and what is held then. -/
inductive Carries (base : String) (hs : List Holding) (q : HttpRequest) :
    Option Json → List Holding → Prop where
  | list : q.method = "GET" → Carries base hs q (some (.array (hs.map document))) hs
  /-- An application is added under a fresh id, and answered. -/
  | add {members : Json.Members} (n : Int) : q.method = "POST" →
      q.payload = some (.object members) → (∀ h ∈ hs, h.id ≠ .int n) →
      Carries base hs q (some (document ⟨.int n, members⟩)) (hs ++ [⟨.int n, members⟩])
  /-- An application is replaced in its place; an answer that has an id has that of the
  application. -/
  | replace {members : Json.Members} {answer : Option Json} : q.method = "PUT" →
      q.payload = some (.object members) →
      (∀ id, answer.bind (·.get? "id") = some id → ∃ h ∈ hs, h.url base = q.url ∧ h.id = id) →
      Carries base hs q answer (hs.map fun h => if h.url base = q.url then ⟨h.id, members⟩ else h)
  | remove {answer : Option Json} : q.method = "DELETE" →
      Carries base hs q answer (hs.filter fun h => h.url base ≠ q.url)

/-- An exchange with the aggregator, and what is held after it: the request is carried out and
answered, or it fails, before it took effect or after. -/
inductive Serves (base : String) (hs : List Holding) : Exchange → List Holding → Prop where
  | answered {q : HttpRequest} {reply : Except Failure HttpResponse} {answer : Option Json}
      {hs' : List Holding} : Carries base hs q answer hs' → answerTo q reply = .ok answer →
      Serves base hs ⟨.http q, reply⟩ hs'
  | refused {q : HttpRequest} {reply : Except Failure HttpResponse} {e : Failure} :
      answerTo q reply = .error e → Serves base hs ⟨.http q, reply⟩ hs
  | lost {q : HttpRequest} {reply : Except Failure HttpResponse} {answer : Option Json}
      {e : Failure} {hs' : List Holding} : Carries base hs q answer hs' →
      answerTo q reply = .error e → Serves base hs ⟨.http q, reply⟩ hs'

/-- One thing after the other happens to the applications. -/
inductive Steps {ι : Type} (step : List Holding → ι → List Holding → Prop) :
    List Holding → List ι → List Holding → Prop where
  | nil (hs : List Holding) : Steps step hs [] hs
  | cons {hs mid hs' : List Holding} {i : ι} {is : List ι} :
      step hs i mid → Steps step mid is hs' → Steps step hs (i :: is) hs'

section Steps

variable {ι : Type} {step : List Holding → ι → List Holding → Prop} {i : ι} {is js : List ι}

theorem steps_nil_iff : Steps step hs [] hs' ↔ hs' = hs := by
  constructor
  · intro h
    cases h with
    | nil => rfl
  · rintro rfl
    exact .nil _

theorem steps_cons_iff :
    Steps step hs (i :: is) hs' ↔ ∃ mid, step hs i mid ∧ Steps step mid is hs' := by
  constructor
  · intro h
    cases h with
    | cons hstep hrest => exact ⟨_, hstep, hrest⟩
  · rintro ⟨mid, hstep, hrest⟩
    exact .cons hstep hrest

theorem steps_append_iff :
    Steps step hs (is ++ js) hs' ↔ ∃ mid, Steps step hs is mid ∧ Steps step mid js hs' := by
  induction is generalizing hs with
  | nil => simp only [List.nil_append, steps_nil_iff, exists_eq_left]
  | cons i is ih =>
    simp only [List.cons_append, steps_cons_iff, ih]
    constructor
    · rintro ⟨mid, hstep, end', his, hjs⟩
      exact ⟨end', ⟨mid, hstep, his⟩, hjs⟩
    · rintro ⟨end', ⟨mid, hstep, his⟩, hjs⟩
      exact ⟨mid, hstep, end', his, hjs⟩

theorem steps_singleton_iff : Steps step hs [i] hs' ↔ step hs i hs' := by
  simp only [steps_cons_iff, steps_nil_iff, exists_eq_right']

end Steps

/-! ## 3. One request -/

theorem Carries.of_get {answer : Option Json} (h : Carries base hs q answer hs')
    (hq : q.method = "GET") : answer = some (.array (hs.map document)) ∧ hs' = hs := by
  cases h with
  | list _ => exact ⟨rfl, rfl⟩
  | add _ hmethod => exact absurd (hq.symm.trans hmethod) (by decide)
  | replace hmethod => exact absurd (hq.symm.trans hmethod) (by decide)
  | remove hmethod => exact absurd (hq.symm.trans hmethod) (by decide)

theorem Carries.of_post {answer : Option Json} {payload : Json}
    (h : Carries base hs q answer hs') (hq : q.method = "POST")
    (hpayload : q.payload = some payload) :
    ∃ members n, payload = .object members ∧ (∀ h ∈ hs, h.id ≠ .int n) ∧
      answer = some (document ⟨.int n, members⟩) ∧ hs' = hs ++ [⟨.int n, members⟩] := by
  cases h with
  | @add members n _ hmembers hfresh =>
    exact ⟨members, n, Option.some.inj (hpayload.symm.trans hmembers), hfresh, rfl, rfl⟩
  | list hmethod => exact absurd (hq.symm.trans hmethod) (by decide)
  | replace hmethod => exact absurd (hq.symm.trans hmethod) (by decide)
  | remove hmethod => exact absurd (hq.symm.trans hmethod) (by decide)

/-- In order, the application in a place is the only one that is replaced. -/
theorem Carries.of_put {answer : Option Json} {payload : Json} (h : Carries base hs q answer hs')
    (horderly : Orderly hs) (hq : q.method = "PUT") (hpayload : q.payload = some payload)
    (hx : x ∈ hs) (hurl : q.url = x.url base) :
    ∃ members before after, payload = .object members ∧
      (∀ id, answer.bind (·.get? "id") = some id → id = x.id) ∧ hs = before ++ x :: after ∧
      hs' = before ++ ⟨x.id, members⟩ :: after := by
  cases h with
  | @replace members _ _ hmembers hanswer =>
    obtain ⟨before, after, rfl⟩ := List.append_of_mem hx
    refine ⟨members, before, after, Option.some.inj (hpayload.symm.trans hmembers), ?_, rfl, ?_⟩
    · intro id hid
      obtain ⟨y, hy, hplace, rfl⟩ := hanswer id hid
      rw [horderly.eq_of_url hy hx (hplace.trans hurl)]
    · have hkept (ys : List Holding) (hys : ∀ y ∈ ys, y ∈ before ++ after) :
          (ys.map fun y => if y.url base = q.url then ⟨y.id, members⟩ else y) = ys :=
        (List.map_congr_left fun y hy =>
          if_neg (hurl ▸ horderly.url_ne (hys y hy))).trans (List.map_id' ys)
      rw [List.map_append, List.map_cons, if_pos hurl.symm,
        hkept before fun y hy => List.mem_append_left _ hy,
        hkept after fun y hy => List.mem_append_right _ hy]
  | list hmethod => exact absurd (hq.symm.trans hmethod) (by decide)
  | add _ hmethod => exact absurd (hq.symm.trans hmethod) (by decide)
  | remove hmethod => exact absurd (hq.symm.trans hmethod) (by decide)

/-- In order, the application in a place is the only one that is removed. -/
theorem Carries.of_delete {answer : Option Json} (h : Carries base hs q answer hs')
    (horderly : Orderly hs) (hq : q.method = "DELETE") (hx : x ∈ hs) (hurl : q.url = x.url base) :
    ∃ before after, hs = before ++ x :: after ∧ hs' = before ++ after := by
  cases h with
  | remove _ =>
    obtain ⟨before, after, rfl⟩ := List.append_of_mem hx
    refine ⟨before, after, rfl, ?_⟩
    have hkept (ys : List Holding) (hys : ∀ y ∈ ys, y ∈ before ++ after) :
        (ys.filter fun y => y.url base ≠ q.url) = ys :=
      List.filter_eq_self.mpr fun y hy => decide_eq_true (hurl ▸ horderly.url_ne (hys y hy))
    rw [List.filter_append, List.filter_cons_of_neg (by simp [hurl]),
      hkept before fun y hy => List.mem_append_left _ hy,
      hkept after fun y hy => List.mem_append_right _ hy]
  | list hmethod => exact absurd (hq.symm.trans hmethod) (by decide)
  | add _ hmethod => exact absurd (hq.symm.trans hmethod) (by decide)
  | replace hmethod => exact absurd (hq.symm.trans hmethod) (by decide)

/-- Asking for the list changes nothing, and what is found in it is there. -/
theorem Serves.find {c : AggregatorClient}
    (h : Serves base hs ⟨.http (c.request "GET" "" none), reply⟩ hs') :
    hs' = hs ∧ ∀ name existing, c.foundIn name reply = .ok existing → Finds name hs existing := by
  have hfailed {e : Failure} (he : answerTo (c.request "GET" "" none) reply = .error e) :
      ∀ name existing, c.foundIn name reply = .ok existing → Finds name hs existing := by
    intro name existing hfound
    rw [foundIn, listedIn, he] at hfound
    cases hfound
  cases h with
  | answered hcarries hanswer =>
    obtain ⟨rfl, rfl⟩ := hcarries.of_get rfl
    refine ⟨rfl, fun name existing hfound => ?_⟩
    rw [foundIn_of_answer name hanswer] at hfound
    exact Except.ok.inj hfound ▸ finds_find? name hs'
  | refused he => exact ⟨rfl, hfailed he⟩
  | lost hcarries he => exact ⟨(hcarries.of_get rfl).2, hfailed he⟩

/-! ## 4. One call -/

/-- A client of the aggregator makes the call. -/
inductive Makes (base : String) (hs : List Holding) : Call → List Holding → Prop where
  | register {c : AggregatorClient} {r : Registration} {cache after : Cache} {xs : List Exchange}
      {out : Except Failure Int} {hs' : List Holding} : c.baseUrl = base →
      Follows (c.register r) cache xs out after → Steps (Serves base) hs xs hs' →
      Makes base hs (.register r out) hs'
  | unregister {c : AggregatorClient} {name : String} {cache after : Cache} {xs : List Exchange}
      {out : Except Failure Bool} {hs' : List Holding} : c.baseUrl = base →
      Follows (c.unregister name) cache xs out after → Steps (Serves base) hs xs hs' →
      Makes base hs (.unregister name out) hs'

/-- What a call does to the applications.  An application that is added or replaced carries what was
sent, and its id is returned, if anything is. -/
inductive Alters (hs : List Holding) : Call → List Holding → Prop where
  | notRegistered {r : Registration} {e : Failure} : Alters hs (.register r (.error e)) hs
  | notUnregistered {name : String} {e : Failure} : Alters hs (.unregister name (.error e)) hs
  | absent {name : String} : Free name hs → Alters hs (.unregister name (.ok false)) hs
  | added {r : Registration} {out : Except Failure Int} {n : Int} {members : Json.Members} :
      Free r.name hs → (∀ h ∈ hs, h.id ≠ .int n) →
      r.payload (some (.int n)) = .ok (document ⟨.int n, members⟩) → (∀ id, out = .ok id → id = n) →
      Alters hs (.register r out) (hs ++ [⟨.int n, members⟩])
  | replaced {r : Registration} {out : Except Failure Int} {n : Int} {members : Json.Members}
      {before after : List Holding} {x : Holding} : hs = before ++ x :: after → x.Named r.name →
      x.id = .int n → r.payload (some (.int n)) = .ok (document ⟨.int n, members⟩) →
      (∀ id, out = .ok id → id = n) →
      Alters hs (.register r out) (before ++ ⟨.int n, members⟩ :: after)
  | removed {name : String} {out : Except Failure Bool} {before after : List Holding}
      {x : Holding} : hs = before ++ x :: after → x.Named name →
      Alters hs (.unregister name out) (before ++ after)

/-- Where the name is free, an application is added, unless the request fails before. -/
theorem Serves.alters_add {c : AggregatorClient} {r : Registration} {payload : Json}
    (hpayload : r.payload none = .ok payload) (hfree : Free r.name hs)
    (h : Serves base hs ⟨.http (c.request "POST" "" (some payload)), reply⟩ hs') :
    Alters hs (.register r (answerTo (c.request "POST" "" (some payload)) reply >>=
      fun answer => registeredId r answer none)) hs' := by
  cases h with
  | answered hcarries hanswer =>
    obtain ⟨members, n, rfl, hfresh, rfl, rfl⟩ := hcarries.of_post rfl rfl
    refine .added hfree hfresh (Registration.payload_some hpayload _) fun id hid => ?_
    rw [hanswer] at hid
    have hreturned : registeredId r (some (document ⟨.int n, members⟩)) none = .ok n := by
      simp only [registeredId, Option.bind_some, get?_document, if_true, idNumber]
    exact Except.ok.inj (hid.symm.trans hreturned)
  | refused he =>
    rw [he]
    exact .notRegistered
  | lost hcarries he =>
    obtain ⟨members, n, rfl, hfresh, -, rfl⟩ := hcarries.of_post rfl rfl
    refine .added hfree hfresh (Registration.payload_some hpayload _) fun id hid => ?_
    rw [he] at hid
    cases hid

/-- Where an application of the name is found it is replaced, unless the request fails before. -/
theorem Serves.alters_replace {c : AggregatorClient} {r : Registration} {application payload : Json}
    {n : Int} (hbase : c.baseUrl = base) (horderly : Orderly hs) (hx : x ∈ hs)
    (hnamed : x.Named r.name) (hn : x.id = .int n) (hid : idOf application = .ok (.int n))
    (hpayload : r.payload (some (.int n)) = .ok payload)
    (h : Serves base hs
      ⟨.http (c.request "PUT" ("/" ++ (Json.int n).plain) (some payload)), reply⟩ hs') :
    Alters hs (.register r (answerTo
        (c.request "PUT" ("/" ++ (Json.int n).plain) (some payload)) reply >>=
      fun answer => registeredId r answer (some application))) hs' := by
  have hurl : (c.request "PUT" ("/" ++ (Json.int n).plain) (some payload)).url = x.url base := by
    rw [url, hn, ← hbase]
    rfl
  have hdocument {members : Json.Members} (hmembers : payload = .object members) :
      r.payload (some (.int n)) = .ok (document ⟨.int n, members⟩) := by
    rw [hmembers] at hpayload
    rw [document, Registration.set_id_of_payload hpayload, hpayload]
  cases h with
  | answered hcarries hanswer =>
    rename_i answer
    obtain ⟨members, before, after, hmembers, hanswered, hsplit, rfl⟩ :=
      hcarries.of_put horderly rfl rfl hx hurl
    rw [hn] at hanswered ⊢
    refine .replaced hsplit hnamed hn (hdocument hmembers) fun id hreturned => ?_
    rw [hanswer] at hreturned
    have hreturns : registeredId r answer (some application) = .ok n := by
      unfold registeredId
      cases hget : answer.bind (·.get? "id") with
      | some id =>
        rw [hanswered id hget]
        rfl
      | none =>
        dsimp only
        rw [hid]
        rfl
    exact Except.ok.inj (hreturned.symm.trans hreturns)
  | refused he =>
    rw [he]
    exact .notRegistered
  | lost hcarries he =>
    obtain ⟨members, before, after, hmembers, -, hsplit, rfl⟩ :=
      hcarries.of_put horderly rfl rfl hx hurl
    rw [hn]
    refine .replaced hsplit hnamed hn (hdocument hmembers) fun id hreturned => ?_
    rw [he] at hreturned
    cases hreturned

/-- Where an application of the name is found it is removed, unless the request fails before. -/
theorem Serves.alters_remove {c : AggregatorClient} {id : Json} (hbase : c.baseUrl = base)
    (horderly : Orderly hs) (hx : x ∈ hs) (hnamed : x.Named name) (hid : x.id = id)
    (h : Serves base hs ⟨.http (c.request "DELETE" ("/" ++ id.plain) none), reply⟩ hs') :
    Alters hs (.unregister name
      ((answerTo (c.request "DELETE" ("/" ++ id.plain) none) reply).map fun _ => true)) hs' := by
  have hurl : (c.request "DELETE" ("/" ++ id.plain) none).url = x.url base := by
    rw [url, hid, ← hbase]
    rfl
  cases h with
  | answered hcarries hanswer =>
    obtain ⟨before, after, rfl, rfl⟩ := hcarries.of_delete horderly rfl hx hurl
    exact .removed rfl hnamed
  | refused he =>
    rw [he]
    exact .notUnregistered
  | lost hcarries he =>
    obtain ⟨before, after, rfl, rfl⟩ := hcarries.of_delete horderly rfl hx hurl
    exact .removed rfl hnamed

/-- **What a call does**, where the applications are in order. -/
theorem Makes.alters {call : Call} (h : Makes base hs call hs') (horderly : Orderly hs) :
    Alters hs call hs' := by
  cases h with
  | @register c r _ _ _ _ _ hbase hfollows hserves =>
    cases (follows_register hfollows).1 with
    | unread hfound =>
      rw [(steps_singleton_iff.mp hserves).find.1]
      exact .notRegistered
    | unsent hfound hwriting =>
      rw [(steps_singleton_iff.mp hserves).find.1]
      exact .notRegistered
    | @sent reply reply' existing request hfound hwriting =>
      obtain ⟨mid, hlist, hwrite⟩ := steps_cons_iff.mp hserves
      rw [steps_singleton_iff] at hwrite
      obtain ⟨rfl, hfinds⟩ := hlist.find
      have hexisting := hfinds r.name existing hfound
      cases existing with
      | none =>
        obtain ⟨payload, hpayload, rfl⟩ := writing_none_iff.mp hwriting
        exact hwrite.alters_add hpayload hexisting
      | some application =>
        obtain ⟨x, hx, hnamed, hid⟩ := hexisting
        obtain ⟨n, hn⟩ := horderly.numbers x hx
        rw [hn] at hid
        obtain ⟨payload, hpayload, rfl⟩ := (writing_some_iff hid).mp hwriting
        rw [if_neg Json.noConfusion] at hpayload
        exact hwrite.alters_replace hbase horderly hx hnamed hn hid hpayload
  | @unregister c name _ _ _ _ _ hbase hfollows hserves =>
    cases (follows_unregister hfollows).1 with
    | unread hfound =>
      rw [(steps_singleton_iff.mp hserves).find.1]
      exact .notUnregistered
    | absent hfound =>
      obtain ⟨rfl, hfinds⟩ := (steps_singleton_iff.mp hserves).find
      exact .absent (hfinds name none hfound)
    | unsent hfound hid =>
      rw [(steps_singleton_iff.mp hserves).find.1]
      exact .notUnregistered
    | @sent reply reply' application id hfound hid =>
      obtain ⟨mid, hlist, hremove⟩ := steps_cons_iff.mp hserves
      rw [steps_singleton_iff] at hremove
      obtain ⟨rfl, hfinds⟩ := hlist.find
      obtain ⟨x, hx, hnamed, hx_id⟩ := hfinds name _ hfound
      exact hremove.alters_remove hbase horderly hx hnamed (Except.ok.inj (hx_id.symm.trans hid))

/-! ## 5. What a call keeps -/

/-- An application that carries what was sent has the name that was sent. -/
theorem named_of_payload {r : Registration} {id : Option Json} (h : r.payload id = .ok x.document) :
    x.Named r.name := by
  have hname := Registration.get?_name_of_payload h
  rwa [get?_document, if_neg (by decide)] at hname

section Names

variable {before after : List Holding}

/-- In order, only one application has a name. -/
theorem Orderly.not_named (h : Orderly (before ++ x :: after)) (hx : x.Named name)
    (hy : y ∈ before ++ after) : ¬ y.Named name := by
  intro hnamed
  rw [named_iff] at hx hnamed
  have hnames := h.names
  rw [List.filterMap_append, List.filterMap_cons_some hx, List.nodup_middle, List.nodup_cons,
    ← List.filterMap_append] at hnames
  exact hnames.1 (List.mem_filterMap.mpr ⟨y, hy, hnamed⟩)

theorem Orderly.filter_named (h : Orderly hs) (hmem : x ∈ hs) (hx : x.Named name) :
    hs.filter (·.Named name) = [x] := by
  obtain ⟨before, after, rfl⟩ := List.append_of_mem hmem
  have hnone (ys : List Holding) (hys : ∀ y ∈ ys, y ∈ before ++ after) :
      ys.filter (·.Named name) = [] :=
    List.filter_eq_nil_iff.mpr fun y hy hnamed =>
      h.not_named hx (hys y hy) (of_decide_eq_true hnamed)
  rw [List.filter_append, List.filter_cons, if_pos (decide_eq_true hx),
    hnone before fun y hy => List.mem_append_left _ hy,
    hnone after fun y hy => List.mem_append_right _ hy]
  rfl

end Names

variable {call : Call} {r : Registration}

/-- Order is kept. -/
theorem Alters.orderly (h : Alters hs call hs') (horderly : Orderly hs) : Orderly hs' := by
  cases h with
  | notRegistered => exact horderly
  | notUnregistered => exact horderly
  | absent _ => exact horderly
  | @added r _ n members hfree hfresh hpayload _ =>
    have hnamed := named_iff.mp (named_of_payload hpayload)
    refine ⟨?_, ?_, ?_⟩
    · intro y hy
      rcases List.mem_append.mp hy with hy | hy
      · exact horderly.numbers y hy
      · exact ⟨n, congrArg id (List.mem_singleton.mp hy)⟩
    · rw [List.map_append, List.nodup_append_comm]
      refine List.nodup_cons.mpr ⟨fun hmem => ?_, horderly.ids⟩
      obtain ⟨y, hy, hid⟩ := List.mem_map.mp hmem
      exact hfresh y hy hid
    · rw [List.filterMap_append, List.filterMap_cons_some hnamed, List.nodup_append_comm]
      refine List.nodup_cons.mpr ⟨fun hmem => ?_, horderly.names⟩
      obtain ⟨y, hy, hname⟩ := List.mem_filterMap.mp hmem
      exact hfree y hy (named_iff.mpr hname)
  | @replaced r _ n members before after x hsplit hnamed hn hpayload _ =>
    subst hsplit
    have hname := named_iff.mp (named_of_payload hpayload)
    rw [named_iff] at hnamed
    refine ⟨?_, ?_, ?_⟩
    · intro y hy
      rcases List.mem_append.mp hy with hy | hy
      · exact horderly.numbers y (List.mem_append_left _ hy)
      rcases List.mem_cons.mp hy with rfl | hy
      · exact ⟨n, rfl⟩
      · exact horderly.numbers y (List.mem_append_right _ (List.mem_cons_of_mem _ hy))
    · have hids := horderly.ids
      rw [List.map_append, List.map_cons, hn] at hids
      rwa [List.map_append, List.map_cons]
    · have hnames := horderly.names
      rw [List.filterMap_append, List.filterMap_cons_some hnamed] at hnames
      rwa [List.filterMap_append, List.filterMap_cons_some hname]
  | @removed _ _ before after x hsplit _ =>
    subst hsplit
    have hsublist : (before ++ after).Sublist (before ++ x :: after) :=
      (List.sublist_cons_self x after).append_left before
    exact ⟨fun y hy => horderly.numbers y (hsublist.mem hy),
      (hsublist.map _).nodup horderly.ids, (hsublist.filterMap _).nodup horderly.names⟩

/-- Applications of other names are left alone. -/
theorem Alters.filter_eq {p : Holding → Bool} (h : Alters hs call hs')
    (hp : ∀ x : Holding, x.Named call.name → p x = false) : hs'.filter p = hs.filter p := by
  have hnot {x : Holding} (hx : x.Named call.name) : ¬ p x = true := by
    rw [hp x hx]
    exact Bool.false_ne_true
  cases h with
  | notRegistered => rfl
  | notUnregistered => rfl
  | absent _ => rfl
  | added _ _ hpayload _ =>
    rw [List.filter_append, List.filter_cons_of_neg (hnot (named_of_payload hpayload)),
      List.filter_nil, List.append_nil]
  | replaced hsplit hnamed _ hpayload _ =>
    rw [hsplit, List.filter_append, List.filter_append,
      List.filter_cons_of_neg (hnot (named_of_payload hpayload)),
      List.filter_cons_of_neg (hnot hnamed)]
  | removed hsplit hnamed =>
    rw [hsplit, List.filter_append, List.filter_append, List.filter_cons_of_neg (hnot hnamed)]

/-- Until its name is unregistered, an application keeps its id. -/
theorem Alters.exists_id (h : Alters hs call hs') (hcall : ∀ out, call ≠ .unregister name out)
    (hx : x ∈ hs) (hnamed : x.Named name) : ∃ y ∈ hs', y.Named name ∧ y.id = x.id := by
  cases h with
  | notRegistered => exact ⟨x, hx, hnamed, rfl⟩
  | notUnregistered => exact ⟨x, hx, hnamed, rfl⟩
  | absent _ => exact ⟨x, hx, hnamed, rfl⟩
  | added _ _ _ _ => exact ⟨x, List.mem_append_left _ hx, hnamed, rfl⟩
  | @replaced r _ n members before after z hsplit hz hn hpayload _ =>
    rw [hsplit, List.mem_append, List.mem_cons] at hx
    rcases hx with hx | rfl | hx
    · exact ⟨x, List.mem_append_left _ hx, hnamed, rfl⟩
    · refine ⟨⟨.int n, members⟩, List.mem_append_right _ List.mem_cons_self, ?_, hn.symm⟩
      rw [named_iff] at hz hnamed
      rw [Option.some.inj (hnamed.symm.trans hz)]
      exact named_of_payload hpayload
    · exact ⟨x, List.mem_append_right _ (List.mem_cons_of_mem _ hx), hnamed, rfl⟩
  | @removed other out before after z hsplit hz =>
    rw [hsplit, List.mem_append, List.mem_cons] at hx
    rcases hx with hx | rfl | hx
    · exact ⟨x, List.mem_append_left _ hx, hnamed, rfl⟩
    · rw [named_iff] at hz hnamed
      exact absurd (Option.some.inj (hnamed.symm.trans hz) ▸ rfl) (hcall out)
    · exact ⟨x, List.mem_append_right _ hx, hnamed, rfl⟩

/-- The only application of the name is the one with this id, and it carries what was sent. -/
def Registered (r : Registration) (id : Int) (hs : List Holding) : Prop :=
  ∃ x, hs.filter (·.Named r.name) = [x] ∧ x.id = .int id ∧
    r.payload (some (.int id)) = .ok x.document

theorem Registered.exists_mem {id : Int} (h : Registered r id hs) :
    ∃ x ∈ hs, x.Named r.name ∧ x.id = .int id := by
  obtain ⟨x, hfilter, hid, -⟩ := h
  have hx : x ∈ hs.filter (·.Named r.name) := hfilter ▸ List.mem_cons_self
  rw [List.mem_filter, decide_eq_true_iff] at hx
  exact ⟨x, hx.1, hx.2, hid⟩

theorem Registered.id_eq {id : Int} (h : Registered r id hs) (hx : x ∈ hs)
    (hnamed : x.Named r.name) : x.id = .int id := by
  obtain ⟨y, hfilter, hid, -⟩ := h
  have hmem : x ∈ hs.filter (·.Named r.name) := List.mem_filter.mpr ⟨hx, decide_eq_true hnamed⟩
  rw [hfilter, List.mem_singleton] at hmem
  rw [hmem, hid]

theorem Alters.registered {id : Int} (h : Alters hs (.register r (.ok id)) hs')
    (horderly : Orderly hs) : Registered r id hs' := by
  have hkept := h.orderly horderly
  cases h with
  | added _ _ hpayload hreturned =>
    rw [hreturned id rfl]
    exact ⟨_, hkept.filter_named (List.mem_append_right _ List.mem_cons_self)
      (named_of_payload hpayload), rfl, hpayload⟩
  | replaced _ _ _ hpayload hreturned =>
    rw [hreturned id rfl]
    exact ⟨_, hkept.filter_named (List.mem_append_right _ List.mem_cons_self)
      (named_of_payload hpayload), rfl, hpayload⟩

theorem Alters.free {found : Bool} (h : Alters hs (.unregister name (.ok found)) hs')
    (horderly : Orderly hs) : Free name hs' := by
  cases h with
  | absent hfree => exact hfree
  | removed hsplit hnamed =>
    subst hsplit
    exact fun y hy => horderly.not_named hnamed hy

/-! ## 6. Many calls -/

variable {calls : List Call}

theorem orderly_of_steps (h : Steps (Makes base) hs calls hs') (horderly : Orderly hs) :
    Orderly hs' := by
  induction h with
  | nil _ => exact horderly
  | cons hmakes _ ih => exact ih ((hmakes.alters horderly).orderly horderly)

theorem filter_of_steps {p : Holding → Bool} (h : Steps (Makes base) hs calls hs')
    (horderly : Orderly hs) (hp : ∀ call ∈ calls, ∀ x : Holding, x.Named call.name → p x = false) :
    hs'.filter p = hs.filter p := by
  induction h with
  | nil _ => rfl
  | cons hmakes _ ih =>
    rw [List.forall_mem_cons] at hp
    have halters := hmakes.alters horderly
    exact (ih (halters.orderly horderly) hp.2).trans (halters.filter_eq hp.1)

theorem exists_id_of_steps (h : Steps (Makes base) hs calls hs') (horderly : Orderly hs)
    (hcalls : ∀ call ∈ calls, ∀ out, call ≠ .unregister name out) (hx : x ∈ hs)
    (hnamed : x.Named name) : ∃ y ∈ hs', y.Named name ∧ y.id = x.id := by
  induction h generalizing x with
  | nil _ => exact ⟨x, hx, hnamed, rfl⟩
  | cons hmakes _ ih =>
    rw [List.forall_mem_cons] at hcalls
    have halters := hmakes.alters horderly
    obtain ⟨y, hy, hnamed_y, hid⟩ := halters.exists_id hcalls.1 hx hnamed
    obtain ⟨z, hz, hnamed_z, hid'⟩ := ih (halters.orderly horderly) hcalls.2 hy hnamed_y
    exact ⟨z, hz, hnamed_z, hid'.trans hid⟩

/-- What is held after calls, of what was held before. -/
structure Kept (hs : List Holding) (calls : List Call) (hs' : List Holding) : Prop where
  /-- No id and no name occurs twice. -/
  orderly : Orderly hs'
  /-- Applications whose names were not passed stand as they stood. -/
  others : hs'.filter (fun x => ∀ call ∈ calls, ¬ x.Named call.name) =
    hs.filter fun x => ∀ call ∈ calls, ¬ x.Named call.name
  /-- An application whose name is not unregistered keeps its id. -/
  ids : ∀ name, (∀ call ∈ calls, ∀ out, call ≠ .unregister name out) → ∀ x ∈ hs, x.Named name →
    ∃ y ∈ hs', y.Named name ∧ y.id = x.id
  /-- What was registered last is there once, under the id that was returned. -/
  registered : ∀ before r id, calls = before ++ [.register r (.ok id)] → Registered r id hs'
  /-- What was registered before, and not unregistered since, keeps its id. -/
  again : ∀ before r id between r' id',
    calls = before ++ .register r (.ok id) :: (between ++ [.register r' (.ok id')]) →
    r'.name = r.name → (∀ call ∈ between, ∀ out, call ≠ .unregister r.name out) → id' = id
  /-- What was unregistered last is not there. -/
  unregistered : ∀ before name found, calls = before ++ [.unregister name (.ok found)] →
    Free name hs'

end Holding

open Holding

/-- **Registration by name is idempotent and isolated.**  An aggregator that carries out what it is
asked, or fails before or after, is called any number of times.  Where no name occurs twice before,
none does after; what was registered is there once, as it was sent last, under the id that was
returned and will be returned again; what was unregistered is not there; and no other application is
touched. -/
theorem registrations_kept {base : String} {hs hs' : List Holding} {calls : List Call}
    (horderly : Orderly hs) (h : Steps (Makes base) hs calls hs') : Kept hs calls hs' where
  orderly := orderly_of_steps h horderly
  others := by
    refine filter_of_steps h horderly fun call hcall x hnamed => ?_
    rw [decide_eq_false_iff_not]
    exact fun hnone => hnone call hcall hnamed
  ids _ hcalls _ hx hnamed := exists_id_of_steps h horderly hcalls hx hnamed
  registered := by
    rintro before r id rfl
    obtain ⟨mid, hbefore, hlast⟩ := steps_append_iff.mp h
    have hmid := orderly_of_steps hbefore horderly
    exact ((steps_singleton_iff.mp hlast).alters hmid).registered hmid
  again := by
    rintro before r id between r' id' rfl hname hbetween
    obtain ⟨mid, hbefore, hrest⟩ := steps_append_iff.mp h
    obtain ⟨first, hfirst, hlater⟩ := steps_cons_iff.mp hrest
    have hmid := orderly_of_steps hbefore horderly
    have halters := hfirst.alters hmid
    obtain ⟨x, hx, hnamed, hid⟩ := (halters.registered hmid).exists_mem
    have hfirst_orderly := halters.orderly hmid
    -- the application that the first call left is the one that the last call returns the id of
    obtain ⟨y, hy, hnamed_y, hid_y⟩ := exists_id_of_steps hlater hfirst_orderly
      (List.forall_mem_append.mpr
        ⟨hbetween, List.forall_mem_singleton.mpr fun _ => Call.noConfusion⟩) hx hnamed
    obtain ⟨last, hbetween', hlast⟩ := steps_append_iff.mp hlater
    have hlast_orderly := orderly_of_steps hbetween' hfirst_orderly
    have hregistered :=
      ((steps_singleton_iff.mp hlast).alters hlast_orderly).registered hlast_orderly
    have hid' := hregistered.id_eq hy (hname ▸ hnamed_y)
    exact Json.int.inj (hid'.symm.trans (hid_y.trans hid))
  unregistered := by
    rintro before name found rfl
    obtain ⟨mid, hbefore, hlast⟩ := steps_append_iff.mp h
    have hmid := orderly_of_steps hbefore horderly
    exact ((steps_singleton_iff.mp hlast).alters hmid).free hmid

namespace LostAnswer

def client : AggregatorClient := ⟨"http://main", "key", 30, false⟩

def registration : Registration where
  name := "films"
  service := "radarr"
  baseUrl := "http://films"
  apiKey := "films"
  aggregatorUrl := "http://main"
  syncCategories := [2000]

/-- What is sent to add the films. -/
def sent : Json.Members :=
  let field (name : String) (value : Json) : Json :=
    .object [("name", .string name), ("value", value)]
  [("name", .string "films"), ("implementation", .string "Radarr"),
    ("configContract", .string "RadarrSettings"), ("syncLevel", .string "fullSync"),
    ("fields", .array [field "baseUrl" (.string "http://films"), field "apiKey" (.string "films"),
      field "prowlarrUrl" (.string "http://main"), field "syncCategories" (.array [.int 2000])])]

def shows : Holding := ⟨.int 1, [("name", .string "shows")]⟩

def added : Holding := ⟨.int 2, sent⟩

def replaced : Holding := ⟨.int 2, Table.set sent "id" (.int 2)⟩

/-- The answer that lists applications. -/
def listing (hs : List Holding) : HttpResponse := ⟨200, (Json.array (hs.map document)).text⟩

theorem answerTo_listing {hs : List Holding}
    (h : Json.parseChars Json.Room.reading (Json.array (hs.map document)).chars =
      .ok (.array (hs.map document))) :
    answerTo (client.request "GET" "" none) (.ok (listing hs)) =
      .ok (some (.array (hs.map document))) := by
  refine answerTo_of_parse ?_ (by decide) (by decide)
  rw [Json.parse, Json.text, String.toList_ofList, h]

theorem orderly : Orderly [shows] where
  numbers _ h := ⟨1, congrArg Holding.id (List.mem_singleton.mp h)⟩
  ids := List.nodup_singleton _
  names := by decide

/-- The films are registered, and once more since the first answer is lost. -/
def calls : List Call :=
  [.register registration
      (.error (.registration (.transport "POST" "http://main/api/v1/applications" "gone"))),
    .register registration (.ok 2)]

/-- The films are added, but the answer is lost. -/
theorem makes_first : Makes "http://main" [shows]
    (.register registration (.error (.registration
      (.transport "POST" "http://main/api/v1/applications" "gone")))) [shows, added] := by
  have hlisted := @answerTo_listing [shows] (by decide +kernel)
  have hwriting : client.writing registration none =
      .ok (client.request "POST" "" (some (.object sent))) :=
    writing_none_iff.mpr ⟨_, rfl, rfl⟩
  exact .register rfl
    (@follows_register_sent client [] registration none _ _ (foundIn_of_answer "films" hlisted)
      hwriting (.error (.transport "gone")))
    (.cons (.answered (.list rfl) hlisted)
      (.cons (.lost (.add 2 rfl rfl (by decide)) rfl) (.nil _)))

/-- They are found, and replaced in their place. -/
theorem makes_second : Makes "http://main" [shows, added] (.register registration (.ok 2))
    [shows, replaced] := by
  have hlisted := @answerTo_listing [shows, added] (by decide +kernel)
  have hwriting : client.writing registration (some added.document) =
      .ok (client.request "PUT" "/2" (some (.object (Table.set sent "id" (.int 2))))) :=
    (writing_some_iff (idOf_document added)).mpr ⟨_, rfl, rfl⟩
  exact .register rfl
    (@follows_register_sent client [] registration _ _ _ (foundIn_of_answer "films" hlisted)
      hwriting (.ok ⟨200, ""⟩))
    (.cons (.answered (.list rfl) hlisted)
      (.cons (.answered (.replace rfl rfl (by rintro _ ⟨⟩)) rfl) (.nil _)))

end LostAnswer

/-- The films are added once, and keep the id that they were given. -/
theorem registrations_kept_lostAnswer : Orderly [LostAnswer.shows] ∧
    Steps (Makes "http://main") [LostAnswer.shows] LostAnswer.calls
      [LostAnswer.shows, LostAnswer.replaced] ∧
    Kept [LostAnswer.shows] LostAnswer.calls [LostAnswer.shows, LostAnswer.replaced] := by
  have h : Steps (Makes "http://main") [LostAnswer.shows] LostAnswer.calls
      [LostAnswer.shows, LostAnswer.replaced] :=
    .cons LostAnswer.makes_first (.cons LostAnswer.makes_second (.nil _))
  exact ⟨LostAnswer.orderly, h, registrations_kept LostAnswer.orderly h⟩

end Steward

import Mathlib.Data.List.Basic
import Steward.Proofs.Coordinate.Decide

/-!
# Taking turns

A coordination pass goes from kind to kind, and from service to service of a kind.  Each service
takes a turn (`Turn`): something is asked to decide about it, a decision is made, and if there is
something to record it is written.  Turns hand on the secrets that were read by then (`Chain`), and
the result of a pass counts them (`tally`).
-/

namespace Steward.Coordinate

open Pass

/-! ## 1. Turns -/

/-- The turn of one resource. -/
structure Turn where
  resource : Resource
  /-- The secrets that were read before. -/
  before : Cache
  /-- What is asked to decide. -/
  asked : List Exchange
  decision : Option (RegistrationRecord × Option String)
  /-- The writing of the record. -/
  written : List Exchange

namespace Turn

/-- All that is asked in a turn. -/
def exchanges (t : Turn) : List Exchange := t.asked ++ t.written

/-- The turn put a service on record as registered. -/
def registered (t : Turn) : Bool := (t.decision.map (·.1.registered)).getD false

/-- What went wrong in the turn, under the name of the resource. -/
def error? (t : Turn) : Option String :=
  (t.decision.bind (·.2)).map fun e => t.resource.key ++ ": " ++ e

/-- Why the record of the turn was not written, where that is an error. -/
def unsaved? (t : Turn) : Option Failure := t.written.getLast?.bind failedWith?

/-- All that went wrong in the turn, the writing of the record included. -/
def errors (t : Turn) : List String :=
  t.error?.toList ++ t.unsaved?.toList.map fun e => t.resource.key ++ ": " ++ e.message

end Turn

/-- A result with turns counted. -/
def tally (result : Coordination) (turns : List Turn) : Coordination :=
  { result with
    processed := result.processed + (turns.countP (·.decision.isSome) : Nat)
    registered := result.registered + (turns.countP Turn.registered : Nat)
    errors := result.errors ++ turns.filterMap Turn.error? }

@[simp]
theorem tally_nil (result : Coordination) : tally result [] = result := by
  simp [tally]

/-- A result with turns counted and with more errors. -/
def counted (result : Coordination) (turns : List Turn) (errors : List String) : Coordination :=
  { tally result turns with errors := result.errors ++ errors }

@[simp]
theorem counted_nil (result : Coordination) : counted result [] [] = result := by
  simp [counted, tally]

theorem counted_counted (result : Coordination) (ts us : List Turn) (es fs : List String) :
    counted (counted result ts es) us fs = counted result (ts ++ us) (es ++ fs) := by
  simp [counted, tally, Int.add_assoc]

/-- Turns in order, each with the secrets that the one before it ended with. -/
inductive Chain (step : Turn → Cache → Prop) : Cache → List Turn → Cache → Prop where
  | nil (cache : Cache) : Chain step cache [] cache
  | cons {t : Turn} {ts : List Turn} {mid after : Cache} :
      step t mid → Chain step mid ts after → Chain step t.before (t :: ts) after

theorem Chain.append {step : Turn → Cache → Prop} {before mid after : Cache} {ts us : List Turn}
    (h : Chain step before ts mid) (k : Chain step mid us after) :
    Chain step before (ts ++ us) after := by
  induction h with
  | nil cache => exact k
  | cons hstep _ ih => exact .cons hstep (ih k)

theorem Chain.of_append {step : Turn → Cache → Prop} {before after : Cache} {ts us : List Turn}
    (h : Chain step before (ts ++ us) after) :
    ∃ mid, Chain step before ts mid ∧ Chain step mid us after := by
  induction ts generalizing before with
  | nil => exact ⟨before, .nil before, h⟩
  | cons t ts ih =>
    cases h with
    | cons hstep hrest =>
      obtain ⟨mid, hts, hus⟩ := ih hrest
      exact ⟨mid, .cons hstep hts, hus⟩

/-! ## 2. One service -/

variable {ctx : Context} {a : Managed} {client : AggregatorClient} {before after : Cache}
  {xs : List Exchange} {result : Coordination}

/-- What is asked to write what was decided about the service `m`. -/
inductive Saves (m : Managed) : Option (RegistrationRecord × Option String) → List Exchange → Prop where
  | untouched : Saves m none []
  | record {record : RegistrationRecord} (error : Option String) {xs : List Exchange} :
      Records m record xs → Saves m (some (record, error)) xs

/-- Writing a record asks the store only. -/
theorem Saves.addressee {m : Managed} {decision : Option (RegistrationRecord × Option String)}
    (h : Saves m decision xs) : ∀ x ∈ xs, x.request.addressee = .store := by
  intro x hx
  cases h with
  | untouched => cases hx
  | record _ hrecords =>
    rcases requests_of_records hrecords x hx with ⟨q, document, hq⟩ | ⟨kind, ns, name, hq⟩
    · rw [hq]
      rfl
    · rw [hq]
      rfl

/-- How a turn goes that ends with the secrets `after`, whatever is replied. -/
inductive Goes (ctx : Context) (a : Managed) (client : AggregatorClient) : Turn → Cache → Prop where
  /-- A resource that is being deleted or cannot be read is passed over. -/
  | skipped {r : Resource} (cache : Cache) :
      (r.beingDeleted = true ∨ ∃ e, Managed.ofResource r = .error e) →
      Goes ctx a client ⟨r, cache, [], none, []⟩ cache
  /-- Any other is decided about, and what is to be recorded is written. -/
  | decided {t : Turn} {m : Managed} {after : Cache} :
      t.resource.beingDeleted = false → Managed.ofResource t.resource = .ok m →
      Follows (decideOrFail ctx a m client) t.before t.asked (.ok t.decision) after →
      Saves m t.decision t.written → Goes ctx a client t after

/-- The resource breaks a pass off: it is to be decided about, but a duration in it has no
bounds. -/
def BreaksOff (r : Resource) : Prop :=
  r.beingDeleted = false ∧ Managed.ofResource r = .error .unbounded

theorem counted_of_skipped {t : Turn} (hdecision : t.decision = none) (hwritten : t.written = []) :
    counted result [t] t.errors = result := by
  simp [counted, tally, Turn.registered, Turn.error?, Turn.errors, Turn.unsaved?, hdecision,
    hwritten]

theorem count_eq_tally {t : Turn} {record : RegistrationRecord} {error : Option String}
    (h : t.decision = some (record, error)) :
    count result t.resource.key record error = tally result [t] := by
  cases hregistered : record.registered <;> cases error <;>
    simp [count, tally, Turn.registered, Turn.error?, h, hregistered]

/-- What a pass counts for a turn, given what came of writing its record. -/
theorem counted_of_decided {t : Turn} {x : Exchange} {record : RegistrationRecord}
    {error : Option String} (hdecision : t.decision = some (record, error))
    (hlast : t.written.getLast? = some x) :
    counted result [t] t.errors =
      match outcomeOf x with
      | .ok _ => count result t.resource.key record error
      | .error e =>
        let result := count result t.resource.key record error
        { result with errors := result.errors ++ [t.resource.key ++ ": " ++ e.message] } := by
  rw [count_eq_tally hdecision, outcomeOf]
  cases hfailed : failedWith? x <;> cases herror : t.error? <;>
    simp [counted, tally, Turn.errors, Turn.unsaved?, hlast, hfailed, herror]

/-- The turn of one resource. -/
theorem follows_service {r : Resource} {out : Except Failure Coordination}
    (h : Follows (service ctx a client result r) before xs out after) :
    (BreaksOff r ∧ out = .error (.managed .unbounded)) ∨
    ∃ t : Turn, t.resource = r ∧ t.before = before ∧ xs = t.exchanges ∧
      Goes ctx a client t after ∧ out = .ok (counted result [t] t.errors) := by
  have hskipped (hskip : r.beingDeleted = true ∨ ∃ e, Managed.ofResource r = .error e)
      (hpure : Follows (pure result) before xs out after) :
      ∃ t : Turn, t.resource = r ∧ t.before = before ∧ xs = t.exchanges ∧
        Goes ctx a client t after ∧ out = .ok (counted result [t] t.errors) := by
    obtain ⟨rfl, rfl, rfl⟩ := follows_pure.mp hpure
    exact ⟨⟨r, after, [], none, []⟩, rfl, rfl, rfl, .skipped after hskip,
      by rw [counted_of_skipped rfl rfl]⟩
  rw [service] at h
  split at h
  · rename_i hdeleted
    exact Or.inr (hskipped (Or.inl hdeleted) h)
  rename_i hlive
  rw [Bool.not_eq_true] at hlive
  split at h
  · rename_i hunbounded
    exact Or.inl ⟨⟨hlive, hunbounded⟩, (follows_throw.mp h).2.1⟩
  · rename_i e _ hunread
    exact Or.inr (hskipped (Or.inr ⟨e, hunread⟩) h)
  rename_i m hm
  refine Or.inr ?_
  rcases Or.symm (follows_bind.mp h) with
    ⟨e, -, hfailed⟩ | ⟨asked, rest, decision, mid, rfl, hdecide, hrest⟩
  · obtain ⟨decision, hout, -⟩ := decides_of_follows hfailed
    cases hout
  cases decision with
  | none =>
    obtain ⟨rfl, rfl, rfl⟩ := follows_pure.mp hrest
    exact ⟨⟨r, before, asked, none, []⟩, rfl, rfl, rfl, .decided hlive hm hdecide .untouched,
      by rw [counted_of_skipped rfl rfl]⟩
  | some d =>
    obtain ⟨record, error⟩ := d
    obtain ⟨written, zs, reply, mid', rfl, hwrite, hend⟩ := follows_attempt_bind.mp hrest
    obtain ⟨rfl, hrecords, x, hlast, rfl⟩ := follows_writeRecord hwrite
    let t : Turn := ⟨r, before, asked, some (record, error), written⟩
    have hcounted := @counted_of_decided result t x record error rfl hlast
    have hend' : zs = [] ∧ out = .ok (counted result [t] t.errors) ∧ after = mid' := by
      rw [hcounted]
      cases hx : outcomeOf x with
      | ok _ =>
        rw [hx] at hend
        exact follows_pure.mp hend
      | error e =>
        rw [hx] at hend
        exact follows_pure.mp hend
    obtain ⟨rfl, rfl, rfl⟩ := hend'
    exact ⟨t, rfl, rfl, by rw [List.append_nil]; rfl,
      .decided hlive hm hdecide (.record error hrecords), rfl⟩

/-! ## 3. All services -/

theorem follows_services {rs : List Resource} {out : Except Failure Coordination}
    (h : Follows (services ctx a client result rs) before xs out after) :
    ((∃ r ∈ rs, BreaksOff r) ∧ out = .error (.managed .unbounded)) ∨
    ∃ turns : List Turn, turns.map (·.resource) = rs ∧ xs = turns.flatMap Turn.exchanges ∧
      Chain (Goes ctx a client) before turns after ∧
      out = .ok (counted result turns (turns.flatMap Turn.errors)) := by
  induction rs generalizing before xs result with
  | nil =>
    obtain ⟨rfl, rfl, rfl⟩ := follows_pure.mp h
    exact Or.inr ⟨[], rfl, rfl, .nil _, by rw [List.flatMap_nil, counted_nil]⟩
  | cons r rs ih =>
    rw [services] at h
    rcases Or.symm (follows_bind.mp h) with
      ⟨e, rfl, hfailed⟩ | ⟨ys, zs, counted', mid, rfl, hservice, hrest⟩
    · rcases follows_service hfailed with ⟨hbreaks, hout⟩ | ⟨t, -, -, -, -, hout⟩
      · exact Or.inl ⟨⟨r, List.mem_cons_self, hbreaks⟩, by rw [Except.error.inj hout]⟩
      · cases hout
    rcases follows_service hservice with ⟨-, hout⟩ | ⟨t, rfl, rfl, rfl, hgoes, hcounted⟩
    · cases hout
    rw [Except.ok.injEq] at hcounted
    subst hcounted
    rcases ih hrest with ⟨⟨q, hq, hbreaks⟩, rfl⟩ | ⟨turns, rfl, rfl, hchain, rfl⟩
    · exact Or.inl ⟨⟨q, List.mem_cons_of_mem _ hq, hbreaks⟩, rfl⟩
    · refine Or.inr ⟨t :: turns, rfl, rfl, .cons hgoes hchain, ?_⟩
      rw [counted_counted]
      rfl

/-- What a pass does for one kind, whatever is replied: it lists the resources of the kind, and each
takes its turn. -/
structure Survey where
  kind : ManagerKind
  listing : Except Failure (List Resource)
  turns : List Turn

namespace Survey

/-- All that is asked for one kind. -/
def exchanges (a : Managed) (s : Survey) : List Exchange :=
  ⟨.listResources s.kind.resourceKind a.ns, s.listing⟩ :: s.turns.flatMap Turn.exchanges

/-- All that went wrong for one kind. -/
def errors (s : Survey) : List String :=
  match s.listing with
  | .ok _ => s.turns.flatMap Turn.errors
  | .error e => [e.message]

/-- Everything that is listed takes its turn. -/
def Complete (s : Survey) : Prop :=
  match s.listing with
  | .ok rs => s.turns.map (·.resource) = rs
  | .error _ => s.turns = []

end Survey

theorem follows_kinds {ks : List ManagerKind} {out : Except Failure Coordination}
    (h : Follows (kinds ctx a client result ks) before xs out after) :
    ((∃ kind ns rs, ⟨.listResources kind ns, .ok rs⟩ ∈ xs ∧ ∃ r ∈ rs, BreaksOff r) ∧
      out = .error (.managed .unbounded)) ∨
    ∃ surveys : List Survey, surveys.map (·.kind) = ks ∧ (∀ s ∈ surveys, s.Complete) ∧
      xs = surveys.flatMap (Survey.exchanges a) ∧
      Chain (Goes ctx a client) before (surveys.flatMap (·.turns)) after ∧
      out = .ok (counted result (surveys.flatMap (·.turns)) (surveys.flatMap Survey.errors)) := by
  induction ks generalizing before xs result with
  | nil =>
    obtain ⟨rfl, rfl, rfl⟩ := follows_pure.mp h
    exact Or.inr ⟨[], rfl, fun r hr => (nomatch hr), rfl, .nil _,
      by rw [List.flatMap_nil, List.flatMap_nil, counted_nil]⟩
  | cons k ks ih =>
    rw [kinds] at h
    obtain ⟨listing, rest, listed, mid, rfl, hlisting, hrest⟩ := follows_attempt_bind.mp h
    obtain ⟨reply, rfl, rfl, rfl⟩ := follows_ask_settle.mp hlisting
    cases listed with
    | error e =>
      rcases ih hrest with ⟨⟨kind, ns, rs, hmem, hbreaks⟩, rfl⟩ |
        ⟨surveys, rfl, hcomplete, rfl, hchain, rfl⟩
      · exact Or.inl ⟨⟨kind, ns, rs, List.mem_cons_of_mem _ hmem, hbreaks⟩, rfl⟩
      · refine Or.inr ⟨⟨k, .error e, []⟩ :: surveys, rfl,
          List.forall_mem_cons.mpr ⟨rfl, hcomplete⟩, rfl, hchain, ?_⟩
        have hlisting : { result with errors := result.errors ++ [e.message] } =
            counted result [] [e.message] := by
          simp [counted]
        rw [hlisting, counted_counted]
        rfl
    | ok rs =>
      rcases Or.symm (follows_bind.mp hrest) with
        ⟨e, rfl, hfailed⟩ | ⟨ys, zs, counted', mid', rfl, hservices, hkinds⟩
      · rcases follows_services hfailed with ⟨hbreaks, hout⟩ | ⟨turns, -, -, -, hout⟩
        · exact Or.inl ⟨⟨_, _, rs, List.mem_cons_self, hbreaks⟩, by rw [Except.error.inj hout]⟩
        · cases hout
      rcases follows_services hservices with ⟨-, hout⟩ | ⟨turns, rfl, rfl, hchain, hcounted⟩
      · cases hout
      rw [Except.ok.injEq] at hcounted
      subst hcounted
      rcases ih hkinds with ⟨⟨kind, ns, rs, hmem, hbreaks⟩, rfl⟩ |
        ⟨surveys, rfl, hcomplete, rfl, hchain', rfl⟩
      · have hlater := List.mem_append_right (turns.flatMap Turn.exchanges) hmem
        exact Or.inl ⟨⟨kind, ns, rs, List.mem_cons_of_mem _ hlater, hbreaks⟩, rfl⟩
      · let s : Survey := ⟨k, .ok (turns.map Turn.resource), turns⟩
        have hs : s.Complete := Eq.refl (turns.map Turn.resource)
        refine Or.inr ⟨s :: surveys, rfl, List.forall_mem_cons.mpr ⟨hs, hcomplete⟩, rfl,
          hchain.append hchain', ?_⟩
        rw [counted_counted]
        rfl

/-! ## 4. Nothing lost -/

/-- What is written of a decision about the service `m`. -/
inductive Writes (r : Resource) (m : Managed) :
    Option (RegistrationRecord × Option String) → List Exchange → Prop where
  | untouched : Writes r m none []
  | record (record : RegistrationRecord) (error : Option String) (stored : Resource) :
      Writes r m (some (record, error)) [⟨.updateStatus r (withRecord m record), .ok stored⟩]

/-- How a turn goes that ends with the secrets `after`. -/
inductive Takes (ctx : Context) (a : Managed) (client : AggregatorClient) :
    Turn → Cache → Prop where
  /-- A resource that is being deleted or cannot be read is passed over. -/
  | skipped {r : Resource} (cache : Cache) :
      (r.beingDeleted = true ∨ ∃ e, Managed.ofResource r = .error e) →
      Takes ctx a client ⟨r, cache, [], none, []⟩ cache
  /-- Any other is decided about, and what is to be recorded is written once. -/
  | decided {t : Turn} {m : Managed} {after : Cache} :
      t.resource.beingDeleted = false → Managed.ofResource t.resource = .ok m →
      Follows (decideOrFail ctx a m client) t.before t.asked (.ok t.decision) after →
      Decides ctx a m client t.before t.asked t.decision →
      Writes t.resource m t.decision t.written → Takes ctx a client t after

/-- All listings succeed, and all status writes. -/
structure Granted (xs : List Exchange) : Prop where
  listings : ∀ kind ns e, (⟨.listResources kind ns, .error e⟩ : Exchange) ∉ xs
  writes : ∀ q document e, (⟨.updateStatus q document, .error e⟩ : Exchange) ∉ xs

/-- No listed resource has a duration without bounds, unless it is being deleted. -/
def Bounded (xs : List Exchange) : Prop :=
  ∀ kind ns rs, (⟨.listResources kind ns, .ok rs⟩ : Exchange) ∈ xs →
    ∀ r ∈ rs, r.beingDeleted = false → Managed.ofResource r ≠ .error .unbounded

theorem Granted.of_subset {ys : List Exchange} (h : Granted xs) (hys : ys ⊆ xs) : Granted ys where
  listings kind ns e hmem := h.listings kind ns e (hys hmem)
  writes q document e hmem := h.writes q document e (hys hmem)

theorem Bounded.of_subset {ys : List Exchange} (h : Bounded xs) (hys : ys ⊆ xs) : Bounded ys :=
  fun kind ns rs hmem => h kind ns rs (hys hmem)

/-- Where nothing is lost, a record is written once, and no error comes of it. -/
theorem Goes.takes {t : Turn} (h : Goes ctx a client t after) (hgranted : Granted t.written) :
    Takes ctx a client t after ∧ t.errors = t.error?.toList := by
  cases h with
  | skipped _ hskip => exact ⟨.skipped after hskip, rfl⟩
  | @decided t m after hlive hm hdecide hsaves =>
    obtain ⟨resource, cache, asked, decision, written⟩ := t
    obtain ⟨made, hmade, hdecides⟩ := decides_of_follows hdecide
    rw [Except.ok.injEq] at hmade
    subst hmade
    cases hsaves with
    | untouched => exact ⟨.decided hlive hm hdecide hdecides .untouched, rfl⟩
    | @record record error xs hrecords =>
      cases hrecords with
      | settled reply _ =>
        cases reply with
        | error e => exact absurd List.mem_cons_self (hgranted.writes _ _ e)
        | ok stored =>
          refine ⟨.decided hlive hm hdecide hdecides ?_, List.append_nil _⟩
          rw [Managed.resource_of_ofResource hm]
          exact .record record error stored
      | unread key version _ => exact absurd List.mem_cons_self (hgranted.writes _ _ _)
      | again key version reply _ => exact absurd List.mem_cons_self (hgranted.writes _ _ _)

/-- Every turn of a chain goes on to some secrets. -/
theorem Chain.exists_step {step : Turn → Cache → Prop} {before after : Cache} {ts : List Turn}
    (h : Chain step before ts after) : ∀ t ∈ ts, ∃ after, step t after := by
  induction h with
  | nil cache => exact fun t ht => nomatch ht
  | cons hfirst _ ih => exact List.forall_mem_cons.mpr ⟨⟨_, hfirst⟩, ih⟩

theorem Chain.imp {step step' : Turn → Cache → Prop} {before after : Cache} {ts : List Turn}
    (h : Chain step before ts after) (hstep : ∀ t ∈ ts, ∀ after, step t after → step' t after) :
    Chain step' before ts after := by
  induction h with
  | nil cache => exact .nil cache
  | cons hfirst _ ih =>
    exact .cons (hstep _ List.mem_cons_self _ hfirst)
      (ih fun t ht => hstep t (List.mem_cons_of_mem _ ht))

/-- What a pass does for one kind: it lists the resources of the kind, and each takes its turn. -/
structure Round where
  kind : ManagerKind
  listed : List Resource
  turns : List Turn

/-- All that is asked for one kind. -/
def Round.exchanges (a : Managed) (r : Round) : List Exchange :=
  ⟨.listResources r.kind.resourceKind a.ns, .ok r.listed⟩ :: r.turns.flatMap Turn.exchanges

/-- Where nothing is lost, each kind is listed and each record is written. -/
theorem follows_rounds {ks : List ManagerKind} {out : Except Failure Coordination}
    (hgranted : Granted xs) (hbounded : Bounded xs)
    (h : Follows (kinds ctx a client result ks) before xs out after) :
    ∃ rounds : List Round, rounds.map (·.kind) = ks ∧
      (∀ r ∈ rounds, r.turns.map (·.resource) = r.listed) ∧
      xs = rounds.flatMap (Round.exchanges a) ∧
      Chain (Takes ctx a client) before (rounds.flatMap (·.turns)) after ∧
      out = .ok (tally result (rounds.flatMap (·.turns))) := by
  rcases follows_kinds h with ⟨⟨kind, ns, rs, hmem, r, hr, hlive, hunbounded⟩, -⟩ |
    ⟨surveys, rfl, hcomplete, rfl, hchain, rfl⟩
  · exact absurd hunbounded (hbounded kind ns rs hmem r hr hlive)
  have hmem {s : Survey} (hs : s ∈ surveys) : Survey.exchanges a s ⊆ surveys.flatMap
      (Survey.exchanges a) := fun x hx => List.mem_flatMap.mpr ⟨s, hs, hx⟩
  have hlisted : ∀ s ∈ surveys, s.listing = .ok (s.turns.map (·.resource)) := by
    intro s hs
    have hs' := hcomplete s hs
    rw [Survey.Complete] at hs'
    cases hlisting : s.listing with
    | ok rs =>
      rw [hlisting] at hs'
      rw [hs']
    | error e =>
      refine absurd (hmem hs ?_) (hgranted.listings s.kind.resourceKind a.ns e)
      rw [Survey.exchanges, hlisting]
      exact List.mem_cons_self
  have htakes : ∀ t ∈ surveys.flatMap (·.turns), ∀ after, Goes ctx a client t after →
      Takes ctx a client t after ∧ t.errors = t.error?.toList := by
    intro t ht after hgoes
    obtain ⟨s, hs, ht⟩ := List.mem_flatMap.mp ht
    refine hgoes.takes (hgranted.of_subset fun x hx => hmem hs ?_)
    refine List.mem_cons_of_mem _ (List.mem_flatMap.mpr ⟨t, ht, ?_⟩)
    exact List.mem_append_right _ hx
  have herrors : surveys.flatMap Survey.errors =
      (surveys.flatMap (·.turns)).filterMap Turn.error? := by
    rw [List.filterMap_eq_flatMap_toList, List.flatMap_assoc]
    refine List.flatMap_congr fun s hs => ?_
    rw [Survey.errors, hlisted s hs]
    refine List.flatMap_congr fun t ht => ?_
    have hmem := List.mem_flatMap.mpr ⟨s, hs, ht⟩
    obtain ⟨after, hgoes⟩ := hchain.exists_step t hmem
    exact (htakes t hmem after hgoes).2
  refine ⟨surveys.map fun s => ⟨s.kind, s.turns.map (·.resource), s.turns⟩, ?_, ?_, ?_, ?_, ?_⟩
  · rw [List.map_map]
    rfl
  · intro r hr
    obtain ⟨s, -, rfl⟩ := List.mem_map.mp hr
    rfl
  · rw [List.flatMap_map]
    refine List.flatMap_congr fun s hs => ?_
    rw [Survey.exchanges, hlisted s hs]
    rfl
  · rw [List.flatMap_map]
    exact hchain.imp fun t ht after hgoes => (htakes t ht after hgoes).1
  · rw [List.flatMap_map, herrors]
    rfl

end Steward.Coordinate

import Steward.Proofs.Coordinate.Writes

/-!
# Deciding about one service

What is decided about a service depends on the aggregator that it refers to.  Without a reference
the record of an earlier registration is taken back, a reference to another aggregator is none of
our business, and for a reference to this one a registration is attempted (`Attempt`), which always
comes to a record.  `Decides` says when the aggregator is asked to register the service and what is
recorded of it.
-/

namespace Steward.Coordinate

open Pass

variable {ctx : Context} {a m : Managed} {client : AggregatorClient} {before after : Cache}
  {asked : List Exchange}

/-! ## 1. What is recorded -/

/-- The service was registered with the aggregator, as far as is on record. -/
def wasRegistered (a m : Managed) : Bool :=
  match m.status.registration with
  | some r => r.registered && r.aggregator == some a.name
  | none => false

/-- The record of a registration that was made. -/
def registeredAs (ctx : Context) (a m : Managed) (id : Int) : RegistrationRecord where
  registered := true
  aggregator := some a.name
  applicationId := some id
  lastSync := some ctx.now
  message := some
    ("Registered as " ++ Registration.pullName ctx.settings.registrationPrefix m.name m.service)

/-- Why a service was not registered whose key could not be resolved. -/
def keyMessage (m : Managed) : Failure → String
  | .secret _ => "Could not resolve API key for " ++ m.name
  | e => "Registration failed: " ++ e.message

/-- The first of these exchanges resolve the key of a service for a pass that has read the secrets
`before`; then the pass has read the secrets `mid`, and the exchanges `rest` are left. -/
def Resolves (m : Managed) (before : Cache) (asked : List Exchange) (key : String)
    (rest : List Exchange) (mid : Cache) : Prop :=
  ∃ reads, asked = reads ++ rest ∧ Follows (Secret.registrationKey m) before reads (.ok key) mid

/-- With its key the service was to be registered with the aggregator, and this came of it. -/
def Registers (ctx : Context) (a m : Managed) (client : AggregatorClient) (before : Cache)
    (asked : List Exchange) (outcome : Except Failure Int) : Prop :=
  ∃ key rest mid calls events after, Resolves m before asked key rest mid ∧ rest = calls ++ events ∧
    Follows (client.register (registrationOf ctx a m key)) mid calls outcome after

/-! ## 2. Attempts -/

/-- What an attempt to register a service asks and comes to: the record, and what went wrong. -/
inductive Attempt (ctx : Context) (a m : Managed) (client : AggregatorClient) (auto : Bool)
    (before : Cache) : List Exchange → RegistrationRecord → Option String → Prop where
  | conflict : isPushed a m = true →
      Attempt ctx a m client auto before
        [⟨.record (.warning m.resource "RegistrationConflict" conflictMessage), ()⟩]
        (notRegistered a conflictMessage)
        (some ("conflict: " ++ m.service ++ "/" ++ m.name ++ " defined in both Push and Pull model"))
  | disabled : isPushed a m = false → auto = false →
      Attempt ctx a m client auto before [] (notRegistered a disabledMessage) none
  | noKey {reads : List Exchange} {e : Failure} {mid : Cache} : isPushed a m = false → auto = true →
      Follows (Secret.registrationKey m) before reads (.error e) mid →
      Attempt ctx a m client auto before reads (notRegistered a (keyMessage m e)) (some e.message)
  | failed {reads calls : List Exchange} {key : String} {e : Failure} {mid after : Cache} :
      isPushed a m = false → auto = true →
      Follows (Secret.registrationKey m) before reads (.ok key) mid →
      Follows (client.register (registrationOf ctx a m key)) mid calls (.error e) after →
      Attempt ctx a m client auto before
        (reads ++ (calls ++ [⟨.record (.warning m.resource "RegistrationFailed"
          ("Registration failed: " ++ e.message)), ()⟩]))
        (notRegistered a ("Registration failed: " ++ e.message)) (some e.message)
  | registered {reads calls events : List Exchange} {key : String} {id : Int} {mid after : Cache} :
      isPushed a m = false → auto = true →
      Follows (Secret.registrationKey m) before reads (.ok key) mid →
      Follows (client.register (registrationOf ctx a m key)) mid calls (.ok id) after →
      (∀ x ∈ events, isRecord x = true) →
      Attempt ctx a m client auto before (reads ++ (calls ++ events)) (registeredAs ctx a m id) none

/-- Registering comes to a record, and at most one event after all that is asked. -/
theorem follows_registerService {key : String}
    {out : Except Failure (RegistrationRecord × Option String)}
    (h : Follows (registerService ctx a m client key) before asked out after) :
    ∃ calls events outcome, asked = calls ++ events ∧
      Follows (client.register (registrationOf ctx a m key)) before calls outcome after ∧
      match outcome with
      | .error e => events = [⟨.record (.warning m.resource "RegistrationFailed"
            ("Registration failed: " ++ e.message)), ()⟩] ∧
          out = .ok (notRegistered a ("Registration failed: " ++ e.message), some e.message)
      | .ok id => (∀ x ∈ events, isRecord x = true) ∧ out = .ok (registeredAs ctx a m id, none) := by
  rw [registerService] at h
  obtain ⟨calls, events, outcome, mid, rfl, hcalls, hrest⟩ := follows_attempt_bind.mp h
  refine ⟨calls, events, outcome, rfl, ?_⟩
  cases outcome with
  | error e =>
    obtain ⟨rest, rfl, hend⟩ := follows_record_bind.mp hrest
    obtain ⟨rfl, rfl, rfl⟩ := follows_pure.mp hend
    exact ⟨hcalls, rfl, rfl⟩
  | ok id =>
    dsimp only at hrest
    split at hrest
    · obtain ⟨rest, rfl, hend⟩ := follows_record_bind.mp hrest
      obtain ⟨rfl, rfl, rfl⟩ := follows_pure.mp hend
      exact ⟨hcalls, List.forall_mem_singleton.mpr rfl, rfl⟩
    · obtain ⟨rfl, rfl, rfl⟩ := follows_pure.mp hrest
      exact ⟨hcalls, ⟨fun x hx => (List.not_mem_nil hx).elim, rfl⟩⟩

/-- Whatever fails while it is decided about a service becomes a record. -/
theorem follows_decideOrFail {out : Except Failure (Option (RegistrationRecord × Option String))}
    (h : Follows (decideOrFail ctx a m client) before asked out after) :
    ∃ decision, Follows (decide ctx a m client) before asked decision after ∧
      out = match decision with
        | .ok d => .ok d
        | .error e =>
          .ok (some (notRegistered a ("Registration failed: " ++ e.message), some e.message)) := by
  obtain ⟨ys, zs, decision, mid, rfl, hdecide, hrest⟩ := follows_attempt_bind.mp h
  cases decision with
  | ok d =>
    obtain ⟨rfl, rfl, rfl⟩ := follows_pure.mp hrest
    exact ⟨.ok d, by rwa [List.append_nil], rfl⟩
  | error e =>
    obtain ⟨rfl, rfl, rfl⟩ := follows_pure.mp hrest
    exact ⟨.error e, by rwa [List.append_nil], rfl⟩

/-- A service that refers to the aggregator is attempted to be registered. -/
theorem attempt_of_follows {ref : Spec.AggregatorRef}
    {out : Except Failure (Option (RegistrationRecord × Option String))}
    (href : m.declared.aggregatorRef = some ref) (hname : ref.name = a.name)
    (h : Follows (decideOrFail ctx a m client) before asked out after) :
    ∃ record error, out = .ok (some (record, error)) ∧
      Attempt ctx a m client ref.autoRegister before asked record error := by
  obtain ⟨decision, hdecide, rfl⟩ := follows_decideOrFail h
  have hsame : (ref.name != a.name) = false := by rw [hname, bne_self_eq_false]
  rw [decide, href] at hdecide
  dsimp only at hdecide
  rw [hsame, if_neg Bool.false_ne_true] at hdecide
  split at hdecide
  · rename_i hpushed
    obtain ⟨rest, rfl, hend⟩ := follows_record_bind.mp hdecide
    obtain ⟨rfl, rfl, -⟩ := follows_pure.mp hend
    exact ⟨_, _, rfl, .conflict hpushed⟩
  rename_i hpushed
  rw [Bool.not_eq_true] at hpushed
  split at hdecide
  · rename_i hauto
    rw [Bool.not_eq_true'] at hauto
    obtain ⟨rfl, rfl, -⟩ := follows_pure.mp hdecide
    exact ⟨_, _, rfl, .disabled hpushed hauto⟩
  rename_i hauto
  rw [Bool.not_eq_true', Bool.not_eq_false] at hauto
  obtain ⟨reads, rest, key, mid, rfl, hreads, hrest⟩ := follows_attempt_bind.mp hdecide
  cases key with
  | error e =>
    have hend : rest = [] ∧ (match decision with
        | .ok d => (.ok d : Except Failure (Option (RegistrationRecord × Option String)))
        | .error e =>
          .ok (some (notRegistered a ("Registration failed: " ++ e.message), some e.message))) =
        .ok (some (notRegistered a (keyMessage m e), some e.message)) := by
      cases e with
      | secret s =>
        obtain ⟨rfl, rfl, -⟩ := follows_pure.mp hrest
        exact ⟨rfl, rfl⟩
      | _ =>
        obtain ⟨rfl, rfl, -⟩ := follows_throw.mp hrest
        exact ⟨rfl, rfl⟩
    rw [hend.1, hend.2, List.append_nil]
    exact ⟨_, _, rfl, .noKey hpushed hauto hreads⟩
  | ok key =>
    rcases Or.symm (follows_bind.mp hrest) with
      ⟨e, -, hfailed⟩ | ⟨ys, zs, made, mid', rfl, hregister, hend⟩
    · -- registering does not fail
      obtain ⟨calls, events, outcome, -, -, hout⟩ := follows_registerService hfailed
      cases outcome with
      | error e => cases hout.2
      | ok id => cases hout.2
    obtain ⟨rfl, rfl, -⟩ := follows_pure.mp hend
    obtain ⟨calls, events, outcome, rfl, hcalls, hout⟩ := follows_registerService hregister
    rw [List.append_nil]
    cases outcome with
    | error e =>
      obtain ⟨rfl, hmade⟩ := hout
      rw [Except.ok.injEq] at hmade
      subst hmade
      exact ⟨_, _, rfl, .failed hpushed hauto hreads hcalls⟩
    | ok id =>
      obtain ⟨hevents, hmade⟩ := hout
      rw [Except.ok.injEq] at hmade
      subst hmade
      exact ⟨_, _, rfl, .registered hpushed hauto hreads hcalls hevents⟩

/-! ## 3. When a service is registered -/

/-- The aggregator was asked. -/
def Called (asked : List Exchange) : Prop := ∃ x ∈ asked, x.request.addressee = .aggregator

theorem called_of_register {registration : Registration} {calls : List Exchange}
    {outcome : Except Failure Int}
    (h : Follows (client.register registration) before calls outcome after) : Called calls := by
  obtain ⟨x, hx⟩ := List.exists_mem_of_ne_nil calls (AggregatorClient.ne_nil_of_register h)
  exact ⟨x, hx, AggregatorClient.asks_register client registration _ _ _ _ h x hx⟩

theorem not_called_of_key {reads : List Exchange} {key : Except Failure String}
    (h : Follows (Secret.registrationKey m) before reads key after) : ¬ Called reads := by
  rintro ⟨x, hx, hto⟩
  rw [(Secret.asks_registrationKey m _ _ _ _ h x hx).addressee] at hto
  cases hto

theorem Registers.called {outcome : Except Failure Int}
    (h : Registers ctx a m client before asked outcome) : Called asked := by
  obtain ⟨key, rest, mid, calls, events, after, ⟨reads, rfl, -⟩, rfl, hcalls⟩ := h
  obtain ⟨x, hx, hto⟩ := called_of_register hcalls
  exact ⟨x, List.mem_append_right _ (List.mem_append_left _ hx), hto⟩

/-- The replies decide what comes of a registration. -/
theorem Registers.unique {outcome outcome' : Except Failure Int}
    (h : Registers ctx a m client before asked outcome)
    (k : Registers ctx a m client before asked outcome') : outcome = outcome' := by
  obtain ⟨key, rest, mid, calls, events, after, ⟨reads, rfl, hreads⟩, rfl, hcalls⟩ := h
  obtain ⟨key', rest', mid', calls', events', after', ⟨reads', hasked, hreads'⟩, rfl, hcalls'⟩ := k
  obtain ⟨rfl, hkey, rfl⟩ := hreads.unique hreads' hasked
  rw [Except.ok.injEq] at hkey
  subst hkey
  exact (hcalls.unique hcalls' (List.append_cancel_left hasked)).2.1

/-- What an attempt to register the service comes to: whether the aggregator is asked at all, and
what is recorded. -/
structure Settles (ctx : Context) (a m : Managed) (client : AggregatorClient) (auto : Bool)
    (before : Cache) (asked : List Exchange) (record : RegistrationRecord) (error : Option String) :
    Prop where
  /-- The aggregator is asked exactly if it does not list the service itself, the service wants to
  be registered, and its key is resolved. -/
  called : Called asked ↔ isPushed a m = false ∧ auto = true ∧
    ∃ key rest mid, Resolves m before asked key rest mid
  /-- All that it is asked is to register the service. -/
  registers : Called asked ↔ ∃ outcome, Registers ctx a m client before asked outcome
  /-- The service is on record as registered, with the id that was returned, exactly if it was. -/
  registered : ∀ id, record = registeredAs ctx a m id ↔
    Registers ctx a m client before asked (.ok id)
  /-- Otherwise it is on record as not registered with this aggregator. -/
  otherwise : (∀ id, ¬ Registers ctx a m client before asked (.ok id)) →
    ∃ text, record = notRegistered a text
  /-- That a service does not want to be registered is no error. -/
  error : error = none ↔ (∃ id, Registers ctx a m client before asked (.ok id)) ∨
    isPushed a m = false ∧ auto = false

theorem notRegistered_ne_registeredAs (text : String) (id : Int) :
    notRegistered a text ≠ registeredAs ctx a m id :=
  fun h => Bool.false_ne_true (congrArg RegistrationRecord.registered h)

variable {auto : Bool} {record : RegistrationRecord} {error : Option String}

/-- An attempt that does not come to asking the aggregator. -/
theorem settles_of_not_called {text : String} (hcalled : ¬ Called asked)
    (hblocked : ¬ (isPushed a m = false ∧ auto = true ∧
      ∃ key rest mid, Resolves m before asked key rest mid))
    (herror : error = none ↔ isPushed a m = false ∧ auto = false) :
    Settles ctx a m client auto before asked (notRegistered a text) error where
  called := iff_of_false hcalled hblocked
  registers := iff_of_false hcalled fun ⟨_, h⟩ => hcalled h.called
  registered id := iff_of_false (notRegistered_ne_registeredAs text id) fun h => hcalled h.called
  otherwise _ := ⟨text, rfl⟩
  error := herror.trans (or_iff_right fun ⟨_, h⟩ => hcalled h.called).symm

/-- An attempt for which the aggregator was asked to register the service. -/
theorem settles_of_registers {outcome : Except Failure Int} (hpushed : isPushed a m = false)
    (hauto : auto = true) (h : Registers ctx a m client before asked outcome)
    (hrecord : match outcome with
      | .ok id => record = registeredAs ctx a m id ∧ error = none
      | .error e => (∃ text, record = notRegistered a text) ∧ error = some e.message) :
    Settles ctx a m client auto before asked record error := by
  have hresolves : ∃ key rest mid, Resolves m before asked key rest mid := by
    obtain ⟨key, rest, mid, -, -, -, hresolves, -, -⟩ := h
    exact ⟨key, rest, mid, hresolves⟩
  have hnotDisabled : ¬ (isPushed a m = false ∧ auto = false) := by
    rintro ⟨-, hdisabled⟩
    rw [hauto] at hdisabled
    cases hdisabled
  cases outcome with
  | ok id =>
    obtain ⟨rfl, rfl⟩ := hrecord
    refine
      { called := iff_of_true h.called ⟨hpushed, hauto, hresolves⟩
        registers := iff_of_true h.called ⟨_, h⟩
        registered := fun other => ⟨fun hsame => ?_, fun k => ?_⟩
        otherwise := fun hnever => absurd h (hnever id)
        error := iff_of_true rfl (Or.inl ⟨id, h⟩) }
    · have hid := congrArg RegistrationRecord.applicationId hsame
      rw [registeredAs, registeredAs, Option.some.injEq] at hid
      exact hid ▸ h
    · have hid := h.unique k
      rw [Except.ok.injEq] at hid
      rw [hid]
  | error e =>
    obtain ⟨⟨text, rfl⟩, rfl⟩ := hrecord
    have hnever (id : Int) : ¬ Registers ctx a m client before asked (.ok id) :=
      fun k => nomatch h.unique k
    exact
      { called := iff_of_true h.called ⟨hpushed, hauto, hresolves⟩
        registers := iff_of_true h.called ⟨_, h⟩
        registered := fun id => iff_of_false (notRegistered_ne_registeredAs text id) (hnever id)
        otherwise := fun _ => ⟨text, rfl⟩
        error := iff_of_false (Option.some_ne_none _)
          (not_or.mpr ⟨fun ⟨id, k⟩ => hnever id k, hnotDisabled⟩) }

theorem Attempt.settles (h : Attempt ctx a m client auto before asked record error) :
    Settles ctx a m client auto before asked record error := by
  cases h with
  | conflict hpushed =>
    refine settles_of_not_called ?_ (fun ⟨hnot, _⟩ => ?_) ?_
    · rintro ⟨x, hx, hto⟩
      rw [List.mem_singleton.mp hx] at hto
      cases hto
    · rw [hpushed] at hnot
      cases hnot
    · rw [hpushed]
      exact iff_of_false (Option.some_ne_none _) fun ⟨hnot, _⟩ => Bool.noConfusion hnot
  | disabled hpushed hauto =>
    refine settles_of_not_called (fun ⟨x, hx, _⟩ => nomatch hx) (fun ⟨_, hnot, _⟩ => ?_)
      (iff_of_true rfl ⟨hpushed, hauto⟩)
    rw [hauto] at hnot
    cases hnot
  | noKey hpushed hauto hreads =>
    refine settles_of_not_called (not_called_of_key hreads) ?_ ?_
    · rintro ⟨-, -, key, rest, mid, reads, hasked, hkey⟩
      have hsame := hreads.unique hkey ((List.append_nil _).trans hasked)
      cases hsame.2.1
    · rw [hauto]
      exact iff_of_false (Option.some_ne_none _) fun ⟨_, hnot⟩ => Bool.noConfusion hnot
  | failed hpushed hauto hreads hcalls =>
    exact settles_of_registers hpushed hauto ⟨_, _, _, _, _, _, ⟨_, rfl, hreads⟩, rfl, hcalls⟩
      ⟨⟨_, rfl⟩, rfl⟩
  | registered hpushed hauto hreads hcalls _ =>
    exact settles_of_registers hpushed hauto ⟨_, _, _, _, _, _, ⟨_, rfl, hreads⟩, rfl, hcalls⟩
      ⟨rfl, rfl⟩

/-- What is decided about a service, given what is asked. -/
structure Decides (ctx : Context) (a m : Managed) (client : AggregatorClient) (before : Cache)
    (asked : List Exchange) (decision : Option (RegistrationRecord × Option String)) : Prop where
  /-- Without a reference the record of a registration with this aggregator is taken back, and
  nothing else is touched. -/
  unreferenced : m.declared.aggregatorRef = none → asked = [] ∧
    decision = if wasRegistered a m then some ({ message := some refRemovedMessage }, none) else none
  /-- A reference to another aggregator is left to that one. -/
  elsewhere : ∀ ref, m.declared.aggregatorRef = some ref → ref.name ≠ a.name →
    asked = [] ∧ decision = none
  /-- With a reference to this aggregator there is always something to record. -/
  here : ∀ ref, m.declared.aggregatorRef = some ref → ref.name = a.name →
    ∃ record error, decision = some (record, error) ∧
      Settles ctx a m client ref.autoRegister before asked record error

theorem decide_of_unreferenced (href : m.declared.aggregatorRef = none) :
    decide ctx a m client = pure
      (if wasRegistered a m then some ({ message := some refRemovedMessage }, none) else none) := by
  rw [decide, href, wasRegistered]
  cases m.status.registration with
  | none => rfl
  | some r =>
    dsimp only
    split
    · rfl
    · rfl

theorem decide_of_elsewhere {ref : Spec.AggregatorRef} (href : m.declared.aggregatorRef = some ref)
    (hname : ref.name ≠ a.name) : decide ctx a m client = pure none := by
  rw [decide, href]
  exact if_pos (bne_iff_ne.mpr hname)

/-- Nothing is asked to decide what is plain. -/
theorem follows_decideOrFail_pure {d : Option (RegistrationRecord × Option String)}
    {out : Except Failure (Option (RegistrationRecord × Option String))}
    (hpure : decide ctx a m client = pure d)
    (h : Follows (decideOrFail ctx a m client) before asked out after) :
    asked = [] ∧ out = .ok d := by
  obtain ⟨decision, hdecide, rfl⟩ := follows_decideOrFail h
  rw [hpure] at hdecide
  obtain ⟨rfl, rfl, -⟩ := follows_pure.mp hdecide
  exact ⟨rfl, rfl⟩

/-- **Deciding about a service.**  Whatever the aggregator and the store reply, a decision is made,
and it is the right one. -/
theorem decides_of_follows {out : Except Failure (Option (RegistrationRecord × Option String))}
    (h : Follows (decideOrFail ctx a m client) before asked out after) :
    ∃ decision, out = .ok decision ∧ Decides ctx a m client before asked decision := by
  cases href : m.declared.aggregatorRef with
  | none =>
    obtain ⟨hasked, rfl⟩ := follows_decideOrFail_pure (decide_of_unreferenced href) h
    exact ⟨_, rfl, fun _ => ⟨hasked, rfl⟩, fun _ hsome => (nomatch href.symm.trans hsome),
      fun _ hsome => nomatch href.symm.trans hsome⟩
  | some ref =>
    have hthis {other : Spec.AggregatorRef} (h : m.declared.aggregatorRef = some other) :
        other = ref := Option.some.inj (h.symm.trans href)
    by_cases hname : ref.name = a.name
    · obtain ⟨record, error, rfl, hattempt⟩ := attempt_of_follows href hname h
      refine ⟨_, rfl, fun hnone => (nomatch href.symm.trans hnone), fun other hother hne => ?_,
        fun other hother _ => ?_⟩
      · rw [hthis hother] at hne
        exact absurd hname hne
      · rw [hthis hother]
        exact ⟨record, error, rfl, hattempt.settles⟩
    · obtain ⟨hasked, rfl⟩ := follows_decideOrFail_pure (decide_of_elsewhere href hname) h
      refine ⟨_, rfl, fun hnone => (nomatch href.symm.trans hnone), fun _ _ _ => ⟨hasked, rfl⟩,
        fun other hother hsame => ?_⟩
      rw [hthis hother] at hsame
      exact absurd hsame hname

end Steward.Coordinate

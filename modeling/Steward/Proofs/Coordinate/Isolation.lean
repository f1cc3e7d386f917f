import Steward.Proofs.Coordinate.Around
import Steward.Proofs.Document.Finite

/-!
# One service never affects another

Two passes (`_coordinate`) over one aggregator, at any two times, in two worlds that differ only in
one service: its document, what the aggregator and the store reply for it, and the secrets that no
lookup for another service tries.  Both passes end, and the others take the same turns in both
(`SameTurn`): the same is sent to the aggregator for each of them, the same record is written with
the same outcome, but for the time of the last registration, and each adds the same to the result.
-/

namespace Steward.Coordinate

open Pass Secret

variable {e : Surroundings} {f g : Vault} {settings : Settings.Controller} {now now' : Timestamp}
  {a m : Managed} {client : AggregatorClient} {s s₁ s₂ : e.State} {xs ys : List Exchange}

/-! ## 1. The same turn -/

/-- A decision but for the time of the last registration. -/
def unsynced (d : RegistrationRecord × Option String) : RegistrationRecord × Option String :=
  (d.1.unsynced, d.2)

/-- Exchanges that differ only in the time of the last registration, and in the resource that a
status write returns. -/
inductive Alike : Exchange → Exchange → Prop where
  | save (q : Resource) (m : Managed) {record record' : RegistrationRecord}
      {reply reply' : Except Failure Resource} : record.unsynced = record'.unsynced →
      (reply.map fun _ => ()) = (reply'.map fun _ => ()) →
      Alike ⟨.updateStatus q (withRecord m record), reply⟩
        ⟨.updateStatus q (withRecord m record'), reply'⟩
  | find (q : Resource) (found : Except Failure (Option Resource)) :
      Alike (reread q found) (reread q found)

/-- Two turns of one service come to the same. -/
structure SameTurn (settings : Settings.Controller) (now now' : Timestamp) (a : Managed)
    (client : AggregatorClient) (t u : Turn) : Prop where
  resource : t.resource = u.resource
  sent : ∀ registration, t.Sends ⟨settings, now⟩ a client registration ↔
    u.Sends ⟨settings, now'⟩ a client registration
  decision : t.decision.map unsynced = u.decision.map unsynced
  written : List.Forall₂ Alike t.written u.written
  processed : t.decision.isSome = u.decision.isSome
  registered : t.registered = u.registered
  errors : t.errors = u.errors

theorem Alike.failedWith? {x y : Exchange} (h : Alike x y) : failedWith? x = failedWith? y := by
  cases h with
  | find q found => rfl
  | @save q m record record' reply reply' _ hreply =>
    cases reply with
    | ok _ =>
      cases reply' with
      | ok _ => rfl
      | error e => cases hreply
    | error e =>
      cases reply' with
      | ok _ => cases hreply
      | error e' =>
        cases hreply
        cases e <;> rfl

theorem getLast?_bind_of_alike (h : List.Forall₂ Alike xs ys) :
    xs.getLast?.bind failedWith? = ys.getLast?.bind failedWith? := by
  have hmap : xs.map failedWith? = ys.map failedWith? := by
    induction h with
    | nil => rfl
    | cons hx _ ih => rw [List.map_cons, List.map_cons, hx.failedWith?, ih]
  have hlast (zs : List Exchange) :
      zs.getLast?.bind failedWith? = (zs.map failedWith?).getLast?.bind id := by
    rw [List.getLast?_map, Option.bind_map]
    rfl
  rw [hlast, hlast, hmap]

/-- What a turn adds to the result follows from what is decided and written. -/
theorem sameTurn_of_parts {t u : Turn} (hresource : t.resource = u.resource)
    (hsent : ∀ registration, t.Sends ⟨settings, now⟩ a client registration ↔
      u.Sends ⟨settings, now'⟩ a client registration)
    (hdecision : t.decision.map unsynced = u.decision.map unsynced)
    (hwritten : List.Forall₂ Alike t.written u.written) :
    SameTurn settings now now' a client t u := by
  have hparts : (t.decision = none ∧ u.decision = none) ∨
      ∃ d d', t.decision = some d ∧ u.decision = some d' ∧ d.1.registered = d'.1.registered ∧
        d.2 = d'.2 := by
    cases ht : t.decision with
    | none =>
      cases hu : u.decision with
      | none => exact .inl ⟨rfl, rfl⟩
      | some d' =>
        rw [ht, hu] at hdecision
        cases hdecision
    | some d =>
      cases hu : u.decision with
      | none =>
        rw [ht, hu] at hdecision
        cases hdecision
      | some d' =>
        rw [ht, hu] at hdecision
        obtain ⟨hrecord, herror⟩ := Prod.mk.inj (Option.some.inj hdecision)
        exact .inr ⟨d, d', rfl, rfl, (congrArg RegistrationRecord.registered hrecord :), herror⟩
  have hunsaved : t.unsaved? = u.unsaved? := getLast?_bind_of_alike hwritten
  refine ⟨hresource, hsent, hdecision, hwritten, ?_, ?_, ?_⟩
  all_goals
    rcases hparts with ⟨ht, hu⟩ | ⟨d, d', ht, hu, hregistered, herror⟩
  · rw [ht, hu]
  · rw [ht, hu]
    rfl
  · rw [Turn.registered, Turn.registered, ht, hu]
  · rw [Turn.registered, Turn.registered, ht, hu]
    exact hregistered
  · rw [Turn.errors, Turn.errors, Turn.error?, Turn.error?, ht, hu, hunsaved, hresource]
  · rw [Turn.errors, Turn.errors, Turn.error?, Turn.error?, ht, hu, hunsaved, hresource]
    simp only [Option.bind_some, herror]

/-! ## 2. The same surroundings -/

/-- The key of the service is looked up. -/
def Wanted (a m : Managed) : Prop :=
  ∃ ref, m.declared.aggregatorRef = some ref ∧ ref.name = a.name ∧ isPushed a m = false ∧
    ref.autoRegister = true

/-- The verdict on a service depends on the secrets only where its key is looked up, and on the time
only for the time of the registration. -/
theorem verdict_congr (hkey : Wanted a m → keyIn f m = keyIn g m) :
    (verdict e f ⟨settings, now⟩ a m client s).sent =
      (verdict e g ⟨settings, now'⟩ a m client s).sent ∧
    (verdict e f ⟨settings, now⟩ a m client s).decision.map unsynced =
      (verdict e g ⟨settings, now'⟩ a m client s).decision.map unsynced ∧
    (verdict e f ⟨settings, now⟩ a m client s).state =
      (verdict e g ⟨settings, now'⟩ a m client s).state := by
  rw [verdict, verdict]
  cases href : m.declared.aggregatorRef with
  | none => exact ⟨rfl, rfl, rfl⟩
  | some ref =>
  dsimp only
  by_cases hname : ref.name ≠ a.name
  · rw [if_pos hname, if_pos hname]
    exact ⟨rfl, rfl, rfl⟩
  rw [if_neg hname, if_neg hname]
  by_cases hpushed : isPushed a m = true
  · rw [if_pos hpushed, if_pos hpushed]
    exact ⟨rfl, rfl, rfl⟩
  rw [if_neg hpushed, if_neg hpushed]
  by_cases hauto : ref.autoRegister = false
  · rw [if_pos hauto, if_pos hauto]
    exact ⟨rfl, rfl, rfl⟩
  rw [if_neg hauto, if_neg hauto, hkey ⟨ref, href, not_not.mp hname, Bool.eq_false_iff.mpr hpushed,
    Bool.ne_false_iff.mp hauto⟩]
  cases keyIn g m with
  | error _ => exact ⟨rfl, rfl, rfl⟩
  | ok key =>
    refine ⟨rfl, ?_, rfl⟩
    dsimp only
    have hsent : registrationOf ⟨settings, now⟩ a m key = registrationOf ⟨settings, now'⟩ a m key :=
      rfl
    rw [hsent]
    cases (e.register client (registrationOf ⟨settings, now'⟩ a m key) s).1 <;> rfl

theorem answers_nil_iff : e.Answers s [] s₁ ↔ s₁ = s := by
  constructor
  · intro h
    cases h
    rfl
  · rintro rfl
    exact .nil _

theorem answers_save_iff {q : Resource} {document : Json.Members} {reply : Except Failure Resource} :
    e.Answers s (⟨.updateStatus q document, reply⟩ :: xs) s₁ ↔
      (reply.map fun _ => ()) = (e.save q document s).1 ∧
        e.Answers (e.save q document s).2 xs s₁ := by
  constructor
  · intro h
    cases h with
    | save hreply hrest => exact ⟨hreply, hrest⟩
  · rintro ⟨hreply, hrest⟩
    exact .save hreply hrest

theorem answers_find_iff {kind ns name : String} {found : Except Failure (Option Resource)} :
    e.Answers s (⟨.getResource kind ns name, found⟩ :: xs) s₁ ↔
      found = (e.find kind ns name s).1 ∧ e.Answers (e.find kind ns name s).2 xs s₁ := by
  constructor
  · intro h
    cases h with
    | find hrest => exact ⟨rfl, hrest⟩
  · rintro ⟨rfl, hrest⟩
    exact .find hrest

/-- One write, the same but for the time, is taken in the same way. -/
theorem same_save {q : Resource} {record record' : RegistrationRecord}
    {reply reply' : Except Failure Resource} (hrecord : record.unsynced = record'.unsynced)
    (h : e.Answers s (⟨.updateStatus q (withRecord m record), reply⟩ :: xs) s₁)
    (k : e.Answers s (⟨.updateStatus q (withRecord m record'), reply'⟩ :: ys) s₂) :
    Alike ⟨.updateStatus q (withRecord m record), reply⟩
        ⟨.updateStatus q (withRecord m record'), reply'⟩ ∧
      (reply.map fun _ => ()) = (reply'.map fun _ => ()) ∧
      ∃ mid, e.Answers mid xs s₁ ∧ e.Answers mid ys s₂ := by
  obtain ⟨hreply, h⟩ := answers_save_iff.mp h
  obtain ⟨hreply', k⟩ := answers_save_iff.mp k
  rw [e.save_congr q m record record' s hrecord] at hreply h
  exact ⟨.save q m hrecord (hreply.trans hreply'.symm), hreply.trans hreply'.symm, _, h, k⟩

/-- A reply that is as another one, and a lost race, is a lost race. -/
theorem conflict_of_map {reply reply' : Except Failure Resource} {key : String} {version : Int}
    (h : (reply.map fun _ => ()) = (reply'.map fun _ => ()))
    (hlost : reply = .error (.conflict key version)) : reply' = .error (.conflict key version) := by
  subst hlost
  cases reply' with
  | ok _ => cases h
  | error e' =>
    cases h
    rfl

/-- The same record, but for the time, is written in the same way. -/
theorem same_records {record record' : RegistrationRecord}
    (hrecord : record.unsynced = record'.unsynced) (h : Records m record xs)
    (k : Records m record' ys) (hxs : e.Answers s xs s₁) (hys : e.Answers s ys s₂) :
    List.Forall₂ Alike xs ys ∧ s₁ = s₂ := by
  cases h with
  | settled reply hreply =>
    cases k with
    | settled reply' _ =>
      obtain ⟨hx, -, mid, h, k⟩ := same_save hrecord hxs hys
      exact ⟨.cons hx .nil, (answers_nil_iff.mp h).trans (answers_nil_iff.mp k).symm⟩
    | unread key version _ =>
      obtain ⟨-, hsame, -⟩ := same_save hrecord hxs hys
      exact absurd (conflict_of_map hsame.symm rfl) (hreply key version)
    | again key version _ _ =>
      obtain ⟨-, hsame, -⟩ := same_save hrecord hxs hys
      exact absurd (conflict_of_map hsame.symm rfl) (hreply key version)
  | unread key version hend =>
    cases k with
    | settled reply' hreply' =>
      obtain ⟨-, hsame, -⟩ := same_save hrecord hxs hys
      exact absurd (conflict_of_map hsame rfl) (hreply' key version)
    | unread key' version' _ =>
      obtain ⟨hx, -, mid, h, k⟩ := same_save hrecord hxs hys
      obtain ⟨hfound, h⟩ := answers_find_iff.mp h
      obtain ⟨hfound', k⟩ := answers_find_iff.mp k
      rw [hfound, hfound']
      exact ⟨.cons hx (.cons (.find _ _) .nil),
        (answers_nil_iff.mp h).trans (answers_nil_iff.mp k).symm⟩
    | again key' version' reply' hfresh =>
      obtain ⟨-, -, mid, h, k⟩ := same_save hrecord hxs hys
      obtain ⟨rfl, -⟩ := answers_find_iff.mp h
      obtain ⟨hfound, -⟩ := answers_find_iff.mp k
      exact absurd hfresh (hend _ _ hfound.symm)
  | again key version reply hfresh =>
    cases k with
    | settled reply' hreply' =>
      obtain ⟨-, hsame, -⟩ := same_save hrecord hxs hys
      exact absurd (conflict_of_map hsame rfl) (hreply' key version)
    | unread key' version' hend =>
      obtain ⟨-, -, mid, h, k⟩ := same_save hrecord hxs hys
      obtain ⟨hfound, -⟩ := answers_find_iff.mp h
      obtain ⟨rfl, -⟩ := answers_find_iff.mp k
      exact absurd hfresh (hend _ _ hfound.symm)
    | again key' version' reply' hfresh' =>
      obtain ⟨hx, -, mid, h, k⟩ := same_save hrecord hxs hys
      obtain ⟨hfound, h⟩ := answers_find_iff.mp h
      obtain ⟨hfound', k⟩ := answers_find_iff.mp k
      rw [← hfound', Except.ok.injEq, Option.some.injEq] at hfound
      subst hfound
      rw [hfresh, Except.ok.injEq] at hfresh'
      subst hfresh'
      obtain ⟨hy, -, mid', h, k⟩ := same_save hrecord h k
      exact ⟨.cons hx (.cons (.find _ _) (.cons hy .nil)),
        (answers_nil_iff.mp h).trans (answers_nil_iff.mp k).symm⟩

theorem same_saves {d d' : Option (RegistrationRecord × Option String)}
    (hsame : d.map unsynced = d'.map unsynced) (h : Saves m d xs) (k : Saves m d' ys)
    (hxs : e.Answers s xs s₁) (hys : e.Answers s ys s₂) : List.Forall₂ Alike xs ys ∧ s₁ = s₂ := by
  cases h with
  | untouched =>
    cases k with
    | untouched => exact ⟨.nil, (answers_nil_iff.mp hxs).trans (answers_nil_iff.mp hys).symm⟩
    | record error _ => cases hsame
  | record error h =>
    cases k with
    | untouched => cases hsame
    | record error' k =>
      exact same_records (Prod.mk.inj (Option.some.inj hsame)).1 h k hxs hys

/-- In the same surroundings a service takes the same turn. -/
theorem same_turn {t u : Turn} (hresource : t.resource = u.resource)
    (hkey : ∀ m, t.resource.beingDeleted = false → Managed.ofResource t.resource = .ok m →
      Wanted a m → keyIn f m = keyIn g m)
    (h : TurnIn e f ⟨settings, now⟩ a client s t s₁)
    (k : TurnIn e g ⟨settings, now'⟩ a client s u s₂) :
    SameTurn settings now now' a client t u ∧ s₁ = s₂ := by
  have hbusy {v : Turn} {m : Managed} (hlive : v.resource.beingDeleted = false)
      (hm : Managed.ofResource v.resource = .ok m) :
      ¬ (v.resource.beingDeleted = true ∨ ∃ error, Managed.ofResource v.resource = .error error) := by
    rintro (hdeleted | ⟨error, herror⟩)
    · rw [hlive] at hdeleted
      cases hdeleted
    · rw [hm] at herror
      cases herror
  cases h with
  | skipped _ hskip hasked hdecision hwritten =>
    cases k with
    | skipped _ _ hasked' hdecision' hwritten' =>
      refine ⟨sameTurn_of_parts hresource (fun registration => iff_of_false ?_ ?_) ?_ ?_, rfl⟩
      · exact fun h => by
          obtain ⟨y, hy, -⟩ := h.called
          rw [hasked] at hy
          cases hy
      · exact fun h => by
          obtain ⟨y, hy, -⟩ := h.called
          rw [hasked'] at hy
          cases hy
      · rw [hdecision, hdecision']
      · rw [hwritten, hwritten']
        exact .nil
    | decided hlive hm => exact absurd (hresource ▸ hskip) (hbusy hlive hm)
  | @decided _ m _ _ hlive hm hdecision hsends hsaves hanswers =>
    cases k with
    | skipped _ hskip => exact absurd (hresource.symm ▸ hskip) (hbusy hlive hm)
    | @decided _ m' _ _ _ hm' hdecision' hsends' hsaves' hanswers' =>
      rw [← hresource, hm, Except.ok.injEq] at hm'
      subst hm'
      obtain ⟨hsent, hsame, hstate⟩ := @verdict_congr e f g settings now now' a m client s
        (hkey m hlive hm)
      rw [← hdecision, ← hdecision'] at hsame
      rw [hstate] at hanswers
      obtain ⟨hwritten, hstates⟩ := same_saves hsame hsaves hsaves' hanswers hanswers'
      exact ⟨sameTurn_of_parts hresource
        (fun registration => (hsends registration).trans (hsent ▸ (hsends' registration).symm))
        hsame hwritten, hstates⟩

/-- In the same surroundings all services take the same turns. -/
theorem same_course {ts us : List Turn} (hresources : ts.map (·.resource) = us.map (·.resource))
    (hkeys : ∀ t ∈ ts, ∀ m, t.resource.beingDeleted = false →
      Managed.ofResource t.resource = .ok m → Wanted a m → keyIn f m = keyIn g m)
    (h : Course e f ⟨settings, now⟩ a client s ts s₁)
    (k : Course e g ⟨settings, now'⟩ a client s us s₂) :
    List.Forall₂ (SameTurn settings now now' a client) ts us := by
  induction h generalizing us with
  | nil s =>
    rw [List.map_nil, eq_comm, List.map_eq_nil_iff] at hresources
    rw [hresources]
    exact .nil
  | cons hturn _ ih =>
    cases k with
    | nil => cases hresources
    | cons hturn' hrest' =>
      obtain ⟨hresource, hresources⟩ := List.cons.inj hresources
      obtain ⟨hkey, hkeys⟩ := List.forall_mem_cons.mp hkeys
      obtain ⟨hsame, rfl⟩ := same_turn hresource hkey hturn hturn'
      exact .cons hsame (ih hresources hkeys hrest')

/-! ## 3. Two worlds -/

section Worlds

variable {pre : String} {x : Service}

namespace Around

/-- The pass over the resource `r` ends in this world with the result, after these exchanges. -/
def Performs (w : Around e pre x) (ctx : Context) (r : Resource) (s : w.State) (xs : List Exchange)
    (result : Coordination) : Prop :=
  ∃ s', (coordinate ctx r).program.run w.world s = (.ok result, s') ∧ w.Plays s xs s'

/-- Everything that is listed has finite numbers only. -/
def Finite (w : Around e pre x) : Prop :=
  ∀ kind ns rs, w.listing kind ns = .ok rs → ∀ q ∈ rs, q.finite = true

end Around

/-- For a pass over the resource `r`, two worlds with the same surroundings differ only in the
service. -/
structure DifferOnly (r : Resource) (w₁ w₂ : Around e pre x) (s₁ : w₁.State) (s₂ : w₂.State) :
    Prop where
  view : w₁.view s₁ = w₂.view s₂
  listing : ∀ kind ns, (w₁.listing kind ns).map x.others = (w₂.listing kind ns).map x.others
  /-- The key of the aggregator is the same. -/
  connection : ∀ a, Managed.ofResource r = .ok a → ∀ ref ∈ a.connection.apiKeyRef,
    w₁.vault x.ns ref.name = w₂.vault x.ns ref.name
  /-- The secrets that are tried for another service are the same. -/
  secrets : ∀ a, Managed.ofResource r = .ok a → ∀ kind rs, w₁.listing kind x.ns = .ok rs →
    ∀ q ∈ x.others rs,
    q.beingDeleted = false → ∀ m, Managed.ofResource q = .ok m → Wanted a m →
      ∀ name ∈ tried w₁.vault m, w₁.vault x.ns name = w₂.vault x.ns name

theorem others_append (rs qs : List Resource) :
    x.others (rs ++ qs) = x.others rs ++ x.others qs :=
  List.filter_append ..

theorem map_resource_otherTurns (ts : List Turn) :
    (x.otherTurns ts).map (·.resource) = x.others (ts.map (·.resource)) := by
  rw [Service.otherTurns, Service.others, List.filter_map]
  rfl

/-- Where worlds differ only in the service, the others come to their turns in the same order. -/
theorem same_resources {l₁ l₂ : String → Except Failure (List Resource)} {us vs : List Survey}
    (hlisting : ∀ kind, (l₁ kind).map x.others = (l₂ kind).map x.others)
    (hkinds : us.map (·.kind) = vs.map (·.kind)) (hus : ∀ u ∈ us, u.Complete)
    (hvs : ∀ v ∈ vs, v.Complete) (hus' : ∀ u ∈ us, u.listing = l₁ u.kind.resourceKind)
    (hvs' : ∀ v ∈ vs, v.listing = l₂ v.kind.resourceKind) :
    (x.otherTurns (us.flatMap (·.turns))).map (·.resource) =
      (x.otherTurns (vs.flatMap (·.turns))).map (·.resource) := by
  induction us generalizing vs with
  | nil =>
    rw [List.map_nil, eq_comm, List.map_eq_nil_iff] at hkinds
    rw [hkinds]
  | cons u us ih =>
    cases vs with
    | nil => cases hkinds
    | cons v vs =>
      obtain ⟨hkind, hkinds⟩ := List.cons.inj hkinds
      obtain ⟨hu, hus⟩ := List.forall_mem_cons.mp hus
      obtain ⟨hv, hvs⟩ := List.forall_mem_cons.mp hvs
      obtain ⟨hu', hus'⟩ := List.forall_mem_cons.mp hus'
      obtain ⟨hv', hvs'⟩ := List.forall_mem_cons.mp hvs'
      have hsame := hlisting u.kind.resourceKind
      rw [← hu', show u.kind = v.kind from hkind, ← hv'] at hsame
      have hfirst : x.others (u.turns.map (·.resource)) = x.others (v.turns.map (·.resource)) := by
        rw [Survey.Complete] at hu hv
        cases hrs : u.listing with
        | ok rs =>
          cases hrs' : v.listing with
          | ok rs' =>
            rw [hrs] at hu hsame
            rw [hrs'] at hv hsame
            rw [hu, hv]
            exact Except.ok.inj hsame
          | error e' =>
            rw [hrs, hrs'] at hsame
            cases hsame
        | error e =>
          cases hrs' : v.listing with
          | ok rs' =>
            rw [hrs, hrs'] at hsame
            cases hsame
          | error e' =>
            rw [hrs] at hu
            rw [hrs'] at hv
            rw [show u.turns = [] from hu, show v.turns = [] from hv]
      have hrest := ih hkinds hus hvs hus' hvs'
      rw [map_resource_otherTurns, map_resource_otherTurns] at hrest ⊢
      rw [List.flatMap_cons, List.flatMap_cons, List.map_append, List.map_append, others_append,
        others_append, hfirst, hrest]

/-- A service that comes to its turn was listed. -/
theorem exists_listed {l : String → Except Failure (List Resource)} {us : List Survey} {t : Turn}
    (hus : ∀ u ∈ us, u.Complete) (hus' : ∀ u ∈ us, u.listing = l u.kind.resourceKind)
    (ht : t ∈ x.otherTurns (us.flatMap (·.turns))) :
    ∃ kind rs, l kind = .ok rs ∧ t.resource ∈ x.others rs := by
  obtain ⟨ht, hother⟩ := List.mem_filter.mp ht
  obtain ⟨u, hu, ht⟩ := List.mem_flatMap.mp ht
  have hcomplete := hus u hu
  have hlisting := hus' u hu
  rw [Survey.Complete] at hcomplete
  cases hrs : u.listing with
  | ok rs =>
    rw [hrs] at hcomplete hlisting
    exact ⟨_, rs, hlisting.symm, List.mem_filter.mpr ⟨hcomplete ▸ List.mem_map_of_mem ht, hother⟩⟩
  | error e =>
    rw [hrs] at hcomplete
    rw [show u.turns = [] from hcomplete] at ht
    cases ht

/-- How a pass over the resource `r` begins: it ends at once, or with a client for the aggregator. -/
def opening (ctx : Context) (f : Vault) (r : Resource) :
    Except Coordination (Managed × AggregatorClient) :=
  if r.beingDeleted then .error {}
  else
    match Managed.ofResource r with
    | .error error => .error (ctx.failed error.message)
    | .ok a =>
      if !a.status.connected then
        .error { requeueAfter := some ctx.settings.errorRequeueInterval }
      else
        match AggregatorClient.clientIn f a ctx.settings.httpTimeout with
        | .error error => .error (ctx.failed error.message)
        | .ok client => .ok (a, client)

namespace Around

variable {w : Around e pre x} {ctx : Context} {r : Resource}

/-- Nothing that the pass reads breaks it off. -/
theorem not_brokenOff {s s' : w.State} (hr : r.finite = true) (hw : w.Finite)
    (hplays : w.Plays s xs s') : ¬ BrokenOff r xs := by
  rintro (⟨-, hunbounded⟩ | ⟨kind, ns, rs, hmem, q, hq, -, hunbounded⟩)
  · exact Managed.ofResource_ne_unbounded hr hunbounded
  · have hlisting := listing_of_plays hplays kind ns _ hmem
    exact Managed.ofResource_ne_unbounded (hw kind ns rs hlisting.symm q hq) hunbounded

/-- **One pass.**  It ends as it begins, or it goes through all services, and the others take their
turns as the surroundings say. -/
theorem performs (w : Around e pre x) (ctx : Context) (r : Resource) (s : w.State)
    (hpre : pre = ctx.settings.registrationPrefix) (hns : r.ns = x.ns) (hr : r.finite = true)
    (hw : w.Finite) :
    ∃ xs result, w.Performs ctx r s xs result ∧
      match opening ctx w.vault r with
      | .error ended => result = ended ∧ ∀ y ∈ xs, y.request.ReadsSecret
      | .ok (a, client) => ∃ surveys s', Conducts ctx r a client xs surveys result ∧
          (∀ v ∈ surveys, v.listing = w.listing v.kind.resourceKind x.ns) ∧
          Course e w.vault ctx a client (w.view s) (x.otherTurns (surveys.flatMap (·.turns)))
            (w.view s') := by
  obtain ⟨xs, hprogram, hplays⟩ :=
    Program.exists_follows_run w.world (coordinate ctx r).program s
  have hfinite := not_brokenOff hr hw hplays
  generalize hrun : (coordinate ctx r).program.run w.world s = run at hprogram hplays
  obtain ⟨out, s'⟩ := run
  obtain ⟨after, h⟩ := follows_program.mp hprogram
  have hended {ended : Coordination} (hpure : Follows (pure ended) [] xs out after) :
      w.Performs ctx r s xs ended ∧ ended = ended ∧ ∀ y ∈ xs, y.request.ReadsSecret := by
    obtain ⟨rfl, rfl, -⟩ := follows_pure.mp hpure
    exact ⟨⟨s', hrun, hplays⟩, rfl, fun y hy => nomatch hy⟩
  rw [coordinate] at h
  rw [opening]
  split at h
  · rw [if_pos ‹_›]
    exact ⟨xs, _, hended h⟩
  rename_i hlive
  rw [if_neg hlive]
  cases hread : Managed.ofResource r with
  | error error =>
    rw [hread] at h
    cases error with
    | unbounded => exact absurd hread (Managed.ofResource_ne_unbounded hr)
    | _ => exact ⟨xs, _, hended h⟩
  | ok a =>
  rw [hread] at h
  dsimp only at h ⊢
  split at h
  · rw [if_pos ‹_›]
    exact ⟨xs, _, hended h⟩
  rename_i hconnected
  rw [if_neg hconnected]
  have ha : a.ns = x.ns := by rw [Managed.ns, Managed.resource_of_ofResource hread, hns]
  obtain ⟨reads, rest, built, mid, rfl, hreads, hrest⟩ := follows_attempt_bind.mp h
  obtain ⟨s₁, hplays₁, hplays₂⟩ := Program.plays_append_iff.mp hplays
  obtain ⟨hbuilt, hagrees⟩ := AggregatorClient.yields_forManaged w.vault a _ _ _ _ _ hreads
    (from_of_plays hplays₁) (agrees_nil _ _)
  have hasks := AggregatorClient.asks_forManaged a _ _ _ _ _ hreads
  rw [← hbuilt]
  cases built with
  | error error =>
    obtain ⟨rfl, rfl, -⟩ := follows_pure.mp hrest
    exact ⟨reads, _, ⟨s', hrun, List.append_nil reads ▸ hplays⟩, rfl, hasks⟩
  | ok client =>
    rcases conducts_of_follows hread hreads hrest with ⟨-, hbroken⟩ | ⟨surveys, result, rfl, hconducts⟩
    · exact absurd hbroken hfinite
    refine ⟨_, result, ⟨s', hrun, hplays⟩, surveys, s', hconducts, ?_⟩
    obtain ⟨reads', mid', after', hreads', hxs, hchain⟩ := hconducts.asks
    rw [hxs] at hplays
    obtain ⟨s₂, hplays₁, hplays₂⟩ := Program.plays_append_iff.mp hplays
    have hagrees := (AggregatorClient.yields_forManaged w.vault a _ _ _ _ _ hreads'
      (from_of_plays hplays₁) (agrees_nil _ _)).2
    have hview : w.view s₂ = w.view s := view_of_quiet hplays₁ fun y hy =>
      .inl (AggregatorClient.asks_forManaged a _ _ _ _ _ hreads' y hy)
    rw [← hview]
    rw [ha] at hagrees
    exact course_of_surveys hpre ha hconducts.complete hchain hplays₂ hagrees

end Around

theorem opening_congr {ctx : Context} {r : Resource}
    (h : ∀ a, Managed.ofResource r = .ok a → ∀ ref ∈ a.connection.apiKeyRef,
      f a.ns ref.name = g a.ns ref.name) :
    opening ctx f r = opening ctx g r := by
  rw [opening, opening]
  cases ha : Managed.ofResource r with
  | error error => rfl
  | ok a =>
    dsimp only
    rw [AggregatorClient.clientIn_congr (h a ha)]

/-- A pass that ends as it begins has looked after no service. -/
theorem processed_of_opening {ctx : Context} {r : Resource} {ended : Coordination}
    (h : opening ctx f r = .error ended) : ended.processed = 0 := by
  rw [opening] at h
  repeat' split at h
  all_goals cases h <;> rfl

/-- **No service affects another.**  Two worlds differ only in one service, and a pass is made over
the same aggregator in each of them, at any time.  Either no service comes to its turn and both
passes end alike, or both passes end and all other services take the same turns. -/
theorem isolated (w₁ w₂ : Around e settings.registrationPrefix x) (s₁ : w₁.State) (s₂ : w₂.State)
    (r : Resource) (hns : r.ns = x.ns) (hr : r.finite = true) (hw₁ : w₁.Finite) (hw₂ : w₂.Finite)
    (hdiffer : DifferOnly r w₁ w₂ s₁ s₂) :
    (∃ result xs₁ xs₂, result.processed = 0 ∧
      w₁.Performs ⟨settings, now⟩ r s₁ xs₁ result ∧ w₂.Performs ⟨settings, now'⟩ r s₂ xs₂ result ∧
      (∀ y ∈ xs₁, y.request.ReadsSecret) ∧ ∀ y ∈ xs₂, y.request.ReadsSecret) ∨
    ∃ a client xs₁ xs₂ surveys₁ surveys₂ result₁ result₂,
      w₁.Performs ⟨settings, now⟩ r s₁ xs₁ result₁ ∧ w₂.Performs ⟨settings, now'⟩ r s₂ xs₂ result₂ ∧
      Conducts ⟨settings, now⟩ r a client xs₁ surveys₁ result₁ ∧
      Conducts ⟨settings, now'⟩ r a client xs₂ surveys₂ result₂ ∧
      List.Forall₂ (SameTurn settings now now' a client)
        (x.otherTurns (surveys₁.flatMap (·.turns))) (x.otherTurns (surveys₂.flatMap (·.turns))) := by
  obtain ⟨xs₁, result₁, hperforms₁, h₁⟩ := w₁.performs ⟨settings, now⟩ r s₁ rfl hns hr hw₁
  obtain ⟨xs₂, result₂, hperforms₂, h₂⟩ := w₂.performs ⟨settings, now'⟩ r s₂ rfl hns hr hw₂
  have hopening : opening ⟨settings, now'⟩ w₂.vault r = opening ⟨settings, now⟩ w₁.vault r := by
    refine opening_congr fun a ha ref href => ?_
    rw [Managed.ns, Managed.resource_of_ofResource ha, hns]
    exact (hdiffer.connection a ha ref href).symm
  rw [hopening] at h₂
  cases hopened : opening ⟨settings, now⟩ w₁.vault r with
  | error ended =>
    rw [hopened] at h₁ h₂
    obtain ⟨rfl, hreads₁⟩ := h₁
    obtain ⟨rfl, hreads₂⟩ := h₂
    exact .inl ⟨_, xs₁, xs₂, processed_of_opening hopened, hperforms₁, hperforms₂, hreads₁, hreads₂⟩
  | ok opened =>
    obtain ⟨a, client⟩ := opened
    rw [hopened] at h₁ h₂
    obtain ⟨surveys₁, s₁', hconducts₁, hlisting₁, hcourse₁⟩ := h₁
    obtain ⟨surveys₂, s₂', hconducts₂, hlisting₂, hcourse₂⟩ := h₂
    rw [← hdiffer.view] at hcourse₂
    refine .inr ⟨a, client, xs₁, xs₂, surveys₁, surveys₂, result₁, result₂, hperforms₁, hperforms₂,
      hconducts₁, hconducts₂, same_course ?_ ?_ hcourse₁ hcourse₂⟩
    · exact same_resources (fun kind => hdiffer.listing kind x.ns)
        (hconducts₁.kinds.trans hconducts₂.kinds.symm) hconducts₁.complete hconducts₂.complete
        hlisting₁ hlisting₂
    · intro t ht m hlive hm hwanted
      obtain ⟨kind, rs, hrs, hmem⟩ := exists_listed (l := fun kind => w₁.listing kind x.ns)
        hconducts₁.complete hlisting₁ ht
      have hns' : m.ns = x.ns := by
        rw [Managed.ns, Managed.resource_of_ofResource hm]
        exact (w₁.listed kind x.ns rs hrs _ (List.mem_of_mem_filter hmem)).2
      refine keyIn_congr fun name hname => ?_
      rw [hns']
      exact hdiffer.secrets a hconducts₁.aggregator kind rs hrs _ hmem hlive m hm hwanted name hname

end Worlds

/-! ## 4. An example -/

namespace Shelf

/-- The service that the two worlds differ in. -/
def shows : Service := ⟨.sonarr, "default", "shows"⟩

/-- Another service. -/
def films : Resource :=
  { kind := "RadarrConfig", name := "films"
    spec := [("connection", .object [("url", .string "http://films")]),
      ("indexers", .object [("prowlarrRef", .object [("name", .string "main")])])] }

/-- The aggregator takes in everything but the shows. -/
def answer (payload : Option Json) : HttpResponse :=
  match payload with
  | none => ⟨200, ""⟩
  | some document =>
    if document.get? "name" = some (.string (shows.pullName "arr-operator")) then ⟨500, ""⟩
    else ⟨200, "\x7b\"id\": 7\x7d"⟩

/-- The store holds the films and the shows as they are given, and refuses to write the shows. -/
def reply (r : Resource) (key : Option SecretData) : (request : Request) → request.Reply
  | .getResource .. => .ok none
  | .listResources kind ns =>
    if kind = "SonarrConfig" ∧ ns = "default" then .ok [r]
    else if kind = "RadarrConfig" ∧ ns = "default" then .ok [films]
    else .ok []
  | .getSecret _ name =>
    .ok (if name = "sonarr-api-key" then key else some [("apiKey", "a2V5")])
  | .updateStatus q _ => if shows.Owns q then .error (.timeout "shows") else .ok q
  | .http request => .ok (answer request.payload)
  | .findAdapter _ => .ok none
  | .record _ => ()
  | .addFinalizer q _ => .ok q
  | .removeFinalizer .. => .ok none
  | .connect .. => .error (.timeout "")
  | .discover .. => .error (.timeout "")
  | .currentState .. => .error (.timeout "")
  | .diff .. => .error (.timeout "")
  | .apply .. => .error (.timeout "")
  | .applyDirect .. => .error (.timeout "")
  | .health .. => .error (.timeout "")

def world (r : Resource) (key : Option SecretData) : Program.World signature Unit :=
  fun request s => (reply r key request, s)

/-- What comes of a registration, except that of the shows. -/
def outcome (registration : Registration) : Except Failure Int :=
  match registration.payload none with
  | .ok _ => .ok 7
  | .error e => .error (.registration e)

theorem parse_answer : Json.parse "\x7b\"id\": 7\x7d" = .ok (.object [("id", .int 7)]) := by
  decide +kernel

theorem run_register (r : Resource) (key : Option SecretData) (client : AggregatorClient)
    (registration : Registration) (cache : Cache) (s : Unit)
    (h : registration.name ≠ shows.pullName "arr-operator") :
    ((client.register registration).run cache).run (world r key) s =
      ((outcome registration, cache), s) := by
  obtain ⟨xs, hfollows, hplays⟩ := Program.exists_follows_run (world r key)
    ((client.register registration).run cache) s
  generalize hrun : ((client.register registration).run cache).run (world r key) s = run
    at hfollows hplays
  obtain ⟨⟨out, after⟩, s'⟩ := run
  obtain ⟨hregistering, rfl⟩ := AggregatorClient.follows_register hfollows
  have hfound : client.foundIn registration.name (.ok ⟨200, ""⟩) = .ok none := rfl
  have hout : out = outcome registration := by
    rw [outcome]
    cases hregistering with
    | unread hunread =>
      rw [(Program.plays_cons_iff.mp hplays).1] at hunread
      cases hfound.symm.trans hunread
    | unsent hexisting hwriting =>
      rw [(Program.plays_cons_iff.mp hplays).1] at hexisting
      cases hfound.symm.trans hexisting
      rw [AggregatorClient.writing] at hwriting
      cases hpayload : registration.payload none with
      | ok payload =>
        rw [hpayload] at hwriting
        cases hwriting
      | error e =>
        rw [hpayload] at hwriting
        cases hwriting
        rfl
    | @sent reply reply' existing request hexisting hwriting =>
      obtain ⟨hreply, hlast⟩ := Program.plays_cons_iff.mp hplays
      rw [hreply] at hexisting
      cases hfound.symm.trans hexisting
      obtain ⟨payload, hpayload, rfl⟩ := AggregatorClient.writing_none_iff.mp hwriting
      have hanswer : answer (some payload) = ⟨200, "\x7b\"id\": 7\x7d"⟩ := by
        rw [answer, Registration.get?_name_of_payload hpayload, if_neg]
        rw [Option.some.injEq, Json.string.injEq]
        exact h
      rw [(Program.plays_cons_iff.mp hlast).1]
      change AggregatorClient.answerTo _ (.ok (answer (some payload))) >>= _ = _
      rw [hanswer, AggregatorClient.answerTo_of_parse parse_answer (by decide) (by decide),
        hpayload]
      rfl
  rw [hout]

/-- What the shelf does for the films, whatever becomes of the shows. -/
def surroundings : Surroundings where
  State := Unit
  register _ registration _ := (outcome registration, ())
  save _ _ _ := (.ok (), ())
  find _ _ _ _ := (.ok none, ())
  save_congr _ _ _ _ _ _ := rfl
  isAt_of_find _ _ _ _ _ h := nomatch h

/-- The shelf, with such shows and such a key for them. -/
def around (r : Resource) (key : Option SecretData)
    (hr : r.kind = "SonarrConfig" ∧ r.ns = "default") : Around surroundings "arr-operator" shows where
  State := Unit
  world := world r key
  view := id
  vault _ name := .ok (if name = "sonarr-api-key" then key else some [("apiKey", "a2V5")])
  listing kind ns :=
    if kind = "SonarrConfig" ∧ ns = "default" then .ok [r]
    else if kind = "RadarrConfig" ∧ ns = "default" then .ok [films]
    else .ok []
  getSecret _ _ _ := rfl
  listResources _ _ _ := rfl
  listed kind ns rs h q hq := by
    split at h
    · rename_i hkey
      cases h
      rw [List.mem_singleton.mp hq, hkey.1, hkey.2]
      exact hr
    split at h
    · rename_i hkey
      cases h
      rw [List.mem_singleton.mp hq, hkey.1, hkey.2]
      exact ⟨rfl, rfl⟩
    · cases h
      cases hq
  view_getSecret _ _ _ := rfl
  view_listResources _ _ _ := rfl
  view_record _ _ := rfl
  register_other client registration cache s h := by
    rw [run_register r key client registration cache s h]
    rfl
  save_other q document s hq := by
    change ((if shows.Owns q then .error (.timeout "shows") else .ok q : Except Failure Resource).map
      fun _ => (), ()) = (.ok (), ())
    rw [if_neg hq]
    rfl
  find_other _ _ _ := rfl
  register_own _ _ _ _ _ := rfl
  save_own _ _ _ _ := rfl
  find_own _ _ _ := ⟨rfl, fun _ h => nomatch h⟩

/-- The shows, without an address. -/
def broken : Resource := { kind := "SonarrConfig", name := "shows" }

/-- The shows, as they should be. -/
def good : Resource :=
  { kind := "SonarrConfig", name := "shows"
    spec := [("connection", .object [("url", .string "http://shows")]),
      ("indexers", .object [("prowlarrRef", .object [("name", .string "main")])])] }

/-- The aggregator. -/
def main : Resource :=
  { kind := "ProwlarrConfig", name := "main", status := [("connected", .bool true)]
    spec := [("connection", .object [("url", .string "http://main"),
      ("apiKeySecretRef", .object [("name", .string "main-key")])])] }

/-- When the first pass is made. -/
def noon : Timestamp := ⟨2026, 1, 1, 12, 0, 0, 0, some 0⟩

/-- When the second pass is made. -/
def night : Timestamp := ⟨2026, 1, 1, 23, 0, 0, 0, some 0⟩

/-- The shows can be registered. -/
def one : Around surroundings "arr-operator" shows :=
  around good (some [("apiKey", "a2V5")]) ⟨rfl, rfl⟩

/-- They cannot be read, and there is no key for them. -/
def two : Around surroundings "arr-operator" shows := around broken none ⟨rfl, rfl⟩

theorem finite_around (r : Resource) (key : Option SecretData)
    (hr : r.kind = "SonarrConfig" ∧ r.ns = "default") (h : r.finite = true) :
    (around r key hr).Finite := by
  intro kind ns rs hlisting q hq
  change (if kind = "SonarrConfig" ∧ ns = "default" then .ok [r]
    else if kind = "RadarrConfig" ∧ ns = "default" then .ok [films]
    else .ok [] : Except Failure (List Resource)) = .ok rs at hlisting
  split at hlisting
  · cases hlisting
    rwa [List.mem_singleton.mp hq]
  split at hlisting
  · cases hlisting
    rw [List.mem_singleton.mp hq]
    rfl
  · cases hlisting
    cases hq

theorem tried_films (m : Managed) (hm : Managed.ofResource films = .ok m) :
    tried one.vault m = ["radarr-api-key"] := by
  have h : (Managed.ofResource films).map (tried one.vault) = .ok ["radarr-api-key"] := by
    decide +kernel
  rw [hm] at h
  exact Except.ok.inj h

theorem differ : DifferOnly main one two () () where
  view := rfl
  listing kind ns := by
    change (if kind = "SonarrConfig" ∧ ns = "default" then .ok [good]
      else if kind = "RadarrConfig" ∧ ns = "default" then .ok [films]
      else .ok [] : Except Failure (List Resource)).map shows.others =
      (if kind = "SonarrConfig" ∧ ns = "default" then .ok [broken]
      else if kind = "RadarrConfig" ∧ ns = "default" then .ok [films]
      else .ok [] : Except Failure (List Resource)).map shows.others
    split
    · rfl
    · rfl
  connection a ha ref href := by
    cases ha
    cases href
    rfl
  secrets a _ kind rs hrs q hq _ m hm _ name hname := by
    change (if kind = "SonarrConfig" ∧ "default" = "default" then .ok [good]
      else if kind = "RadarrConfig" ∧ "default" = "default" then .ok [films]
      else .ok [] : Except Failure (List Resource)) = .ok rs at hrs
    split at hrs
    · cases hrs
      cases hq
    split at hrs
    · cases hrs
      have hq' : q = films := List.mem_singleton.mp hq
      subst hq'
      rw [tried_films m hm, List.mem_singleton] at hname
      rw [hname]
      rfl
    · cases hrs
      cases hq


end Shelf

/-- The films take the same turn, whether or not the shows can be read and have a key. -/
theorem isolated_films :
    Shelf.one.Finite ∧ Shelf.two.Finite ∧ DifferOnly Shelf.main Shelf.one Shelf.two () () ∧
    ((∃ result xs₁ xs₂, result.processed = 0 ∧
      Shelf.one.Performs ⟨{}, Shelf.noon⟩ Shelf.main () xs₁ result ∧
      Shelf.two.Performs ⟨{}, Shelf.night⟩ Shelf.main () xs₂ result ∧
      (∀ y ∈ xs₁, y.request.ReadsSecret) ∧ ∀ y ∈ xs₂, y.request.ReadsSecret) ∨
    ∃ a client xs₁ xs₂ surveys₁ surveys₂ result₁ result₂,
      Shelf.one.Performs ⟨{}, Shelf.noon⟩ Shelf.main () xs₁ result₁ ∧
      Shelf.two.Performs ⟨{}, Shelf.night⟩ Shelf.main () xs₂ result₂ ∧
      Conducts ⟨{}, Shelf.noon⟩ Shelf.main a client xs₁ surveys₁ result₁ ∧
      Conducts ⟨{}, Shelf.night⟩ Shelf.main a client xs₂ surveys₂ result₂ ∧
      List.Forall₂ (SameTurn {} Shelf.noon Shelf.night a client)
        (Shelf.shows.otherTurns (surveys₁.flatMap (·.turns)))
        (Shelf.shows.otherTurns (surveys₂.flatMap (·.turns)))) :=
  have hone := Shelf.finite_around Shelf.good (some [("apiKey", "a2V5")]) ⟨rfl, rfl⟩ rfl
  have htwo := Shelf.finite_around Shelf.broken none ⟨rfl, rfl⟩ rfl
  ⟨hone, htwo, Shelf.differ, @isolated Shelf.surroundings {} Shelf.noon Shelf.night Shelf.shows
    Shelf.one Shelf.two () () Shelf.main rfl rfl hone htwo Shelf.differ⟩

end Steward.Coordinate

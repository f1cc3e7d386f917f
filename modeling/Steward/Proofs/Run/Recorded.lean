import Steward.Proofs.Coordinate.Conduct
import Steward.Proofs.Run.Updates

/-!
# What a coordination pass has recorded

A coordination pass without errors has put on record what it decided about each service, however
other writers come in between: its write was accepted, or the service is gone.  There is one
exception.  A pass that loses the race for a service twice drops the record (`_write_registration`),
and does not count this as an error.
-/

namespace Steward.Run

open Pass Coordinate

/-! ## 1. What replies say of the store -/

section Recalls

variable {c : Cast} {w w' w₀ : World c} {p : c.Party} {told : List Exchange} {x : Exchange}

/-- What an exchange of the party `p`, which had been told `told` by then, says of the world. -/
structure Recalls (w : World c) (p : c.Party) (told : List Exchange) (x : Exchange) : Prop where
  /-- A resource that was not there does not come back. -/
  gone : ∀ kind ns name, x = ⟨.getResource kind ns name, .ok none⟩ →
    w.store.find? kind ns name = none
  fetched : ∀ kind ns name r, x = ⟨.getResource kind ns name, .ok (some r)⟩ → r.IsAt kind ns name
  /-- A write that was accepted is logged. -/
  stored : ∀ q document after, x = ⟨.updateStatus q document, .ok after⟩ →
    ∃ y ∈ w.writes, y.party = p ∧ y.asked = told ∧ y.after.IsAt q.kind q.ns q.name ∧
      y.after.status = document

/-- What is not stored before a step is not stored after it. -/
theorem Step.find?_eq_none (h : Step w w') (hw : w.Sound) {kind ns name : String}
    (hnone : w.store.find? kind ns name = none) : w'.store.find? kind ns name = none := by
  cases hfind : w'.store.find? kind ns name with
  | none => rfl
  | some r =>
    obtain ⟨before, hbefore, -⟩ := h.moves hw kind ns name r hfind
    rw [hnone] at hbefore
    cases hbefore

theorem Recalls.step (h : Recalls w p told x) (hstep : Step w w') (hw : w.Sound) :
    Recalls w' p told x where
  gone kind ns name hx := hstep.find?_eq_none hw (h.gone kind ns name hx)
  fetched := h.fetched
  stored q document after hx := by
    obtain ⟨y, hy, hlogged⟩ := h.stored q document after hx
    exact ⟨y, hstep.writes_subset hy, hlogged⟩

/-- What is found is what is stored. -/
theorem find?_of_serves {s s' : MemoryStore} {kind ns name : String} {found : Option Resource}
    (h : Serves s x s') (hx : x = ⟨.getResource kind ns name, .ok found⟩) :
    s.find? kind ns name = found := by
  cases h with
  | found _ _ _ =>
    cases hx
    rfl
  | lost hrefused =>
    subst hx
    cases hrefused
  | elsewhere hforStore =>
    subst hx
    cases hforStore
  | _ => cases hx

/-- No status write is accepted without being logged. -/
theorem not_serves_stored {s s' : MemoryStore} {q after : Resource} {document : Json.Members} :
    ¬ Serves s ⟨.updateStatus q document, .ok after⟩ s' := by
  intro h
  cases h with
  | lost hrefused => cases hrefused
  | elsewhere hforStore => cases hforStore

theorem Replies.recalls (h : Replies w w' p told x) (hstep : Step w w') (hw : w.Sound) :
    Recalls w' p told x := by
  cases h with
  | served hserves =>
    refine ⟨fun kind ns name hx => ?_, fun kind ns name r hx => ?_, fun q document after hx => ?_⟩
    · exact hstep.find?_eq_none hw (find?_of_serves hserves hx)
    · exact MemoryStore.isAt_of_find? (find?_of_serves hserves hx)
    · exact absurd (hx ▸ hserves) not_serves_stored
  | @accepted q before document reply hcurrent harrives hwrites =>
    refine ⟨fun kind ns name hx => (nomatch hx), fun kind ns name r hx => (nomatch hx),
      fun q' document' after hx => ?_⟩
    cases hx
    rcases harrives with hreply | ⟨e, hreply⟩
    · rw [Except.ok.injEq] at hreply
      have hat : before.IsAt q.kind q.ns q.name :=
        MemoryStore.isAt_of_find? (MemoryStore.current_eq_ok hcurrent).1
      exact ⟨_, hwrites ▸ List.mem_cons_self, rfl, rfl, hat, rfl⟩
    · cases hreply

/-- **What was replied remains true.** -/
theorem Runs.recalls (hrun : Runs w₀ w) (hidle : w₀.tasks = []) :
    ∀ t ∈ w.tasks, ∀ told x rest, t.asked = told ++ x :: rest → Recalls w t.party told x := by
  induction hrun with
  | refl =>
    intro t ht
    rw [hidle] at ht
    cases ht
  | tail hbefore hstep ih =>
    intro t ht told x rest hasked
    have hsound := Runs.sound hbefore hidle
    rcases hstep.exchanges ht hasked with ⟨t₀, ht₀, hparty, rest₀, hasked₀⟩ | hreplies
    · exact hparty ▸ (ih t₀ ht₀ told x rest₀ hasked₀).step hstep hsound
    · exact hreplies.recalls hstep hsound

end Recalls

/-! ## 2. Films that are edited -/

namespace Films

def ctx : Context := ⟨{}, ⟨2024, 1, 1, 0, 0, 0, 0, some 0⟩⟩

/-- The specification of a service that does not want to be registered with its aggregator. -/
def spec (url : String) : Json.Members :=
  [("connection", .object [("url", .string url)]),
    ("indexers", .object [("prowlarrRef",
      .object [("name", .string "main"), ("autoRegister", .bool false)])])]

/-- The service after it was edited a number of times. -/
def films (url : String) (edits : Int) : Resource :=
  { kind := "RadarrConfig", name := "films", spec := spec url, generation := 1 + edits
    version := 1 + edits }

def main : Resource :=
  { kind := "ProwlarrConfig", name := "main", status := [("connected", .bool true)]
    spec := [("connection", .object [("url", .string "http://main"),
      ("apiKeySecretRef", .object [("name", .string "key")])])] }

def store (url : String) (edits : Int) : MemoryStore := { resources := [films url edits, main] }

def result : Coordination := { processed := 1, requeueAfter := some 300 }

/-- The resources of a kind, as the store lists them. -/
theorem serves_listed {s : MemoryStore} {kind : String} {rs : List Resource}
    (h : s.list kind (some "default") = rs) :
    Serves s ⟨.listResources kind "default", .ok rs⟩ s := by
  rw [← h]
  exact .listed kind "default"

/-- The first write of the record loses its race against an edit. -/
def asked (document : Json.Members) : List Exchange :=
  [⟨.getSecret "default" "key", .ok (some [("apiKey", "a2V5")])⟩,
    ⟨.listResources "SonarrConfig" "default", .ok []⟩,
    ⟨.listResources "RadarrConfig" "default", .ok [films "http://films" 0]⟩] ++
  [lostRace (films "http://films" 0) document "RadarrConfig/default/films" 1,
    reread (films "http://films" 0) (.ok (some (films "http://films:7878" 1)))]

/-- What is left once the record was written, or dropped. -/
def left : List Exchange :=
  [⟨.listResources "LidarrConfig" "default", .ok []⟩,
    ⟨.listResources "ReadarrConfig" "default", .ok []⟩]

theorem serves_left {s : MemoryStore} (hmusic : s.list "LidarrConfig" (some "default") = [])
    (hbooks : s.list "ReadarrConfig" (some "default") = []) : ∀ x ∈ left, Serves s x s := by
  intro x hx
  rcases List.mem_cons.mp hx with rfl | hx
  · exact serves_listed hmusic
  · rw [List.mem_singleton.mp hx]
    exact serves_listed hbooks

/-- A coordination pass loses the race for the films, which are edited meanwhile, and is about to
try once more. -/
theorem runs_raced : ∃ first second next,
    Runs (c := actors) ⟨store "http://films" 0, [], []⟩
      ⟨store "http://films:7878" 1, [⟨.coordinator ctx main, asked first,
        .ask (.updateStatus (films "http://films:7878" 1) second) next⟩], []⟩ ∧
    ∀ reply, failedWith? ⟨.updateStatus (films "http://films:7878" 1) second, reply⟩ = none →
      Program.Leads (next reply) left (.done (.ok result)) := by
  obtain ⟨first, second, next, next', hfirst, hsecond, hend⟩ : ∃ (first second : Json.Members)
      (next next' : Except Failure Resource → Program signature (Except Failure Coordination)),
      Program.Leads (coordinate ctx main).program ((asked first).take 3)
        (.ask (.updateStatus (films "http://films" 0) first) next) ∧
      Program.Leads (S := signature) (.ask (.updateStatus (films "http://films" 0) first) next)
        ((asked first).drop 3) (.ask (.updateStatus (films "http://films:7878" 1) second) next') ∧
      ∀ reply, failedWith? ⟨.updateStatus (films "http://films:7878" 1) second, reply⟩ = none →
        Program.Leads (next' reply) left (.done (.ok result)) := by
    refine ⟨_, _, _, _, .ask (.ask (.ask (.refl _))), .ask (.ask (.refl _)), ?_⟩
    intro reply hreply
    rcases accepted_or_lost hreply with ⟨stored, rfl⟩ | ⟨key, version, rfl⟩
    · exact .ask (.ask (.refl _))
    · exact .ask (.ask (.refl _))
  refine ⟨first, second, next', ?_, hend⟩
  have hgiven : ∀ r ∈ [main], (store "http://films" 0).find? r.kind r.ns r.name = some r := by
    intro r hr
    rw [List.mem_singleton.mp hr]
    rfl
  have hreads : ∀ x ∈ (asked first).take 3,
      Serves (store "http://films" 0) x (store "http://films" 0) := by
    intro x hx
    rcases List.mem_cons.mp hx with rfl | hx
    · exact .elsewhere rfl
    rcases List.mem_cons.mp hx with rfl | hx
    · exact serves_listed List.mergeSort_nil
    · rw [List.mem_singleton.mp hx]
      exact serves_listed (List.mergeSort_singleton _)
  have hretries : ∀ x ∈ (asked first).drop 3,
      Serves (store "http://films:7878" 1) x (store "http://films:7878" 1) := by
    intro x hx
    rcases List.mem_cons.mp hx with rfl | hx
    · exact .lost rfl
    · rw [List.mem_singleton.mp hx]
      exact .found "RadarrConfig" "default" "films"
  have hbegin := @Step.begin actors ⟨store "http://films" 0, [], []⟩ (.coordinator ctx main) trivial
    hgiven
  have hread := Relation.ReflTransGen.head hbegin
    (runs_serves (c := actors) (p := .coordinator ctx main) hfirst hreads [])
  exact (hread.tail (.edit "RadarrConfig" "default" "films" (spec "http://films:7878"))).trans
    (runs_serves (c := actors) (p := .coordinator ctx main) hsecond hretries _)

end Films

/-! ## 3. Records -/

variable {w₀ w : World actors} {ctx : Context} {r : Resource} {asked : List Exchange}
  {result : Coordination}

/-- A status write of the pass that has asked `asked` put the record into the status of the
resource `q`, and was accepted. -/
def Recorded (w : World actors) (ctx : Context) (r : Resource) (asked : List Exchange)
    (q : Resource) (record : RegistrationRecord) : Prop :=
  ∃ x ∈ w.writes, ∃ s : Status, x.party = .coordinator ctx r ∧ x.asked <+: asked ∧
    x.after.IsAt q.kind q.ns q.name ∧
    x.after.status = { s with registration := some record }.toMembers

/-- The turn ended with a second lost race for the resource that it is about. -/
def LostTwice (t : Turn) : Prop :=
  ∃ fresh first second key version key' version', t.written =
    [lostRace t.resource first key version, reread t.resource (.ok (some fresh)),
      lostRace fresh second key' version']

/-- What became of the record of a turn, if no error came of writing it. -/
theorem recorded_of_turn {a : Managed} {client : AggregatorClient} {t : Turn} {after : Cache}
    {record : RegistrationRecord} {error : Option String} (hgoes : Goes ctx a client t after)
    (hrecalls : ∀ told x rest, asked = told ++ x :: rest →
      Recalls w (.coordinator ctx r) told x)
    (hwritten : t.written <:+: asked) (hdecision : t.decision = some (record, error))
    (hsaved : t.unsaved? = none) :
    Recorded w ctx r asked t.resource record ∨
      w.store.find? t.resource.kind t.resource.ns t.resource.name = none ∨ LostTwice t := by
  have hrecalls' (us : List Exchange) {vs : List Exchange} {x : Exchange}
      (hx : t.written = us ++ x :: vs) :
      ∃ told, told <+: asked ∧ Recalls w (.coordinator ctx r) told x := by
    obtain ⟨pre, post, hasked⟩ := hwritten
    rw [hx, List.append_assoc, List.append_assoc, List.cons_append, ← List.append_assoc] at hasked
    exact ⟨pre ++ us, ⟨_, hasked⟩, hrecalls _ _ _ hasked.symm⟩
  have hrecorded (us : List Exchange) {vs : List Exchange} {q stored : Resource} {m : Managed}
      (hx : t.written = us ++ ⟨.updateStatus q (withRecord m record), .ok stored⟩ :: vs)
      (hq : q.IsAt t.resource.kind t.resource.ns t.resource.name) :
      Recorded w ctx r asked t.resource record := by
    obtain ⟨told, htold, hrecalled⟩ := hrecalls' us hx
    obtain ⟨y, hy, hparty, hasked, hat, hstatus⟩ := hrecalled.stored _ _ _ rfl
    obtain ⟨hkind, hns, hname⟩ := hq
    rw [hkind, hns, hname] at hat
    exact ⟨y, hy, m.status, hparty, hasked ▸ htold, hat, hstatus⟩
  cases hgoes with
  | skipped _ _ => cases hdecision
  | @decided t m after hlive hm hdecide hsaves =>
  rw [hdecision] at hsaves
  cases hsaves with
  | record _ hrecords =>
  have hresource := Managed.resource_of_ofResource hm
  generalize hxs : t.written = xs at hrecords
  rw [Turn.unsaved?, hxs] at hsaved
  cases hrecords with
  | settled reply hfirst =>
    rcases accepted_or_lost hsaved with ⟨stored, rfl⟩ | ⟨key, version, rfl⟩
    · exact Or.inl (hrecorded [] hxs (hresource ▸ ⟨rfl, rfl, rfl⟩))
    · exact absurd rfl (hfirst key version)
  | @unread found key version hend =>
    have hmissing := missing_of_reread hsaved hend
    obtain ⟨told, -, hrecalled⟩ := hrecalls' [_] hxs
    rw [hresource] at hrecalled
    exact Or.inr (Or.inl (hrecalled.gone _ _ _ (by rw [hmissing])))
  | @again fresh m' key version reply hfresh =>
    rcases accepted_or_lost hsaved with ⟨stored, rfl⟩ | ⟨key', version', rfl⟩
    · obtain ⟨told, -, hrecalled⟩ := hrecalls' [_] hxs
      rw [hresource] at hrecalled
      exact Or.inl (hrecorded [_, _] hxs (hrecalled.fetched _ _ _ _ rfl))
    · rw [hresource] at hxs
      exact Or.inr (Or.inr ⟨_, _, _, _, _, _, _, hxs⟩)

/-! ## 4. Passes without errors -/

/-- **A pass without errors has recorded what it decided, or lost a race twice.**  However passes
and other writers take turns: if a coordination pass ends without errors, the record of each
decision was written by the pass and accepted, or the service is not there any more, or both writes
of the record have lost their races. -/
theorem recorded_or_lost_twice (hidle : w₀.tasks = []) (hrun : Runs w₀ w)
    (ht : ⟨.coordinator ctx r, asked, .done (.ok result)⟩ ∈ w.tasks) (hok : result.errors = []) :
    ∃ surveys, Passes ctx r asked surveys result ∧
      ∀ t ∈ surveys.flatMap (·.turns), ∀ record error, t.decision = some (record, error) →
        error = none ∧
        (Recorded w ctx r asked t.resource record ∨
          w.store.find? t.resource.kind t.resource.ns t.resource.name = none ∨ LostTwice t) := by
  obtain ⟨after, hfollows⟩ := (hrun.sound hidle _ ht).follows_of_done rfl
  have hprogram : Program.Follows (coordinate ctx r).program asked (.ok result) :=
    follows_program.mpr ⟨after, hfollows⟩
  have hrecalls : ∀ told x rest, asked = told ++ x :: rest →
      Recalls w (.coordinator ctx r) told x := hrun.recalls hidle _ ht
  rcases passes_of_follows hprogram with ⟨hbroken, -⟩ | ⟨surveys, result', hresult, hpasses⟩
  · cases hbroken
  rw [Except.ok.injEq] at hresult
  subst hresult
  refine ⟨surveys, hpasses, ?_⟩
  cases hpasses with
  | idle _ _ => exact fun t ht => nomatch ht
  | @conducted a client _ _ hconducts =>
  obtain ⟨reads, mid, last, -, hasked, hchain⟩ := hconducts.asks
  intro t hturn record error hdecision
  obtain ⟨after, hgoes⟩ := hchain.exists_step t hturn
  obtain ⟨herror, hunsaved⟩ := List.append_eq_nil_iff.mp (hconducts.errors_eq_nil hok hturn)
  have hsaved : t.unsaved? = none := by
    cases h : t.unsaved? with
    | none => rfl
    | some e =>
      rw [h] at hunsaved
      cases hunsaved
  have hwritten : t.written <:+: asked :=
    (List.suffix_append t.asked t.written).isInfix.trans (hconducts.exchanges_infix hturn)
  refine ⟨?_, recorded_of_turn hgoes hrecalls hwritten hdecision hsaved⟩
  cases error with
  | none => rfl
  | some e =>
    rw [Turn.error?, hdecision] at herror
    cases herror

/-- The second write is accepted. -/
theorem recorded_or_lost_twice_films : ∃ (w : World actors) (asked : List Exchange)
      (result : Coordination),
    Runs ⟨Films.store "http://films" 0, [], []⟩ w ∧
    ⟨.coordinator Films.ctx Films.main, asked, .done (.ok result)⟩ ∈ w.tasks ∧
    result.errors = [] ∧ result.processed = 1 ∧ w.writes.length = 1 ∧
    ∃ surveys, Passes Films.ctx Films.main asked surveys result ∧
      ∀ t ∈ surveys.flatMap (·.turns), ∀ record error, t.decision = some (record, error) →
        error = none ∧
        (Recorded w Films.ctx Films.main asked t.resource record ∨
          w.store.find? t.resource.kind t.resource.ns t.resource.name = none ∨ LostTwice t) := by
  obtain ⟨first, second, next, hrun, hend⟩ := Films.runs_raced
  let fresh : Resource := Films.films "http://films:7878" 1
  have hwrite := @Step.write actors
    ⟨Films.store "http://films:7878" 1, [⟨.coordinator Films.ctx Films.main, Films.asked first,
      .ask (.updateStatus fresh second) next⟩], []⟩
    [] [] (.coordinator Films.ctx Films.main) _ fresh fresh second next _ rfl rfl (Or.inl rfl)
  have hcurrent : (Films.store "http://films:7878" 1).current fresh = .ok fresh := rfl
  rw [MemoryStore.updateStatus_of_current hcurrent] at hwrite
  let store : MemoryStore :=
    (Films.store "http://films:7878" 1).put (MemoryStore.written fresh second)
  have hleft : ∀ x ∈ Films.left, Serves store x store :=
    Films.serves_left List.mergeSort_nil List.mergeSort_nil
  have hdone := (hrun.tail hwrite).trans (runs_serves (c := actors)
    (p := .coordinator Films.ctx Films.main) (hend _ rfl) hleft _)
  exact ⟨_, _, _, hdone, List.mem_cons_self, rfl, rfl, rfl,
    recorded_or_lost_twice rfl hdone List.mem_cons_self rfl⟩

/-- The record of the films is dropped: they are edited once more before the second write, and the
pass says that nothing went wrong. -/
theorem not_recorded_films : ∃ (w : World actors) (asked : List Exchange) (result : Coordination),
    Runs ⟨Films.store "http://films" 0, [], []⟩ w ∧
    ⟨.coordinator Films.ctx Films.main, asked, .done (.ok result)⟩ ∈ w.tasks ∧
    result.errors = [] ∧ result.processed = 1 ∧
    (w.store.find? "RadarrConfig" "default" "films").isSome ∧ w.writes = [] := by
  obtain ⟨first, second, next, hrun, hend⟩ := Films.runs_raced
  let store : MemoryStore := Films.store "http://films:8787" 2
  have hleft : ∀ x ∈ Films.left, Serves store x store :=
    Films.serves_left List.mergeSort_nil List.mergeSort_nil
  have hserves : ∀ x ∈ lostRace (Films.films "http://films:7878" 1) second
      "RadarrConfig/default/films" 2 :: Films.left, Serves store x store := by
    intro x hx
    rcases List.mem_cons.mp hx with rfl | hx
    · exact .lost rfl
    · exact hleft x hx
  have hedit := hrun.tail (.edit "RadarrConfig" "default" "films" (Films.spec "http://films:8787"))
  have hdone := hedit.trans (runs_serves (c := actors) (p := .coordinator Films.ctx Films.main)
    (.ask (hend _ rfl)) hserves _)
  exact ⟨_, _, _, hdone, List.mem_cons_self, rfl, rfl, rfl, rfl⟩

end Steward.Run

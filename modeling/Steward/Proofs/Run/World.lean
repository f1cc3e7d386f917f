import Mathlib.Logic.Relation
import Steward.Proofs.Pass.Told
import Steward.Proofs.Store.Memory

/-!
# Runs

Passes that work on one store side by side.  A pass asks one request at a time, and between two of
them anything may happen: other passes go on, begin or are given up, and users write.  A request to
the store is carried out or lost, and so is its reply; everything else is replied to at will.  The
status writes that the store accepts are logged, the latest first.

A pass has always come to where its replies led it, and the store knows all that the pass was given
or has fetched (`Task.Sound`).  So every accepted write is based on what is stored (`Accepts`), and
a property of a run is proved from what these writes and all other steps do (`Run.induct`).
-/

namespace Steward.Run

open Pass

/-! ## 1. Worlds -/

/-- The parties of a run: their passes, the resources that each is given as they are stored, and
when one may take part. -/
structure Cast where
  Party : Type
  Result : Party → Type
  pass : (p : Party) → Pass (Result p)
  given : Party → List Resource
  Admits : Party → Prop

variable (c : Cast)

/-- A party at work: what it has asked and was replied, and what is left of its pass. -/
structure Task where
  party : c.Party
  asked : List Exchange
  rest : Program signature (Except Failure (c.Result party))

/-- A status write: who wrote after which exchanges, and the resource before and after. -/
structure Write where
  party : c.Party
  asked : List Exchange
  before : Resource
  after : Resource

/-- The store, the parties at work, and the log of status writes. -/
structure World where
  store : MemoryStore
  tasks : List (Task c) := []
  writes : List (Write c) := []

/-! ## 2. Replies -/

/-- The request is one to the store of resources. -/
def forStore : Request → Bool
  | .getResource .. | .listResources .. | .updateStatus .. | .addFinalizer ..
  | .removeFinalizer .. => true
  | _ => false

/-- A request to the store failed. -/
def refused : Exchange → Bool
  | ⟨.getResource .., .error _⟩ | ⟨.listResources .., .error _⟩ | ⟨.updateStatus .., .error _⟩
  | ⟨.addFinalizer .., .error _⟩ | ⟨.removeFinalizer .., .error _⟩ => true
  | _ => false

/-- The resource that a reply brings. -/
def fetched : Exchange → Option Resource
  | ⟨.getResource .., .ok r⟩ => r
  | _ => none

/-- The reply arrives, or a failure in its place. -/
def Arrives {α : Type} (sent reply : Except Failure α) : Prop :=
  reply = sent ∨ ∃ e, reply = .error e

/-- What may be replied to a request, and what the store becomes by it, save for status writes that
are accepted. -/
inductive Serves (s : MemoryStore) : Exchange → MemoryStore → Prop where
  | found (kind ns name : String) :
      Serves s ⟨.getResource kind ns name, .ok (s.find? kind ns name)⟩ s
  | listed (kind ns : String) : Serves s ⟨.listResources kind ns, .ok (s.list kind (some ns))⟩ s
  | finalizerAdded (r : Resource) (finalizer : String) {reply : Except Failure Resource} :
      Arrives (s.addFinalizer r finalizer).1 reply →
      Serves s ⟨.addFinalizer r finalizer, reply⟩ (s.addFinalizer r finalizer).2
  | finalizerRemoved (r : Resource) (finalizer : String)
      {reply : Except Failure (Option Resource)} :
      Arrives (s.removeFinalizer r finalizer).1 reply →
      Serves s ⟨.removeFinalizer r finalizer, reply⟩ (s.removeFinalizer r finalizer).2
  | lost {x : Exchange} : refused x = true → Serves s x s
  | elsewhere {x : Exchange} : forStore x.request = false → Serves s x s

/-! ## 3. Steps -/

variable {c} {w w' w₀ : World c}

/-- A step of the world. -/
inductive Step : World c → World c → Prop where
  /-- A party begins; what it is given is stored at this time. -/
  | begin {w : World c} (p : c.Party) : c.Admits p →
      (∀ r ∈ c.given p, w.store.find? r.kind r.ns r.name = some r) →
      Step w { w with tasks := ⟨p, [], (c.pass p).program⟩ :: w.tasks }
  /-- A request is replied to. -/
  | ask {w : World c} {pre post : List (Task c)} {p : c.Party} {asked : List Exchange}
      {request : Request} {next : request.Reply → Program signature (Except Failure (c.Result p))}
      {reply : request.Reply} {store : MemoryStore} :
      w.tasks = pre ++ ⟨p, asked, .ask request next⟩ :: post →
      Serves w.store ⟨request, reply⟩ store →
      Step w { w with store, tasks := pre ++ ⟨p, asked ++ [⟨request, reply⟩], next reply⟩ :: post }
  /-- A status write is accepted. -/
  | write {w : World c} {pre post : List (Task c)} {p : c.Party} {asked : List Exchange}
      {r before : Resource} {status : Json.Members}
      {next : Except Failure Resource → Program signature (Except Failure (c.Result p))}
      {reply : Except Failure Resource} :
      w.tasks = pre ++ ⟨p, asked, .ask (.updateStatus r status) next⟩ :: post →
      w.store.current r = .ok before →
      Arrives (w.store.updateStatus r status).1 reply →
      Step w
        { store := (w.store.updateStatus r status).2
          tasks := pre ++ ⟨p, asked ++ [⟨.updateStatus r status, reply⟩], next reply⟩ :: post
          writes := ⟨p, asked, before, MemoryStore.written before status⟩ :: w.writes }
  /-- A party is done, or gives up. -/
  | leave {w : World c} {pre post : List (Task c)} {t : Task c} : w.tasks = pre ++ t :: post →
      Step w { w with tasks := pre ++ post }
  /-- A user writes a specification. -/
  | edit {w : World c} (kind ns name : String) (spec : Json.Members) :
      Step w { w with store := w.store.setSpec kind ns name spec }
  /-- A user requests a deletion. -/
  | delete {w : World c} (kind ns name : String) (now : Timestamp) :
      Step w { w with store := w.store.requestDeletion kind ns name now }

/-- Any number of steps. -/
def Runs : World c → World c → Prop := Relation.ReflTransGen Step

/-! ## 4. What steps do -/

/-- The party was admitted, has come to where its replies led it, and the store knows all that it
was given or has fetched. -/
structure Task.Sound (s : MemoryStore) (t : Task c) : Prop where
  admitted : c.Admits t.party
  leads : Program.Leads (c.pass t.party).program t.asked t.rest
  known : ∀ r ∈ c.given t.party ++ t.asked.filterMap fetched, s.Known r

/-- All parties are sound. -/
def World.Sound (w : World c) : Prop := ∀ t ∈ w.tasks, t.Sound w.store

/-- The step does not write any status. -/
structure Spares (w w' : World c) : Prop where
  moves : MemoryStore.Moves MemoryStore.SameStatus w.store w'.store
  writes : w'.writes = w.writes

/-- The step is the status write `x`, asked for with the resource `r`. -/
structure Accepts (w w' : World c) (x : Write c) (r : Resource) (status : Json.Members) : Prop where
  admitted : c.Admits x.party
  follows : ∃ reply rest out after,
    Follows (c.pass x.party) [] (x.asked ++ ⟨.updateStatus r status, reply⟩ :: rest) out after
  known : ∀ q ∈ c.given x.party ++ x.asked.filterMap fetched, w.store.Known q
  current : w.store.current r = .ok x.before
  after : x.after = MemoryStore.written x.before status
  store : w'.store = w.store.put x.after
  writes : w'.writes = x :: w.writes

theorem Task.Sound.moves {s s' : MemoryStore} {t : Task c} {P : Resource → Resource → Prop}
    (h : t.Sound s) (hs : MemoryStore.Moves P s s') : t.Sound s' :=
  ⟨h.admitted, h.leads, fun r hr => (h.known r hr).moves hs⟩

theorem moves_serves {s s' : MemoryStore} {x : Exchange} (h : Serves s x s') :
    MemoryStore.Moves MemoryStore.SameStatus s s' := by
  cases h with
  | finalizerAdded r finalizer _ => exact MemoryStore.moves_addFinalizer s r finalizer
  | finalizerRemoved r finalizer _ => exact MemoryStore.moves_removeFinalizer s r finalizer
  | _ => exact MemoryStore.Moves.refl _ s

/-- A request that failed brings nothing. -/
theorem brought_of_refused {x : Exchange} (h : refused x = true) : brought x = [] := by
  obtain ⟨request, reply⟩ := x
  cases request with
  | getResource kind ns name =>
    cases reply with
    | ok q => cases h
    | error e => rfl
  | listResources kind ns =>
    cases reply with
    | ok q => cases h
    | error e => rfl
  | _ => rfl

/-- Only the store brings resources. -/
theorem brought_of_elsewhere {x : Exchange} (h : forStore x.request = false) : brought x = [] := by
  obtain ⟨request, reply⟩ := x
  cases request with
  | getResource kind ns name => cases h
  | listResources kind ns => cases h
  | _ => rfl

theorem mem_brought_of_fetched {x : Exchange} {r : Resource} (h : r ∈ fetched x) :
    r ∈ brought x := by
  obtain ⟨request, reply⟩ := x
  cases request with
  | getResource kind ns name =>
    cases reply with
    | ok q => exact Option.mem_toList.mpr h
    | error e => cases h
  | _ => cases h

/-- What is fetched is stored at that time. -/
theorem known_fetched {s s' : MemoryStore} {x : Exchange} (h : Serves s x s') :
    ∀ r ∈ fetched x, s.Known r := by
  intro r hr
  cases h with
  | found kind ns name => exact MemoryStore.known_of_find? hr
  | listed kind ns => cases hr
  | finalizerAdded q finalizer _ => cases hr
  | finalizerRemoved q finalizer _ => cases hr
  | lost hx => exact (List.ne_nil_of_mem (mem_brought_of_fetched hr) (brought_of_refused hx)).elim
  | elsewhere hx =>
    exact (List.ne_nil_of_mem (mem_brought_of_fetched hr) (brought_of_elsewhere hx)).elim

/-- A task that was replied to stays sound in the store after it. -/
theorem Task.Sound.replied {s s' : MemoryStore} {p : c.Party} {asked : List Exchange}
    {request : Request} {next : request.Reply → Program signature (Except Failure (c.Result p))}
    {reply : request.Reply} {P : Resource → Resource → Prop}
    (h : Task.Sound (c := c) s ⟨p, asked, .ask request next⟩) (hs : MemoryStore.Moves P s s')
    (hknown : ∀ r ∈ fetched ⟨request, reply⟩, s.Known r) :
    Task.Sound (c := c) s' ⟨p, asked ++ [⟨request, reply⟩], next reply⟩ where
  admitted := h.admitted
  leads := h.leads.snoc reply
  known r hr := by
    rw [List.filterMap_append, ← List.append_assoc, List.mem_append] at hr
    rcases hr with hr | hr
    · exact (h.known r hr).moves hs
    · rw [List.mem_filterMap] at hr
      obtain ⟨x, hx, hr⟩ := hr
      rw [List.mem_singleton.mp hx] at hr
      exact (hknown r hr).moves hs

/-- The tasks beside one that was replied to. -/
theorem sound_replace {s s' : MemoryStore} {pre post : List (Task c)} {t t' : Task c}
    {P : Resource → Resource → Prop} (h : ∀ q ∈ pre ++ t :: post, q.Sound s)
    (hs : MemoryStore.Moves P s s') (ht : t'.Sound s') : ∀ q ∈ pre ++ t' :: post, q.Sound s' := by
  intro q hq
  rcases List.mem_append.mp hq with hq | hq
  · exact (h q (List.mem_append_left _ hq)).moves hs
  · rcases List.mem_cons.mp hq with rfl | hq
    · exact ht
    · exact (h q (List.mem_append_right _ (List.mem_cons_of_mem _ hq))).moves hs

/-- **What a step does.**  All parties stay sound, and the step either leaves every status alone or
is a status write that is based on what is stored. -/
theorem Step.spec (h : Step w w') (hw : w.Sound) :
    w'.Sound ∧ (Spares w w' ∨ ∃ x r status, Accepts w w' x r status) := by
  cases h with
  | begin p hp hgiven =>
    refine ⟨fun t ht => ?_, Or.inl ⟨.refl _ _, rfl⟩⟩
    rcases List.mem_cons.mp ht with rfl | ht
    · refine ⟨hp, .refl _, fun r hr => ?_⟩
      rw [List.filterMap_nil, List.append_nil] at hr
      exact MemoryStore.known_of_find? (hgiven r hr)
    · exact hw t ht
  | @ask pre post p asked request next reply store htasks hserves =>
    have hmoves := moves_serves hserves
    rw [World.Sound, htasks] at hw
    have ht := hw ⟨p, asked, .ask request next⟩ (List.mem_append_right _ List.mem_cons_self)
    exact ⟨sound_replace hw hmoves (ht.replied hmoves (known_fetched hserves)),
      Or.inl ⟨hmoves, rfl⟩⟩
  | @write pre post p asked r before status next reply htasks hcurrent harrives =>
    have hstore := @MemoryStore.updateStatus_of_current _ _ _ status hcurrent
    have hmoves := @MemoryStore.moves_written _ _ _ status hcurrent
    rw [World.Sound, htasks] at hw
    have ht := hw ⟨p, asked, .ask (.updateStatus r status) next⟩
      (List.mem_append_right _ List.mem_cons_self)
    rw [hstore]
    refine ⟨sound_replace hw hmoves (ht.replied hmoves fun q hq => nomatch hq), Or.inr ?_⟩
    obtain ⟨rest, out, hprogram⟩ := (ht.leads.snoc reply).exists_follows
    obtain ⟨after, hfollows⟩ := follows_program.mp hprogram
    rw [List.append_assoc] at hfollows
    exact ⟨⟨p, asked, before, _⟩, r, status,
      ⟨ht.admitted, ⟨reply, rest, out, after, hfollows⟩, ht.known, hcurrent, rfl, rfl, rfl⟩⟩
  | @leave pre post t htasks =>
    refine ⟨fun q hq => hw q ?_, Or.inl ⟨.refl _ _, rfl⟩⟩
    rw [htasks]
    rcases List.mem_append.mp hq with hq | hq
    · exact List.mem_append_left _ hq
    · exact List.mem_append_right _ (List.mem_cons_of_mem _ hq)
  | edit kind ns name spec =>
    have hmoves := MemoryStore.moves_setSpec w.store kind ns name spec
    exact ⟨fun t ht => (hw t ht).moves hmoves, Or.inl ⟨hmoves, rfl⟩⟩
  | delete kind ns name now =>
    have hmoves := MemoryStore.moves_requestDeletion w.store kind ns name now
    exact ⟨fun t ht => (hw t ht).moves hmoves, Or.inl ⟨hmoves, rfl⟩⟩

section

variable {x : Write c} {r : Resource} {status : Json.Members} {kind ns name : String}

/-- A step that does not write any status leaves each one as it was. -/
theorem Spares.same_status (h : Spares w w') (hr : w'.store.find? kind ns name = some r) :
    ∃ before, w.store.find? kind ns name = some before ∧ r.status = before.status := by
  obtain ⟨before, hbefore, hmove⟩ := h.moves kind ns name r hr
  refine ⟨before, hbefore, ?_⟩
  rcases hmove with rfl | ⟨-, hstatus⟩
  · rfl
  · exact hstatus

/-- A status write is based on what is stored under its key. -/
theorem Accepts.find?_before (h : Accepts w w' x r status) (hat : x.before.IsAt kind ns name) :
    w.store.find? kind ns name = some x.before := by
  obtain ⟨hfind, -⟩ := MemoryStore.current_eq_ok h.current
  obtain ⟨h₁, h₂, h₃⟩ := MemoryStore.isAt_of_find? hfind
  obtain ⟨h₁', h₂', h₃'⟩ := hat
  rwa [← h₁, ← h₂, ← h₃, h₁', h₂', h₃'] at hfind

theorem Accepts.find?_after (h : Accepts w w' x r status) (hat : x.before.IsAt kind ns name) :
    w'.store.find? kind ns name = some x.after := by
  obtain ⟨rfl, rfl, rfl⟩ : x.after.IsAt kind ns name := by rw [h.after]; exact hat
  rw [h.store]
  exact MemoryStore.find?_put_self _ _

theorem Accepts.find?_of_ne (h : Accepts w w' x r status) (hat : ¬ x.before.IsAt kind ns name) :
    w'.store.find? kind ns name = w.store.find? kind ns name := by
  have hafter : ¬ x.after.IsAt kind ns name := by rw [h.after]; exact hat
  rw [h.store, MemoryStore.find?_put_of_ne _ hafter]

end

/-- **Induction over runs.**  What holds at first, where nobody is at work, and is kept by the steps
that spare statuses and by the accepted status writes, holds at any time. -/
theorem Runs.induct {I : World c → Prop} (hrun : Runs w₀ w) (hidle : w₀.tasks = []) (h₀ : I w₀)
    (hspares : ∀ w w' : World c, I w → Spares w w' → I w')
    (haccepts : ∀ (w w' : World c) (x : Write c) (r : Resource) (status : Json.Members),
      I w → Accepts w w' x r status → I w') : I w := by
  have hboth : w.Sound ∧ I w := by
    induction hrun with
    | refl =>
      refine ⟨fun t ht => ?_, h₀⟩
      rw [hidle] at ht
      cases ht
    | tail _ hstep ih =>
      obtain ⟨hsound, hkind⟩ := hstep.spec ih.1
      refine ⟨hsound, ?_⟩
      rcases hkind with hkind | ⟨x, r, status, hkind⟩
      · exact hspares _ _ ih.2 hkind
      · exact haccepts _ _ x r status ih.2 hkind
  exact hboth.2

/-! ## 5. A party alone -/

variable {store : MemoryStore} {writes : List (Write c)} {p : c.Party} {xs : List Exchange}

/-- A party alone goes on as long as its requests do not change the store. -/
theorem runs_serves {rest rest' : Program signature (Except Failure (c.Result p))}
    (h : Program.Leads rest xs rest') (hxs : ∀ x ∈ xs, Serves store x store)
    (asked : List Exchange) :
    Runs ⟨store, [⟨p, asked, rest⟩], writes⟩ ⟨store, [⟨p, asked ++ xs, rest'⟩], writes⟩ := by
  induction h generalizing asked with
  | refl rest =>
    rw [List.append_nil]
    exact .refl
  | @ask r next reply xs rest' _ ih =>
    have hstep : Step ⟨store, [⟨p, asked, .ask r next⟩], writes⟩
        ⟨store, [⟨p, asked ++ [⟨r, reply⟩], next reply⟩], writes⟩ :=
      @Step.ask c _ [] [] _ _ _ _ _ _ rfl (hxs _ List.mem_cons_self)
    have hrest := ih (fun x hx => hxs x (List.mem_cons_of_mem _ hx)) (asked ++ [⟨r, reply⟩])
    rw [List.append_assoc] at hrest
    exact .head hstep hrest

/-- A party alone that asks only others before it writes a status gets it written. -/
theorem runs_write {r before : Resource} {status : Json.Members}
    {goOn : Except Failure Resource → Program signature (Except Failure (c.Result p))}
    (hp : c.Admits p) (hgiven : ∀ q ∈ c.given p, store.find? q.kind q.ns q.name = some q)
    (h : Program.Leads (c.pass p).program xs (.ask (.updateStatus r status) goOn))
    (hxs : ∀ x ∈ xs, forStore x.request = false) (hcurrent : store.current r = .ok before) :
    let after := MemoryStore.written before status
    Runs ⟨store, [], writes⟩
      ⟨store.put after, [⟨p, xs ++ [⟨.updateStatus r status, .ok after⟩], goOn (.ok after)⟩],
        ⟨p, xs, before, after⟩ :: writes⟩ := by
  have hbegin := @Step.begin c ⟨store, [], writes⟩ p hp hgiven
  have hwrite := @Step.write c ⟨store, [⟨p, xs, .ask (.updateStatus r status) goOn⟩], writes⟩ [] []
    p xs r before status goOn _ rfl hcurrent (Or.inl rfl)
  rw [MemoryStore.updateStatus_of_current hcurrent] at hwrite
  exact .head hbegin ((runs_serves h (fun x hx => .elsewhere (hxs x hx)) []).tail hwrite)

end Steward.Run

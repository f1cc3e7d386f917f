import Steward.Proofs.Coordinate.Record
import Steward.Proofs.Reconcile.Writes
import Steward.Proofs.Run.World
import Steward.Proofs.Status.RoundTrip

/-!
# Writers of statuses

Reconciliation passes and registration writes side by side.  A status write of either amends the
status that is stored (`Amends`): a pass writes the status of its behaviour or says that it cannot
read the resource, and a registration write puts a record into what it finds.  Whatever is written
this way is read back.
-/

namespace Steward.Run

open Pass Reconcile

/-! ## 1. Parties -/

/-- Those that write statuses: passes over a resource as it is stored, and registration writes for
one. -/
inductive Writer where
  | pass (ctx : Context) (r : Resource)
  | registration (m : Managed) (record : RegistrationRecord)

namespace Writer

/-- What a writer ends with. -/
def Result : Writer → Type
  | .pass .. => Reconciliation
  | .registration .. => Unit

def program : (p : Writer) → Pass p.Result
  | .pass ctx r => reconcile ctx r
  | .registration m record => Coordinate.writeRecord m record

def given : Writer → List Resource
  | .pass _ r => [r]
  | .registration m _ => [m.resource]

/-- The clock of a pass shows a point in time, and so does a record; a registration is written for a
resource that can be read. -/
def Admits : Writer → Prop
  | .pass ctx _ => ctx.now.Valid
  | .registration m record => Managed.ofResource m.resource = .ok m ∧ record.Dated

/-- The writer is a pass. -/
def isPass : Writer → Bool
  | .pass .. => true
  | .registration .. => false

end Writer

/-- Reconciliation passes and registration writes. -/
@[reducible]
def writers : Cast := ⟨Writer, Writer.Result, Writer.program, Writer.given, Writer.Admits⟩

/-! ## 2. What is written -/

/-- The writer that has asked `asked` amends the status `s` of the resource `r`. -/
inductive Amends : Writer → List Exchange → Resource → Status → Status → Prop where
  /-- An active pass writes the status of its behaviour. -/
  | active {ctx : Context} {r : Resource} {m : Managed} {b : Behaviour} {asked reads : List Exchange}
      {mid : Cache} :
      ctx.now.Valid → Managed.ofResource r = .ok m →
      Follows (Secret.resolve m) [] reads b.secrets mid → quiet asked = reads ++ b.calls ctx m →
      Amends (.pass ctx r) asked r m.status (b.status ctx m)
  /-- A pass says that the resource cannot be read. -/
  | invalid {ctx : Context} {r : Resource} {s : Status} {asked : List Exchange} (message : String) :
      ctx.now.Valid → Status.ofMembers r.status = .ok s →
      Amends (.pass ctx r) asked r s
        { s with conditions := s.conditions.set Condition.ready Condition.fails
                   Reason.invalidSpec.name message (some r.generation) ctx.now }
  /-- A registration write puts its record into the status. -/
  | registration {m : Managed} {record : RegistrationRecord} {r : Resource} {s : Status}
      {asked : List Exchange} :
      record.Dated → Status.ofMembers r.status = .ok s →
      Amends (.registration m record) asked r s { s with registration := some record }

variable {w w' : World writers} {x : Write writers} {r : Resource} {document : Json.Members}
  {s s' : Status}

theorem amends_pass {ctx : Context} {q : Resource} {asked rest : List Exchange}
    {reply : Except Failure Resource} {out : Except Failure Reconciliation} {after : Cache}
    (hnow : ctx.now.Valid) (hread : Status.ofMembers q.status = .ok s)
    (h : Follows (reconcile ctx q) [] (asked ++ ⟨.updateStatus r document, reply⟩ :: rest) out
      after) :
    r = q ∧ ∃ s', Amends (.pass ctx q) asked q s s' ∧ document = s'.toMembers := by
  obtain ⟨hr, hwrites⟩ := follows_reconcile_updateStatus h
  refine ⟨hr, ?_⟩
  cases hwrites with
  | @active m b reads mid hm hreads hquiet =>
    have hstatus := Managed.status_of_ofResource hm
    rw [hread, Except.ok.injEq] at hstatus
    rw [hstatus]
    exact ⟨b.status ctx m, .active hnow hm hreads hquiet, rfl⟩
  | @invalid error _ =>
    refine ⟨_, .invalid error.message hnow hread, ?_⟩
    rw [invalidStatus, hread]

/-- **What a status write does.**  It is based on the status that is stored, and amends it. -/
theorem Accepts.amends (h : Accepts w w' x r document)
    (hread : Status.ofMembers x.before.status = .ok s) :
    ∃ s', Amends x.party x.asked x.before s s' ∧ document = s'.toMembers := by
  obtain ⟨party, asked, before, written⟩ := x
  obtain ⟨reply, rest, out, after, hfollows⟩ := h.follows
  dsimp only at hread hfollows ⊢
  cases party with
  | pass ctx q =>
    have hknown : w.store.Known q := h.known q (List.mem_append_left _ List.mem_cons_self)
    have hr := (follows_reconcile_updateStatus hfollows).1
    have hbefore : before = q := hknown.eq_of_current (hr ▸ h.current)
    rw [hbefore] at hread ⊢
    exact (amends_pass h.admitted hread hfollows).2
  | registration m record =>
    have hadmitted : Managed.ofResource m.resource = .ok m ∧ record.Dated := h.admitted
    rcases Coordinate.follows_writeRecord_updateStatus hfollows with
      ⟨rfl, rfl⟩ | ⟨m', ⟨kind, ns, name, hmem⟩, hm', rfl⟩
    · have hknown : w.store.Known m.resource :=
        h.known _ (List.mem_append_left _ List.mem_cons_self)
      have hbefore : before = m.resource := hknown.eq_of_current h.current
      have hstatus := Managed.status_of_ofResource hadmitted.1
      rw [← hbefore, hread, Except.ok.injEq] at hstatus
      rw [Coordinate.withRecord, ← hstatus]
      exact ⟨_, .registration hadmitted.2 hread, rfl⟩
    · have hknown : w.store.Known r :=
        h.known _ (List.mem_append_right _ (List.mem_filterMap.mpr ⟨_, hmem, rfl⟩))
      have hbefore : before = r := hknown.eq_of_current h.current
      have hstatus := Managed.status_of_ofResource hm'
      rw [← hbefore, hread, Except.ok.injEq] at hstatus
      rw [Coordinate.withRecord, ← hstatus]
      exact ⟨_, .registration hadmitted.2 hread, rfl⟩

/-! ## 3. What is read back -/

theorem dated_announce {generation : Int} {now : Timestamp} (ss : List Behaviour.Signal)
    {cs : Conditions} (hcs : ∀ c ∈ cs, c.Dated) (hnow : now.Valid) :
    ∀ c ∈ Behaviour.announce generation now cs ss, c.Dated := by
  induction ss generalizing cs with
  | nil => exact hcs
  | cons signal ss ih => exact ih (Conditions.dated_put hcs hnow rfl)

theorem dated_reviewed {ctx : Context} {features : AdapterFeatures}
    {health : Except Failure ServiceHealth} {previous : Option HealthSummary}
    (hprevious : ∀ h ∈ previous, h.Dated) (hnow : ctx.now.Valid) :
    ∀ h ∈ reviewed ctx features health previous, h.Dated := by
  unfold reviewed
  split
  · cases health with
    | ok report =>
      intro h hh
      cases hh
      intro t ht
      cases ht
      exact hnow
    | error e => exact hprevious
  · exact hprevious

theorem dated_status (b : Behaviour) {ctx : Context} {m : Managed} (h : m.status.Dated)
    (hnow : ctx.now.Valid) : (b.status ctx m).Dated where
  conditions := dated_announce _ h.conditions hnow
  lastReconcile t ht := by
    rw [Behaviour.status] at ht
    dsimp only at ht
    split at ht
    · cases ht
      exact hnow
    · exact h.lastReconcile t ht
  health := by
    rw [Behaviour.status]
    dsimp only
    split
    · exact dated_reviewed h.health hnow
    · exact h.health
  registration := h.registration

/-- A status that was amended is read back from what is stored. -/
theorem Amends.dated {p : Writer} {asked : List Exchange} (h : Amends p asked r s s')
    (hs : s.Dated) : s'.Dated := by
  cases h with
  | active hnow _ _ _ => exact dated_status _ hs hnow
  | invalid message hnow _ =>
    exact ⟨Conditions.dated_put hs.conditions hnow rfl, hs.lastReconcile, hs.health,
      hs.registration⟩
  | registration hrecord _ =>
    refine ⟨hs.conditions, hs.lastReconcile, hs.health, fun record h => ?_⟩
    cases h
    exact hrecord

end Steward.Run

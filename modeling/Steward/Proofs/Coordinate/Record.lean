import Steward.Coordinate
import Steward.Proofs.Pass.Trace

/-!
# What a registration write asks

The record is written into the status as it was read; after a lost race it is written once more,
into the status as it is read again.
-/

namespace Steward.Coordinate

open Pass

variable {m : Managed} {record : RegistrationRecord} {cache after : Cache} {xs : List Exchange}
  {out : Except Failure Unit}

/-! ## 1. How a write goes -/

/-- A lost race for the resource `r`. -/
abbrev lostRace (r : Resource) (document : Json.Members) (key : String) (version : Int) : Exchange :=
  ⟨.updateStatus r document, .error (.conflict key version)⟩

/-- A fresh read of the resource `r`. -/
abbrev reread (r : Resource) (found : Except Failure (Option Resource)) : Exchange :=
  ⟨.getResource r.kind r.ns r.name, found⟩

/-- What is asked to write a record. -/
inductive Records (m : Managed) (record : RegistrationRecord) : List Exchange → Prop where
  /-- The first write is no lost race. -/
  | settled (reply : Except Failure Resource) : (∀ key version, reply ≠ .error (.conflict key version)) →
      Records m record [⟨.updateStatus m.resource (withRecord m record), reply⟩]
  /-- The resource is gone by then, or cannot be read. -/
  | unread {found : Except Failure (Option Resource)} (key : String) (version : Int) :
      (∀ fresh m', found = .ok (some fresh) → Managed.ofResource fresh ≠ .ok m') →
      Records m record
        [lostRace m.resource (withRecord m record) key version, reread m.resource found]
  /-- The record is written once more. -/
  | again {fresh : Resource} {m' : Managed} (key : String) (version : Int)
      (reply : Except Failure Resource) : Managed.ofResource fresh = .ok m' →
      Records m record
        [lostRace m.resource (withRecord m record) key version,
          reread m.resource (.ok (some fresh)), ⟨.updateStatus fresh (withRecord m' record), reply⟩]

/-- A write asks to write statuses, and to read a resource afresh. -/
theorem requests_of_records (h : Records m record xs) : ∀ x ∈ xs,
    (∃ q document, x.request = .updateStatus q document) ∨
      ∃ kind ns name, x.request = .getResource kind ns name := by
  cases h with
  | settled reply _ => exact List.forall_mem_singleton.mpr (.inl ⟨_, _, rfl⟩)
  | unread key version _ =>
    exact List.forall_mem_cons.mpr ⟨.inl ⟨_, _, rfl⟩,
      List.forall_mem_singleton.mpr (.inr ⟨_, _, _, rfl⟩)⟩
  | again key version reply _ =>
    exact List.forall_mem_cons.mpr ⟨.inl ⟨_, _, rfl⟩, List.forall_mem_cons.mpr
      ⟨.inr ⟨_, _, _, rfl⟩, List.forall_mem_singleton.mpr (.inl ⟨_, _, rfl⟩)⟩⟩

/-- The failure that an exchange is to a write, if it is its last one.  A lost race is none. -/
def failedWith? : Exchange → Option Failure
  | ⟨.updateStatus .., .error (.conflict ..)⟩ => none
  | ⟨.updateStatus .., .error e⟩ => some e
  | ⟨.getResource .., .error e⟩ => some e
  | ⟨.getResource .., .ok (some fresh)⟩ =>
    match Managed.ofResource fresh with
    | .error e => some (.managed e)
    | .ok _ => none
  | _ => none

/-- The outcome of a write with this last exchange. -/
def outcomeOf (x : Exchange) : Except Failure Unit :=
  match failedWith? x with
  | none => .ok ()
  | some e => .error e

/-- A write that is the last one. -/
theorem follows_lastWrite {r : Resource} {document : Json.Members}
    {goOn : Except Failure Resource → Pass Unit}
    (hend : ∀ reply, goOn reply = settle (outcomeOf ⟨.updateStatus r document, reply⟩))
    (h : Follows (Pass.attempt (Pass.updateStatus r document) >>= goOn) cache xs out after) :
    after = cache ∧ ∃ reply, xs = [⟨.updateStatus r document, reply⟩] ∧
      out = outcomeOf ⟨.updateStatus r document, reply⟩ := by
  obtain ⟨ys, zs, reply, mid, rfl, hwrite, hrest⟩ := follows_attempt_bind.mp h
  obtain ⟨reply', rfl, rfl, rfl⟩ := follows_ask_settle.mp hwrite
  rw [hend] at hrest
  obtain ⟨rfl, rfl, rfl⟩ := follows_settle.mp hrest
  exact ⟨rfl, reply, rfl, rfl⟩

/-- A registration write reads no secrets, and its last exchange decides what comes of it. -/
theorem follows_writeRecord (h : Follows (writeRecord m record) cache xs out after) :
    after = cache ∧ Records m record xs ∧ ∃ x, xs.getLast? = some x ∧ out = outcomeOf x := by
  obtain ⟨ys, zs, reply, mid, rfl, hfirst, hrest⟩ := follows_attempt_bind.mp h
  obtain ⟨reply', rfl, rfl, rfl⟩ := follows_ask_settle.mp hfirst
  have hsettled (hreply : ∀ key version, reply ≠ .error (.conflict key version))
      (hzs : Follows (settle (outcomeOf ⟨.updateStatus m.resource (withRecord m record), reply⟩))
        mid zs out after) :
      after = mid ∧ Records m record (⟨.updateStatus m.resource (withRecord m record), reply⟩ :: zs) ∧
        ∃ x, List.getLast? (⟨.updateStatus m.resource (withRecord m record), reply⟩ :: zs) = some x ∧
          out = outcomeOf x := by
    obtain ⟨rfl, rfl, rfl⟩ := follows_settle.mp hzs
    exact ⟨rfl, .settled reply hreply, _, rfl, rfl⟩
  cases reply with
  | ok stored => exact hsettled (fun _ _ h => nomatch h) hrest
  | error e =>
  cases e with
  | conflict key version =>
    rcases follows_bind.mp hrest with ⟨ys, zs, found, mid', rfl, hget, hretry⟩ | ⟨e, rfl, hget⟩
    · obtain ⟨reply, rfl, hfound, rfl⟩ := follows_ask_settle.mp hget
      subst hfound
      cases found with
      | none =>
        obtain ⟨rfl, rfl, rfl⟩ := follows_pure.mp hretry
        exact ⟨rfl, .unread key version (fun _ _ h => nomatch h), _, rfl, rfl⟩
      | some fresh =>
        rcases follows_bind.mp hretry with
          ⟨ys, zs, m', mid'', rfl, hread, hwrite⟩ | ⟨e, rfl, hread⟩
        · obtain ⟨rfl, hm', rfl⟩ := follows_settle.mp hread
          obtain ⟨rfl, second, rfl, rfl⟩ := follows_lastWrite (fun reply => by
            cases reply with
            | ok stored => rfl
            | error e => cases e <;> rfl) hwrite
          cases hfresh : Managed.ofResource fresh with
          | error e =>
            rw [hfresh] at hm'
            cases hm'
          | ok m'' =>
            rw [hfresh] at hm'
            cases hm'
            exact ⟨rfl, .again key version second hfresh, _, rfl, rfl⟩
        · obtain ⟨rfl, hm', rfl⟩ := follows_settle.mp hread
          cases hfresh : Managed.ofResource fresh with
          | ok m'' =>
            rw [hfresh] at hm'
            cases hm'
          | error misread =>
            rw [hfresh] at hm'
            cases hm'
            refine ⟨rfl, .unread key version fun q m' hq hm' => ?_,
              reread m.resource (.ok (some fresh)), rfl, ?_⟩
            · cases hq
              rw [hfresh] at hm'
              cases hm'
            · simp only [outcomeOf, failedWith?, hfresh]
    · obtain ⟨reply, rfl, rfl, rfl⟩ := follows_ask_settle.mp hget
      exact ⟨rfl, .unread key version (fun _ _ h => nomatch h), _, rfl, rfl⟩
  | _ => exact hsettled (fun _ _ h => nomatch h) hrest

/-- A write that is no failure was accepted or lost a race. -/
theorem accepted_or_lost {q : Resource} {document : Json.Members} {reply : Except Failure Resource}
    (h : failedWith? ⟨.updateStatus q document, reply⟩ = none) :
    (∃ after, reply = .ok after) ∨ ∃ key version, reply = .error (.conflict key version) := by
  cases reply with
  | ok after => exact Or.inl ⟨after, rfl⟩
  | error e =>
    cases e with
    | conflict key version => exact Or.inr ⟨key, version, rfl⟩
    | _ => cases h

/-- A fresh read that is no failure, and is not gone on from, found nothing. -/
theorem missing_of_reread {q : Resource} {found : Except Failure (Option Resource)}
    (h : failedWith? (reread q found) = none)
    (hend : ∀ fresh m, found = .ok (some fresh) → Managed.ofResource fresh ≠ .ok m) :
    found = .ok none := by
  cases found with
  | error e => cases h
  | ok found =>
    cases found with
    | none => rfl
    | some fresh =>
      cases hfresh : Managed.ofResource fresh with
      | ok m => exact absurd hfresh (hend fresh m rfl)
      | error e =>
        simp only [failedWith?, hfresh] at h
        cases h

/-! ## 2. What is written -/

/-- What may come after the first attempt to write a record. -/
inductive Retries (m : Managed) (record : RegistrationRecord) : List Exchange → Prop where
  | none : Retries m record []
  | missing (found : Except Failure (Option Resource)) :
      Retries m record [⟨.getResource m.resource.kind m.resource.ns m.resource.name, found⟩]
  | again {fresh : Resource} {m' : Managed} (reply : Except Failure Resource) :
      Managed.ofResource fresh = .ok m' →
      Retries m record
        [⟨.getResource m.resource.kind m.resource.ns m.resource.name, .ok (some fresh)⟩,
          ⟨.updateStatus fresh (withRecord m' record), reply⟩]

theorem Records.retries (h : Records m record xs) :
    ∃ reply rest, xs = ⟨.updateStatus m.resource (withRecord m record), reply⟩ :: rest ∧
      Retries m record rest := by
  cases h with
  | settled reply _ => exact ⟨reply, [], rfl, .none⟩
  | unread key version _ => exact ⟨_, _, rfl, .missing _⟩
  | again key version reply hfresh => exact ⟨_, _, rfl, .again reply hfresh⟩

/-- **The status writes of a registration write.**  The first one is on the resource as it was
given, the second one on the resource as it was read in between; each puts the record into the
status of that resource. -/
theorem follows_writeRecord_updateStatus {asked rest : List Exchange} {resource : Resource}
    {document : Json.Members} {reply : Except Failure Resource}
    (h : Follows (writeRecord m record) cache
      (asked ++ ⟨.updateStatus resource document, reply⟩ :: rest) out after) :
    (resource = m.resource ∧ document = withRecord m record) ∨
      ∃ m', (∃ kind ns name, (⟨.getResource kind ns name, .ok (some resource)⟩ : Exchange) ∈ asked) ∧
        Managed.ofResource resource = .ok m' ∧ document = withRecord m' record := by
  obtain ⟨first, later, hxs, hlater⟩ := (follows_writeRecord h).2.1.retries
  cases asked with
  | nil =>
    cases hxs
    exact Or.inl ⟨rfl, rfl⟩
  | cons x asked =>
    obtain ⟨-, hxs⟩ := List.cons.inj hxs
    cases hlater with
    | none => cases asked <;> cases hxs
    | missing found =>
      cases asked with
      | nil => cases hxs
      | cons y asked => cases asked <;> cases hxs
    | @again fresh m' second hread =>
      cases asked with
      | nil => cases hxs
      | cons y asked =>
        obtain ⟨rfl, hxs⟩ := List.cons.inj hxs
        cases asked with
        | nil =>
          cases hxs
          exact Or.inr ⟨m', ⟨_, _, _, List.mem_cons_of_mem _ List.mem_cons_self⟩, hread, rfl⟩
        | cons z asked => cases asked <;> cases hxs

end Steward.Coordinate

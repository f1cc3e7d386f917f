import Mathlib.Data.List.Nodup
import Steward.Proofs.Migration.Directory
import Steward.Proofs.Migration.Ledger

/-!
# Migrations are applied in order, once, and under the lock

One migration is begun, run, recorded and committed (`_apply`); whatever fails on the way ends it,
and what a database keeps of it is nothing or all of it.  So a run (`run_migrations`) keeps a
beginning of what was due, and what is due at the next run is the rest: over any sequence of runs,
with failures anywhere, what is kept grows along the list that was due at first.
-/

namespace Steward.Migration

open Database

/-! ## 1. Failures -/

/-- The reply is an error. -/
def refused : (r : Request) → Request.Reply r → Bool
  | .run _, .error _ => true
  | .connect _, .error _ => true
  | .close, .error _ => true
  | .begin, .error _ => true
  | .commit, .error _ => true
  | .rollback, .error _ => true
  | _, _ => false

/-- The database raised an error. -/
def Failed (x : Work.Exchange) : Prop := refused x.request x.reply = true

/-- What a migration is kept as: its script and its record, in one transaction. -/
def transaction (m : Migration) : List Statement :=
  [.script m.script, .record m.version m.filename]

/-! ## 2. One migration -/

/-- What was asked for a migration: as far as nothing failed, and a rollback where its script or its
record did. -/
inductive Attempt (m : Migration) : List Work.Exchange → Except Error Unit → Prop where
  | notBegun (e : Error) : Attempt m [⟨.begin, .error e⟩] (.error e)
  | scriptFailed (e : Error) (undone : Except Error Unit) :
      Attempt m [⟨.begin, .ok ()⟩, ⟨.run (.script m.script), .error e⟩, ⟨.rollback, undone⟩]
        (undone.bind fun _ => .error e)
  | recordFailed (answer : Json) (e : Error) (undone : Except Error Unit) :
      Attempt m [⟨.begin, .ok ()⟩, ⟨.run (.script m.script), .ok answer⟩,
        ⟨.run (.record m.version m.filename), .error e⟩, ⟨.rollback, undone⟩]
        (undone.bind fun _ => .error e)
  | committing (answer answer' : Json) (committed : Except Error Unit) :
      Attempt m [⟨.begin, .ok ()⟩, ⟨.run (.script m.script), .ok answer⟩,
        ⟨.run (.record m.version m.filename), .ok answer'⟩, ⟨.commit, committed⟩] committed

theorem attempt_of_follows {m : Migration} {xs : List Work.Exchange} {out : Except Error Unit}
    (h : Work.Follows (apply m) xs out) : Attempt m xs out := by
  rw [apply, Work.follows_bind] at h
  rcases h with ⟨ys, zs, u, rfl, hbegin, h⟩ | ⟨e, rfl, hbegin⟩
  · rw [Work.follows_begin.mp hbegin]
    rw [Work.follows_attempt_bind] at h
    obtain ⟨vs, ws, r, rfl, hbody, h⟩ := h
    rw [Work.follows_run_bind] at hbody
    obtain ⟨reply, rest, rfl, hbody⟩ := hbody
    have hundo {e : Error} (h : Work.Follows (do Work.rollback; throw e) ws out) :
        ∃ undone, ws = [⟨.rollback, undone⟩] ∧ out = undone.bind fun _ => .error e := by
      rw [Work.follows_bind] at h
      rcases h with ⟨as, bs, u, rfl, hrollback, h⟩ | ⟨e', rfl, hrollback⟩
      · rw [Work.follows_rollback.mp hrollback]
        obtain ⟨rfl, rfl⟩ := Work.follows_throw.mp h
        exact ⟨.ok u, rfl, rfl⟩
      · exact ⟨.error e', Work.follows_rollback.mp hrollback, rfl⟩
    cases reply with
    | error e =>
      obtain ⟨rfl, rfl⟩ := hbody
      obtain ⟨undone, rfl, rfl⟩ := hundo h
      exact .scriptFailed e undone
    | ok answer =>
      rw [Work.follows_run_bind] at hbody
      obtain ⟨reply, rest, rfl, hbody⟩ := hbody
      cases reply with
      | error e =>
        obtain ⟨rfl, rfl⟩ := hbody
        obtain ⟨undone, rfl, rfl⟩ := hundo h
        exact .recordFailed answer e undone
      | ok answer' =>
        obtain ⟨rfl, rfl⟩ := Work.follows_pure.mp hbody
        rw [Work.follows_commit.mp h]
        exact .committing answer answer' out
  · rw [Work.follows_begin.mp hbegin]
    exact .notBegun e

/-! ## 3. Migrations in order -/

/-- Requests under the lock up to the first that fails: after it there is at most a rollback, and
the failure is raised. -/
structure Orderly {α : Type} (xs : List Work.Exchange) (out : Except Error α) : Prop where
  inside : ∀ x ∈ xs, x.request ≠ .run .lock ∧ x.request ≠ .run .unlock
  stops : xs.Pairwise fun x y => Failed x → y.request = .rollback
  returns : ∀ a, out = .ok a → ∀ x ∈ xs, ¬Failed x
  raises : ∀ e, out = .error e → ∃ x ∈ xs, Failed x

namespace Orderly

variable {α β : Type} {xs ys : List Work.Exchange} {out : Except Error α}

/-- What is asked next is in order as well. -/
theorem append {a : β} (hxs : Orderly xs (.ok a)) (hys : Orderly ys out) :
    Orderly (xs ++ ys) out where
  inside := List.forall_mem_append.mpr ⟨hxs.inside, hys.inside⟩
  stops := List.pairwise_append.mpr ⟨hxs.stops, hys.stops, fun x hx _ _ hfailed =>
    absurd hfailed (hxs.returns a rfl x hx)⟩
  returns b hb := List.forall_mem_append.mpr ⟨hxs.returns a rfl, hys.returns b hb⟩
  raises e he := by
    obtain ⟨x, hx, hfailed⟩ := hys.raises e he
    exact ⟨x, List.mem_append_right _ hx, hfailed⟩

/-- Whatever is returned. -/
theorem map (f : α → β) (h : Orderly xs out) : Orderly xs (out.map f) where
  inside := h.inside
  stops := h.stops
  returns b hb := by
    cases out with
    | error e => cases hb
    | ok a => exact h.returns a rfl
  raises e he := by
    cases out with
    | error e => exact h.raises e rfl
    | ok a => cases he

end Orderly

theorem orderly_nil {α : Type} (a : α) : Orderly [] (.ok a) :=
  ⟨List.forall_mem_nil _, .nil, fun _ _ => List.forall_mem_nil _, nofun⟩

/-- How far migrations have come: those that are kept begin the list. -/
structure Progress {α : Type} (ms : List Migration) (l : Ledger) (xs : List Work.Exchange)
    (out : Except Error α) (l' : Ledger) (done : List Migration) : Prop where
  orderly : Orderly xs out
  beginning : done <+: ms
  kept : l'.kept = l.kept ++ done.map transaction
  closed : l'.opened = none
  complete : ∀ a, out = .ok a → done = ms

section Attempts

variable {m : Migration} {l l' : Ledger} {xs : List Work.Exchange} {out : Except Error Unit}

/-- An attempt is in order, whatever fails. -/
theorem Attempt.orderly (h : Attempt m xs out) : Orderly xs out := by
  have hlost {e : Error} {undone : Except Error Unit} {u : Unit} :
      (undone.bind fun _ => (.error e : Except Error Unit)) ≠ .ok u := by
    cases undone <;> exact nofun
  cases h with
  | notBegun e =>
    exact ⟨by simp, List.pairwise_singleton _ _, nofun, fun _ _ => ⟨_, .head _, rfl⟩⟩
  | scriptFailed e undone =>
    exact ⟨by simp, by simp [Failed, refused], fun u hu => absurd hu hlost,
      fun _ _ => ⟨_, .tail _ (.head _), rfl⟩⟩
  | recordFailed answer e undone =>
    exact ⟨by simp, by simp [Failed, refused], fun u hu => absurd hu hlost,
      fun _ _ => ⟨_, .tail _ (.tail _ (.head _)), rfl⟩⟩
  | committing answer answer' =>
    refine ⟨by simp, by simp [Failed, refused], ?_, ?_⟩
    · rintro u rfl
      simp [Failed, refused]
    · rintro e rfl
      exact ⟨_, .tail _ (.tail _ (.tail _ (.head _))), rfl⟩

/-- **One migration is kept whole or not at all.** -/
theorem Attempt.exists_progress (h : Attempt m xs out) (hxs : l.Answers xs l')
    (hclosed : l.opened = none) : ∃ done, Progress [m] l xs out l' done := by
  have hscript {l l' : Ledger} {answer : Json} :
      l.Takes ⟨.run (.script m.script), .ok answer⟩ l' ↔ l' = l.add (.script m.script) :=
    Ledger.takes_counted_iff rfl
  have hrecord {l l' : Ledger} {answer : Json} :
      l.Takes ⟨.run (.record m.version m.filename), .ok answer⟩ l' ↔
        l' = l.add (.record m.version m.filename) :=
    Ledger.takes_counted_iff rfl
  -- what was undone is not kept, and only what fails is undone
  have hundone (h : Orderly xs out) (hout : out ≠ .ok ()) (hkept : l'.kept = l.kept)
      (hclosed : l'.opened = none) : ∃ done, Progress [m] l xs out l' done :=
    ⟨[], h, List.nil_prefix, hkept.trans (List.append_nil _).symm, hclosed,
      fun _ hu => absurd hu hout⟩
  have horderly := h.orderly
  cases h with
  | notBegun e =>
    simp only [Ledger.answers_cons_iff, Ledger.answers_nil_iff, Ledger.takes_beginFailed_iff,
      exists_eq_left] at hxs
    subst hxs
    exact hundone horderly nofun rfl hclosed
  | scriptFailed e undone =>
    simp only [Ledger.answers_cons_iff, Ledger.answers_nil_iff, Ledger.takes_begun_iff,
      Ledger.takes_failed_iff, Ledger.takes_rollback_iff, exists_eq_left] at hxs
    subst hxs
    exact hundone horderly (by cases undone <;> exact nofun) rfl rfl
  | recordFailed answer e undone =>
    simp only [Ledger.answers_cons_iff, Ledger.answers_nil_iff, Ledger.takes_begun_iff, hscript,
      Ledger.takes_failed_iff, Ledger.takes_rollback_iff, exists_eq_left] at hxs
    subst hxs
    exact hundone horderly (by cases undone <;> exact nofun) rfl rfl
  | committing answer answer' =>
    simp only [Ledger.answers_cons_iff, Ledger.answers_nil_iff, Ledger.takes_begun_iff, hscript,
      hrecord, exists_eq_left] at hxs
    obtain ⟨_, hcommit, rfl⟩ := hxs
    rcases Ledger.takes_commit hcommit with rfl | ⟨hne, rfl⟩
    · exact ⟨[m], horderly, List.prefix_rfl, rfl, rfl, fun _ _ => rfl⟩
    · exact hundone horderly hne rfl rfl

end Attempts

/-- Migrations are applied one after the other, as long as none fails. -/
theorem exists_progress_applyAll {ms : List Migration} {l l' : Ledger} {xs : List Work.Exchange}
    {out : Except Error Unit} (h : Work.Follows (applyAll ms) xs out) (hxs : l.Answers xs l')
    (hclosed : l.opened = none) : ∃ done, Progress ms l xs out l' done := by
  induction ms generalizing l xs with
  | nil =>
    rw [applyAll] at h
    obtain ⟨rfl, rfl⟩ := Work.follows_pure.mp h
    obtain rfl := Ledger.answers_nil_iff.mp hxs
    exact ⟨[], orderly_nil (), List.prefix_rfl, (List.append_nil _).symm, hclosed, fun _ _ => rfl⟩
  | cons m ms ih =>
    rw [applyAll, Work.follows_bind] at h
    rcases h with ⟨ys, zs, u, rfl, hfirst, hrest⟩ | ⟨e, rfl, hfirst⟩
    · obtain ⟨mid, hys, hzs⟩ := Ledger.answers_append_iff.mp hxs
      obtain ⟨done, hp⟩ := (attempt_of_follows hfirst).exists_progress hys hclosed
      obtain rfl := hp.complete u rfl
      obtain ⟨done, hq⟩ := ih hrest hzs hp.closed
      refine ⟨m :: done, hp.orderly.append hq.orderly, (List.prefix_cons_inj m).mpr hq.beginning,
        ?_, hq.closed, fun u hu => congrArg (m :: ·) (hq.complete u hu)⟩
      rw [hq.kept, hp.kept, List.append_assoc]
      rfl
    · obtain ⟨done, hp⟩ := (attempt_of_follows hfirst).exists_progress hxs hclosed
      exact ⟨done, hp.orderly, hp.beginning.trans (List.prefix_append [m] ms), hp.kept, hp.closed,
        nofun⟩

/-! ## 4. One run -/

/-- The migrations whose versions are not on record. -/
def unrecorded (l : Ledger) (ms : List Migration) : List Migration :=
  ms.filter fun m => decide (m.version ∉ l.versions)

theorem pending_eq_unrecorded {l : Ledger} {vs : List String} (h : ∀ v, v ∈ vs ↔ v ∈ l.versions)
    (ms : List Migration) : pending (vs.map .string) ms = unrecorded l ms := by
  rw [pending, unrecorded]
  refine List.filter_congr fun m _ => ?_
  have hmem :
      (vs.map Json.string).contains (.string m.version) = true ↔ m.version ∈ l.versions := by
    rw [List.contains_iff_mem, List.mem_map, ← h]
    exact ⟨fun ⟨v, hv, heq⟩ => Json.string.inj heq ▸ hv, fun hv => ⟨_, hv, rfl⟩⟩
  rw [Bool.eq_iff_iff, Bool.not_eq_true', Bool.eq_false_iff, Ne, hmem, decide_eq_true_iff]

/-- The rows of an answer are read as the versions that it lists. -/
theorem read_rowsOf (vs : List String) :
    (do (← rows (Ledger.rowsOf vs)).mapM fun row => do asKey (← column "version" row) :
      Except Error (List Json)) = .ok (vs.map .string) := by
  change (vs.map fun v => Json.object [("version", .string v)]).mapM _ = _
  induction vs with
  | nil => rfl
  | cons v vs ih =>
    rw [List.map_cons, List.mapM_cons, ih]
    rfl

/-- What is kept puts the versions of the migrations on record. -/
theorem versions_append {l l' : Ledger} {done : List Migration}
    (h : l'.kept = l.kept ++ done.map transaction) :
    l'.versions = l.versions ++ done.map (·.version) := by
  have hdone : (done.map transaction).flatten.filterMap versionOf? = done.map (·.version) := by
    clear h
    induction done with
    | nil => rfl
    | cons m done ih => rw [List.map_cons, List.flatten_cons, List.filterMap_append, ih]; rfl
  rw [Ledger.versions, h, List.flatten_append, List.filterMap_append, hdone]
  rfl

/-- What is said of one run. -/
structure Sound (ms : List Migration) (before : Ledger) (xs : List Work.Exchange)
    (out : Except Error Nat) (after : Ledger) (done : List Migration) : Prop where
  /-- Everything that is asked stands between the lock and the unlock, and where there is a lock
  there is an unlock. -/
  guarded : (∃ e, xs = [⟨.run .lock, .error e⟩]) ∨
    ∃ answer inner reply, xs = ⟨.run .lock, .ok answer⟩ :: (inner ++ [⟨.run .unlock, reply⟩]) ∧
      ∀ x ∈ inner, x.request ≠ .run .lock ∧ x.request ≠ .run .unlock
  beginning : done <+: unrecorded before ms
  kept : after.kept = before.kept ++ done.map transaction
  closed : after.opened = none
  /-- After a failure there is at most a rollback and the unlock. -/
  stops : xs.Pairwise fun x y => Failed x → y.request = .rollback ∨ y.request = .run .unlock
  raises : (∃ x ∈ xs, Failed x) → ∃ e, out = .error e
  returns : (∀ x ∈ xs, ¬Failed x) → out = .ok done.length
  complete : ∀ n, out = .ok n → n = done.length ∧ ∀ m ∈ ms, m.version ∈ after.versions

/-- What is said of asking for the versions on record. -/
structure Asked (l : Ledger) (xs : List Work.Exchange) (out : Except Error (List Json))
    (l' : Ledger) : Prop where
  orderly : Orderly xs out
  same : l' = l
  told : ∀ recorded, out = .ok recorded → ∀ ms, pending recorded ms = unrecorded l ms

theorem asked_of_follows {l l' : Ledger} {xs : List Work.Exchange}
    {out : Except Error (List Json)} (h : Work.Follows recordedVersions xs out)
    (hxs : l.Answers xs l') : Asked l xs out l' := by
  have hprepared {l l' : Ledger} {answer : Json} :
      l.Takes ⟨.run .prepareRecord, .ok answer⟩ l' ↔ l' = l :=
    Ledger.takes_passed_iff rfl (by decide)
  rw [recordedVersions, Work.follows_run_bind] at h
  obtain ⟨reply, rest, rfl, h⟩ := h
  cases reply with
  | error e =>
    obtain ⟨rfl, rfl⟩ := h
    simp only [Ledger.answers_cons_iff, Ledger.answers_nil_iff, Ledger.takes_failed_iff,
      exists_eq_left] at hxs
    exact ⟨⟨by simp, by simp, nofun, fun _ _ => ⟨_, .head _, rfl⟩⟩, hxs, nofun⟩
  | ok answer =>
    rw [Work.follows_run_bind] at h
    obtain ⟨reply, rest, rfl, h⟩ := h
    cases reply with
    | error e =>
      obtain ⟨rfl, rfl⟩ := h
      simp only [Ledger.answers_cons_iff, Ledger.answers_nil_iff, Ledger.takes_failed_iff,
        hprepared, exists_eq_left] at hxs
      exact ⟨⟨by simp, by simp [Failed, refused], nofun, fun _ _ => ⟨_, .tail _ (.head _), rfl⟩⟩,
        hxs, nofun⟩
    | ok answer' =>
      obtain ⟨rfl, rfl⟩ := Work.follows_settle.mp h
      simp only [Ledger.answers_cons_iff, Ledger.answers_nil_iff, Ledger.takes_recorded_iff,
        hprepared, exists_eq_left] at hxs
      obtain ⟨mid, ⟨rfl, vs, rfl, hvs⟩, rfl⟩ := hxs
      rw [read_rowsOf]
      refine ⟨⟨by simp, by simp [Failed, refused], by simp [Failed, refused], nofun⟩, rfl, ?_⟩
      rintro _ ⟨⟩
      exact pending_eq_unrecorded hvs

/-- What is said of the part of a run that is under the lock. -/
theorem exists_progress_applyPending {ms : List Migration} {l l' : Ledger}
    {xs : List Work.Exchange} {out : Except Error Nat}
    (h : Work.Follows (applyPending ms) xs out) (hxs : l.Answers xs l')
    (hclosed : l.opened = none) :
    ∃ done, Progress (unrecorded l ms) l xs out l' done ∧ ∀ n, out = .ok n → n = done.length := by
  rw [applyPending, Work.follows_bind] at h
  rcases h with ⟨ys, zs, recorded, rfl, hrecorded, h⟩ | ⟨e, rfl, hrecorded⟩
  · obtain ⟨mid, hys, hzs⟩ := Ledger.answers_append_iff.mp hxs
    have hasked := asked_of_follows hrecorded hys
    obtain rfl := hasked.same
    rw [hasked.told recorded rfl, Work.follows_bind] at h
    rcases h with ⟨vs, ws, u, rfl, hall, h⟩ | ⟨e, rfl, hall⟩
    · obtain ⟨rfl, rfl⟩ := Work.follows_pure.mp h
      rw [List.append_nil] at hzs ⊢
      obtain ⟨done, hp⟩ := exists_progress_applyAll hall hzs hclosed
      obtain rfl := hp.complete u rfl
      refine ⟨_, ⟨hasked.orderly.append (hp.orderly.map fun _ => (unrecorded mid ms).length),
        hp.beginning, hp.kept, hp.closed, fun _ _ => rfl⟩, ?_⟩
      rintro _ ⟨⟩
      rfl
    · obtain ⟨done, hp⟩ := exists_progress_applyAll hall hzs hclosed
      exact ⟨done, ⟨hasked.orderly.append (hp.orderly.map fun _ => 0), hp.beginning, hp.kept,
        hp.closed, nofun⟩, nofun⟩
  · have hasked := asked_of_follows hrecorded hxs
    obtain rfl := hasked.same
    exact ⟨[], ⟨hasked.orderly.map fun _ => 0, List.nil_prefix, (List.append_nil _).symm, hclosed,
      nofun⟩, nofun⟩

section Locked

variable {ms done : List Migration} {l l' : Ledger} {inner : List Work.Exchange}
  {outcome : Except Error Nat}

/-- Between the lock and the unlock, something failed if the run fails. -/
theorem Orderly.failed_iff (h : Orderly inner outcome) (answer : Json) (reply : Except Error Json) :
    (∃ x ∈ (⟨.run .lock, .ok answer⟩ :: (inner ++ [⟨.run .unlock, reply⟩]) : List Work.Exchange),
      Failed x) ↔ ∃ e, (reply.bind fun _ => outcome) = .error e := by
  have hends : ¬Failed ⟨.run .lock, .ok answer⟩ := Bool.false_ne_true
  simp only [List.mem_cons, List.mem_append, List.not_mem_nil, or_false, or_and_right, exists_or,
    hends, false_or, exists_eq_left]
  cases reply with
  | error e => exact iff_of_true (.inr rfl) ⟨e, rfl⟩
  | ok u =>
    have hunlocked : ¬Failed ⟨.run .unlock, .ok u⟩ := Bool.false_ne_true
    cases outcome with
    | error e => exact iff_of_true (.inl (h.raises e rfl)) ⟨e, rfl⟩
    | ok n =>
      refine iff_of_false ?_ nofun
      rintro (⟨x, hx, hfailed⟩ | hfailed)
      · exact h.returns n rfl x hx hfailed
      · exact hunlocked hfailed

/-- A run is sound if what it does under the lock is. -/
theorem Progress.sound (hp : Progress (unrecorded l ms) l inner outcome l' done)
    (hcount : ∀ n, outcome = .ok n → n = done.length) (answer : Json)
    (reply : Except Error Json) :
    Sound ms l (⟨.run .lock, .ok answer⟩ :: (inner ++ [⟨.run .unlock, reply⟩]))
      (reply.bind fun _ => outcome) l' done := by
  have hok {n : Nat} (hn : (reply.bind fun _ => outcome) = .ok n) : outcome = .ok n := by
    cases reply with
    | error e => cases hn
    | ok u => exact hn
  have hfailed := hp.orderly.failed_iff answer reply
  refine ⟨.inr ⟨answer, inner, reply, rfl, hp.orderly.inside⟩, hp.beginning, hp.kept, hp.closed,
    ?_, hfailed.mp, ?_, ?_⟩
  · rw [List.pairwise_cons, List.pairwise_append]
    refine ⟨fun y _ hfailed => absurd hfailed Bool.false_ne_true,
      hp.orderly.stops.imp fun hxy hx => .inl (hxy hx), List.pairwise_singleton _ _,
      fun x _ y hy _ => ?_⟩
    rw [List.mem_singleton.mp hy]
    exact .inr rfl
  · intro hnone
    cases hout : reply.bind fun _ => outcome with
    | error e =>
      obtain ⟨x, hx, hx'⟩ := hfailed.mpr ⟨e, hout⟩
      exact absurd hx' (hnone x hx)
    | ok n => rw [hcount n (hok hout)]
  · intro n hn
    refine ⟨hcount n (hok hn), fun m hm => ?_⟩
    rw [versions_append hp.kept, List.mem_append]
    by_cases hrecorded : m.version ∈ l.versions
    · exact .inl hrecorded
    · refine .inr (List.mem_map_of_mem ?_)
      rw [hp.complete n (hok hn), unrecorded, List.mem_filter, decide_eq_true_iff]
      exact ⟨hm, hrecorded⟩

end Locked

/-- **One run is sound**, wherever it fails. -/
theorem exists_sound {ms : List Migration} {l l' : Ledger} {xs : List Work.Exchange}
    {out : Except Error Nat} (h : Work.Follows (run ms) xs out) (hxs : l.Answers xs l')
    (hclosed : l.opened = none) : ∃ done, Sound ms l xs out l' done := by
  have hlock {s : Statement} (hs : s = .lock ∨ s = .unlock) {l l' : Ledger}
      {reply : Except Error Json} : l.Takes ⟨.run s, reply⟩ l' ↔ l' = l := by
    cases reply with
    | error e => exact Ledger.takes_failed_iff
    | ok answer => rcases hs with rfl | rfl <;> exact Ledger.takes_passed_iff rfl (by decide)
  rw [run, Work.follows_run_bind] at h
  obtain ⟨reply, rest, rfl, h⟩ := h
  obtain ⟨mid, hlocked, hrest⟩ := Ledger.answers_cons_iff.mp hxs
  obtain rfl := (hlock (.inl rfl)).mp hlocked
  cases reply with
  | error e =>
    obtain ⟨rfl, rfl⟩ := h
    obtain rfl := Ledger.answers_nil_iff.mp hrest
    exact ⟨[], .inl ⟨e, rfl⟩, List.nil_prefix, (List.append_nil _).symm, hclosed, by simp,
      fun _ => ⟨e, rfl⟩, fun hnone => absurd rfl (hnone _ List.mem_cons_self), nofun⟩
  | ok answer =>
    rw [Work.follows_attempt_bind] at h
    obtain ⟨inner, tail, outcome, rfl, hinner, h⟩ := h
    rw [Work.follows_run_bind] at h
    obtain ⟨reply, rest, rfl, h⟩ := h
    obtain ⟨last, hinner', hunlock⟩ := Ledger.answers_append_iff.mp hrest
    obtain ⟨done, hp, hcount⟩ := exists_progress_applyPending hinner hinner' hclosed
    obtain ⟨rfl, rfl⟩ : rest = [] ∧ out = reply.bind fun _ => outcome := by
      cases reply with
      | ok answer => exact Work.follows_settle.mp h
      | error e => exact h
    simp only [Ledger.answers_cons_iff, Ledger.answers_nil_iff, hlock (.inr rfl),
      exists_eq_left] at hunlock
    subst hunlock
    exact ⟨done, hp.sound hcount answer reply⟩

/-! ## 5. Any number of runs -/

/-- A run: what was kept before it, what it asked and was replied, how it ended, and what was kept
after it. -/
structure Episode where
  before : Ledger
  exchanges : List Work.Exchange
  outcome : Except Error Nat
  after : Ledger

/-- Runs over one directory, one after the other. -/
inductive History (path : String) (entries : Option (List Entry)) :
    Ledger → List Episode → Ledger → Prop where
  | nil (l : Ledger) : History path entries l [] l
  | cons {e : Episode} {es : List Episode} {l : Ledger} :
      Work.Follows (runIn path entries) e.exchanges e.outcome →
      e.before.Answers e.exchanges e.after → History path entries e.after es l →
      History path entries e.before (e :: es) l

theorem follows_runIn {path : String} {entries : Option (List Entry)} {ms : List Migration}
    (hfound : discoverIn path entries = .ok ms) {xs : List Work.Exchange} {out : Except Error Nat} :
    Work.Follows (runIn path entries) xs out ↔ Work.Follows (run ms) xs out := by
  rw [runIn, hfound]
  exact Work.follows_settle_bind (r := .ok ms)

/-- After a run the rest of what was due is due. -/
theorem unrecorded_after {ms : List Migration} (hnodup : (ms.map (·.version)).Nodup)
    {l l' : Ledger} {done rest : List Migration} (hsplit : unrecorded l ms = done ++ rest)
    (hkept : l'.kept = l.kept ++ done.map transaction) : unrecorded l' ms = rest := by
  have hversions := versions_append hkept
  have htwice : unrecorded l' ms = (unrecorded l ms).filter
      fun m => decide (m.version ∉ done.map (·.version)) := by
    rw [unrecorded, unrecorded, List.filter_filter]
    refine List.filter_congr fun m _ => ?_
    rw [hversions, Bool.eq_iff_iff, Bool.and_eq_true, decide_eq_true_iff, decide_eq_true_iff,
      decide_eq_true_iff, List.mem_append, not_or, and_comm]
  have hdue : ((done ++ rest).map (·.version)).Nodup := by
    rw [← hsplit, unrecorded]
    exact hnodup.sublist (List.filter_sublist.map _)
  rw [List.map_append, List.nodup_append] at hdue
  rw [htwice, hsplit, List.filter_append]
  have hnone : done.filter (fun m => decide (m.version ∉ done.map (·.version))) = [] := by
    rw [List.filter_eq_nil_iff]
    intro m hm
    rw [decide_eq_true_iff, not_not]
    exact List.mem_map_of_mem hm
  have hall : rest.filter (fun m => decide (m.version ∉ done.map (·.version))) = rest := by
    rw [List.filter_eq_self]
    intro m hm
    rw [decide_eq_true_iff]
    intro hmem
    exact hdue.2.2 _ hmem _ (List.mem_map_of_mem hm) rfl
  rw [hnone, hall, List.nil_append]

/-- **Migrations are applied in order, atomically, once, and under the lock.**  Over any runs, each
of which may fail anywhere, every run is sound: what it asks stands between the lock and the unlock,
it keeps a beginning of what is not on record, each migration as one transaction of its script and
its record, it stops at the first failure and raises it, and where it returns a number it is that of
the migrations it kept, and all versions are on record.  The versions rise, and what all runs keep
together is a beginning of what was not on record at first, no version twice. -/
theorem migrated_once {path : String} {entries : Option (List Entry)} {ms : List Migration}
    (hfound : discoverIn path entries = .ok ms) {l l' : Ledger} (hclosed : l.opened = none)
    {es : List Episode} (h : History path entries l es l') :
    ms.Pairwise (fun m n => m.version < n.version) ∧
    ∃ dones : List (List Migration),
      List.Forall₂ (fun e done => Sound ms e.before e.exchanges e.outcome e.after done) es dones ∧
      dones.flatten <+: unrecorded l ms ∧
      l'.kept = l.kept ++ dones.flatten.map transaction ∧
      (dones.flatten.map (·.version)).Nodup ∧
      ∀ m ∈ dones.flatten, m.version ∉ l.versions := by
  have hrising : ms.Pairwise fun m n => m.version < n.version := by
    cases entries with
    | none => cases hfound
    | some entries => exact pairwise_version_of_discover hfound
  have hnodup : (ms.map (·.version)).Nodup :=
    List.pairwise_map.mpr (hrising.imp fun hlt => hlt.ne)
  refine ⟨hrising, ?_⟩
  obtain ⟨dones, hsound, hprefix, hkept⟩ : ∃ dones : List (List Migration),
      List.Forall₂ (fun e done => Sound ms e.before e.exchanges e.outcome e.after done) es dones ∧
      dones.flatten <+: unrecorded l ms ∧
      l'.kept = l.kept ++ dones.flatten.map transaction := by
    induction h with
    | nil l => exact ⟨[], .nil, List.nil_prefix, (List.append_nil _).symm⟩
    | cons hrun hanswers _ ih =>
      obtain ⟨done, hs⟩ := exists_sound ((follows_runIn hfound).mp hrun) hanswers hclosed
      obtain ⟨dones, hsound, hprefix, hkept⟩ := ih hs.closed
      obtain ⟨rest, hrest⟩ := hs.beginning
      rw [unrecorded_after hnodup hrest.symm hs.kept] at hprefix
      refine ⟨done :: dones, .cons hs hsound, ?_, ?_⟩
      · rw [List.flatten_cons, ← hrest]
        exact (List.prefix_append_right_inj done).mpr hprefix
      · rw [hkept, hs.kept, List.append_assoc, List.flatten_cons, List.map_append]
  have hsublist : dones.flatten.Sublist (unrecorded l ms) := hprefix.sublist
  refine ⟨dones, hsound, hprefix, hkept, ?_, fun m hm => ?_⟩
  · exact hnodup.sublist ((hsublist.trans List.filter_sublist).map _)
  · have := hsublist.subset hm
    rw [unrecorded, List.mem_filter, decide_eq_true_iff] at this
    exact this.2

/-- The second of two migrations fails in one run, and the next run resumes with it. -/
theorem migrated_once_resumed :
    let tables : Migration := ⟨"001", "001_tables.sql", "CREATE TABLE resources ()"⟩
    let index : Migration := ⟨"002", "002_index.sql", "CREATE INDEX kinds"⟩
    let entries := some [⟨tables.filename, some tables.script⟩, ⟨index.filename, some index.script⟩]
    discoverIn "migrations" entries = .ok [tables, index] ∧
    ∃ (es : List Episode) (l' : Ledger), History "migrations" entries ⟨[], none⟩ es l' ∧
      es.map (·.outcome) = [.error (.raised "Exception" "down"), .ok 1] ∧
      ∃ dones : List (List Migration), dones.flatten <+: [tables, index] ∧
        l'.kept = dones.flatten.map transaction ∧
        l'.kept = [transaction tables, transaction index] := by
  intro tables index entries
  have hfound : discoverIn "migrations" entries = .ok [tables, index] := by
    change discover [_, _] = _
    rw [discover, sortEntries, List.mergeSort_of_pairwise (by decide)]
    decide
  refine ⟨hfound, ?_⟩
  let e : Error := .raised "Exception" "down"
  let failing : Episode :=
    ⟨⟨[], none⟩,
      [⟨.run .lock, .ok .null⟩, ⟨.run .prepareRecord, .ok .null⟩,
        ⟨.run .recorded, .ok (Ledger.rowsOf [])⟩, ⟨.begin, .ok ()⟩,
        ⟨.run (.script tables.script), .ok .null⟩,
        ⟨.run (.record tables.version tables.filename), .ok .null⟩, ⟨.commit, .ok ()⟩,
        ⟨.begin, .ok ()⟩, ⟨.run (.script index.script), .error e⟩, ⟨.rollback, .ok ()⟩,
        ⟨.run .unlock, .ok .null⟩],
      .error e, ⟨[transaction tables], none⟩⟩
  let resuming : Episode :=
    ⟨⟨[transaction tables], none⟩,
      [⟨.run .lock, .ok .null⟩, ⟨.run .prepareRecord, .ok .null⟩,
        ⟨.run .recorded, .ok (Ledger.rowsOf ["001"])⟩, ⟨.begin, .ok ()⟩,
        ⟨.run (.script index.script), .ok .null⟩,
        ⟨.run (.record index.version index.filename), .ok .null⟩, ⟨.commit, .ok ()⟩,
        ⟨.run .unlock, .ok .null⟩],
      .ok 1, ⟨[transaction tables, transaction index], none⟩⟩
  have hfailing : Work.Follows (runIn "migrations" entries) failing.exchanges failing.outcome :=
    (follows_runIn hfound).mpr
      (.ask (.ask (.ask (.ask (.ask (.ask (.ask (.ask (.ask (.ask (.ask (.done _))))))))))))
  have hresuming : Work.Follows (runIn "migrations" entries) resuming.exchanges resuming.outcome :=
    (follows_runIn hfound).mpr (.ask (.ask (.ask (.ask (.ask (.ask (.ask (.ask (.done _)))))))))
  have hfailing' : failing.before.Answers failing.exchanges failing.after :=
    .cons (.passed _ rfl (by decide) _) (.cons (.passed _ rfl (by decide) _)
      (.cons (.told _ (by simp [Ledger.versions, failing])) (.cons (.begun _)
        (.cons (.counted _ rfl _) (.cons (.counted _ rfl _) (.cons (.committed _)
          (.cons (.begun _) (.cons (.statementFailed _ _ _) (.cons (.rolledBack _ _)
            (.cons (.passed _ rfl (by decide) _) (.nil _)))))))))))
  have hresuming' : resuming.before.Answers resuming.exchanges resuming.after :=
    .cons (.passed _ rfl (by decide) _) (.cons (.passed _ rfl (by decide) _)
      (.cons (.told _ fun v => Iff.rfl) (.cons (.begun _) (.cons (.counted _ rfl _)
        (.cons (.counted _ rfl _) (.cons (.committed _)
          (.cons (.passed _ rfl (by decide) _) (.nil _))))))))
  have hhistory : History "migrations" entries ⟨[], none⟩ [failing, resuming] resuming.after :=
    .cons hfailing hfailing' (.cons hresuming hresuming' (.nil _))
  obtain ⟨-, dones, -, hprefix, hkept, -, -⟩ := migrated_once hfound rfl hhistory
  exact ⟨_, _, hhistory, rfl, dones, hprefix, hkept, rfl⟩

end Steward.Migration

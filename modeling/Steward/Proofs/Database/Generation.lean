import Steward.Database.Store
import Steward.Proofs.Database.Row
import Steward.Proofs.Database.Work
import Steward.Proofs.Json.Alike

/-!
# The generation tells whether a specification was changed

A row keeps the digest (`_calculate_spec_hash`) of the specification that was submitted last.  When
another one is submitted (`update_spec`), the generation of the row rises unless the new digest is
the one that is kept.  What is digested is the text of the specification with sorted keys, and this
text identifies the specification up to the order of keys, however deep it is nested.  So in every
history of a row, a specification that comes back in another order of keys leaves the generation as
it was, and any other raises it, unless two texts have one digest (`generation_tells_changes`).
-/

namespace Steward

/-- Two texts that differ have one digest. -/
def Digest.Collide (s t : String) : Prop := s ≠ t ∧ ofText s = ofText t

namespace Database

open Json (Legible alike)

/-! ## 1. Rows -/

/-- What a row keeps of its specification. -/
structure Revision where
  /-- The specification that was submitted last. -/
  spec : Json
  /-- The digest that was sent along. -/
  digest : Json
  generation : Int
  deriving DecidableEq, Repr

namespace Revision

/-- The row of a new resource. -/
def first (spec digest : Json) : Revision := ⟨spec, digest, 1⟩

/-- The row after its specification is replaced: the generation rises unless the digest is the one
that is kept. -/
def next (r : Revision) (spec digest : Json) : Revision where
  spec := spec
  digest := digest
  generation := if r.digest = digest then r.generation else r.generation + 1

/-- The digest that is kept is the one of the specification. -/
def Stamped (r : Revision) : Prop := r.digest = .string (specHash r.spec)

end Revision

/-- The digest that a statement sends along: its fifth argument. -/
def digestSent (s : Statement) : Json := (s.arguments[4]?).getD .null

theorem digestSent_createResource (kind ns name : String) (spec : Json) :
    digestSent (.createResource kind ns name spec) = .string (specHash spec) := rfl

theorem digestSent_replaceSpec (kind ns name : String) (spec : Json) :
    digestSent (.replaceSpec kind ns name spec) = .string (specHash spec) := rfl

/-! ## 2. Histories of a row -/

section Histories

variable (kind ns name : String)

/-- A statement submits a specification of the resource. -/
def submits : Statement → Bool
  | .createResource k n m _ | .replaceSpec k n m _ => k == kind && n == ns && m == name
  | _ => false

/-- What a statement that takes effect leaves of the row of a resource, of which there is at most
one.  A statement that purges a row by its number may be about this one; any other one that does not
submit a specification leaves alone what is kept of it. -/
inductive Leaves : Option Revision → Statement → Option Revision → Prop where
  | created (spec : Json) :
      Leaves none (.createResource kind ns name spec)
        (some (.first spec (digestSent (.createResource kind ns name spec))))
  | replaced (r : Revision) (spec : Json) :
      Leaves (some r) (.replaceSpec kind ns name spec)
        (some (r.next spec (digestSent (.replaceSpec kind ns name spec))))
  | missed (spec : Json) : Leaves none (.replaceSpec kind ns name spec) none
  | purged (o : Option Revision) (id : Json) : Leaves o (.purge id) none
  | passed (o : Option Revision) {s : Statement} (h : submits kind ns name s = false) :
      Leaves o s o

/-- One request with its reply, and the row after it.  A statement that is answered has taken
effect; of one that failed nobody can tell.  Statements about resources are transactions of their
own, so that no other request undoes them. -/
inductive Revises : Option Revision → Work.Exchange → Option Revision → Prop where
  | answered {o o' : Option Revision} {s : Statement} (h : Leaves kind ns name o s o')
      (answer : Json) : Revises o ⟨.run s, .ok answer⟩ o'
  | lost {o o' : Option Revision} {s : Statement} (h : Leaves kind ns name o s o') (e : Error) :
      Revises o ⟨.run s, .error e⟩ o'
  | failed (o : Option Revision) (s : Statement) (e : Error) : Revises o ⟨.run s, .error e⟩ o
  | idle (o : Option Revision) {x : Work.Exchange} (h : ∀ s, x.request ≠ .run s) : Revises o x o

/-- Requests of anyone, one after the other. -/
inductive History : Option Revision → List Work.Exchange → Option Revision → Prop where
  | nil (o : Option Revision) : History o [] o
  | cons {o mid o' : Option Revision} {x : Work.Exchange} {xs : List Work.Exchange} :
      Revises kind ns name o x mid → History mid xs o' → History o (x :: xs) o'

end Histories

section Steps

variable {kind ns name : String} {o o' : Option Revision} {x : Work.Exchange}
  {xs : List Work.Exchange}

theorem Leaves.stamped {s : Statement} (h : Leaves kind ns name o s o')
    (ho : ∀ r ∈ o, r.Stamped) : ∀ r ∈ o', r.Stamped := by
  cases h with
  | created spec =>
    rintro r ⟨⟩
    exact digestSent_createResource kind ns name spec
  | replaced _ spec =>
    rintro r ⟨⟩
    exact digestSent_replaceSpec kind ns name spec
  | missed | passed => exact ho
  | purged => exact fun r hr => absurd hr (Option.not_mem_none r)

theorem Revises.stamped (h : Revises kind ns name o x o') (ho : ∀ r ∈ o, r.Stamped) :
    ∀ r ∈ o', r.Stamped := by
  cases h with
  | answered h | lost h => exact h.stamped ho
  | failed | idle => exact ho

/-- **In every history the digest that is kept is the one of the specification.** -/
theorem History.stamped (h : History kind ns name o xs o') (ho : ∀ r ∈ o, r.Stamped) :
    ∀ r ∈ o', r.Stamped := by
  induction h with
  | nil => exact ho
  | cons hx _ ih => exact ih (hx.stamped ho)

theorem history_singleton_iff : History kind ns name o [x] o' ↔ Revises kind ns name o x o' := by
  constructor
  · intro h
    cases h with
    | cons hx hnil =>
      cases hnil
      exact hx
  · exact fun hx => .cons hx (.nil _)

/-- Where there is a row, its specification is replaced, or the request fails. -/
theorem Revises.replaceSpec {r : Revision} {spec : Json} {reply : Except Error Json}
    (h : Revises kind ns name (some r) ⟨.run (.replaceSpec kind ns name spec), reply⟩ o) :
    o = some (r.next spec (.string (specHash spec))) ∨ o = some r ∧ ∃ e, reply = .error e := by
  have hleaves {mid : Option Revision}
      (hs : Leaves kind ns name (some r) (.replaceSpec kind ns name spec) mid) :
      mid = some (r.next spec (.string (specHash spec))) := by
    cases hs with
    | replaced => rw [digestSent_replaceSpec]
    | passed _ h => simp [submits] at h
  cases h with
  | answered hs => exact .inl (hleaves hs)
  | lost hs => exact .inl (hleaves hs)
  | failed _ e => exact .inr ⟨rfl, e, rfl⟩
  | idle hidle => exact absurd rfl (hidle _)

end Steps

/-! ## 3. Submitting a specification again -/

section Submitting

variable [Validator] [Json.Room] {d : Database} {kind ns name : String} {spec : Json}
  {xs : List Work.Exchange} {out : Except Error (Option Resource)}

/-- The resource in the answer to a statement, if there is one. -/
def answered (row : Json) : Except Error (Option Resource) :=
  if row.isBlank then .ok none else (resource row).map some

theorem resource?_eq_settle (row : Json) : resource? row = Work.settle (answered row) := by
  rw [resource?, answered]
  split
  · rfl
  · cases resource row <;> rfl

/-- One statement is sent, and the resource is read off the answer to it. -/
theorem follows_replaceSpec (hspec : spec.obstacle? Json.Room.writing = none)
    (hd : d.connected = true) :
    Work.Follows (d.replaceSpec kind ns name spec) xs out ↔
      ∃ reply, xs = [⟨.run (.replaceSpec kind ns name spec), reply⟩] ∧
        out = reply.bind answered := by
  have hdump : spec.canonicalDump = .ok spec.canonicalText := by
    rw [Json.canonicalDump, hspec]
  have hrun : d.run (.replaceSpec kind ns name spec) =
      Work.run (.replaceSpec kind ns name spec) := run_of_writable hd hspec
  rw [replaceSpec, hdump, hrun, funext resource?_eq_settle]
  exact Work.follows_run_settle

/-- Without connections, or without a text of the specification, nothing is sent. -/
theorem follows_replaceSpec_refused
    (h : spec.obstacle? Json.Room.writing ≠ none ∨ d.connected = false)
    (hfollows : Work.Follows (d.replaceSpec kind ns name spec) xs out) :
    xs = [] ∧ ∃ e, out = .error e := by
  rw [replaceSpec, Work.follows_settle_bind] at hfollows
  cases hdump : spec.canonicalDump with
  | error e =>
    rw [hdump] at hfollows
    exact ⟨hfollows.1, _, hfollows.2⟩
  | ok t =>
    have hspec := (Json.obstacle?_eq_none_iff spec).mpr (Json.canonicalDump_eq_ok_iff.mp hdump).1
    rw [hdump, run_of_unconnected (h.resolve_left fun hne => hne hspec)] at hfollows
    exact ⟨(Work.follows_settle_bind.mp hfollows).1, _, (Work.follows_settle_bind.mp hfollows).2⟩

end Submitting

/-- The row after `w` was submitted: its generation tells whether that is another
specification. -/
structure Revision.Tells (r : Revision) (w : Json) (r' : Revision) : Prop where
  spec : r'.spec = w
  kept : alike r.spec w = true → r'.generation = r.generation
  raised : alike r.spec w = false →
    r'.generation = r.generation + 1 ∨ Digest.Collide r.spec.canonicalText w.canonicalText

theorem Revision.tells_next {r : Revision} {w : Json} (hr : r.Stamped)
    (htext : r.spec.canonicalText = w.canonicalText ↔ alike r.spec w = true) :
    r.Tells w (r.next w (.string (specHash w))) := by
  refine ⟨rfl, fun h => ?_, fun h => ?_⟩
  · rw [Stamped, specHash, htext.mpr h] at hr
    exact if_pos hr
  · have hne : r.spec.canonicalText ≠ w.canonicalText := fun hsame =>
      absurd (htext.mp hsame) (Bool.eq_false_iff.mp h)
    -- a digest that is kept for another text is one digest of two texts
    by_cases hdigest : r.digest = .string (specHash w)
    · exact .inr ⟨hne, Json.string.inj (hr.symm.trans hdigest)⟩
    · exact .inl (if_neg hdigest)

/-- **The generation tells whether the specification was changed.**  The texts that are digested of
two specifications are the same exactly if these differ in nothing but the order of keys; they are
nested equally deep then.  In every history of a row that begins without it, submitting `w` where
`v` was submitted last leaves the row as it is, and fails, or replaces `v` by `w`; then the
generation is kept if the two are alike, and rises by one if they are not, unless their texts have
one digest. -/
theorem generation_tells_changes [Validator] [Json.Room] {v w : Json} (hv : Legible v)
    (hw : Legible w) :
    (v.canonicalText = w.canonicalText ↔ alike v w = true) ∧
      (alike v w = true → v.depth = w.depth) ∧
      ∀ {kind ns name : String} {xs : List Work.Exchange} {r : Revision},
        History kind ns name none xs (some r) → r.spec = v →
        ∀ {d : Database} {ys : List Work.Exchange} {out : Except Error (Option Resource)}
          {o : Option Revision}, Work.Follows (d.replaceSpec kind ns name w) ys out →
          History kind ns name (some r) ys o →
            (o = some r ∧ ∃ e, out = .error e) ∨ ∃ r', o = some r' ∧ r.Tells w r' := by
  have htext := Json.canonicalText_eq_iff hv hw
  refine ⟨htext, Json.depth_eq_of_alike hv hw, ?_⟩
  rintro kind ns name xs r hhistory rfl d ys out o hfollows hys
  have hstamped : r.Stamped :=
    hhistory.stamped (fun r hr => absurd hr (Option.not_mem_none r)) r rfl
  by_cases hsent : w.obstacle? Json.Room.writing = none ∧ d.connected = true
  · obtain ⟨reply, rfl, rfl⟩ := (follows_replaceSpec hsent.1 hsent.2).mp hfollows
    rcases (history_singleton_iff.mp hys).replaceSpec with rfl | ⟨rfl, e, rfl⟩
    · exact .inr ⟨_, rfl, r.tells_next hstamped htext⟩
    · exact .inl ⟨rfl, e, rfl⟩
  · rw [Decidable.not_and_iff_or_not, Bool.not_eq_true] at hsent
    obtain ⟨rfl, hfailed⟩ := follows_replaceSpec_refused hsent hfollows
    cases hys
    exact .inl ⟨rfl, hfailed⟩

/-- A specification with its keys in order. -/
def inOrder (a : Json) : Json.Members :=
  [("a", a), ("b", .object [("x", .string "ä"), ("y", .null)])]

theorem canonicalText_inOrder {a : Json} (h : a.sorted = a) :
    (Json.object (inOrder a)).canonicalText = (Json.object (inOrder a)).text := by
  have hinner : (Json.object [("x", .string "ä"), ("y", .null)]).sorted =
      .object [("x", .string "ä"), ("y", .null)] :=
    congrArg Json.object (Json.sortMembers_eq_self (by decide))
  have hkeys : decide ("a" ≤ "b") = true := by decide
  have houter : (Json.object (inOrder a)).sorted = .object (inOrder a) := by
    rw [inOrder, Json.sorted, Json.sortedMembers, Json.sortedMembers, Json.sortedMembers, h, hinner]
    exact congrArg Json.object (Json.sortMembers_eq_self (List.pairwise_pair.mpr hkeys))
  rw [Json.canonicalText, houter]

/-- A resource whose specification holds a number. -/
def counted : Resource where
  id := some 7
  kind := "SonarrConfig"
  ns := "media"
  name := "tv"
  spec := inOrder (.int 1)

/-- The resource with its keys in another order, at both levels. -/
def recounted : Resource :=
  { counted with
    version := 2
    spec := [("b", .object [("y", .null), ("x", .string "ä")]), ("a", .int 1)] }

/-- The resource with a truth value in the place of the number. -/
def flagged : Resource :=
  { counted with
    generation := 2
    version := 2
    spec := inOrder (.bool true) }

/-- The specification of a resource is submitted, and its row is the answer. -/
def submission (r : Resource) : Work.Exchange :=
  ⟨.run (.replaceSpec r.kind r.ns r.name (.object r.spec)),
    .ok (.object (rowOf r (.array []) (.object r.spec) .null))⟩

theorem history_submission (r : Resource) (o : Revision) :
    History r.kind r.ns r.name (some o) [submission r]
      (some (o.next (.object r.spec) (.string (specHash (.object r.spec))))) :=
  history_singleton_iff.mpr (.answered (.replaced o _) _)

/-- Submitted in another order the specification is of the first generation still, and of the second
with a truth value in the place of the number. -/
theorem generation_tells_changes_counted :
    let d : Database := ⟨{}, true⟩
    let v : Json := .object counted.spec
    let w : Json := .object recounted.spec
    let u : Json := .object flagged.spec
    (Legible v ∧ Legible w ∧ Legible u) ∧
      v.canonicalText = w.canonicalText ∧ v.canonicalText ≠ u.canonicalText ∧
      ∃ (created : Work.Exchange) (r r' r'' : Revision),
        (History "SonarrConfig" "media" "tv" none [created] (some r) ∧ r.spec = v) ∧
        (Work.Follows (d.replaceSpec "SonarrConfig" "media" "tv" w) [submission recounted]
            (.ok (some recounted)) ∧
          History "SonarrConfig" "media" "tv" (some r) [submission recounted] (some r')) ∧
        (Work.Follows (d.replaceSpec "SonarrConfig" "media" "tv" u) [submission flagged]
            (.ok (some flagged)) ∧
          History "SonarrConfig" "media" "tv" (some r) [submission flagged] (some r'')) ∧
        r.generation = 1 ∧ r'.generation = 1 ∧ r''.generation = 2 := by
  intro d v w u
  have hv : Legible v := ⟨⟨by decide, by decide⟩, Nat.le_refl _, by decide⟩
  have hw : Legible w := ⟨⟨by decide, by decide⟩, Nat.le_refl _, by decide⟩
  have hu : Legible u := ⟨⟨by decide, by decide⟩, Nat.le_refl _, by decide⟩
  obtain ⟨hsame, -, hkept⟩ := generation_tells_changes hv hw
  obtain ⟨hother, -, hraised⟩ := generation_tells_changes hv hu
  let created : Work.Exchange :=
    ⟨.run (.createResource "SonarrConfig" "media" "tv" v), .ok .null⟩
  let r : Revision := .first v (.string (specHash v))
  have hcreated : History "SonarrConfig" "media" "tv" none [created] (some r) :=
    history_singleton_iff.mpr (.answered (.created v) _)
  have hrecounted : Work.Follows (d.replaceSpec "SonarrConfig" "media" "tv" w)
      [submission recounted] (.ok (some recounted)) :=
    (follows_replaceSpec rfl rfl).mpr ⟨_, rfl, rfl⟩
  have hflagged : Work.Follows (d.replaceSpec "SonarrConfig" "media" "tv" u)
      [submission flagged] (.ok (some flagged)) :=
    (follows_replaceSpec rfl rfl).mpr ⟨_, rfl, rfl⟩
  rcases hkept hcreated rfl hrecounted (history_submission recounted r) with
    ⟨-, e, he⟩ | ⟨r', hr', hsecond⟩
  · cases he
  rcases hraised hcreated rfl hflagged (history_submission flagged r) with
    ⟨-, e, he⟩ | ⟨r'', hr'', hthird⟩
  · cases he
  have hne : v.canonicalText ≠ u.canonicalText := mt hother.mp (by decide)
  have hapart : ¬ Digest.Collide v.canonicalText u.canonicalText := by
    have htext : v.canonicalText = v.text := canonicalText_inOrder rfl
    have htext' : u.canonicalText = u.text := canonicalText_inOrder rfl
    rintro ⟨-, hdigest⟩
    rw [htext, htext'] at hdigest
    exact absurd hdigest (by decide +kernel)
  exact ⟨⟨hv, hw, hu⟩, hsame.mpr (by decide), hne, created, r, r', r'', ⟨hcreated, rfl⟩,
    ⟨hrecounted, hr' ▸ history_submission recounted r⟩,
    ⟨hflagged, hr'' ▸ history_submission flagged r⟩, rfl, hsecond.kept (by decide),
    (hthird.raised (by decide)).resolve_right hapart⟩

end Database

end Steward

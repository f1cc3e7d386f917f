import Steward.Proofs.Diff.Exact

/-!
# Path mappings that reach the service

A path mapping is of one place: a path on a remote host.  The comparison (`diff_ir`) tells mappings
apart by host and path joined by a colon, and both may have colons of their own, so mappings of two
places can be joined to one text.  `Meets` says when: the one host goes on into the path of the
other.  Of mappings that meet only the last is sent to a service that was never configured, and the
others are not (`mappings_sent`); no two meet where hosts have no colons, or paths have none.
-/

namespace Steward

namespace State.PathMapping

/-! ## 1. Places -/

/-- The mappings are of the same path on the same host. -/
def SamePlace (m m' : PathMapping) : Prop := m.host = m'.host ∧ m.remotePath = m'.remotePath

/-- The host of `m'` is that of `m` and the beginning of its path, up to a colon. -/
def Cuts (m m' : PathMapping) : Prop :=
  ∃ middle, m'.host = m.host ++ ":" ++ middle ∧ m.remotePath = middle ++ ":" ++ m'.remotePath

/-- One of the hosts goes on into the path of the other. -/
def Meets (m m' : PathMapping) : Prop := m.Cuts m' ∨ m'.Cuts m

/-- A mapping that meets this one comes after every mapping of its place. -/
def Displaced (m : PathMapping) (ms : List PathMapping) : Prop :=
  ∃ before other after, ms = before ++ other :: after ∧ other.Meets m ∧
    ∀ m' ∈ after, ¬ m'.SamePlace m

instance (m m' : PathMapping) : Decidable (m.SamePlace m') :=
  inferInstanceAs (Decidable (m.host = m'.host ∧ m.remotePath = m'.remotePath))

variable {m m' : PathMapping} {ms : List PathMapping}

theorem SamePlace.symm (h : m.SamePlace m') : m'.SamePlace m := ⟨h.1.symm, h.2.symm⟩

/-- Mappings that meet are of two places: one of the hosts is longer. -/
theorem Meets.ne (h : m.Meets m') : ¬ m.SamePlace m' := by
  have hlonger {a b : PathMapping} (h : a.Cuts b) : a.host ≠ b.host := by
    obtain ⟨middle, hhost, -⟩ := h
    intro hsame
    have hlength := congrArg String.length (hsame.trans hhost)
    rw [String.length_append, String.length_append] at hlength
    have hcolon : (":" : String).length = 1 := rfl
    omega
  rintro ⟨hhost, -⟩
  exact h.elim (fun h => hlonger h hhost) fun h => hlonger h hhost.symm

theorem toList_key (m : PathMapping) :
    (Diff.pathMappings.key m).toList = m.host.toList ++ ':' :: m.remotePath.toList := by
  simp [Diff.pathMappings]

/-- Of a text that is cut at a colon in two ways, the longer host goes on into the other path. -/
theorem samePlace_or_cuts {rest : List Char} (hhost : m'.host.toList = m.host.toList ++ rest)
    (hpath : ':' :: m.remotePath.toList = rest ++ ':' :: m'.remotePath.toList) :
    m.SamePlace m' ∨ m.Cuts m' := by
  cases rest with
  | nil =>
    rw [List.append_nil] at hhost
    rw [List.nil_append, List.cons.injEq] at hpath
    exact .inl ⟨String.toList_injective hhost.symm, String.toList_injective hpath.2⟩
  | cons c middle =>
    rw [List.cons_append, List.cons.injEq] at hpath
    obtain ⟨rfl, hpath⟩ := hpath
    refine .inr ⟨String.ofList middle, String.toList_injective ?_, String.toList_injective ?_⟩
    · simp [hhost]
    · simp [hpath]

/-- **The joined texts are the same for one place, and for places that meet.** -/
theorem key_eq_iff :
    Diff.pathMappings.key m = Diff.pathMappings.key m' ↔ m.SamePlace m' ∨ m.Meets m' := by
  constructor
  · intro h
    have hlist := congrArg String.toList h
    rw [toList_key, toList_key] at hlist
    rcases List.append_eq_append_iff.mp hlist with ⟨rest, hhost, hpath⟩ | ⟨rest, hhost, hpath⟩
    · exact (samePlace_or_cuts hhost hpath).imp_right .inl
    · exact (samePlace_or_cuts hhost hpath).imp SamePlace.symm .inr
  · have hjoined {a b : PathMapping} (h : a.Cuts b) :
        Diff.pathMappings.key a = Diff.pathMappings.key b := by
      obtain ⟨middle, hhost, hpath⟩ := h
      simp only [Diff.pathMappings, hhost, hpath, String.append_assoc]
    rintro (⟨hhost, hpath⟩ | h | h)
    · simp only [Diff.pathMappings, hhost, hpath]
    · exact hjoined h
    · exact (hjoined h).symm

/-- Mappings that meet have a colon in the one host and in the path of the other. -/
theorem Meets.colons (h : m.Meets m') :
    (':' ∈ m.host.toList ∨ ':' ∈ m'.host.toList) ∧
      (':' ∈ m.remotePath.toList ∨ ':' ∈ m'.remotePath.toList) := by
  have hcolon (a b : String) : ':' ∈ (a ++ ":" ++ b).toList := by simp
  rcases h with ⟨middle, hhost, hpath⟩ | ⟨middle, hhost, hpath⟩
  · exact ⟨.inr (hhost ▸ hcolon _ _), .inl (hpath ▸ hcolon _ _)⟩
  · exact ⟨.inl (hhost ▸ hcolon _ _), .inr (hpath ▸ hcolon _ _)⟩

/-! ## 2. The last of a text -/

/-- A mapping is displaced if the last one of its joined text is of another place. -/
theorem displaced_of_last {last : PathMapping}
    (hlast : lastNamed Diff.pathMappings.key (Diff.pathMappings.key m) ms = some last)
    (hplace : ¬ last.SamePlace m) : m.Displaced ms := by
  obtain ⟨before, after, hms, hkey, hafter⟩ := lastNamed_eq_some_iff.mp hlast
  refine ⟨before, last, after, hms, (key_eq_iff.mp hkey).resolve_left hplace, ?_⟩
  exact fun m' hm' hsame => hafter m' hm' (key_eq_iff.mpr (.inl hsame))

/-- Of two elements of a list, one comes after the other unless they are the same. -/
theorem eq_or_mem_of_split {a b : PathMapping} {before after front back : List PathMapping}
    (h : before ++ a :: after = front ++ b :: back) : a = b ∨ b ∈ after ∨ a ∈ back := by
  rcases List.append_eq_append_iff.mp h with ⟨rest, -, hrest⟩ | ⟨rest, -, hrest⟩
  · cases rest with
    | nil => exact .inl (List.cons.inj hrest).1
    | cons _ _ =>
      obtain ⟨-, rfl⟩ := List.cons.inj hrest
      exact .inr (.inl (List.mem_append_right _ List.mem_cons_self))
  · cases rest with
    | nil => exact .inl (List.cons.inj hrest).1.symm
    | cons _ _ =>
      obtain ⟨-, rfl⟩ := List.cons.inj hrest
      exact .inr (.inr (List.mem_append_right _ List.mem_cons_self))

/-- The last mapping of a displaced one's joined text is of another place. -/
theorem Displaced.last {last : PathMapping} (h : m.Displaced ms)
    (hlast : lastNamed Diff.pathMappings.key (Diff.pathMappings.key m) ms = some last) :
    ¬ last.SamePlace m := by
  obtain ⟨before, other, after, rfl, hmeets, hafter⟩ := h
  obtain ⟨front, back, hms, -, hback⟩ := lastNamed_eq_some_iff.mp hlast
  rcases eq_or_mem_of_split hms with rfl | hlater | hlater
  · exact hmeets.ne
  · exact hafter last hlater
  · exact absurd (key_eq_iff.mpr (.inr hmeets)) (hback other hlater)

theorem Displaced.exists_meets (h : m.Displaced ms) : ∃ other ∈ ms, other.Meets m := by
  obtain ⟨before, other, after, rfl, hmeets, -⟩ := h
  exact ⟨other, List.mem_append_right _ List.mem_cons_self, hmeets⟩

end State.PathMapping

open State

/-! ## 3. What is sent -/

/-- The change creates a mapping of the place. -/
def Change.CreatesPlace (c : Change) (m : PathMapping) : Prop :=
  ∃ sent, c.kind = .pathMapping ∧ c.payload = some (.pathMapping sent) ∧ sent.SamePlace m

/-- Some change creates a mapping of the place. -/
def ChangeSet.Reaches (cs : ChangeSet) (m : PathMapping) : Prop :=
  ∃ c ∈ cs.creates, c.CreatesPlace m

/-- What is sent of path mappings to a service that was never configured. -/
structure MappingsSent (ms : List PathMapping) (cs : ChangeSet) : Prop where
  /-- A mapping reaches the service unless a later one displaces it. -/
  reaches_iff : ∀ m ∈ ms, cs.Reaches m ↔ ¬ m.Displaced ms
  /-- Every mapping does where hosts have no colons, or paths have none. -/
  all_of_plain : (∀ m ∈ ms, ':' ∉ m.host.toList) ∨ (∀ m ∈ ms, ':' ∉ m.remotePath.toList) →
    ∀ m ∈ ms, cs.Reaches m
  /-- One change at most creates a place. -/
  once : ∀ m, ∀ c ∈ cs.creates, ∀ c' ∈ cs.creates, c.CreatesPlace m → c'.CreatesPlace m → c = c'

namespace Diff

variable {desired : ServiceState} {caps : Capabilities} {ids : ItemIds}

/-- What is created of path mappings is the last one of every joined text. -/
theorem mem_creates_iff (haggregator : desired.aggregator = none)
    (hsupported : caps.supports .pathMapping = true) {c : Change} (hkind : c.kind = .pathMapping) :
    c ∈ (diff none desired caps ids).creates ↔
      ∃ sent, lastNamed pathMappings.key c.name desired.pathMappings = some sent ∧
        c.id = none ∧ c.payload = some (.pathMapping sent) := by
  have hnone : ∀ s ∈ (none : Option ServiceState), Shape.manager.Fits s := fun _ h => nomatch h
  have hexact := exact_diff hnone haggregator caps ids
  have hmanaged : Shape.manager.managed caps desired .pathMapping =
      desired.pathMappings.map .pathMapping := filter_admits_map (fun _ => rfl) _
  have hlast : lastNamed Item.key c.name (Shape.manager.managed caps desired .pathMapping) =
      (lastNamed pathMappings.key c.name desired.pathMappings).map .pathMapping := by
    rw [hmanaged]
    exact lastNamed_map pathMappings_faithful.key_carry c.name _
  rw [hexact.creates, hkind, Creates, hlast]
  constructor
  · rintro ⟨-, item, hitem, -, hid, hpayload⟩
    obtain ⟨sent, hsent, rfl⟩ := Option.map_eq_some_iff.mp hitem
    exact ⟨sent, hsent, hid, hpayload⟩
  · rintro ⟨sent, hsent, hid, hpayload⟩
    exact ⟨hsupported, .pathMapping sent, by rw [hsent, Option.map_some], rfl, hid, hpayload⟩

/-- A change that creates a place has the joined text of the place, and the last mapping of it. -/
theorem last_of_createsPlace (haggregator : desired.aggregator = none)
    (hsupported : caps.supports .pathMapping = true) {c : Change} {m : PathMapping}
    (hc : c ∈ (diff none desired caps ids).creates) (hplace : c.CreatesPlace m) :
    ∃ sent, c = ⟨.pathMapping, pathMappings.key m, none, some (.pathMapping sent)⟩ ∧
      lastNamed pathMappings.key (pathMappings.key m) desired.pathMappings = some sent ∧
      sent.SamePlace m := by
  obtain ⟨sent, hkind, hpayload, hsame⟩ := hplace
  obtain ⟨last, hlast, hid, hcarried⟩ := (mem_creates_iff haggregator hsupported hkind).mp hc
  obtain rfl : sent = last := by
    rw [hpayload] at hcarried
    cases hcarried
    rfl
  have hname : pathMappings.key m = c.name :=
    (PathMapping.key_eq_iff.mpr (.inl hsame)).symm.trans (lastNamed_eq_some hlast).2
  refine ⟨sent, ?_, hname ▸ hlast, hsame⟩
  rw [hname, ← hkind, ← hid, ← hpayload]

theorem reaches_iff (haggregator : desired.aggregator = none)
    (hsupported : caps.supports .pathMapping = true) {m : PathMapping}
    (hm : m ∈ desired.pathMappings) :
    (diff none desired caps ids).Reaches m ↔ ¬ m.Displaced desired.pathMappings := by
  constructor
  · rintro ⟨c, hc, hplace⟩ hdisplaced
    obtain ⟨sent, -, hlast, hsame⟩ := last_of_createsPlace haggregator hsupported hc hplace
    exact hdisplaced.last hlast hsame
  · intro hkept
    cases hlast : lastNamed pathMappings.key (pathMappings.key m) desired.pathMappings with
    | none => exact absurd rfl (lastNamed_eq_none_iff.mp hlast m hm)
    | some last =>
      have hsame : last.SamePlace m := by
        by_contra hplace
        exact hkept (PathMapping.displaced_of_last hlast hplace)
      refine ⟨⟨.pathMapping, pathMappings.key m, none, some (.pathMapping last)⟩, ?_, last, rfl,
        rfl, hsame⟩
      exact (mem_creates_iff haggregator hsupported rfl).mpr ⟨last, hlast, rfl, rfl⟩

/-- **A path mapping reaches the service unless a later one displaces it**: one whose host goes on
into its path, or the other way round, so that hosts and paths of both are joined to one text.  So
all mappings reach it where hosts have no colons, or paths have none.  No place is created twice. -/
theorem mappings_sent (haggregator : desired.aggregator = none)
    (hsupported : caps.supports .pathMapping = true) (ids : ItemIds) :
    MappingsSent desired.pathMappings (diff none desired caps ids) where
  reaches_iff _ hm := reaches_iff haggregator hsupported hm
  all_of_plain hplain m hm := by
    rw [reaches_iff haggregator hsupported hm]
    intro hdisplaced
    obtain ⟨other, hother, hmeets⟩ := hdisplaced.exists_meets
    rcases hplain with hhosts | hpaths
    · exact hmeets.colons.1.elim (hhosts other hother) (hhosts m hm)
    · exact hmeets.colons.2.elim (hpaths other hother) (hpaths m hm)
  once m c hc c' hc' hplace hplace' := by
    obtain ⟨sent, rfl, hlast, -⟩ := last_of_createsPlace haggregator hsupported hc hplace
    obtain ⟨sent', rfl, hlast', -⟩ := last_of_createsPlace haggregator hsupported hc' hplace'
    rw [hlast] at hlast'
    cases hlast'
    rfl

/-- Of two mappings that meet the earlier one is not sent, and one of a third place is. -/
theorem mappings_sent_shows :
    let lost : PathMapping := ⟨"fe80::1", "c:\\data", "/data"⟩
    let kept : PathMapping := ⟨"fe80::1:c", "\\data", "/other"⟩
    let other : PathMapping := ⟨"nas", "\\data", "/tv"⟩
    let desired : ServiceState := { app := "sonarr", pathMappings := [lost, kept, other] }
    desired.aggregator = none ∧ ({} : Capabilities).supports .pathMapping = true ∧
      MappingsSent desired.pathMappings (diff none desired {}) ∧
      lost.Displaced [lost, kept, other] ∧ ¬ (diff none desired {}).Reaches lost ∧
      (diff none desired {}).Reaches kept ∧ (diff none desired {}).Reaches other := by
  intro lost kept other desired
  have hsent : MappingsSent desired.pathMappings (diff none desired {}) :=
    mappings_sent rfl rfl []
  have hdisplaced : lost.Displaced desired.pathMappings :=
    ⟨[lost], kept, [other], rfl, .inr ⟨"c", rfl, rfl⟩, by decide⟩
  refine ⟨rfl, rfl, hsent, hdisplaced, ?_, ?_, ?_⟩
  · exact fun h => (hsent.reaches_iff lost (.head _)).mp h hdisplaced
  · exact ⟨_, .head _, kept, rfl, rfl, rfl, rfl⟩
  · exact ⟨_, .tail _ (.head _), other, rfl, rfl, rfl, rfl⟩

/-- A host that is another one and the drive of its path: one mapping of the two is sent. -/
theorem not_reaches_drive :
    ¬ ∀ (desired : ServiceState) (caps : Capabilities), desired.aggregator = none →
      caps.supports .pathMapping = true →
      ∀ m ∈ desired.pathMappings, (diff none desired caps).Reaches m := by
  intro h
  let lost : PathMapping := ⟨"fe80::1", "c:\\data", "/data"⟩
  let kept : PathMapping := ⟨"fe80::1:c", "\\data", "/other"⟩
  let desired : ServiceState := { app := "sonarr", pathMappings := [lost, kept] }
  obtain ⟨c, hc, sent, -, hpayload, hplace⟩ := h desired {} rfl rfl lost (.head _)
  have hcreates : (diff none desired {}).creates =
      [⟨.pathMapping, "fe80::1:c:\\data", none, some (.pathMapping kept)⟩] := by decide +kernel
  rw [hcreates, List.mem_singleton] at hc
  subst hc
  cases hpayload
  exact absurd hplace (by decide)

end Diff

end Steward

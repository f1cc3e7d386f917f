import Mathlib.Data.List.Nodup
import Mathlib.Data.List.Sort
import Mathlib.Data.String.Basic
import Mathlib.Order.Bounds.Basic
import Steward.Migration.Directory

/-!
# What is listed of a directory

A directory is listed (`discover_migrations`) as the migrations of its files, by rising versions,
unless two files share a version; then the least version that is shared is named.  Nothing else in
the directory has a say, and neither has the order of its entries (`discover_exact`).

Entries are sorted by name, and the name of a migration begins with its version, so that versions
never fall from one migration to the next; and as no version is listed twice, they rise.

A migration's name is described as three digits, an underscore, a title and the suffix
(`Described`).  Names without line feeds are recognised by exactly this.  With line feeds it goes
wrong in both directions (`version?_eq_some_iff`): a line feed may follow the suffix, and none may
stand in the title.
-/

namespace Steward.Migration

open Text (isDecimal)

/-! ## 1. Names -/

/-- The name is that of a migration of the version, as names are described. -/
def Described (name version : String) : Prop :=
  ∃ a b c title, isDecimal a = true ∧ isDecimal b = true ∧ isDecimal c = true ∧ title ≠ [] ∧
    name.toList = a :: b :: c :: '_' :: (title ++ suffix) ∧ version = String.ofList [a, b, c]

/-- The name is recognised as that of a migration: as described, with a title of one line, and with
or without a line feed at the end. -/
def Recognised (name version : String) : Prop :=
  ∃ a b c title tail, isDecimal a = true ∧ isDecimal b = true ∧ isDecimal c = true ∧ title ≠ [] ∧
    '\n' ∉ title ∧ (tail = [] ∨ tail = ['\n']) ∧
    name.toList = a :: b :: c :: '_' :: (title ++ suffix ++ tail) ∧
    version = String.ofList [a, b, c]

variable {name version : String}

theorem exists_lineFeed (cs : List Char) :
    ∃ tail, (tail = [] ∨ tail = ['\n']) ∧ cs = dropLineFeed cs ++ tail := by
  rw [dropLineFeed]
  split
  · rename_i hlast
    exact ⟨['\n'], .inr rfl, (List.dropLast_append_getLast? _ hlast).symm⟩
  · exact ⟨[], .inl rfl, (List.append_nil cs).symm⟩

theorem dropLineFeed_append {title tail : List Char} (htail : tail = [] ∨ tail = ['\n']) :
    dropLineFeed (title ++ suffix ++ tail) = title ++ suffix := by
  rcases htail with rfl | rfl
  · have hlast : (title ++ suffix).getLast? = some 'l' :=
      List.getLast?_append_of_ne_nil _ (by decide)
    rw [List.append_nil, dropLineFeed, if_neg (by rw [hlast]; decide)]
  · rw [dropLineFeed, if_pos List.getLast?_concat, List.dropLast_concat]

theorem isTitle_iff {cs : List Char} : isTitle cs = true ↔
    ∃ title tail, title ≠ [] ∧ '\n' ∉ title ∧ (tail = [] ∨ tail = ['\n']) ∧
      cs = title ++ suffix ++ tail := by
  rw [isTitle, Bool.and_eq_true, Bool.and_eq_true, decide_eq_true_eq, List.isSuffixOf_iff_suffix,
    Bool.not_eq_true', List.contains_eq_mem, decide_eq_false_iff_not]
  constructor
  · rintro ⟨⟨hlength, title, htitle⟩, hline⟩
    obtain ⟨tail, htail, hcs⟩ := exists_lineFeed cs
    rw [← htitle] at hlength hline hcs
    refine ⟨title, tail, ?_, fun hmem => hline (List.mem_append_left _ hmem), htail, hcs⟩
    rintro rfl
    exact absurd hlength (Nat.lt_irrefl _)
  · rintro ⟨title, tail, hne, hline, htail, rfl⟩
    rw [dropLineFeed_append htail, List.length_append, List.mem_append, not_or]
    have hpos := List.length_pos_iff.mpr hne
    exact ⟨⟨by omega, List.suffix_append _ _⟩, hline, by decide⟩

theorem version?_eq_some_iff : version? name = some version ↔ Recognised name version := by
  rw [version?]
  constructor
  · intro h
    split at h
    · rename_i a b c rest hname
      rw [Option.ite_none_right_eq_some, Bool.and_eq_true, Bool.and_eq_true, Bool.and_eq_true,
        isTitle_iff] at h
      obtain ⟨⟨⟨⟨ha, hb⟩, hc⟩, title, tail, hne, hline, htail, rfl⟩, hversion⟩ := h
      exact ⟨a, b, c, title, tail, ha, hb, hc, hne, hline, htail, hname,
        (Option.some.inj hversion).symm⟩
    · cases h
  · rintro ⟨a, b, c, title, tail, ha, hb, hc, hne, hline, htail, hname, rfl⟩
    rw [hname]
    refine if_pos ?_
    rw [ha, hb, hc, isTitle_iff.mpr ⟨title, tail, hne, hline, htail, rfl⟩]
    rfl

/-- Names without line feeds are recognised by what describes them. -/
theorem recognised_iff_described (h : '\n' ∉ name.toList) :
    Recognised name version ↔ Described name version := by
  constructor
  · rintro ⟨a, b, c, title, tail, ha, hb, hc, hne, -, htail, hname, hversion⟩
    rcases htail with rfl | rfl
    · rw [List.append_nil] at hname
      exact ⟨a, b, c, title, ha, hb, hc, hne, hname, hversion⟩
    · refine absurd ?_ h
      rw [hname]
      simp
  · rintro ⟨a, b, c, title, ha, hb, hc, hne, hname, hversion⟩
    refine ⟨a, b, c, title, [], ha, hb, hc, hne, fun hmem => h ?_, .inl rfl, ?_, hversion⟩
    · rw [hname]
      simp [hmem]
    · rw [List.append_nil, hname]

/-- Names in order have their versions in order. -/
theorem Recognised.le {name' version' : String} (h : Recognised name version)
    (h' : Recognised name' version') (hle : name ≤ name') : version ≤ version' := by
  obtain ⟨a, b, c, title, tail, -, -, -, -, -, -, hname, rfl⟩ := h
  obtain ⟨a', b', c', title', tail', -, -, -, -, -, -, hname', rfl⟩ := h'
  rw [← not_lt, String.lt_iff_toList_lt, String.toList_ofList, String.toList_ofList]
  rw [← not_lt, String.lt_iff_toList_lt, hname, hname'] at hle
  intro hlt
  apply hle
  simp only [List.cons_lt_cons_iff, List.not_lt_nil, and_false, or_false] at hlt ⊢
  rcases hlt with hlt | ⟨heq, hlt | ⟨heq', hlt⟩⟩
  · exact .inl hlt
  · exact .inr ⟨heq, .inl hlt⟩
  · exact .inr ⟨heq, .inr ⟨heq', .inl hlt⟩⟩

/-! ## 2. Files -/

/-- The entry is a file, and recognised as a migration of the version. -/
structure Entry.Holds (e : Entry) (version : String) : Prop where
  file : e.file ≠ none
  name : Recognised e.name version

/-- A file whose name is on one line holds a migration when its name is as described. -/
theorem Entry.holds_iff_described {e : Entry} (h : '\n' ∉ e.name.toList) :
    e.Holds version ↔ e.file ≠ none ∧ Described e.name version :=
  ⟨fun hholds => ⟨hholds.file, (recognised_iff_described h).mp hholds.name⟩,
    fun hfile => ⟨hfile.1, (recognised_iff_described h).mpr hfile.2⟩⟩

/-- What the migration of an entry consists of. -/
structure Entry.Migrates (e : Entry) (m : Migration) : Prop where
  filename : m.filename = e.name
  version : Recognised e.name m.version
  script : ∃ text, e.file = some text ∧ m.script = String.ofList (Text.evenLines text.toList)

variable {e : Entry} {m : Migration}

theorem ofEntry_eq_some_iff : ofEntry? e = some m ↔ e.Migrates m := by
  unfold ofEntry?
  constructor
  · intro h
    split at h
    · rename_i version text hversion hfile
      cases h
      exact ⟨rfl, version?_eq_some_iff.mp hversion, text, hfile, rfl⟩
    · cases h
  · rintro ⟨hfilename, hversion, text, hfile, hscript⟩
    rw [version?_eq_some_iff.mpr hversion, hfile]
    obtain ⟨version, filename, script⟩ := m
    cases hfilename
    cases hscript
    rfl

theorem Entry.Migrates.holds (h : e.Migrates m) : e.Holds m.version := by
  obtain ⟨text, htext, -⟩ := h.script
  exact ⟨by rw [htext]; exact Option.some_ne_none _, h.version⟩

/-- The version that an entry holds is that of its migration. -/
theorem Entry.holds_iff : e.Holds version ↔ ∃ m, ofEntry? e = some m ∧ m.version = version := by
  constructor
  · rintro ⟨hfile, hname⟩
    obtain ⟨text, htext⟩ := Option.ne_none_iff_exists'.mp hfile
    exact ⟨⟨version, e.name, _⟩, ofEntry_eq_some_iff.mpr ⟨rfl, hname, text, htext, rfl⟩, rfl⟩
  · rintro ⟨m, hm, rfl⟩
    exact (ofEntry_eq_some_iff.mp hm).holds

/-! ## 3. Order -/

theorem nodup_of_checkVersions {before : List String} {ms : List Migration}
    (hbefore : before.Nodup) (h : checkVersions before ms = .ok ()) :
    (before ++ ms.map (·.version)).Nodup := by
  induction ms generalizing before with
  | nil => rwa [List.map_nil, List.append_nil]
  | cons m ms ih =>
    rw [checkVersions] at h
    split at h
    · cases h
    · next hfresh =>
      rw [List.contains_iff_mem] at hfresh
      have hnext : (before ++ [m.version]).Nodup := by
        rw [List.nodup_append]
        refine ⟨hbefore, List.nodup_singleton _, ?_⟩
        rintro v hv w hw rfl
        rw [List.mem_singleton] at hw
        exact hfresh (hw ▸ hv)
      have := ih hnext h
      rwa [List.append_assoc] at this

theorem pairwise_sortEntries (es : List Entry) :
    (sortEntries es).Pairwise fun a b => a.name ≤ b.name := by
  have h : (sortEntries es).Pairwise fun a b => decide (a.name ≤ b.name) = true := by
    refine List.pairwise_mergeSort (fun a b c hab hbc => ?_) (fun a b => ?_) es
    · rw [decide_eq_true_iff] at hab hbc ⊢
      exact hab.trans hbc
    · rw [Bool.or_eq_true, decide_eq_true_iff, decide_eq_true_iff]
      exact le_total _ _
  exact h.imp fun hab => of_decide_eq_true hab

/-- The migrations of the entries of a directory, in order. -/
def found (es : List Entry) : List Migration := (sortEntries es).filterMap ofEntry?

/-- In order, versions never fall. -/
theorem pairwise_version_found (es : List Entry) :
    (found es).Pairwise fun m n => m.version ≤ n.version :=
  (pairwise_sortEntries es).filterMap _ fun _ _ hab _ hm _ hn =>
    (ofEntry_eq_some_iff.mp hm).version.le (ofEntry_eq_some_iff.mp hn).version hab

theorem discover_eq (es : List Entry) :
    discover es = (checkVersions [] (found es)).map fun _ => found es := by
  rw [discover, ← found]
  cases checkVersions [] (found es) with
  | error e => rfl
  | ok u => rfl

/-- Versions that do not fall and are not repeated rise. -/
theorem rising_of_checkVersions {es : List Entry} (h : checkVersions [] (found es) = .ok ()) :
    (found es).Pairwise fun m n => m.version < n.version := by
  have hnodup := nodup_of_checkVersions List.nodup_nil h
  rw [List.nil_append] at hnodup
  exact ((pairwise_version_found es).and (List.pairwise_map.mp hnodup)).imp fun hmn =>
    lt_of_le_of_ne hmn.1 hmn.2

/-- **The migrations of a directory are listed by rising versions.** -/
theorem pairwise_version_of_discover {es : List Entry} {ms : List Migration}
    (h : discover es = .ok ms) : ms.Pairwise fun m n => m.version < n.version := by
  rw [discover_eq] at h
  cases hcheck : checkVersions [] (found es) with
  | error e =>
    rw [hcheck] at h
    cases h
  | ok u =>
    rw [hcheck] at h
    cases h
    exact rising_of_checkVersions hcheck

/-! ## 4. Shared versions -/

/-- Two files hold migrations of one version. -/
def Shared (es : List Entry) (version : String) : Prop :=
  ∃ e ∈ es, ∃ e' ∈ es, e ≠ e' ∧ e.Holds version ∧ e'.Holds version

/-- What is listed are the migrations of the files, each once and by rising versions. -/
structure Listing (es : List Entry) (ms : List Migration) : Prop where
  rising : ms.Pairwise fun m n => m.version < n.version
  mem_iff : ∀ m, m ∈ ms ↔ ∃ e ∈ es, e.Migrates m

variable {es : List Entry} {ms : List Migration} {before : List String}

/-- A version that is refused is the first that occurred before. -/
theorem split_of_checkVersions {error : DirectoryError}
    (h : checkVersions before ms = .error error) :
    ∃ left m right, ms = left ++ m :: right ∧ checkVersions before left = .ok () ∧
      m.version ∈ before ++ left.map (·.version) ∧ error = .duplicate m.version := by
  induction ms generalizing before with
  | nil => cases h
  | cons m ms ih =>
    rw [checkVersions] at h
    split at h
    · rename_i hmem
      rw [List.contains_iff_mem] at hmem
      exact ⟨[], m, ms, rfl, rfl, List.mem_append_left _ hmem, (Except.error.inj h).symm⟩
    · rename_i hfresh
      obtain ⟨left, n, right, rfl, hleft, hmem, herror⟩ := ih h
      refine ⟨m :: left, n, right, rfl, ?_, ?_, herror⟩
      · rw [checkVersions, if_neg hfresh, hleft]
      · rwa [List.map_cons, ← List.singleton_append, ← List.append_assoc]

theorem mem_found_iff : m ∈ found es ↔ ∃ e ∈ es, e.Migrates m := by
  simp only [found, List.mem_filterMap, sortEntries, List.mem_mergeSort, ofEntry_eq_some_iff]

/-- As no two entries have one name, no two migrations have. -/
theorem pairwise_filename_found (h : (es.map (·.name)).Nodup) :
    (found es).Pairwise fun m n => m.filename ≠ n.filename := by
  have hsorted : ((sortEntries es).map (·.name)).Nodup :=
    ((List.mergeSort_perm es _).map _).nodup_iff.mpr h
  refine (List.pairwise_map.mp hsorted).filterMap _ fun a b hab m hm n hn => ?_
  rwa [(ofEntry_eq_some_iff.mp hm).filename, (ofEntry_eq_some_iff.mp hn).filename]

/-- Entries are told apart by their names. -/
theorem eq_of_name (h : (es.map (·.name)).Nodup) {e e' : Entry} (he : e ∈ es) (he' : e' ∈ es)
    (hname : e.name = e'.name) : e = e' := List.inj_on_of_nodup_map h he he' hname

/-- Two files of one version are two migrations of it. -/
theorem shared_iff (hes : (es.map (·.name)).Nodup) {version : String} : Shared es version ↔
    ∃ m ∈ found es, ∃ n ∈ found es, m ≠ n ∧ m.version = version ∧ n.version = version := by
  constructor
  · rintro ⟨e, he, e', he', hne, hholds, hholds'⟩
    obtain ⟨m, hm, rfl⟩ := Entry.holds_iff.mp hholds
    obtain ⟨n, hn, hversion⟩ := Entry.holds_iff.mp hholds'
    have hmigrates := ofEntry_eq_some_iff.mp hm
    have hmigrates' := ofEntry_eq_some_iff.mp hn
    refine ⟨m, mem_found_iff.mpr ⟨e, he, hmigrates⟩, n, mem_found_iff.mpr ⟨e', he', hmigrates'⟩,
      ?_, rfl, hversion⟩
    rintro rfl
    exact hne (eq_of_name hes he he' (hmigrates.filename.symm.trans hmigrates'.filename))
  · rintro ⟨m, hm, n, hn, hne, rfl, hversion⟩
    obtain ⟨e, he, hmigrates⟩ := mem_found_iff.mp hm
    obtain ⟨e', he', hmigrates'⟩ := mem_found_iff.mp hn
    refine ⟨e, he, e', he', ?_, hmigrates.holds, hversion ▸ hmigrates'.holds⟩
    rintro rfl
    exact hne (Option.some.inj
      ((ofEntry_eq_some_iff.mpr hmigrates).symm.trans (ofEntry_eq_some_iff.mpr hmigrates')))

/-- **The version that is refused is the least that is shared.** -/
theorem least_of_checkVersions (hes : (es.map (·.name)).Nodup) {error : DirectoryError}
    (h : checkVersions [] (found es) = .error error) :
    ∃ version, IsLeast {v | Shared es v} version ∧ error = .duplicate version := by
  obtain ⟨left, m, right, hsplit, hleft, hmem, rfl⟩ := split_of_checkVersions h
  have hfile := pairwise_filename_found hes
  have hversion := pairwise_version_found es
  rw [hsplit, List.pairwise_append, List.pairwise_cons] at hfile hversion
  refine ⟨m.version, ⟨?_, fun w hw => ?_⟩, rfl⟩
  · obtain ⟨n, hn, heq⟩ := List.mem_map.mp hmem
    refine (shared_iff hes).mpr ⟨n, ?_, m, ?_, ?_, heq, rfl⟩
    · rw [hsplit]
      exact List.mem_append_left _ hn
    · rw [hsplit]
      exact List.mem_append_right _ List.mem_cons_self
    · rintro rfl
      exact hfile.2.2 n hn n List.mem_cons_self rfl
  · -- below `m.version` there are only the migrations on the left, whose versions are told apart
    by_contra hlt
    have hbelow : ∀ n ∈ found es, n.version = w → n ∈ left := by
      rintro n hn rfl
      rw [hsplit, List.mem_append, List.mem_cons] at hn
      rcases hn with hn | rfl | hn
      · exact hn
      · exact absurd le_rfl hlt
      · exact absurd (hversion.2.1.1 n hn) hlt
    obtain ⟨n, hn, n', hn', hne, hw, hw'⟩ := (shared_iff hes).mp hw
    have hnodup := nodup_of_checkVersions List.nodup_nil hleft
    exact hne (List.inj_on_of_nodup_map hnodup (hbelow n hn hw) (hbelow n' hn' hw')
      (hw.trans hw'.symm))

/-- When no version is shared, none is refused. -/
theorem checkVersions_found (hes : (es.map (·.name)).Nodup) (h : ∀ version, ¬ Shared es version) :
    checkVersions [] (found es) = .ok () := by
  cases hcheck : checkVersions [] (found es) with
  | ok u => rfl
  | error error =>
    obtain ⟨version, hleast, -⟩ := least_of_checkVersions hes hcheck
    exact absurd hleast.1 (h version)

/-- When a version is shared, one is refused. -/
theorem error_of_shared (hes : (es.map (·.name)).Nodup) {version : String} (h : Shared es version) :
    ∃ error, checkVersions [] (found es) = .error error := by
  cases hcheck : checkVersions [] (found es) with
  | error error => exact ⟨error, rfl⟩
  | ok u =>
    obtain ⟨m, hm, n, hn, hne, hversion, hversion'⟩ := (shared_iff hes).mp h
    have hnodup := nodup_of_checkVersions List.nodup_nil hcheck
    exact absurd (List.inj_on_of_nodup_map hnodup hm hn (hversion.trans hversion'.symm)) hne

/-! ## 5. Directories -/

/-- A directory is listed as the migrations of its files, when no version is shared. -/
theorem listing_found (hes : (es.map (·.name)).Nodup) (h : ∀ version, ¬ Shared es version) :
    Listing es (found es) :=
  ⟨rising_of_checkVersions (checkVersions_found hes h), fun _ => mem_found_iff⟩

/-- A listing is told by its members. -/
theorem Listing.unique {ms ms' : List Migration} (h : Listing es ms) (h' : Listing es ms') :
    ms = ms' := by
  have hirrefl : Std.Irrefl fun m n : Migration => m.version < n.version := ⟨fun _ => lt_irrefl _⟩
  have hantisymm : Std.Antisymm fun m n : Migration => m.version < n.version :=
    ⟨fun _ _ hmn hnm => absurd hmn hnm.asymm⟩
  exact h.rising.eq_of_mem_iff h'.rising fun m => (h.mem_iff m).trans (h'.mem_iff m).symm

/-- The directories have the same files with migrations. -/
def Alike (es es' : List Entry) : Prop :=
  ∀ e version, e.Holds version → (e ∈ es ↔ e ∈ es')

variable {es' : List Entry}

theorem Alike.shared (h : Alike es es') {version : String} (hshared : Shared es version) :
    Shared es' version := by
  obtain ⟨e, he, e', he', hne, hholds, hholds'⟩ := hshared
  exact ⟨e, (h e version hholds).mp he, e', (h e' version hholds').mp he', hne, hholds, hholds'⟩

theorem Alike.symm (h : Alike es es') : Alike es' es :=
  fun e version hholds => (h e version hholds).symm

theorem Alike.listing (h : Alike es es') (hlisting : Listing es ms) : Listing es' ms := by
  refine ⟨hlisting.rising, fun m => (hlisting.mem_iff m).trans ?_⟩
  constructor
  · rintro ⟨e, he, hm⟩
    exact ⟨e, (h e _ hm.holds).mp he, hm⟩
  · rintro ⟨e, he, hm⟩
    exact ⟨e, (h e _ hm.holds).mpr he, hm⟩

/-- A directory in which no version is shared is listed. -/
theorem listed_of_not_shared (hes : (es.map (·.name)).Nodup) (h : ∀ version, ¬ Shared es version) :
    ∃ ms, discover es = .ok ms ∧ Listing es ms := by
  refine ⟨found es, ?_, listing_found hes h⟩
  rw [discover_eq, checkVersions_found hes h]
  rfl

/-- A directory in which a version is shared is refused for the least. -/
theorem refused_of_shared (hes : (es.map (·.name)).Nodup) (h : ∃ version, Shared es version) :
    ∃ version, IsLeast {v | Shared es v} version ∧ discover es = .error (.duplicate version) := by
  obtain ⟨_, hshared⟩ := h
  obtain ⟨error, herror⟩ := error_of_shared hes hshared
  obtain ⟨version, hleast, rfl⟩ := least_of_checkVersions hes herror
  refine ⟨version, hleast, ?_⟩
  rw [discover_eq, herror]
  rfl

/-- Directories with the same files with migrations are listed, or refused, the same. -/
theorem discover_congr (hes : (es.map (·.name)).Nodup) (hes' : (es'.map (·.name)).Nodup)
    (h : Alike es es') : discover es' = discover es := by
  by_cases hshared : ∃ version, Shared es version
  · obtain ⟨version, hleast, hdiscover⟩ := refused_of_shared hes hshared
    obtain ⟨version', hleast', hdiscover'⟩ := refused_of_shared hes' (hshared.imp fun _ => h.shared)
    have hsame : {v | Shared es v} = {v | Shared es' v} :=
      Set.ext fun _ => ⟨h.shared, h.symm.shared⟩
    rw [hdiscover, hdiscover', hleast.unique (hsame ▸ hleast')]
  · obtain ⟨ms, hdiscover, hlisting⟩ := listed_of_not_shared hes (not_exists.mp hshared)
    obtain ⟨ms', hdiscover', hlisting'⟩ :=
      listed_of_not_shared hes' fun version hv => hshared ⟨version, h.symm.shared hv⟩
    rw [hdiscover, hdiscover', (h.listing hlisting).unique hlisting']

/-- **A directory is listed as the migrations of its files, unless they share versions.**  Then it
is refused for the least that is shared.  Neither depends on what else there is in the directory, nor
on the order of its entries; and names on one line are told by what describes them. -/
theorem discover_exact (hes : (es.map (·.name)).Nodup) :
    ((∀ version, ¬ Shared es version) → ∃ ms, discover es = .ok ms ∧ Listing es ms) ∧
      ((∃ version, Shared es version) →
        ∃ version, IsLeast {v | Shared es v} version ∧
          discover es = .error (.duplicate version)) ∧
      (∀ es', (es'.map (·.name)).Nodup → Alike es es' → discover es' = discover es) ∧
      ∀ e ∈ es, '\n' ∉ e.name.toList →
        ∀ version, e.Holds version ↔ e.file ≠ none ∧ Described e.name version :=
  ⟨listed_of_not_shared hes, refused_of_shared hes, fun _ hes' => discover_congr hes hes',
    fun _ _ hline _ => Entry.holds_iff_described hline⟩

/-- Scripts are listed from among other files and a directory; with a file in place of the
directory, two scripts have one version. -/
theorem discover_exact_unordered :
    let a : Entry := ⟨"001_a.sql", some "SELECT 1;"⟩
    let c : Entry := ⟨"010_c.sql", some ""⟩
    let notes : Entry := ⟨"notes.txt", some ""⟩
    let ms : List Migration := [⟨"001", "001_a.sql", "SELECT 1;"⟩, ⟨"010", "010_c.sql", ""⟩]
    (([c, notes, ⟨"001_b.sql", none⟩, a].map (·.name)).Nodup ∧
      discover [c, notes, ⟨"001_b.sql", none⟩, a] = .ok ms ∧
      Listing [c, notes, ⟨"001_b.sql", none⟩, a] ms) ∧
    ([notes, ⟨"001_b.sql", some ""⟩, a].map (·.name)).Nodup ∧
      discover [notes, ⟨"001_b.sql", some ""⟩, a] = .error (.duplicate "001") := by
  intro a c notes ms
  constructor
  · let es : List Entry := [c, notes, ⟨"001_b.sql", none⟩, a]
    have hes : (es.map (·.name)).Nodup := by decide
    obtain ⟨hlisted, hrefused, hcongr, -⟩ := discover_exact hes
    have hordered : discover [a, c] = .ok ms := by
      rw [discover, sortEntries, List.mergeSort_of_pairwise (by decide)]
      decide
    have halike : Alike es [a, c] := by
      intro e version hholds
      have hothers : ∀ e ∈ es, e ∈ [a, c] ∨ ofEntry? e = none := by decide
      have hscripts : ∀ e ∈ [a, c], e ∈ es := by decide
      refine ⟨fun he => (hothers e he).resolve_right fun hnone => ?_, hscripts e⟩
      obtain ⟨m, hm, -⟩ := Entry.holds_iff.mp hholds
      cases hnone.symm.trans hm
    have hdiscover : discover es = .ok ms :=
      (hcongr [a, c] (by decide) halike).symm.trans hordered
    obtain ⟨ms', hms', hlisting⟩ := hlisted fun version hshared => by
      obtain ⟨_, -, herror⟩ := hrefused ⟨version, hshared⟩
      cases hdiscover.symm.trans herror
    cases hdiscover.symm.trans hms'
    exact ⟨hes, hdiscover, hlisting⟩
  · let b : Entry := ⟨"001_b.sql", some ""⟩
    let first : Migration := ⟨"001", "001_a.sql", "SELECT 1;"⟩
    let second : Migration := ⟨"001", "001_b.sql", ""⟩
    have hes : ([notes, b, a].map (·.name)).Nodup := by decide
    have hshared : Shared [notes, b, a] "001" :=
      ⟨a, by decide, b, by decide, by decide, Entry.holds_iff.mpr ⟨first, by decide, rfl⟩,
        Entry.holds_iff.mpr ⟨second, by decide, rfl⟩⟩
    obtain ⟨version, ⟨⟨e, he, -, -, -, hholds, -⟩, -⟩, hdiscover⟩ :=
      (discover_exact hes).2.1 ⟨"001", hshared⟩
    have honly : ∀ e ∈ [notes, b, a], ∀ m ∈ ofEntry? e, m.version = "001" := by decide
    obtain ⟨m, hm, rfl⟩ := Entry.holds_iff.mp hholds
    exact ⟨hes, honly e he m hm ▸ hdiscover⟩

/-- A name that ends in a line feed, and not in the suffix, is listed. -/
theorem listed_lineFeed :
    discover [⟨"001_a.sql\n", some "SELECT 1;"⟩] = .ok [⟨"001", "001_a.sql\n", "SELECT 1;"⟩] ∧
      ¬ ∃ version, Described "001_a.sql\n" version := by
  constructor
  · rw [discover, sortEntries, List.mergeSort_singleton]
    decide
  · rintro ⟨version, a, b, c, title, -, -, -, -, hname, -⟩
    have hlast := congrArg List.getLast? hname
    rw [← List.cons_append, ← List.cons_append, ← List.cons_append, ← List.cons_append,
      List.getLast?_append_of_ne_nil _ (by decide)] at hlast
    exact absurd hlast (by decide)

end Steward.Migration

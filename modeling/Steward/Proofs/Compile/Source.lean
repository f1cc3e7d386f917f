import Steward.Proofs.Compile.Alike
import Steward.Proofs.Document.Forms
import Steward.Proofs.Document.Respelt
import Steward.Proofs.Duration
import Steward.Proofs.Managed
import Steward.Proofs.Text.Numeral

/-!
# What a configuration is made from

The text that is digested of a resource (`hash_inputs`) says all that the compiler looks at, and no
more: two resources have one text exactly if they have the same type of service, the same name, and
specifications that differ at most in the order of keys in settings.  The resource may be spelt in
any way, and equal texts are compiled to one configuration (`source_identified`).  Keys and texts
are made of Unicode scalar values, as in every document (`Json`).

There is one exception.  A resource has no text, and is not compiled, if the settings of a list have
more levels than the validation library serializes, if there is no room to write as many levels as
it has, or if some whole number has too many digits: then it has no text in common even with itself
(`not_source_identified`).
-/

namespace Steward

open Json

/-! ## 1. The text -/

theorem Kind.service_injective : Function.Injective Kind.service := by
  rintro ((_ | _ | _ | _) | _) ((_ | _ | _ | _) | _) h <;> first | rfl | exact absurd h (by decide)

section Sources

variable [Validator]

namespace Compile

variable {m m' : Managed}

/-- The document that is digested, made of the members that are written of the specification. -/
def sourceOf (m : Managed) : Json :=
  .object [("app", .string m.service), ("name", .string m.name),
    ("spec", .object m.declared.toMembers)]

theorem source_eq (m : Managed) : source m =
    if m.declared.Storable then .ok (sourceOf m) else .error (.tooDeep Validator.depthText) := by
  rw [source, Declared.document_eq]
  split <;> rfl

theorem sourceText_eq [Room] (m : Managed) : sourceText m =
    if m.declared.Storable then (sourceOf m).canonicalDump
    else .error (.tooDeep Validator.depthText) := by
  rw [sourceText, source_eq]
  split <;> rfl

theorem sourceText_eq_ok_iff [Room] {t : String} : sourceText m = .ok t ↔
    m.declared.Storable ∧ ((sourceOf m).depth ≤ Room.writing ∧ (sourceOf m).printable = true) ∧
      (sourceOf m).canonicalText = t := by
  rw [sourceText_eq, ← canonicalDump_eq_ok_iff]
  split
  · rename_i hstorable
    exact (and_iff_right hstorable).symm
  · rename_i hdeep
    exact iff_of_false (fun h => nomatch h) fun h => hdeep h.1

theorem printable_sourceOf (m : Managed) :
    (sourceOf m).printable = (Json.object m.declared.toMembers).printable := by
  simp only [sourceOf, printable, printableMembers, Bool.true_and, Bool.and_true]

theorem depth_sourceOf (m : Managed) :
    (sourceOf m).depth = (Json.object m.declared.toMembers).depth + 1 := by
  simp [sourceOf, depth, depthOfMembers]

/-- What is digested of a proper specification is tidy. -/
theorem tidy_sourceOf [Validator.Lawful] (hproper : m.declared.Proper) : Tidy (sourceOf m) := by
  refine tidy_object_iff.mpr ⟨?_, ?_⟩
  · show ["app", "name", "spec"].Nodup
    decide
  · rw [List.forall_mem_cons, List.forall_mem_cons, List.forall_mem_singleton]
    exact ⟨⟨rfl, rfl⟩, ⟨rfl, rfl⟩, hproper.tidy⟩

/-- The documents are alike if all of their parts are. -/
theorem alike_sourceOf_iff : alike (sourceOf m) (sourceOf m') = true ↔
    m.service = m'.service ∧ m.name = m'.name ∧
      alike (.object m.declared.toMembers) (.object m'.declared.toMembers) = true := by
  have hparts : alike (sourceOf m) (sourceOf m') =
      (Json.string m.service == .string m'.service && (Json.string m.name == .string m'.name &&
        (alike (.object m.declared.toMembers) (.object m'.declared.toMembers) && true))) := rfl
  rw [hparts, Bool.and_true, Bool.and_eq_true, Bool.and_eq_true, beq_iff_eq, beq_iff_eq,
    Json.string.injEq, Json.string.injEq]

/-- The parts of the source in another order give the same text, or none for the same reason. -/
theorem sourceText_eq_of_alike [Validator.Lawful] [Room] (hproper : m.declared.Proper)
    (hproper' : m'.declared.Proper) (h : m.Alike m') : sourceText m = sourceText m' := by
  obtain ⟨hservice, hname, h⟩ := h
  rw [sourceText_eq, sourceText_eq]
  by_cases hstorable : m.declared.Storable
  · have hkind : m.declared.kind = m'.declared.kind := Kind.service_injective hservice
    have hspec := (Declared.reordered_iff hproper hproper' hkind).mpr h
    have hsource : Reordered (sourceOf m) (sourceOf m') :=
      ⟨(tidy_sourceOf hproper).keysOnce, (tidy_sourceOf hproper').keysOnce,
        alike_sourceOf_iff.mpr ⟨hservice, hname, hspec.alike⟩⟩
    rw [if_pos hstorable, if_pos (h.storable_iff.mp hstorable), canonicalDump_eq, canonicalDump_eq,
      (reordered_iff.mp hsource).2.2]
  · rw [if_neg hstorable, if_neg (mt h.storable_iff.mpr hstorable)]

/-- One text is the text of resources with the same parts only. -/
theorem alike_of_sourceText [Validator.Lawful] [Room] (hproper : m.declared.Proper)
    (hproper' : m'.declared.Proper) {t : String} (h : sourceText m = .ok t)
    (h' : sourceText m' = .ok t) : m.Alike m' := by
  obtain ⟨-, ⟨-, hprintable⟩, rfl⟩ := sourceText_eq_ok_iff.mp h
  obtain ⟨-, ⟨-, hprintable'⟩, hsame⟩ := sourceText_eq_ok_iff.mp h'
  have hreadable : Readable (sourceOf m).depth (sourceOf m) :=
    ⟨tidy_sourceOf hproper, Nat.le_refl _, hprintable⟩
  have hreadable' : Readable (sourceOf m').depth (sourceOf m') :=
    ⟨tidy_sourceOf hproper', Nat.le_refl _, hprintable'⟩
  have halike := (canonicalText_eq_iff hreadable hreadable').mp hsame.symm
  obtain ⟨hservice, hname, hspec⟩ := alike_sourceOf_iff.mp halike
  refine ⟨hservice, hname, ?_⟩
  have hkind : m.declared.kind = m'.declared.kind := Kind.service_injective hservice
  rw [← Declared.reordered_iff hproper hproper' hkind]
  exact ⟨hproper.tidy.keysOnce, hproper'.tidy.keysOnce, hspec⟩

/-- Nothing is compiled without a text. -/
theorem not_compiled [Room] (h : ∀ t, sourceText m ≠ .ok t) (pre : String) (secrets : SecretMap)
    (caps : Capabilities) : ∃ e, compile pre m secrets caps = .error e := by
  rw [compile, sourceHash]
  cases sections pre m secrets with
  | error e => exact ⟨e, rfl⟩
  | ok s =>
    cases ht : sourceText m with
    | error e => exact ⟨.unwritable e, rfl⟩
    | ok t => exact absurd ht (h t)

end Compile

/-! ## 2. Resources -/

/-- The specification of the resource is a document as it comes from text: its numbers are finite,
and each key is there once. -/
structure Resource.Regular (r : Resource) : Prop where
  finite : finiteMembers r.spec = true
  keysOnce : (Json.object r.spec).keysOnce = true

namespace Declared

/-- The specification can be written as text, below the document that is digested: its settings have
no more levels than the validation library serializes, there is room for its levels, and no whole
number has too many digits. -/
def Writable [Room] (d : Declared) : Prop :=
  d.Storable ∧ (Json.object d.toMembers).depth < Room.writing ∧
    (Json.object d.toMembers).printable = true

/-- Documents that are read as one specification of the kind, whatever the order of keys: one is a
spelling of the other in another order. -/
def Respelt (kind : Kind) (spec spec' : Members) : Prop :=
  ∃ between, Reordered (.object between) (.object spec') ∧
    match kind with
    | .manager _ => Spec.Manager.block.Respelt spec between
    | .aggregator => Spec.Aggregator.block.Respelt spec between

variable {kind : Kind} {spec spec' : Members} {d : Declared}

theorem kind_of_read (h : read kind spec = .ok d) : d.kind = kind := by
  have hd := read_eq_ok h
  cases kind with
  | manager k =>
    obtain ⟨s, -, rfl⟩ := hd
    rfl
  | aggregator =>
    obtain ⟨s, -, rfl⟩ := hd
    rfl

theorem writable_iff [Room] {m : Managed} :
    m.declared.Writable ↔ ∃ t, Compile.sourceText m = .ok t := by
  simp only [Compile.sourceText_eq_ok_iff, Compile.printable_sourceOf, Compile.depth_sourceOf,
    exists_and_left, exists_eq', and_true, Writable, Nat.add_one_le_iff]

/-- A document that is spelt in another way is read as the same specification, up to the order of
keys in settings. -/
theorem alike_of_respelt [Validator.Lawful] (h : Respelt kind spec spec')
    (hread : read kind spec = .ok d) : ∃ d', read kind spec' = .ok d' ∧ d.Alike d' := by
  obtain ⟨between, horder, hspelt⟩ := h
  refine alike_of_reordered horder ?_
  have hd := read_eq_ok hread
  cases kind with
  | manager k =>
    obtain ⟨s, hs, rfl⟩ := hd
    rw [read, (hspelt.read_iff s).mp hs]
    rfl
  | aggregator =>
    obtain ⟨s, hs, rfl⟩ := hd
    rw [read, (hspelt.read_iff s).mp hs]
    rfl

end Declared

variable {r r' : Resource} {m m' : Managed}

theorem Managed.read_of_ofResource (h : ofResource r = .ok m) :
    Kind.ofName? r.kind = some m.declared.kind ∧
      Declared.read m.declared.kind r.spec = .ok m.declared := by
  cases hkind : Kind.ofName? r.kind with
  | none =>
    rw [ofResource, hkind] at h
    cases h
  | some kind =>
    have hread := declared_of_ofResource hkind h
    rw [Declared.kind_of_read hread]
    exact ⟨rfl, hread⟩

theorem Resource.Regular.proper [Validator.Lawful] (hr : r.Regular)
    (hm : Managed.ofResource r = .ok m) : m.declared.Proper :=
  Declared.proper_of_read hr.finite hr.keysOnce (Managed.read_of_ofResource hm).2

/-- **The text of the source** identifies what the compiler looks at.  Two resources have a text in
common exactly if that can be written and is the same, up to the order of keys in settings; one that
is only spelt in another way has the same text.  Resources with a text in common are both compiled,
to configurations that differ at most in the order of keys in settings, or both are not, for the
same reason.  A resource without a text is not compiled. -/
theorem source_identified [Validator.Lawful] [Room] (hm : Managed.ofResource r = .ok m)
    (hm' : Managed.ofResource r' = .ok m') (hr : r.Regular) (hr' : r'.Regular) :
    ((∃ t, Compile.sourceText m = .ok t ∧ Compile.sourceText m' = .ok t) ↔
      m.declared.Writable ∧ m.Alike m') ∧
    (r.kind = r'.kind → r.name = r'.name → Declared.Respelt m.declared.kind r.spec r'.spec →
      Compile.sourceText m = Compile.sourceText m') ∧
    (∀ t, Compile.sourceText m = .ok t → Compile.sourceText m' = .ok t →
      ∀ (pre : String) (secrets : SecretMap) (caps : Capabilities),
        SameOutcome ServiceState.Alike (compile pre m secrets caps)
          (compile pre m' secrets caps)) ∧
    (¬ m.declared.Writable → ∀ (pre : String) (secrets : SecretMap) (caps : Capabilities),
      ∃ e, compile pre m secrets caps = .error e) := by
  have hproper := hr.proper hm
  have hproper' := hr'.proper hm'
  refine ⟨⟨?_, ?_⟩, ?_, ?_, ?_⟩
  · rintro ⟨t, ht, ht'⟩
    exact ⟨Declared.writable_iff.mpr ⟨t, ht⟩, Compile.alike_of_sourceText hproper hproper' ht ht'⟩
  · rintro ⟨hwritable, halike⟩
    obtain ⟨t, ht⟩ := Declared.writable_iff.mp hwritable
    have hsame := Compile.sourceText_eq_of_alike hproper hproper' halike
    exact ⟨t, ht, hsame ▸ ht⟩
  · intro hkind hname hrespelt
    obtain ⟨hof, hread⟩ := Managed.read_of_ofResource hm
    obtain ⟨hof', hread'⟩ := Managed.read_of_ofResource hm'
    have hkinds : m.declared.kind = m'.declared.kind := by
      rw [hkind, hof', Option.some_inj] at hof
      exact hof.symm
    have hnames : m.name = m'.name := by
      rw [Managed.name, Managed.name, Managed.resource_of_ofResource hm,
        Managed.resource_of_ofResource hm', hname]
    obtain ⟨d, hd, halike⟩ := Declared.alike_of_respelt hrespelt hread
    rw [hkinds, hread', Except.ok.injEq] at hd
    exact Compile.sourceText_eq_of_alike hproper hproper'
      ⟨congrArg Kind.service hkinds, hnames, hd ▸ halike⟩
  · intro t ht ht' pre secrets caps
    refine compile_alike pre secrets caps (Compile.alike_of_sourceText hproper hproper' ht ht') ?_
    rw [Compile.sourceHash, Compile.sourceHash, ht, ht']
  · intro hwritable
    exact Compile.not_compiled fun t ht => hwritable (Declared.writable_iff.mpr ⟨t, ht⟩)

end Sources

/-- A resource in camel case, with a null, and with durations in units. -/
def spelt : Resource where
  kind := "SonarrConfig"
  name := "tv"
  spec := [
    ("connection", .object [("url", .string "http://tv"), ("timeout", .string "1m30s")]),
    ("qualityPreset", .null),
    ("importLists", .array [.object [("name", .string "watched"), ("type", .string "Trakt"),
      ("settings", .object [("limit", .int 10), ("user", .string "me")])]]),
    ("reconciliation", .object [("interval", .string "5m")])]

/-- The resource in snake case, with all keys in another order, without the null, and with durations
in seconds. -/
def respelt : Resource where
  kind := "SonarrConfig"
  name := "tv"
  spec := [
    ("reconciliation", .object [("interval", .int 300)]),
    ("import_lists", .array [.object [("type", .string "Trakt"), ("name", .string "watched"),
      ("settings", .object [("user", .string "me"), ("limit", .int 10)])]]),
    ("connection", .object [("timeout", .int 90), ("url", .string "http://tv")])]

/-- A specification with one list, a time limit and an interval. -/
def showsSpec (settings : Members) (timeout interval : Option Nat) : Spec.Manager where
  connection := ⟨"http://tv", none, false, timeout⟩
  qualityPreset := none
  downloadClients := []
  indexers := none
  rootFolders := []
  pathMappings := []
  importLists := [⟨"watched", "Trakt", true, true, false, none, none, settings, none⟩]
  mediaManagement := none
  authentication := none
  tuning := some ⟨interval, false⟩

/-- A resource with the specification that was read of it. -/
def showsWith (r : Resource) (settings : Members) (timeout interval : Option Nat) : Managed where
  resource := r
  declared := .manager .sonarr (showsSpec settings timeout interval)
  status := {}

/-- Member by member, only the settings are in another order afterwards. -/
theorem respelt_spelt : Declared.Respelt (.manager .sonarr) spelt.spec respelt.spec := by
  refine ⟨[
    ("reconciliation", .object [("interval", .int 300)]),
    ("import_lists", .array [.object [("type", .string "Trakt"), ("name", .string "watched"),
      ("settings", .object [("limit", .int 10), ("user", .string "me")])]]),
    ("connection", .object [("timeout", .int 90), ("url", .string "http://tv")])],
    ⟨by decide, by decide, by decide⟩, ?_⟩
  have hconnection : Spec.Connection.codec.Respelt
      (.object [("url", .string "http://tv"), ("timeout", .string "1m30s")])
      (.object [("timeout", .int 90), ("url", .string "http://tv")]) :=
    .block _ (.seq (.seq (.seq (.map (.required rfl rfl (.refl _ _)))
      (.unset rfl (.inl rfl) (.inl rfl))) (.absent rfl rfl)) (.optional rfl rfl (.duration rfl)))
  have hlist : Spec.ImportList.codec.Respelt
      (.object [("name", .string "watched"), ("type", .string "Trakt"),
        ("settings", .object [("limit", .int 10), ("user", .string "me")])])
      (.object [("type", .string "Trakt"), ("name", .string "watched"),
        ("settings", .object [("limit", .int 10), ("user", .string "me")])]) := by
    refine .block _ (.seq (.seq (.seq (.seq (.seq (.seq (.seq (.seq (.map
      (.required rfl rfl (.refl _ _))) (.required rfl rfl (.refl _ _))) ?_) ?_) ?_) ?_) ?_)
      (.defaulted rfl rfl (.refl _ _))) ?_)
    · exact .absent rfl rfl
    · exact .absent rfl rfl
    · exact .absent rfl rfl
    · exact .unset rfl (.inl rfl) (.inl rfl)
    · exact .unset rfl (.inl rfl) (.inl rfl)
    · exact .unset rfl (.inl rfl) (.inl rfl)
  have htuning : Spec.Tuning.codec.Respelt (.object [("interval", .string "5m")])
      (.object [("interval", .int 300)]) :=
    .block _ (.seq (.map (.optional rfl rfl (.duration rfl))) (.absent rfl rfl))
  change Spec.Manager.block.Respelt spelt.spec _
  unfold Spec.Manager.block
  -- the members that are left out of both, or null in one, are left for the end
  refine .seq (.seq (.seq (.seq (.seq (.seq (.seq (.seq (.seq (.map
    (.required rfl rfl hconnection)) ?_) ?_) ?_) ?_) ?_)
    (.defaulted rfl rfl (.list (.cons hlist (.nil _))))) ?_) ?_)
    (.optional rfl rfl (.nullable nofun nofun htuning))
  · exact .unset rfl (.inr ⟨_, rfl⟩) (.inl rfl)
  · exact .absent rfl rfl
  · exact .unset rfl (.inl rfl) (.inl rfl)
  · exact .absent rfl rfl
  · exact .absent rfl rfl
  · exact .unset rfl (.inl rfl) (.inl rfl)
  · exact .unset rfl (.inl rfl) (.inl rfl)

/-- Both spellings have one text, and are compiled to one configuration. -/
theorem source_identified_respelt :
    let m := showsWith spelt [("limit", .int 10), ("user", .string "me")] (some 90) (some 300)
    let m' := showsWith respelt [("user", .string "me"), ("limit", .int 10)] (some 90) (some 300)
    (Managed.ofResource spelt = .ok m ∧ spelt.Regular) ∧
      (Managed.ofResource respelt = .ok m' ∧ respelt.Regular) ∧
      ∃ t, Compile.sourceText m = .ok t ∧ Compile.sourceText m' = .ok t ∧
        ∀ pre secrets caps, SameOutcome ServiceState.Alike (compile pre m secrets caps)
          (compile pre m' secrets caps) := by
  intro m m'
  have hm : Managed.ofResource spelt = .ok m := rfl
  have hm' : Managed.ofResource respelt = .ok m' := rfl
  have hr : spelt.Regular := ⟨by decide, by decide⟩
  have hr' : respelt.Regular := ⟨by decide, by decide⟩
  obtain ⟨hidentified, hrespelt, hcompiled, -⟩ := source_identified hm hm' hr hr'
  have hsettings : Reordered (.object [("limit", .int 10), ("user", .string "me")])
      (.object [("user", .string "me"), ("limit", .int 10)]) :=
    ⟨by decide, by decide, by decide⟩
  have hwritable : m.declared.Writable := ⟨by decide, by decide, by decide⟩
  have halike : m.declared.Alike m'.declared := ⟨rfl, .cons ⟨rfl, hsettings⟩ .nil⟩
  obtain ⟨t, ht, -⟩ := hidentified.mpr ⟨hwritable, rfl, rfl, halike⟩
  have ht' : Compile.sourceText m' = .ok t := by
    rw [← hrespelt rfl rfl respelt_spelt, ht]
  exact ⟨⟨hm, hr⟩, ⟨hm', hr'⟩, t, ht, ht', hcompiled t ht ht'⟩

/-! ## 3. Resources without a text -/

/-- The resources have a text in common exactly if all that the compiler looks at is the same. -/
def Compile.Identified [Validator] [Room] (m m' : Managed) : Prop :=
  (∃ t, sourceText m = .ok t ∧ sourceText m' = .ok t) ↔ m.Alike m'

/-- A resource whose specification cannot be written has no text in common with itself. -/
theorem Compile.not_identified [Validator] [Validator.Lawful] [Room] {r : Resource} {m : Managed}
    (hm : Managed.ofResource r = .ok m) (hr : r.Regular) (h : ¬ m.declared.Writable) :
    ¬ Identified m m := by
  intro hiff
  obtain ⟨t, ht, -⟩ := hiff.mpr ⟨rfl, rfl, (hr.proper hm).alike⟩
  exact h (Declared.writable_iff.mpr ⟨t, ht⟩)

/-- A resource with one list, a time limit and an interval. -/
def shows (limit timeout : Json) : Resource where
  kind := "SonarrConfig"
  name := "tv"
  spec := [
    ("connection", .object [("url", .string "http://tv"), ("timeout", timeout)]),
    ("importLists", .array [.object [("name", .string "watched"), ("type", .string "Trakt"),
      ("settings", .object [("limit", limit)])]]),
    ("reconciliation", .object [("interval", .string "5m")])]

section Shows

variable {limit timeout : Json} {d : Option Nat}

theorem ofResource_shows (h : Codec.duration.read timeout = .valid d) :
    Managed.ofResource (shows limit timeout) =
      .ok (showsWith (shows limit timeout) [("limit", limit)] d (some 300)) := by
  have hconnection : Spec.Connection.codec.read
      (.object [("url", .string "http://tv"), ("timeout", timeout)]) =
        .valid ⟨"http://tv", none, false, d⟩ :=
    Block.read_seq_iff.mpr ⟨_, d, rfl, Checked.below_eq_valid_iff.mpr h, rfl⟩
  have hspec : Spec.Manager.block.read (shows limit timeout).spec =
      .valid (showsSpec [("limit", limit)] d (some 300)) := by
    unfold Spec.Manager.block
    iterate 9 refine Block.read_seq_iff.mpr ⟨_, _, ?_, rfl, rfl⟩
    exact Block.read_map_iff.mpr ⟨_, Checked.below_eq_valid_iff.mpr hconnection, rfl⟩
  have hread : Declared.read (.manager .sonarr) (shows limit timeout).spec =
      .ok (.manager .sonarr (showsSpec [("limit", limit)] d (some 300))) := by
    rw [Declared.read, hspec]
    rfl
  have hkind : Kind.ofName? (shows limit timeout).kind = some (.manager .sonarr) :=
    Kind.ofName?_name (.manager .sonarr)
  rw [Managed.ofResource, hkind]
  dsimp only
  rw [hread]
  rfl

theorem regular_shows (hlimit : Tidy limit) (htimeout : Tidy timeout) :
    (shows limit timeout).Regular := by
  constructor
  · simp [shows, finite, finiteItems, finiteMembers, hlimit.finite, htimeout.finite]
  · simp [shows, keysOnce, keysOnceItems, keysOnceMembers, Table.keys, hlimit.keysOnce,
      htimeout.keysOnce]

end Shows

/-- The settings of the list have one level too many. -/
def deep : Resource := shows (Form.nested Validator.levels) (.string "1m30s")

/-- A time limit of ten to the power of `k` hours. -/
def hours (k : Nat) : Json := .string (String.ofList ('1' :: List.replicate k '0' ++ ['h']))

theorem read_hours {k : Nat} (h : k < Text.numeralLimit) :
    Codec.duration.read (hours k) = .valid (some (10 ^ k * 3600)) := by
  have hdigits : ∀ c ∈ '1' :: List.replicate k '0', '0' ≤ c ∧ c ≤ '9' := by
    refine List.forall_mem_cons.mpr ⟨by decide, fun c hc => ?_⟩
    rw [List.eq_of_mem_replicate hc]
    decide
  have hlength : ('1' :: List.replicate k '0').length ≤ Text.numeralLimit := by
    rwa [List.length_cons, List.length_replicate]
  have hvalue : Text.numeralValue ('1' :: List.replicate k '0') = 10 ^ k := by
    rw [← List.singleton_append, Text.numeralValue_append_zeros]
    exact Nat.one_mul _
  have htext : Duration.ofText (String.ofList ('1' :: List.replicate k '0' ++ ['h'])) =
      .ok (10 ^ k * 3600) := by
    rw [Duration.ofText_unit (List.cons_ne_nil _ _) hdigits hlength (.head _), hvalue]
  have hne : (String.ofList ('1' :: List.replicate k '0' ++ ['h'])).isEmpty = false := by
    rw [String.isEmpty_eq_false_iff]
    simp
  simp only [hours, Codec.duration, Duration.ofJson, hne, htext]
  rfl

/-- The seconds of the time limit have more digits than can be written. -/
def long : Resource := shows (.int 10) (hours (Text.numeralLimit - 1))

theorem not_writable_deep : ¬ (showsWith deep [("limit", Form.nested Validator.levels)] (some 90)
    (some 300)).declared.Writable := by
  rintro ⟨hstorable, -⟩
  have hle := hstorable _ (.head _)
  rw [heightOfMembers, Form.height_nested] at hle
  exact absurd hle (by decide)

theorem not_writable_of_hours {r : Resource} {settings : Members} {k : Nat}
    (h : Text.numeralLimit ≤ k + 1) :
    ¬ (showsWith r settings (some (10 ^ k * 3600)) (some 300)).declared.Writable := by
  rintro ⟨-, -, hprintable⟩
  have hconnection := printableMembers_iff.mp hprintable _ (.head _)
  have htimeout := printableMembers_iff.mp hconnection _ (.tail _ (.tail _ (.head _)))
  have hshort := isPrintableInt_iff.mp htimeout
  rw [Int.natAbs_natCast] at hshort
  have hlong : 10 ^ Text.numeralLimit ≤ 10 ^ k * 3600 :=
    calc 10 ^ Text.numeralLimit ≤ 10 ^ (k + 1) := Nat.pow_le_pow_right (by decide) h
      _ = 10 ^ k * 10 := Nat.pow_succ ..
      _ ≤ 10 ^ k * 3600 := Nat.mul_le_mul_left _ (by decide)
  exact Nat.not_lt.mpr hlong hshort

/-- **Resources without a text.**  One is nested too deep, one holds a number of too many digits:
neither has a text in common with itself, though all that the compiler looks at is the same. -/
theorem not_source_identified :
    (∃ m, Managed.ofResource deep = .ok m ∧ deep.Regular ∧ ¬ Compile.Identified m m) ∧
      ∃ m, Managed.ofResource long = .ok m ∧ long.Regular ∧ ¬ Compile.Identified m m := by
  constructor
  · have hm : Managed.ofResource deep = .ok _ := ofResource_shows (d := some 90) rfl
    have hr : deep.Regular := regular_shows (Form.readable_nested _).toTidy ⟨rfl, rfl⟩
    exact ⟨_, hm, hr, Compile.not_identified hm hr not_writable_deep⟩
  · have hm : Managed.ofResource long = .ok _ := ofResource_shows (read_hours (by decide))
    have hr : long.Regular := regular_shows ⟨rfl, rfl⟩ ⟨rfl, rfl⟩
    exact ⟨_, hm, hr, Compile.not_identified hm hr (not_writable_of_hours (by decide))⟩

end Steward

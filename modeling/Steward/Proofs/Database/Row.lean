import Steward.Database.Row
import Steward.Proofs.Document.Forms
import Steward.Proofs.Document.Plain
import Steward.Proofs.Json.Nesting

/-!
# Resources come back from their rows

A row gives the members of a resource in columns (`_parse_resource_row`).  Its finalizers, its
specification and its status are documents, and each of the three columns gives its document in
whatever form it has: as text, as the document, or, where the document is empty, as null.  All of
these read as the document (`resource_of_stores`), so that the resource is the same in whatever
forms its row has them.  Only the text of a document with more levels than there is room for where
it is read is refused.  Whoever wrote it may have had more room; nobody has room for all
(`not_resource_buried`).
-/

namespace Steward.Database

open Json (Legible Room Tidy)

/-! ## 1. Columns -/

/-- The text was written of the document somewhere where there was room for it. -/
def Written (v : Json) (t : String) : Prop := ∃ writer : Room, @Json.dump writer v = .ok t

/-- What was written of a document is its text, and but for its levels nothing about it is beyond
reading. -/
theorem Written.legible {v : Json} {t : String} (h : Written v t) (htidy : Tidy v) :
    Legible v ∧ t = v.text := by
  obtain ⟨writer, h⟩ := h
  obtain ⟨⟨-, hprintable⟩, rfl⟩ := Json.dump_eq_ok_iff.mp h
  exact ⟨⟨htidy, Nat.le_refl _, hprintable⟩, rfl⟩

/-- Every document that is legible is written where there is enough room. -/
theorem written_text {v : Json} (h : Legible v) : Written v v.text := by
  let writer : Room := ⟨1, v.depth + 1, Nat.one_pos, Nat.succ_pos _⟩
  exact ⟨writer, Json.dump_eq_ok_iff.mpr ⟨⟨Nat.le_succ _, h.printable⟩, rfl⟩⟩

/-- A column gives a document: as the text that was written of it, as it is, or as null if there is
nothing in it. -/
inductive Gives (v : Json) : Json → Prop where
  | text {t : String} (htidy : Tidy v) (h : Written v t) : Gives v (.string t)
  | decoded : Gives v v
  | null (h : v.isBlank = true) : Gives v .null

/-- A list of texts is no deeper than a list. -/
theorem depth_ofTexts_le (items : List String) : (Json.ofTexts items).depth ≤ 1 := by
  rw [Json.ofTexts, Json.depth]
  refine Nat.succ_le_succ (Json.depthOfItems_le_iff.mpr ?_)
  rw [List.forall_mem_map]
  exact fun _ _ => Nat.le_refl 0

section

variable [Room]

/-- A column gives the text of a document that is nested too deep to be read. -/
def TooDeep (v given : Json) : Prop := given = .string v.text ∧ Room.reading < v.depth

variable {v given : Json}

theorem listColumn_of_gives {items : List String} (h : Gives (.ofTexts items) given) :
    listColumn given = .ok (.ofTexts items) := by
  cases h with
  | text htidy h =>
    obtain ⟨hlegible, rfl⟩ := h.legible htidy
    have hdepth : (Json.ofTexts items).depth ≤ Room.reading :=
      (depth_ofTexts_le items).trans Room.reading_pos
    rw [listColumn, parse, (Json.parse_text_cases hlegible).1 hdepth]
    rfl
  | decoded =>
    cases items with
    | nil => rfl
    | cons item items => rfl
  | null h =>
    cases items with
    | nil => rfl
    | cons item items => cases h

/-- The text of an object is not blank, so that it is read. -/
theorem objectColumn_text (ms : Json.Members) :
    objectColumn (.string (Json.object ms).text) =
      (parse (Json.object ms).text).map Held.document := by
  have hblank : (Json.string (Json.object ms).text).isBlank = false := by
    rw [Json.isBlank, Bool.eq_false_iff, Ne, String.isEmpty_iff]
    intro hempty
    have hchars := congrArg String.toList hempty
    rw [Json.text, String.toList_ofList] at hchars
    cases hchars
  rw [objectColumn, hblank, if_neg Bool.false_ne_true]
  cases parse (Json.object ms).text with
  | ok v => rfl
  | error e => rfl

theorem objectColumn_of_gives {ms : Json.Members} (h : Gives (.object ms) given)
    (hfits : ¬ TooDeep (.object ms) given) :
    objectColumn given = .ok (.document (.object ms)) := by
  cases h with
  | text htidy h =>
    obtain ⟨hlegible, rfl⟩ := h.legible htidy
    have hdepth := Nat.le_of_not_lt fun hdepth => hfits ⟨rfl, hdepth⟩
    rw [objectColumn_text, parse, (Json.parse_text_cases hlegible).1 hdepth]
    rfl
  | decoded =>
    cases ms with
    | nil => rfl
    | cons m ms => rfl
  | null h =>
    cases ms with
    | nil => rfl
    | cons m ms => cases h

/-- What was wrong is that a text is nested too deep. -/
def RefusedDeep {α : Type} (outcome : Except Error α) : Prop :=
  ∃ text refusal, outcome = .error (.unreadable text refusal) ∧ refusal.Deep

omit [Room] in
theorem RefusedDeep.bind {α β : Type} {outcome : Except Error α} (h : RefusedDeep outcome)
    (f : α → Except Error β) : RefusedDeep (outcome.bind f) := by
  obtain ⟨text, refusal, rfl, hdeep⟩ := h
  exact ⟨text, refusal, rfl, hdeep⟩

theorem objectColumn_of_tooDeep {ms : Json.Members} (h : Gives (.object ms) given)
    (hdeep : TooDeep (.object ms) given) : RefusedDeep (objectColumn given) := by
  obtain ⟨rfl, hdepth⟩ := hdeep
  cases h with
  | text htidy h =>
    obtain ⟨hlegible, -⟩ := h.legible htidy
    obtain ⟨refusal, hrefusal, hdeep⟩ := (Json.parse_text_cases hlegible).2 hdepth
    refine ⟨(Json.object ms).text, refusal, ?_, hdeep⟩
    rw [objectColumn_text, parse, hrefusal]
    rfl

end

/-! ## 2. Members -/

/-- What may be null is read back, or found missing. -/
theorem read_nullable_getD {α : Type} {c : Codec α} {Good : α → Prop} (hc : c.Lawful Good)
    {o : Option α} (h : ∀ a ∈ o, Good a) :
    c.nullable.read ((o.map c.write).getD .null) = .valid o := by
  cases o with
  | none => rfl
  | some a => exact hc.read_nullable a (h a rfl)

section

variable [Validator] [laws : Validator.Lawful]

/-- All members but the two documents are read back. -/
theorem read_head {r : Resource} (h : ∀ t ∈ r.deletion, t.Valid) :
    Resource.head.read [("id", .ofInt? r.id), ("kind", .string r.kind), ("namespace", .string r.ns),
      ("name", .string r.name), ("generation", .int r.generation),
      ("resource_version", .int r.version), ("finalizers", .ofTexts r.finalizers),
      ("deletion_timestamp", .ofText? (r.deletion.map Validator.timestampText))] =
    .valid (Resource.mk r.id r.kind r.ns r.name r.generation r.version r.finalizers r.deletion) := by
  have hid : Codec.whole.nullable.read (.ofInt? r.id) = .valid r.id := by
    have hread := read_nullable_getD Codec.whole_lawful (o := r.id) fun _ _ => trivial
    cases hr : r.id <;> rw [hr] at hread <;> exact hread
  have hfinalizers : Codec.text.list.read (.ofTexts r.finalizers) = .valid r.finalizers :=
    Codec.text_lawful.list.read_write r.finalizers fun _ _ => trivial
  have hdeletion : Codec.timestamp.nullable.read
      (.ofText? (r.deletion.map Validator.timestampText)) = .valid r.deletion := by
    have hread := read_nullable_getD Codec.timestamp_lawful h
    cases hr : r.deletion <;> rw [hr] at hread <;> exact hread
  refine Block.read_seq_iff.mpr ⟨_, _, Block.read_seq_iff.mpr ⟨_, _, ?_,
    Checked.below_eq_valid_iff.mpr hfinalizers, rfl⟩, Checked.below_eq_valid_iff.mpr hdeletion, rfl⟩
  have hwhole {n : Int} {s : Step} : (Codec.whole.read (.int n)).below s = .valid n :=
    Checked.below_eq_valid_iff.mpr (laws.whole_int n)
  refine Block.read_seq_iff.mpr ⟨_, _, Block.read_seq_iff.mpr ⟨_, _, ?_, hwhole, rfl⟩, hwhole, rfl⟩
  iterate 3 refine Block.read_seq_iff.mpr ⟨_, _, ?_, rfl, rfl⟩
  exact Block.read_map_iff.mpr ⟨_, Checked.below_eq_valid_iff.mpr hid, rfl⟩

/-! ## 3. Rows -/

variable [Room] {columns : Json.Members} {r : Resource}

/-- The row stores the resource.  It may have further columns. -/
structure Stores (columns : Json.Members) (r : Resource) : Prop where
  id : Table.get? columns "id" = some (.ofInt? r.id)
  kind : Table.get? columns "kind" = some (.string r.kind)
  ns : Table.get? columns "namespace" = some (.string r.ns)
  name : Table.get? columns "name" = some (.string r.name)
  generation : Table.get? columns "generation" = some (.int r.generation)
  version : Table.get? columns "resource_version" = some (.int r.version)
  deletion : Table.get? columns "deletion_timestamp" =
    some (.ofText? (r.deletion.map Validator.timestampText))
  finalizers : ∃ given, Table.get? columns "finalizers" = some given ∧
    Gives (.ofTexts r.finalizers) given
  spec : ∃ given, Table.get? columns "spec" = some given ∧ Gives (.object r.spec) given
  status : ∃ given, Table.get? columns "status" = some given ∧ Gives (.object r.status) given

omit [Validator] laws [Room] in
theorem column_of_get? {name : String} (h : Table.get? columns name = some given) :
    column name (.object columns) = .ok given := by
  rw [column, h]

/-- All but the two documents is read, whatever forms these have. -/
theorem resource_eq (h : Stores columns r) (hdeletion : ∀ t ∈ r.deletion, t.Valid)
    {spec status : Json} (hspec : Table.get? columns "spec" = some spec)
    (hstatus : Table.get? columns "status" = some status) :
    resource (.object columns) = (objectColumn spec).bind fun spec =>
      (objectColumn status).bind fun status =>
        (((((Checked.valid (Resource.mk r.id r.kind r.ns r.name r.generation r.version r.finalizers
          r.deletion)).ap (spec.read.below (.member "spec"))).ap
            (status.read.below (.member "status"))).toExcept "Resource").mapError .unfit) := by
  obtain ⟨finalizers, hcolumn, hfinalizers⟩ := h.finalizers
  rw [resource, column_of_get? h.id, column_of_get? h.kind, column_of_get? h.ns,
    column_of_get? h.name, column_of_get? h.generation, column_of_get? h.version,
    column_of_get? hcolumn, column_of_get? h.deletion, column_of_get? hspec,
    column_of_get? hstatus, ← read_head hdeletion]
  change (listColumn finalizers).bind _ = _
  rw [listColumn_of_gives hfinalizers]
  rfl

/-- The specification or the status is given as a text that is nested too deep. -/
def Buried (columns : Json.Members) (r : Resource) : Prop :=
  (∃ given, Table.get? columns "spec" = some given ∧ TooDeep (.object r.spec) given) ∨
    ∃ given, Table.get? columns "status" = some given ∧ TooDeep (.object r.status) given

omit [Validator] laws in
theorem buried_iff {spec status : Json} (hspec : Table.get? columns "spec" = some spec)
    (hstatus : Table.get? columns "status" = some status) :
    Buried columns r ↔ TooDeep (.object r.spec) spec ∨ TooDeep (.object r.status) status := by
  simp only [Buried, hspec, hstatus, Option.some.injEq, exists_eq_left']

theorem resource_of_not_buried (h : Stores columns r) (hdeletion : ∀ t ∈ r.deletion, t.Valid)
    (hfits : ¬ Buried columns r) : resource (.object columns) = .ok r := by
  obtain ⟨spec, hspec, hgivesSpec⟩ := h.spec
  obtain ⟨status, hstatus, hgivesStatus⟩ := h.status
  rw [buried_iff hspec hstatus, not_or] at hfits
  rw [resource_eq h hdeletion hspec hstatus, objectColumn_of_gives hgivesSpec hfits.1,
    objectColumn_of_gives hgivesStatus hfits.2]
  rfl

theorem refusedDeep_of_buried (h : Stores columns r) (hdeletion : ∀ t ∈ r.deletion, t.Valid)
    (hburied : Buried columns r) : RefusedDeep (resource (.object columns)) := by
  obtain ⟨spec, hspec, hgivesSpec⟩ := h.spec
  obtain ⟨status, hstatus, hgivesStatus⟩ := h.status
  rw [buried_iff hspec hstatus] at hburied
  rw [resource_eq h hdeletion hspec hstatus]
  by_cases hdeep : TooDeep (.object r.spec) spec
  · exact (objectColumn_of_tooDeep hgivesSpec hdeep).bind _
  · rw [objectColumn_of_gives hgivesSpec hdeep]
    exact (objectColumn_of_tooDeep hgivesStatus (hburied.resolve_left hdeep)).bind _

/-- **A resource comes back from its row, whatever forms the row's documents have.**  Only a text
that is nested too deep is refused. -/
theorem resource_of_stores (h : Stores columns r) (hdeletion : ∀ t ∈ r.deletion, t.Valid) :
    (¬ Buried columns r → resource (.object columns) = .ok r) ∧
      (Buried columns r → RefusedDeep (resource (.object columns))) :=
  ⟨resource_of_not_buried h hdeletion, refusedDeep_of_buried h hdeletion⟩

/-- The row of a resource, with its documents as they are given. -/
def rowOf (r : Resource) (finalizers spec status : Json) : Json.Members :=
  [("id", .ofInt? r.id), ("kind", .string r.kind), ("namespace", .string r.ns),
    ("name", .string r.name), ("generation", .int r.generation),
    ("resource_version", .int r.version), ("finalizers", finalizers),
    ("deletion_timestamp", .ofText? (r.deletion.map Validator.timestampText)), ("spec", spec),
    ("status", status)]

omit laws [Room] in
theorem stores_rowOf {finalizers spec status : Json}
    (hfinalizers : Gives (.ofTexts r.finalizers) finalizers) (hspec : Gives (.object r.spec) spec)
    (hstatus : Gives (.object r.status) status) : Stores (rowOf r finalizers spec status) r :=
  ⟨rfl, rfl, rfl, rfl, rfl, rfl, rfl, ⟨_, rfl, hfinalizers⟩, ⟨_, rfl, hspec⟩, ⟨_, rfl, hstatus⟩⟩

end

/-- A resource that waits for its deletion. -/
def leaving : Resource where
  id := some 7
  kind := "SonarrConfig"
  name := "tv"
  generation := 2
  version := 5
  finalizers := ["sonarrconfig.arr-operator.io/finalizer"]
  deletion := some ⟨2026, 1, 1, 0, 0, 0, 0, some 0⟩
  spec := [("label", .string "Säle \"A\""), ("limits", .array [.int (-3), .null, .bool true])]

/-- One document is read already and one is null; or both are text, and the list is read already. -/
theorem resource_of_stores_leaving :
    let finalizers := Json.ofTexts leaving.finalizers
    let spec : Json := .object leaving.spec
    let status : Json := .object leaving.status
    (∀ t ∈ leaving.deletion, t.Valid) ∧
      resource (.object (rowOf leaving (.string finalizers.text) spec .null)) = .ok leaving ∧
      resource (.object (rowOf leaving finalizers (.string spec.text) (.string status.text))) =
        .ok leaving := by
  intro finalizers spec status
  have hdeletion : ∀ t ∈ leaving.deletion, t.Valid := by
    simp [leaving, Timestamp.Valid, Timestamp.TimeValid, Timestamp.daysInMonth]
  have hfinalizers : Gives finalizers (.string finalizers.text) :=
    .text ⟨by decide, by decide⟩ ⟨.recorded, rfl⟩
  have hspec : Gives spec (.string spec.text) := .text ⟨by decide, by decide⟩ ⟨.recorded, rfl⟩
  have hstatus : Gives status (.string status.text) :=
    .text ⟨by decide, by decide⟩ ⟨.recorded, rfl⟩
  have hshallow {given : Json} : ¬ TooDeep spec given ∧ ¬ TooDeep status given :=
    ⟨fun hdeep => absurd hdeep.2 (by decide), fun hdeep => absurd hdeep.2 (by decide)⟩
  have hfits {columns : Json.Members} : ¬ Buried columns leaving := by
    rintro (⟨given, -, hdeep⟩ | ⟨given, -, hdeep⟩)
    · exact hshallow.1 hdeep
    · exact hshallow.2 hdeep
  exact ⟨hdeletion,
    (resource_of_stores (stores_rowOf hfinalizers .decoded (.null rfl)) hdeletion).1 hfits,
    (resource_of_stores (stores_rowOf .decoded hspec hstatus) hdeletion).1 hfits⟩

/-- A resource whose specification has so many levels below the first. -/
def buried (levels : Nat) : Resource where
  kind := "SonarrConfig"
  name := "tv"
  spec := [("a", Form.nested levels)]

/-- From its text, written where there is more room, it does not come back, though nothing else is
wrong with it. -/
theorem buried_lost (room : Room) :
    let r := buried room.reading
    ∃ columns, Stores columns r ∧ (∀ t ∈ r.deletion, t.Valid) ∧
      resource (.object columns) ≠ .ok r := by
  intro r
  let spec : Json := .object r.spec
  have hreadable : Json.Readable (room.reading + 1) spec := Json.readable_object_iff.mpr
    ⟨Nat.succ_ne_zero _, List.nodup_singleton _,
      List.forall_mem_singleton.mpr (Form.readable_nested room.reading)⟩
  have hdepth : room.reading < spec.depth := by
    change room.reading < max (Form.nested room.reading).depth 0 + 1
    rw [Form.depth_nested, Nat.max_zero]
    exact Nat.lt_succ_self _
  have hspec : Gives spec (.string spec.text) := .text hreadable.toTidy
    (written_text hreadable.legible)
  have hstores : Stores (rowOf r (.array []) (.string spec.text) .null) r :=
    stores_rowOf .decoded hspec (.null rfl)
  have hdeletion : ∀ t ∈ r.deletion, t.Valid := fun _ ht => absurd ht (Option.not_mem_none _)
  refine ⟨_, hstores, hdeletion, fun hread => ?_⟩
  obtain ⟨text, refusal, hrefused, -⟩ :=
    refusedDeep_of_buried hstores hdeletion (.inl ⟨_, rfl, rfl, hdepth⟩)
  cases hread.symm.trans hrefused

/-- However much room there is to read, not every resource comes back from its row. -/
theorem not_resource_buried :
    ¬ ∃ _ : Room, ∀ (columns : Json.Members) (r : Resource), Stores columns r →
      (∀ t ∈ r.deletion, t.Valid) → resource (.object columns) = .ok r := by
  rintro ⟨_, h⟩
  obtain ⟨columns, hstores, hdeletion, hlost⟩ := buried_lost _
  exact hlost (h columns _ hstores hdeletion)

end Steward.Database

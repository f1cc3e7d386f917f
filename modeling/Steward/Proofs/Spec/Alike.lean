import Steward.Proofs.Document.Forms
import Steward.Proofs.Document.Plain

/-!
# Specifications up to the order of keys

Only the settings of an import list are kept as they are, so that the order of their keys is the one
thing about the order of a document that is left in its specification.  Specifications are alike if
they differ in nothing else (`Declared.Alike`).  Documents in another order are read as alike
specifications (`Declared.alike_of_reordered`); alike specifications are written as documents that
differ in the order of keys only, and no others are (`Declared.reordered_iff`).
-/

namespace Steward

open Json

variable {σ α β : Type}

/-! ## 1. Reading -/

/-- Documents in another order are read as values that are so related. -/
def Codec.Relates (c : Codec α) (R : α → α → Prop) : Prop :=
  ∀ {v w : Json} {a : α}, Reordered v w → c.read v = .valid a → ∃ b, c.read w = .valid b ∧ R a b

namespace Codec

theorem freeForm_relates :
    freeForm.Relates fun ms ns => Reordered (.object ms) (.object ns) := by
  intro v w ms h hread
  cases v with
  | object settings =>
    cases hread
    obtain ⟨ns, rfl, -⟩ := h.object
    exact ⟨ns, rfl, h⟩
  | _ => cases hread

theorem Relates.list {c : Codec α} {R : α → α → Prop} (hc : c.Relates R) :
    c.list.Relates (List.Forall₂ R) := by
  have hitems {vs ws : List Json} (h : List.Forall₂ Reordered vs ws) :
      ∀ {index : Nat} {items : List α}, readItems c.read index vs = .valid items →
        ∃ items', readItems c.read index ws = .valid items' ∧ List.Forall₂ R items items' := by
    induction h with
    | nil =>
      intro index items hread
      cases hread
      exact ⟨[], rfl, .nil⟩
    | cons hv _ ih =>
      intro index items hread
      obtain ⟨g, rest, hg, hrest, rfl⟩ := Checked.ap_eq_valid hread
      obtain ⟨a, ha, rfl⟩ := Checked.map_eq_valid hg
      obtain ⟨b, hb, hab⟩ := hc hv (Checked.below_eq_valid ha)
      obtain ⟨items', hitems', hrests⟩ := ih hrest
      refine ⟨b :: items', ?_, .cons hab hrests⟩
      rw [readItems, hb, hitems']
      rfl
  intro v w items h hread
  cases v with
  | array vs =>
    obtain ⟨ws, rfl, hvalues⟩ := h.array
    exact hitems hvalues hread
  | _ => cases hread

end Codec

namespace Block

variable {ms ns : Members}

theorem read_defaulted {c : Codec α} {R : α → α → Prop} (hc : c.Relates R) {default : α}
    (hdefault : R default default) (h : Matched ms ns) {camel snake : String} {get : σ → α} {a : α}
    (hread : (defaulted camel snake c default get).read ms = .valid a) :
    ∃ b, (defaulted camel snake c default get).read ns = .valid b ∧ R a b := by
  have hfind := h.find? camel snake
  simp only [defaulted] at hread ⊢
  generalize Block.find? ms camel snake = p at hfind hread
  generalize Block.find? ns camel snake = q at hfind ⊢
  cases hfind with
  | none =>
    cases hread
    exact ⟨default, rfl, hdefault⟩
  | some hvalue =>
    obtain ⟨b, hb, hab⟩ := hc hvalue.2 (Checked.below_eq_valid hread)
    refine ⟨b, ?_, hab⟩
    dsimp only
    rw [hb]
    rfl

end Block

variable [Validator] [Validator.Lawful]

namespace Spec

open Block.Plain (read_of_matched)

/-- The same list up to the order of keys in its settings. -/
def ImportList.Alike (l l' : ImportList) : Prop :=
  { l with settings := [] } = { l' with settings := [] } ∧
    Reordered (.object l.settings) (.object l'.settings)

/-- The same specification up to the order of keys in the settings of its lists. -/
def Manager.Alike (s s' : Manager) : Prop :=
  { s with importLists := [] } = { s' with importLists := [] } ∧
    List.Forall₂ ImportList.Alike s.importLists s'.importLists

theorem ImportList.codec_relates : ImportList.codec.Relates ImportList.Alike := by
  intro v w l h hread
  cases v with
  | object ms =>
    obtain ⟨ns, rfl, hmatched⟩ := h.object
    change ImportList.block.read ms = .valid l at hread
    change ∃ l', ImportList.block.read ns = .valid l' ∧ _
    rw [block, Block.read_seq_iff] at hread
    obtain ⟨f, ref, hf, href, rfl⟩ := hread
    rw [Block.read_seq_iff] at hf
    obtain ⟨g, settings, hg, hsettings, rfl⟩ := hf
    obtain ⟨settings', hsettings', hsame⟩ :=
      Block.read_defaulted Codec.freeForm_relates (.refl rfl) hmatched hsettings
    have hread' := Block.read_seq_iff.mpr ⟨_, _,
      Block.read_seq_iff.mpr ⟨_, _, read_of_matched hmatched hg, hsettings', rfl⟩,
      read_of_matched hmatched href, rfl⟩
    refine ⟨g settings' ref, hread', ?_⟩
    -- all that was read before the settings is the same, whatever the settings are
    simp only [Block.read_seq_iff, Block.read_map_iff] at hg
    obtain ⟨_, _, ⟨_, _, ⟨_, _, ⟨_, _, ⟨_, _, ⟨_, _, ⟨_, _, rfl⟩, _, rfl⟩, _, rfl⟩, _, rfl⟩, _,
      rfl⟩, _, rfl⟩, _, rfl⟩ := hg
    exact ⟨rfl, hsame⟩
  | _ => cases hread

variable {ms ns : Members}

theorem Manager.read_of_matched (h : Matched ms ns) {s : Manager}
    (hread : Manager.block.read ms = .valid s) :
    ∃ s', Manager.block.read ns = .valid s' ∧ s.Alike s' := by
  rw [block, Block.read_seq_iff] at hread
  obtain ⟨f₁, tuning, hread, htuning, rfl⟩ := hread
  rw [Block.read_seq_iff] at hread
  obtain ⟨f₂, authentication, hread, hauthentication, rfl⟩ := hread
  rw [Block.read_seq_iff] at hread
  obtain ⟨f₃, media, hread, hmedia, rfl⟩ := hread
  rw [Block.read_seq_iff] at hread
  obtain ⟨g, lists, hg, hlists, rfl⟩ := hread
  obtain ⟨lists', hlists', hsame⟩ :=
    Block.read_defaulted ImportList.codec_relates.list .nil h hlists
  have hread' := Block.read_seq_iff.mpr ⟨_, _, Block.read_seq_iff.mpr ⟨_, _,
    Block.read_seq_iff.mpr ⟨_, _,
      Block.read_seq_iff.mpr ⟨_, _, Block.Plain.read_of_matched h hg, hlists', rfl⟩,
      Block.Plain.read_of_matched h hmedia, rfl⟩,
    Block.Plain.read_of_matched h hauthentication, rfl⟩,
    Block.Plain.read_of_matched h htuning, rfl⟩
  refine ⟨_, hread', ?_⟩
  simp only [Block.read_seq_iff, Block.read_map_iff] at hg
  obtain ⟨_, _, ⟨_, _, ⟨_, _, ⟨_, _, ⟨_, _, ⟨_, _, rfl⟩, _, rfl⟩, _, rfl⟩, _, rfl⟩, _, rfl⟩, _,
    rfl⟩ := hg
  exact ⟨rfl, hsame⟩

/-! ## 2. Writing -/

omit [Validator.Lawful] in
theorem ImportList.sorted_write {l l' : ImportList} (hl : l.Finite) (hl' : l'.Finite)
    (h : l.Alike l') : (ImportList.codec.write l).sorted = (ImportList.codec.write l').sorted := by
  obtain ⟨hrest, hsettings⟩ := h
  have hsorted := (reordered_iff.mp hsettings).2.2
  rw [← storableMembers_of_finite _ hl, ← storableMembers_of_finite _ hl'] at hsorted
  obtain ⟨name, type, enabled, enableAuto, searchOnAdd, profile, folder, settings, ref⟩ := l
  obtain ⟨_, _, _, _, _, _, _, settings', _⟩ := l'
  cases hrest
  refine congrArg (fun ms => Json.object (sortMembers ms)) ?_
  simp only [ImportList.block, Block.write_seq, sortedMembers_append]
  refine congrArg₂ (· ++ ·) (congrArg₂ (· ++ ·) rfl ?_) rfl
  exact congrArg (fun v => [("settings", v)]) hsorted

omit [Validator.Lawful] in
theorem ImportList.sortedItems_write {ls ls' : List ImportList} (h : List.Forall₂ Alike ls ls')
    (hls : ∀ l ∈ ls, l.Finite) (hls' : ∀ l ∈ ls', l.Finite) :
    sortedItems (ls.map ImportList.codec.write) = sortedItems (ls'.map ImportList.codec.write) := by
  induction h with
  | nil => rfl
  | cons hl _ ih =>
    rw [List.forall_mem_cons] at hls hls'
    rw [List.map_cons, List.map_cons, sortedItems, sortedItems,
      ImportList.sorted_write hls.1 hls'.1 hl, ih hls.2 hls'.2]

omit [Validator.Lawful] in
theorem Manager.sorted_write {s s' : Manager} (hs : s.Finite) (hs' : s'.Finite) (h : s.Alike s') :
    (Json.object (Manager.block.write s)).sorted =
      (Json.object (Manager.block.write s')).sorted := by
  obtain ⟨hrest, hlists⟩ := h
  have hsorted := ImportList.sortedItems_write hlists hs hs'
  obtain ⟨connection, preset, clients, indexers, folders, mappings, lists, media, auth, tuning⟩ := s
  obtain ⟨_, _, _, _, _, _, lists', _, _, _⟩ := s'
  cases hrest
  refine congrArg (fun ms => Json.object (sortMembers ms)) ?_
  simp only [Manager.block, Block.write_seq, sortedMembers_append]
  refine congrArg₂ (· ++ ·) (congrArg₂ (· ++ ·) (congrArg₂ (· ++ ·)
    (congrArg₂ (· ++ ·) rfl ?_) rfl) rfl) rfl
  exact congrArg (fun vs => [("importLists", Json.array vs)]) hsorted

instance : ImportList.block.Distinct := by
  unfold ImportList.block
  infer_instance

instance : Manager.block.Distinct := by
  unfold Manager.block
  infer_instance

/-- A specification is read back from the members that are written of it. -/
theorem Manager.read_write {s : Manager} (hs : s.Finite) :
    Manager.block.read (Manager.block.write s) = .valid s :=
  Codec.Restores.lawful.read_write (c := Manager.codec) s hs

/-- What an import list is written as is tidy if its settings are. -/
theorem ImportList.tidy_write {l : ImportList} (h : Tidy (.object l.settings)) :
    Tidy (ImportList.codec.write l) := by
  refine Block.Distinct.tidy (of_decide_eq_true rfl) ?_
  have hsettings : Tidy (Json.object (storableMembers l.settings)) := by
    rwa [storableMembers_of_finite _ h.finite]
  rw [ImportList.block, Block.write_seq, Block.write_seq, List.forall_mem_append,
    List.forall_mem_append]
  exact ⟨⟨Block.Plain.tidy_write l, List.forall_mem_singleton.mpr hsettings⟩,
    Block.Plain.tidy_write l⟩

theorem Manager.tidy_write {s : Manager}
    (h : ∀ l ∈ s.importLists, Tidy (.object l.settings)) :
    Tidy (.object (Manager.block.write s)) := by
  refine Block.Distinct.tidy (of_decide_eq_true rfl) ?_
  have hlists : Tidy (ImportList.codec.list.write s.importLists) := by
    rw [Codec.list, tidy_array_iff, List.forall_mem_map]
    exact fun l hl => ImportList.tidy_write (h l hl)
  rw [Manager.block, Block.write_seq, Block.write_seq, Block.write_seq, Block.write_seq,
    List.forall_mem_append, List.forall_mem_append, List.forall_mem_append, List.forall_mem_append]
  exact ⟨⟨⟨⟨Block.Plain.tidy_write s, List.forall_mem_singleton.mpr hlists⟩,
    Block.Plain.tidy_write s⟩, Block.Plain.tidy_write s⟩, Block.Plain.tidy_write s⟩

end Spec

/-! ## 3. Specifications of every kind -/

namespace Declared

open Spec

/-- The same specification up to the order of keys in settings. -/
def Alike : Declared → Declared → Prop
  | .manager _ s, .manager _ s' => s.Alike s'
  | .aggregator s, .aggregator s' => s = s'
  | _, _ => False

/-- What holds of a specification that was read from a document of finite numbers with each key
once. -/
def Proper : Declared → Prop
  | .manager _ s => s.Finite ∧ s.Alike s
  | .aggregator s => s.Lowered

variable {kind : Kind} {spec spec' : Members} {d d' : Declared}

omit [Validator] [Validator.Lawful] in
theorem Proper.alike (h : d.Proper) : d.Alike d := by
  cases d with
  | manager k s => exact h.2
  | aggregator s => exact rfl

omit [Validator.Lawful] in
theorem read_eq_ok (h : read kind spec = .ok d) :
    match kind with
    | .manager k => ∃ s, Manager.block.read spec = .valid s ∧ d = .manager k s
    | .aggregator => ∃ s, Aggregator.block.read spec = .valid s ∧ d = .aggregator s := by
  cases kind with
  | manager k => exact Checked.map_eq_valid (Checked.toExcept_eq_ok h)
  | aggregator => exact Checked.map_eq_valid (Checked.toExcept_eq_ok h)

/-- **Reading in another order.**  Documents that differ in the order of keys only are read as
specifications that do. -/
theorem alike_of_reordered (h : Reordered (.object spec) (.object spec'))
    (hread : read kind spec = .ok d) : ∃ d', read kind spec' = .ok d' ∧ d.Alike d' := by
  have hmatched := (reordered_object_iff.mp h).2.2
  have hd := read_eq_ok hread
  cases kind with
  | manager k =>
    obtain ⟨s, hs, rfl⟩ := hd
    obtain ⟨s', hs', halike⟩ := Manager.read_of_matched hmatched hs
    refine ⟨.manager k s', ?_, halike⟩
    rw [read, hs']
    rfl
  | aggregator =>
    obtain ⟨s, hs, rfl⟩ := hd
    refine ⟨.aggregator s, ?_, rfl⟩
    have hs' : Aggregator.codec.read (.object spec') = .valid s :=
      Codec.Plain.read_of_reordered h hs
    rw [read, show Aggregator.block.read spec' = .valid s from hs']
    rfl

theorem proper_of_read (hfinite : finiteMembers spec = true)
    (hkeys : (Json.object spec).keysOnce = true) (hread : read kind spec = .ok d) : d.Proper := by
  have hd := read_eq_ok hread
  obtain ⟨d', hread', halike⟩ := alike_of_reordered (.refl hkeys) hread
  rw [hread] at hread'
  cases hread'
  cases kind with
  | manager k =>
    obtain ⟨s, hs, rfl⟩ := hd
    have hs' : Manager.codec.read (.object spec) = .valid s := hs
    exact ⟨Codec.Restores.good_of_read (v := .object spec) hfinite hs', halike⟩
  | aggregator =>
    obtain ⟨s, hs, rfl⟩ := hd
    have hs' : Aggregator.codec.read (.object spec) = .valid s := hs
    have hlowered : s.Lowered := Codec.Restores.good_of_read (v := .object spec) hfinite hs'
    exact hlowered

/-- The settings of the specification have no more levels than the validation library serializes. -/
def Storable (d : Declared) : Prop :=
  ∀ l ∈ d.importLists, heightOfMembers l.settings ≤ Validator.levels

instance : DecidablePred Storable := fun d =>
  inferInstanceAs (Decidable (∀ l ∈ d.importLists, _))

omit [Validator.Lawful] in
/-- Keys in another order do not make settings higher. -/
theorem Alike.storable_iff (h : d.Alike d') : d.Storable ↔ d'.Storable := by
  have hheight {ls ls' : List ImportList} (hlists : List.Forall₂ ImportList.Alike ls ls') :
      (∀ l ∈ ls, heightOfMembers l.settings ≤ Validator.levels) ↔
        ∀ l ∈ ls', heightOfMembers l.settings ≤ Validator.levels := by
    induction hlists with
    | nil => exact Iff.rfl
    | @cons l l' _ _ hl _ ih =>
      have hsame : heightOfMembers l.settings + 1 = heightOfMembers l'.settings + 1 :=
        hl.2.height_eq
      rw [List.forall_mem_cons, List.forall_mem_cons, ih, Nat.succ.inj hsame]
  cases d with
  | manager k s =>
    cases d' with
    | manager k' s' => exact hheight (And.right h)
    | aggregator s' => exact h.elim
  | aggregator s =>
    cases d' with
    | manager k' s' => exact h.elim
    | aggregator s' =>
      obtain rfl : s = s' := h
      exact Iff.rfl

omit [Validator.Lawful] in
theorem document_eq (d : Declared) :
    d.document = if d.Storable then .ok d.toMembers else .error (.tooDeep Validator.depthText) := by
  have hblock {α : Type} {c : Codec α} (f : Form c) (b : Block α α) (a : α)
      (hheight : c.height a = b.height a) (hsettings : (∀ ms ∈ f.settings a,
        heightOfMembers ms ≤ Validator.levels) ↔ d.Storable) :
      b.document a =
        if d.Storable then .ok (b.write a) else .error (.tooDeep Validator.depthText) := by
    rw [Block.document, ← hheight]
    by_cases h : d.Storable
    · rw [if_pos h, if_neg (Nat.not_lt.mpr ((f.height_le_iff a).mpr (hsettings.mpr h)))]
    · rw [if_neg h, if_pos]
      exact Nat.lt_of_not_le fun hle => h (hsettings.mp ((f.height_le_iff a).mp hle))
  cases d with
  | manager k s =>
    refine hblock .manager Manager.block s rfl ?_
    exact List.forall_mem_map
  | aggregator s =>
    refine hblock .aggregator Aggregator.block s rfl ?_
    exact iff_of_true (List.forall_mem_nil _) (List.forall_mem_nil _)

/-- What is stored of a proper specification is tidy. -/
theorem Proper.tidy (hd : d.Proper) : Tidy (.object d.toMembers) := by
  cases d with
  | manager k s =>
    have hs : s.Finite ∧ s.Alike s := hd
    exact Manager.tidy_write fun l hl =>
      ⟨hs.1 l hl, (List.forall₂_same.mp hs.2.2 l hl).2.left⟩
  | aggregator s => exact Codec.Plain.tidy_write (c := Aggregator.codec) s

/-- **Writing keeps specifications apart.** -/
theorem reordered_iff (hd : d.Proper) (hd' : d'.Proper) (hkind : d.kind = d'.kind) :
    Reordered (.object d.toMembers) (.object d'.toMembers) ↔ d.Alike d' := by
  cases d with
  | manager k s =>
    cases d' with
    | manager k' s' =>
      constructor
      · intro h
        have hmatched : Matched (Manager.block.write s) (Manager.block.write s') :=
          (reordered_object_iff.mp h).2.2
        obtain ⟨s'', hs'', halike⟩ :=
          Manager.read_of_matched hmatched (Manager.read_write hd.1)
        rw [Manager.read_write hd'.1, Checked.valid.injEq] at hs''
        exact hs'' ▸ halike
      · intro h
        exact Json.reordered_iff.mpr ⟨hd.tidy.keysOnce, hd'.tidy.keysOnce,
          Manager.sorted_write hd.1 hd'.1 h⟩
    | aggregator s' => cases hkind
  | aggregator s =>
    cases d' with
    | manager k' s' => cases hkind
    | aggregator s' =>
      constructor
      · intro h
        have hread : Aggregator.codec.read (Aggregator.codec.write s) = .valid s :=
          Codec.Restores.lawful.read_write s hd
        have hread' : Aggregator.codec.read (Aggregator.codec.write s') = .valid s' :=
          Codec.Restores.lawful.read_write s' hd'
        have hsame : Aggregator.codec.read (Aggregator.codec.write s') = .valid s :=
          Codec.Plain.read_of_reordered h hread
        rw [hread', Checked.valid.injEq] at hsame
        exact hsame.symm
      · rintro rfl
        exact .refl hd.tidy.keysOnce

end Declared

end Steward

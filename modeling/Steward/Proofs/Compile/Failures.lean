import Steward.Proofs.Compile.Source

/-!
# What a compilation fails with

A compilation (`BasicCompiler.compile`) declares the errors that it may fail with
(`CompilationError`): a download client has no proper URL, or nothing says which implementation it
is (`CompileError.declared`).  It fails at the first client with such a fault, and a fault of a URL
is found whatever the text (`compile_eq_error_iff`).

There are two ways to fail with something else (`Escapes`).  A URL may be refused before its parts
are looked at, where `urlparse` parts it; and a specification may have no written form to be
digested.  `failures_declared` says that these are the only ones.  What is refused of a URL are
misplaced brackets and characters that hide a delimiter, so that a text without such characters is
always split.
-/

namespace Steward

open Network (Url)

/-- The errors that a compilation declares.  The other two come from what it is built on, and are
passed on as they are. -/
def CompileError.declared : CompileError → Bool
  | .clientUrl _ | .clientPort _ _ | .noImplementation _ _ => true
  | .unsplittable _ | .unwritable _ => false

/-! ## 1. URLs that are split -/

theorem Text.mem_of_cut {c d : Char} {cs rest : List Char} (h : (cut c cs).2 = some rest)
    (hd : d ∈ rest) : d ∈ cs := by
  rw [cut, List.span_eq_takeWhile_dropWhile] at h
  have hdrop := (List.dropWhile_sublist (fun e => e != c) (l := cs)).subset
  cases hrest : cs.dropWhile fun e => e != c with
  | nil =>
    rw [hrest] at h
    cases h
  | cons e after =>
    rw [hrest] at h hdrop
    cases h
    exact hdrop (List.mem_cons_of_mem _ hd)

namespace Network.Url

variable {text : String} {cs : List Char} {c : Char}

theorem mem_of_splitScheme (h : c ∈ (splitScheme cs).2) : c ∈ cs := by
  rw [splitScheme] at h
  split at h
  · rename_i scheme rest hcut
    have hrest : (Text.cut ':' cs).2 = some rest := by rw [hcut]
    split at h
    · split at h
      · exact Text.mem_of_cut hrest h
      · exact h
    · exact h
  · exact h

theorem mem_of_splitAuthority (h : c ∈ (splitAuthority cs).1) : c ∈ cs := by
  unfold splitAuthority at h
  split at h
  · rename_i rest
    rw [List.span_eq_takeWhile_dropWhile] at h
    exact List.mem_cons_of_mem _ (List.mem_cons_of_mem _ ((List.takeWhile_sublist _).subset h))
  · cases h

/-- The authority of a text, before it is looked at. -/
def authorityOf (text : String) : List Char :=
  (splitAuthority (splitScheme (significant text.toList)).2).1

theorem mem_of_authorityOf (h : c ∈ authorityOf text) : c ∈ text.toList := by
  have hsignificant := mem_of_splitScheme (mem_of_splitAuthority h)
  exact (List.dropWhile_sublist _).subset (List.mem_filter.mp hsignificant).1

/-- A text is split exactly if its authority may stand. -/
theorem exists_split_iff : (∃ url, split text = .ok url) ↔
    checkBrackets (authorityOf text) = .ok () ∧ (authorityOf text).any hidesDelimiter = false := by
  simp only [split, ← authorityOf.eq_1]
  cases checkBrackets (authorityOf text) with
  | error e => exact iff_of_false (fun ⟨_, h⟩ => nomatch h) fun h => nomatch h.1
  | ok _ =>
    cases (authorityOf text).any hidesDelimiter with
    | true => exact iff_of_false (fun ⟨_, h⟩ => nomatch h) fun h => nomatch h.2
    | false => exact iff_of_true ⟨_, rfl⟩ ⟨rfl, rfl⟩

/-- The character is no bracket and hides no delimiter. -/
def plain (c : Char) : Bool := c != '[' && c != ']' && !hidesDelimiter c

/-- A text of plain characters is split. -/
theorem exists_split_of_plain (h : text.toList.all plain = true) : ∃ url, split text = .ok url := by
  have hplain {c : Char} (hc : c ∈ authorityOf text) : plain c = true :=
    List.all_eq_true.mp h c (mem_of_authorityOf hc)
  have hopened : (authorityOf text).contains '[' = false :=
    Bool.eq_false_iff.mpr fun hc => absurd (hplain (List.contains_iff_mem.mp hc)) (by decide)
  have hclosed : (authorityOf text).contains ']' = false :=
    Bool.eq_false_iff.mpr fun hc => absurd (hplain (List.contains_iff_mem.mp hc)) (by decide)
  refine exists_split_iff.mpr ⟨?_, List.any_eq_false.mpr fun c hc hhides => ?_⟩
  · rw [checkBrackets, hopened, hclosed]
    rfl
  · have hc' := hplain hc
    rw [plain, hhides, Bool.not_true, Bool.and_false] at hc'
    cases hc'

end Network.Url

/-! ## 2. Faults of download clients -/

namespace ClientUrl

/-- Why a text is no URL of a download client. -/
inductive Refused (raw : String) : CompileError → Prop
  | unsplittable {e : Network.UrlError} (h : Url.split raw = .error e) :
      Refused raw (.unsplittable e)
  /-- It has no scheme or no host. -/
  | bare {url : Url} (h : Url.split raw = .ok url) (hbare : url.scheme = [] ∨ url.host? = none) :
      Refused raw (.clientUrl raw)
  | port {url : Url} {e : Network.PortError} (h : Url.split raw = .ok url)
      (hscheme : url.scheme ≠ []) (hhost : url.host? ≠ none) (hport : url.port? = .error e) :
      Refused raw (.clientPort raw e)

theorem isEmpty_ofList_iff {cs : List Char} : (String.ofList cs).isEmpty = true ↔ cs = [] := by
  rw [String.isEmpty_iff, ← String.toList_eq_nil_iff, String.toList_ofList]

theorem refused_of_parse {raw : String} {e : CompileError} (h : parse raw = .error e) :
    Refused raw e := by
  rw [parse] at h
  rcases bind_eq_error_iff.mp h with hsplit | ⟨url, hsplit, h⟩
  · obtain ⟨u, hu, rfl⟩ := mapError_eq_error_iff.mp hsplit
    exact .unsplittable hu
  have hurl := mapError_eq_ok_iff.mp hsplit
  cases hhost : url.host? with
  | none =>
    simp only [hhost] at h
    cases h
    exact .bare hurl (.inr hhost)
  | some host =>
    simp only [hhost] at h
    split at h
    · rename_i hscheme
      cases h
      exact .bare hurl (.inl (isEmpty_ofList_iff.mp hscheme))
    · rename_i hscheme
      rcases bind_eq_error_iff.mp h with hport | ⟨port, -, h⟩
      · obtain ⟨p, hp, rfl⟩ := mapError_eq_error_iff.mp hport
        refine .port hurl (fun hnil => hscheme (isEmpty_ofList_iff.mpr hnil)) ?_ hp
        rw [hhost]
        exact Option.some_ne_none _
      · cases h

theorem parse_of_refused {raw : String} {e : CompileError} (h : Refused raw e) :
    parse raw = .error e := by
  cases h with
  | unsplittable h =>
    rw [parse, h]
    rfl
  | @bare url h hbare =>
    rw [parse, h]
    cases hhost : url.host? with
    | none => simp only [Except.mapError, bind, Except.bind, hhost]; rfl
    | some host =>
      have hscheme := hbare.resolve_right (by rw [hhost]; exact Option.some_ne_none _)
      simp only [Except.mapError, bind, Except.bind, hhost, if_pos (isEmpty_ofList_iff.mpr hscheme)]
      rfl
  | @port url p h hscheme hhost hport =>
    obtain ⟨host, hhost⟩ := Option.ne_none_iff_exists'.mp hhost
    simp only [parse, h, Except.mapError, bind, Except.bind, hhost, isEmpty_ofList_iff, hscheme,
      if_false, hport]

theorem parse_eq_error_iff {raw : String} {e : CompileError} :
    parse raw = .error e ↔ Refused raw e :=
  ⟨refused_of_parse, parse_of_refused⟩

/-- What is wrong with a URL is declared, if it can be split. -/
theorem parse_declared_iff (raw : String) :
    ((∃ parts, parse raw = .ok parts) ∨ ∃ e, parse raw = .error e ∧ e.declared = true) ↔
      ∃ url, Url.split raw = .ok url := by
  cases hsplit : Url.split raw with
  | error u =>
    have hparse := parse_eq_error_iff.mpr (.unsplittable hsplit)
    rw [hparse]
    refine iff_of_false ?_ fun ⟨_, h⟩ => nomatch h
    rintro (⟨_, h⟩ | ⟨e, h, hdeclared⟩)
    · cases h
    · cases h
      cases hdeclared
  | ok url =>
    refine iff_of_true ?_ ⟨url, rfl⟩
    cases hparse : parse raw with
    | ok parts => exact .inl ⟨parts, rfl⟩
    | error e =>
      refine .inr ⟨e, rfl, ?_⟩
      cases parse_eq_error_iff.mp hparse with
      | unsplittable h => cases hsplit.symm.trans h
      | _ => rfl

end ClientUrl

theorem Implementation.normalize_ne_empty {implementation : String} (h : implementation ≠ "") :
    normalize implementation ≠ "" := by
  have hnames : ∀ p ∈ ofScheme, p.2 ≠ "" := by decide
  rw [normalize]
  cases hfound : Table.get? ofScheme (Text.lower implementation) with
  | none => exact h
  | some name => exact hnames _ (Table.mem_of_get? hfound)

namespace Compile

variable {pre : String} {m : Managed} {secrets : SecretMap} {caps : Capabilities}
  {c : Spec.DownloadClient} {e : CompileError}

/-- Why a download client cannot be compiled. -/
inductive Faulty (c : Spec.DownloadClient) : CompileError → Prop
  | url {e : CompileError} (h : ClientUrl.Refused c.url e) : Faulty c e
  /-- Neither the client nor its URL names an implementation. -/
  | unnamed {parts : ClientUrl} (h : ClientUrl.parse c.url = .ok parts)
      (hown : c.implementation.getD "" = "") (himplied : parts.implementation = "") :
      Faulty c (.noImplementation c.name c.url)

/-- A download client whose URL has parts fails exactly if nothing names its implementation. -/
theorem downloadClient_of_parse {parts : ClientUrl} (hparts : ClientUrl.parse c.url = .ok parts) :
    downloadClient pre m secrets c = .error e ↔
      (c.implementation.getD "" = "" ∧ parts.implementation = "") ∧
        e = .noImplementation c.name c.url := by
  simp only [downloadClient, hparts, bind, Except.bind, String.isEmpty_iff]
  by_cases hown : c.implementation.getD "" = ""
  · by_cases himplied : parts.implementation = ""
    · rw [if_pos (by rw [if_pos hown, himplied])]
      exact ⟨fun h => ⟨⟨hown, himplied⟩, (Except.error.inj h).symm⟩, fun h => h.2 ▸ rfl⟩
    · rw [if_neg (by rwa [if_pos hown])]
      refine iff_of_false (fun h => ?_) fun h => himplied h.1.2
      cases h
  · rw [if_neg (by rw [if_neg hown]; exact Implementation.normalize_ne_empty hown)]
    refine iff_of_false (fun h => ?_) fun h => hown h.1.1
    cases h

theorem downloadClient_eq_error_iff : downloadClient pre m secrets c = .error e ↔ Faulty c e := by
  constructor
  · intro h
    cases hparts : ClientUrl.parse c.url with
    | error p =>
      rw [downloadClient, hparts] at h
      cases h
      exact .url (ClientUrl.parse_eq_error_iff.mp hparts)
    | ok parts =>
      obtain ⟨⟨hown, himplied⟩, rfl⟩ := (downloadClient_of_parse hparts).mp h
      exact .unnamed hparts hown himplied
  · intro h
    cases h with
    | url h =>
      rw [downloadClient, ClientUrl.parse_eq_error_iff.mpr h]
      rfl
    | unnamed hparts hown himplied =>
      exact (downloadClient_of_parse hparts).mpr ⟨⟨hown, himplied⟩, rfl⟩

theorem exists_downloadClient_iff :
    (∃ s, downloadClient pre m secrets c = .ok s) ↔ ∀ e, ¬ Faulty c e := by
  constructor
  · rintro ⟨s, hs⟩ e h
    cases hs.symm.trans (downloadClient_eq_error_iff.mpr h)
  · intro h
    cases hc : downloadClient pre m secrets c with
    | ok s => exact ⟨s, rfl⟩
    | error e => exact absurd (downloadClient_eq_error_iff.mp hc) (h e)

/-! ## 3. The whole -/

/-- The first download client with a fault, and what that is. -/
structure FirstFault (m : Managed) (c : Spec.DownloadClient) (e : CompileError) : Prop where
  first : ∃ before after, m.declared.downloadClients = before ++ c :: after ∧
    ∀ b ∈ before, ∀ e, ¬ Faulty b e
  faulty : Faulty c e

/-- No download client has a fault. -/
def Sound (m : Managed) : Prop :=
  ∀ c ∈ m.declared.downloadClients, ∀ e, ¬ Faulty c e

/-- What a compilation fails with: the fault of the first client that has one, or, if none has, that
there is no text to be digested. -/
inductive Fails (m : Managed) : CompileError → Prop
  | client {c : Spec.DownloadClient} {e : CompileError} (h : FirstFault m c e) : Fails m e
  | unwritable {e : WriteError} (hsound : Sound m) (h : sourceText m = .error e) :
      Fails m (.unwritable e)

theorem downloadClients_eq_error_iff :
    downloadClients pre m secrets = .error e ↔ ∃ c, FirstFault m c e := by
  rw [downloadClients, mapM_eq_error_iff]
  simp only [exists_downloadClient_iff, downloadClient_eq_error_iff]
  constructor
  · rintro ⟨before, c, after, hsplit, hbefore, hfaulty⟩
    exact ⟨c, ⟨before, after, hsplit, hbefore⟩, hfaulty⟩
  · rintro ⟨c, ⟨before, after, hsplit, hbefore⟩, hfaulty⟩
    exact ⟨before, c, after, hsplit, hbefore, hfaulty⟩

theorem exists_downloadClients_iff :
    (∃ clients, downloadClients pre m secrets = .ok clients) ↔ Sound m := by
  rw [downloadClients, exists_mapM_eq_ok_iff]
  simp only [exists_downloadClient_iff, Sound]

/-- Besides the download clients, no section fails. -/
theorem sections_eq (pre : String) (m : Managed) (secrets : SecretMap) :
    ∃ g : List State.DownloadClient → ServiceState,
      sections pre m secrets = (downloadClients pre m secrets).map g := by
  rw [sections]
  split
  · rw [manager]
    exact ⟨_, rfl⟩
  · rw [aggregator]
    exact ⟨_, rfl⟩

/-- A compilation has an outcome in two steps: that of the sections, and then that of the digest. -/
theorem compile_eq_error_iff_sections : compile pre m secrets caps = .error e ↔
    sections pre m secrets = .error e ∨
      (∃ s, sections pre m secrets = .ok s) ∧ ∃ w, sourceText m = .error w ∧ .unwritable w = e := by
  have hhash {w : WriteError} : sourceHash m = .error w ↔ sourceText m = .error w := by
    rw [sourceHash, bind_eq_error_iff]
    refine or_iff_left ?_
    rintro ⟨t, -, h⟩
    cases h
  rw [compile, bind_eq_error_iff]
  simp only [bind_eq_error_iff, mapError_eq_error_iff, hhash]
  refine or_congr_right ⟨?_, ?_⟩
  · rintro ⟨s, hs, hdigest | ⟨_, _, h⟩⟩
    · exact ⟨⟨s, hs⟩, hdigest⟩
    · cases h
  · rintro ⟨⟨s, hs⟩, hdigest⟩
    exact ⟨s, hs, .inl hdigest⟩

theorem compile_eq_error_iff : compile pre m secrets caps = .error e ↔ Fails m e := by
  obtain ⟨g, hsections⟩ := sections_eq pre m secrets
  rw [compile_eq_error_iff_sections, hsections, map_eq_error_iff, exists_map_eq_ok_iff,
    downloadClients_eq_error_iff, exists_downloadClients_iff]
  constructor
  · rintro (⟨c, h⟩ | ⟨hsound, w, hw, rfl⟩)
    · exact .client h
    · exact .unwritable hsound hw
  · intro h
    cases h with
    | client h => exact .inl ⟨_, h⟩
    | unwritable hsound h => exact .inr ⟨hsound, _, h, rfl⟩

/-- The compilation fails with an error that it does not declare. -/
inductive Escapes (m : Managed) : Prop
  /-- The URL of the first client with a fault is not split. -/
  | unsplittable {before after : List Spec.DownloadClient} {c : Spec.DownloadClient}
      {u : Network.UrlError} (hclients : m.declared.downloadClients = before ++ c :: after)
      (hbefore : ∀ b ∈ before, ∀ e, ¬ Faulty b e) (hsplit : Url.split c.url = .error u)
  /-- No client has a fault, but the specification has no written form. -/
  | unwritable (hsound : Sound m) (h : ¬ m.declared.Writable)

theorem escapes_iff : Escapes m ↔ ∃ e, Fails m e ∧ e.declared = false := by
  constructor
  · intro h
    cases h with
    | unsplittable hclients hbefore hsplit =>
      exact ⟨_, .client ⟨⟨_, _, hclients, hbefore⟩, .url (.unsplittable hsplit)⟩, rfl⟩
    | unwritable hsound h =>
      cases hw : sourceText m with
      | error w => exact ⟨_, .unwritable hsound hw, rfl⟩
      | ok t => exact absurd (Declared.writable_iff.mpr ⟨t, hw⟩) h
  · rintro ⟨e, h, hundeclared⟩
    cases h with
    | client h =>
      obtain ⟨⟨before, after, hclients, hbefore⟩, hfaulty⟩ := h
      cases hfaulty with
      | url hrefused =>
        cases hrefused with
        | unsplittable hsplit => exact .unsplittable hclients hbefore hsplit
        | bare | port => cases hundeclared
      | unnamed => cases hundeclared
    | unwritable hsound h =>
      refine .unwritable hsound fun hwritable => ?_
      obtain ⟨t, ht⟩ := Declared.writable_iff.mp hwritable
      cases h.symm.trans ht

end Compile

open Compile in
/-- **Failures of a compilation.**  A compilation fails as its first client with a fault does, or for
want of a text to be digested, whatever leads the names, the secrets and the capabilities.  It
succeeds or fails with an error that it declares, unless a URL is not split or there is no text.
Whatever the text of a URL, it has parts or is refused with an error that is declared, if it is
split; and a text of plain characters is. -/
theorem failures_declared (pre : String) (m : Managed) (secrets : SecretMap) (caps : Capabilities) :
    (∀ e, compile pre m secrets caps = .error e ↔ Fails m e) ∧
    (((∃ s, compile pre m secrets caps = .ok s) ∨
      ∃ e, compile pre m secrets caps = .error e ∧ e.declared = true) ↔ ¬ Escapes m) ∧
    (∀ raw, ((∃ parts, ClientUrl.parse raw = .ok parts) ∨
      ∃ e, ClientUrl.parse raw = .error e ∧ e.declared = true) ↔ ∃ url, Url.split raw = .ok url) ∧
    ∀ raw, raw.toList.all Url.plain = true → ∃ url, Url.split raw = .ok url := by
  refine ⟨fun e => compile_eq_error_iff, ?_, ClientUrl.parse_declared_iff,
    fun raw => Url.exists_split_of_plain⟩
  rw [escapes_iff]
  cases hcompile : compile pre m secrets caps with
  | ok s =>
    refine iff_of_true (.inl ⟨s, rfl⟩) ?_
    rintro ⟨e, hfails, -⟩
    cases hcompile.symm.trans (compile_eq_error_iff.mpr hfails)
  | error e =>
    have hfails := compile_eq_error_iff.mp hcompile
    constructor
    · rintro (⟨s, hs⟩ | ⟨e', he, hdeclared⟩) ⟨u, hu, hundeclared⟩
      · cases hs
      · cases he
        cases hcompile.symm.trans (compile_eq_error_iff.mpr hu)
        cases hdeclared.symm.trans hundeclared
    · intro hescapes
      refine .inr ⟨e, rfl, ?_⟩
      cases hdeclared : e.declared with
      | true => rfl
      | false => exact absurd ⟨e, hfails, hdeclared⟩ hescapes

/-- A resource with one download client, at the URL. -/
def downloading (url : String) : Resource where
  kind := "SonarrConfig"
  name := "shows"
  spec := [
    ("connection", .object [("url", .string "http://shows")]),
    ("downloadClients", .array [.object [("name", .string "qb"), ("url", .string url)]])]

/-- The resource with the specification that was read of it. -/
def downloadingRead (url : String) : Managed where
  resource := downloading url
  declared := .manager .sonarr
    { connection := ⟨"http://shows", none, false, none⟩
      qualityPreset := none
      downloadClients := [⟨"qb", url, none, none, none, none, true⟩]
      indexers := none
      rootFolders := []
      pathMappings := []
      importLists := []
      mediaManagement := none
      authentication := none
      tuning := none }
  status := {}

theorem ofResource_downloading (url : String) :
    Managed.ofResource (downloading url) = .ok (downloadingRead url) := rfl

/-- A port that is no number is declared. -/
theorem failures_declared_port : (∃ url, Url.split "http://qb:port" = .ok url) ∧
    ∃ e, compile "arr-operator" (downloadingRead "http://qb:port") [] {} = .error e ∧
      e.declared = true := by
  obtain ⟨-, -, -, hsplit⟩ :=
    failures_declared "arr-operator" (downloadingRead "http://qb:port") [] {}
  exact ⟨hsplit _ (by decide), .clientPort "http://qb:port" (.notNumber "port"), rfl, rfl⟩

/-- A bracket that is not closed is found when the URL is split, and its error escapes. -/
theorem bracket_escapes : ¬ ∀ (r : Resource) (m : Managed) (secrets : SecretMap)
    (caps : Capabilities) (e : CompileError), Managed.ofResource r = .ok m →
      compile "arr-operator" m secrets caps = .error e → e.declared = true := by
  intro h
  have hdeclared := h _ _ [] {} (.unsplittable .brackets)
    (ofResource_downloading "http://[qb:8080") rfl
  cases hdeclared

end Steward

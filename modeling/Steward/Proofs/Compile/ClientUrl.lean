import Mathlib.Data.List.DropRight
import Steward.Proofs.Compile.Failures
import Steward.Proofs.Network.Url

/-!
# URLs of download clients have proper parts

A URL that is put together from a scheme, a host, a port and a path of plain characters is parted
(`parse_client_url`) into the implementation that the scheme names and into the same host, port and
path, where the port may be left to the scheme and slashes at the end do not count.  The case of the
scheme has no say.

Whatever the text: if it is parted at all, the host is not empty, the port is one of the 65536, the
base does not end in a slash, and the implementation is left open exactly where the scheme is `http`
or `https` (`WellFormed`).
-/

namespace Steward.ClientUrl

open Network (Plain Url)

/-! ## 1. Schemes -/

/-- The implementation that a scheme names; `http` and `https` leave it open. -/
inductive Names : String → String → Prop
  | http : Names "http" ""
  | https : Names "https" ""
  | client {scheme implementation : String}
      (h : (scheme, implementation) ∈ Implementation.ofScheme) : Names scheme implementation

variable {scheme implementation : String}

/-- Schemes are of letters only. -/
theorem Names.letters (h : Names scheme implementation) :
    scheme.toList ≠ [] ∧ ∀ c ∈ scheme.toList, Url.isLetter c = true := by
  have hclients : ∀ p ∈ Implementation.ofScheme,
      p.1.toList ≠ [] ∧ p.1.toList.all Url.isLetter = true := by decide
  have hall : scheme.toList ≠ [] ∧ scheme.toList.all Url.isLetter = true := by
    cases h with
    | http => decide
    | https => decide
    | client h => exact hclients _ h
  exact hall.imp_right List.all_eq_true.mp

theorem Names.implementation_eq (h : Names scheme implementation) :
    (if scheme == "http" || scheme == "https" then "" else Implementation.normalize scheme) =
      implementation := by
  have hclients : ∀ p ∈ Implementation.ofScheme,
      (p.1 == "http" || p.1 == "https") = false ∧ Implementation.normalize p.1 = p.2 := by
    decide +kernel
  cases h with
  | http => rfl
  | https => rfl
  | client h =>
    rw [(hclients _ h).1]
    exact (hclients _ h).2

/-- In any case they are of letters. -/
theorem Names.letters_of_toLower (h : Names scheme implementation) {written : List Char}
    (hwritten : written.map Char.toLower = scheme.toList) :
    written ≠ [] ∧ ∀ c ∈ written, Url.isLetter c = true := by
  obtain ⟨hne, hletters⟩ := h.letters
  rw [← hwritten] at hne hletters
  refine ⟨fun hnil => hne (by rw [hnil]; rfl), fun c hc => ?_⟩
  exact Network.isLetter_of_toLower (hletters _ (List.mem_map_of_mem hc))

/-! ## 2. Parts -/

/-- A path is what is left of it without the slashes at its end, and these. -/
theorem exists_slashes (path : List Char) : ∃ k,
    path = Text.dropRight (· == '/') path ++ List.replicate k '/' := by
  obtain ⟨right, hright, hslashes⟩ := Text.exists_dropRight (· == '/') path
  have hreplicate : right = List.replicate right.length '/' :=
    List.eq_replicate_of_mem fun c hc => eq_of_beq (hslashes c hc)
  exact ⟨right.length, hreplicate ▸ hright⟩

/-- What a text is parted into comes from its URL. -/
theorem parts_of_parse {raw : String} {parts : ClientUrl} (h : parse raw = .ok parts) :
    ∃ url host port, Url.split raw = .ok url ∧ url.scheme ≠ [] ∧ url.host? = some host ∧
      url.port? = .ok port ∧ parts =
        { implementation :=
            if String.ofList url.scheme == "http" || String.ofList url.scheme == "https" then ""
            else Implementation.normalize (String.ofList url.scheme)
          host
          port := port.getD (if String.ofList url.scheme == "https" then 443 else 80)
          useSsl := String.ofList url.scheme == "https"
          urlBase := String.ofList (Text.dropRight (· == '/') url.path) } := by
  rw [parse] at h
  obtain ⟨url, hsplit, h⟩ := bind_eq_ok_iff.mp h
  have hurl := mapError_eq_ok_iff.mp hsplit
  dsimp only at h
  split at h
  · cases h
  rename_i host hhost
  split at h
  · cases h
  rename_i hscheme
  obtain ⟨port, hport, h⟩ := bind_eq_ok_iff.mp h
  cases h
  exact ⟨url, host, port, hurl, fun hnil => hscheme (isEmpty_ofList_iff.mpr hnil), hhost,
    mapError_eq_ok_iff.mp hport, rfl⟩

/-- What holds of the parts of any URL. -/
structure WellFormed (raw : String) (parts : ClientUrl) : Prop where
  host : parts.host ≠ ""
  port : parts.port ≤ 65535
  urlBase : parts.urlBase.toList.getLast? ≠ some '/'
  implementation :
    parts.implementation = "" ↔ Url.HasScheme raw "http" ∨ Url.HasScheme raw "https"
  useSsl : parts.useSsl = true ↔ Url.HasScheme raw "https"

theorem wellFormed_of_parse {raw : String} {parts : ClientUrl} (h : parse raw = .ok parts) :
    WellFormed raw parts := by
  obtain ⟨url, host, port, hsplit, hne, hhost, hport, rfl⟩ := parts_of_parse h
  have hscheme {name : String} (hname : ':' ∉ name.toList) :
      Url.HasScheme raw name ↔ String.ofList url.scheme = name := by
    rw [Url.hasScheme_iff hsplit hne hname, ← String.toList_inj, String.toList_ofList]
  refine ⟨Url.host_ne_empty hhost, ?_, fun hslash => ?_, ?_, ?_⟩
  · cases port with
    | none =>
      dsimp only [Option.getD_none]
      split <;> decide
    | some p => exact Url.port_le hport
  · rw [String.toList_ofList] at hslash
    exact absurd (Text.getLast?_dropRight hslash) (by decide)
  · rw [hscheme (by decide), hscheme (by decide)]
    dsimp only
    split
    · rename_i hopen
      rw [Bool.or_eq_true, beq_iff_eq, beq_iff_eq] at hopen
      exact iff_of_true rfl hopen
    · rename_i hnamed
      rw [Bool.or_eq_true, beq_iff_eq, beq_iff_eq] at hnamed
      refine iff_of_false (Implementation.normalize_ne_empty fun hempty => hne ?_) hnamed
      exact isEmpty_ofList_iff.mp (String.isEmpty_iff.mpr hempty)
  · rw [hscheme (by decide)]
    exact beq_iff_eq

/-- **URLs of download clients have the parts that they were put together from, and proper parts
only.**  The first part is about plain URLs whose scheme leaves the implementation open or names
one, in any case; the second about every text that is parted at all. -/
theorem parse_exact :
    (∀ (u : Plain) (scheme implementation : String), u.Proper → Names scheme implementation →
      u.scheme.map Char.toLower = scheme.toList →
      ∃ base k, parse u.text = .ok
          { implementation
            host := String.ofList u.host
            port := u.port.getD (if scheme == "https" then 443 else 80)
            useSsl := scheme == "https"
            urlBase := String.ofList base } ∧
        u.path = base ++ List.replicate k '/' ∧ base.getLast? ≠ some '/') ∧
    ∀ raw parts, parse raw = .ok parts → WellFormed raw parts := by
  refine ⟨fun u scheme implementation hu hnames hscheme => ?_, fun raw parts => wellFormed_of_parse⟩
  obtain ⟨hne, hletters⟩ := hnames.letters_of_toLower hscheme
  obtain ⟨k, hk⟩ := exists_slashes u.path
  refine ⟨Text.dropRight (· == '/') u.path, k, ?_, hk, fun hslash => ?_⟩
  · have hempty : scheme.isEmpty = false := by
      rw [Bool.eq_false_iff, Ne, String.isEmpty_iff, ← String.toList_eq_nil_iff]
      exact hnames.letters.1
    simp only [parse, hu.split_text hne hletters, hscheme, String.ofList_toList, Except.mapError,
      bind, Except.bind, hu.host?, hu.port?, hempty, hnames.implementation_eq]
    rfl
  · exact absurd (Text.getLast?_dropRight hslash) (by decide)

/-- A scheme with capitals, a port and slashes at the end of the path. -/
def qbittorrent : Plain where
  scheme := "QBittorrent".toList
  host := "qb.lan".toList
  port := some 8080
  path := "/ui//".toList

theorem parse_exact_qbittorrent :
    (qbittorrent.Proper ∧ Names "qbittorrent" "QBittorrent" ∧
      qbittorrent.scheme.map Char.toLower = "qbittorrent".toList) ∧
    (∃ base k, parse "QBittorrent://qb.lan:8080/ui//" =
        .ok ⟨"QBittorrent", "qb.lan", 8080, false, String.ofList base⟩ ∧
      "/ui//".toList = base ++ List.replicate k '/' ∧ base.getLast? ≠ some '/') ∧
    parse "QBittorrent://qb.lan:8080/ui//" = .ok ⟨"QBittorrent", "qb.lan", 8080, false, "/ui"⟩ ∧
    WellFormed "QBittorrent://qb.lan:8080/ui//" ⟨"QBittorrent", "qb.lan", 8080, false, "/ui"⟩ := by
  have hslash : qbittorrent.path.head? = some '/' := by decide
  have hproper : qbittorrent.Proper :=
    ⟨by decide, List.all_eq_true.mp (by decide), by decide,
      fun c hc => Option.some.inj (hc.symm.trans hslash), List.all_eq_true.mp (by decide)⟩
  have hnames : Names "qbittorrent" "QBittorrent" := .client (by decide)
  have hscheme : qbittorrent.scheme.map Char.toLower = "qbittorrent".toList := by decide
  have hparse : parse "QBittorrent://qb.lan:8080/ui//" =
      .ok ⟨"QBittorrent", "qb.lan", 8080, false, "/ui"⟩ := by decide +kernel
  have htext : qbittorrent.text = "QBittorrent://qb.lan:8080/ui//" := by decide
  obtain ⟨base, k, hparts, hpath, hlast⟩ := parse_exact.1 _ _ _ hproper hnames hscheme
  rw [htext] at hparts
  exact ⟨⟨hproper, hnames, hscheme⟩, ⟨base, k, hparts, hpath, hlast⟩, hparse,
    parse_exact.2 _ _ hparse⟩

end Steward.ClientUrl

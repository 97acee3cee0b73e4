import BuildMend.Migration.TspLocation
import BuildMend.Proofs.Text.Url

/-!
The spellings of a repository, and the owner and the name that are read from them.

* `IsName`: the names of owners and repositories.
* `Spells`: a repository is spelled by its address, with anything behind it that ends a name, or by its two
  names with a slash between them and anything behind another slash.
* `Nameless`: words without a slash, and addresses of a host or of an owner.
* `firstTwo_splitOn`, `withoutSlashes_append`: of what stands between slashes the first two names are read.
* `ownerAndName_spells`: each spelling is read as the names that it spells.
* `ownerAndName_nameless`: where there are no two names none are read.
* `ownerAndName_spellings`: both, with any blanks around the value.
-/

namespace BuildMend.TspLocation

open Text
open Url (IsPlain IsRoute IsScheme EndsHost EndsName address isKept resource)

variable {owner name rest value scheme server : List Char}

/-! ### Names and spellings -/

/-- The name of an owner or a repository: some letters, digits, hyphens, underscores and dots. -/
structure IsName (s : List Char) : Prop where
  nonempty : s ≠ []
  plain : IsPlain s

lemma IsName.slash_not_mem {s : List Char} (hs : IsName s) : '/' ∉ s := hs.plain.not_mem (by decide)

lemma IsName.ne_slash {s : List Char} (hs : IsName s) : ∀ c ∈ s, c ≠ '/' :=
  fun c hc => Url.ne_of_isPlain (hs.plain c hc) (by decide)

/-- The two names with a slash between them. -/
def names (owner name : List Char) : List Char := owner ++ '/' :: name

lemma isRoute_names (howner : IsName owner) (hname : IsName name) : IsRoute (names owner name) :=
  howner.plain.isRoute.append hname.plain.isRoute.cons_slash

/-- The schemes of the service's addresses. -/
def schemes : List (List Char) := ["http".toList, "https".toList]

/-- The hosts of the service. -/
def servers : List (List Char) := [host, "www.".toList ++ host]

lemma isScheme_of_mem (h : scheme ∈ schemes) : IsScheme scheme := by
  simp only [schemes, List.mem_cons, List.not_mem_nil, or_false] at h
  obtain rfl | rfl := h <;> constructor <;> decide

lemma isPlain_of_mem_schemes (h : scheme ∈ schemes) : IsPlain scheme := by
  simp only [schemes, List.mem_cons, List.not_mem_nil, or_false] at h
  obtain rfl | rfl := h <;> decide

lemma isPlain_of_mem_servers (h : server ∈ servers) : IsPlain server := by
  simp only [servers, List.mem_cons, List.not_mem_nil, or_false] at h
  obtain rfl | rfl := h <;> decide

lemma exists_of_mem_servers (h : server ∈ servers) : ∃ sub, server = sub ++ host := by
  simp only [servers, List.mem_cons, List.not_mem_nil, or_false] at h
  obtain rfl | rfl := h
  · exact ⟨[], rfl⟩
  · exact ⟨_, rfl⟩

/-- The spellings of a repository. -/
inductive Spells (owner name : List Char) : List Char → Prop where
  /-- An address on a host of the service; a slash, a query or a fragment may follow the names. -/
  | address {scheme server rest : List Char} (hscheme : scheme ∈ schemes) (hserver : server ∈ servers)
      (hrest : EndsHost rest) :
      Spells owner name (Url.address scheme server ('/' :: (names owner name ++ rest)))
  /-- The two names; a slash may follow them, and any text behind it. -/
  | names {rest : List Char} (hrest : EndsName rest) : Spells owner name (names owner name ++ rest)

/-- Values that do not name a repository. -/
inductive Nameless : List Char → Prop where
  /-- Anything without a slash that does not mention the service. -/
  | word {value : List Char} (hslash : '/' ∉ value) (hhost : containsText host value = false) :
      Nameless value
  /-- The address of a host. -/
  | server {scheme server stop : List Char} (hscheme : scheme ∈ schemes) (hserver : server ∈ servers)
      (hstop : stop ∈ [[], ['/']]) : Nameless (Url.address scheme server stop)
  /-- The address of an owner. -/
  | owner {scheme server owner stop : List Char} (hscheme : scheme ∈ schemes) (hserver : server ∈ servers)
      (howner : IsName owner) (hstop : stop ∈ [[], ['/']]) :
      Nameless (Url.address scheme server ('/' :: (owner ++ stop)))

/-! ### Names between slashes -/

/-- Two names at the front of a text are the first two between its slashes. -/
lemma firstTwo_splitOn (howner : IsName owner) (hname : IsName name) (hrest : EndsName rest) :
    firstTwo ((names owner name ++ rest).splitOn '/') =
      some (String.ofList owner, String.ofList name) := by
  have hread (more : List (List Char)) :
      firstTwo (owner :: name :: more) = some (String.ofList owner, String.ofList name) := by
    simp [firstTwo, howner.nonempty, hname.nonempty]
  rw [names, List.append_assoc, List.cons_append,
    List.splitOn_append_cons_self_of_not_mem howner.slash_not_mem]
  cases rest with
  | nil => rw [List.append_nil, List.splitOn_eq_singleton hname.slash_not_mem, hread]
  | cons c rest =>
    obtain rfl : c = '/' := hrest c rfl
    rw [List.splitOn_append_cons_self_of_not_mem hname.slash_not_mem, hread]

/-- Slashes are taken away around a piece without slashes at its ends. -/
lemma withoutSlashes_append {slashes piece : List Char} (hslashes : ∀ c ∈ slashes, c = '/')
    (hne : piece ≠ []) (hstart : ∀ c ∈ piece.head?, c ≠ '/') (hend : ∀ c ∈ piece.getLast?, c ≠ '/')
    (rest : List Char) :
    withoutSlashes (slashes ++ (piece ++ rest)) = piece ++ dropWhileEnd (· == '/') rest := by
  have hfront : (slashes ++ (piece ++ rest)).dropWhile (· == '/') = piece ++ rest := by
    rw [List.dropWhile_append_of_pos fun c hc => by simpa using hslashes c hc]
    refine dropWhile_eq_self fun c hc => ?_
    rw [List.head?_append_of_ne_nil _ hne] at hc
    simpa using hstart c hc
  rw [withoutSlashes, hfront, dropWhileEnd_piece_append fun c hc => by simpa using hend c hc]

/-- The names at the front of a path, behind slashes or not, are read from it. -/
lemma firstTwo_withoutSlashes {slashes : List Char} (hslashes : ∀ c ∈ slashes, c = '/')
    (howner : IsName owner) (hname : IsName name) (hrest : EndsName rest) :
    firstTwo ((withoutSlashes (slashes ++ (names owner name ++ rest))).splitOn '/') =
      some (String.ofList owner, String.ofList name) := by
  have hne : names owner name ≠ [] := by simp [names]
  have hstart : ∀ c ∈ (names owner name).head?, c ≠ '/' := by
    rw [names, List.head?_append_of_ne_nil _ howner.nonempty]
    exact fun c hc => howner.ne_slash c (List.mem_of_mem_head? hc)
  have hend : ∀ c ∈ (names owner name).getLast?, c ≠ '/' := by
    rw [names, List.getLast?_append_of_ne_nil _ (by simp), List.getLast?_cons_of_ne_nil hname.nonempty]
    exact fun c hc => hname.ne_slash c (List.mem_of_mem_getLast? hc)
  rw [withoutSlashes_append hslashes hne hstart hend,
    firstTwo_splitOn howner hname (forall_head?_of_front (dropWhileEnd_front _ rest) hrest)]

/-- The names at the front of what stands behind a host, up to a slash, a query or a fragment, are read from
the path. -/
lemma firstTwo_resource {slashes : List Char} (hslashes : ∀ c ∈ slashes, c = '/') (howner : IsName owner)
    (hname : IsName name) (hrest : EndsHost rest) (scheme : List Char) :
    firstTwo ((withoutSlashes (resource scheme
      ((slashes ++ (names owner name ++ rest)).filter isKept))).splitOn '/') =
        some (String.ofList owner, String.ofList name) := by
  have hroute : IsRoute (slashes ++ names owner name) :=
    Url.IsRoute.append (fun c hc => .inr (hslashes c hc)) (isRoute_names howner hname)
  obtain ⟨rest', hends, hpath⟩ := Url.exists_resource_route scheme hroute hrest
  rw [← List.append_assoc, hpath, List.append_assoc, firstTwo_withoutSlashes hslashes howner hname hends]

/-- Of an owner between slashes no two names are read. -/
lemma firstTwo_owner {stop : List Char} (howner : IsName owner) (hstop : ∀ c ∈ stop, c = '/') :
    firstTwo ((withoutSlashes ('/' :: (owner ++ stop))).splitOn '/') = none := by
  have hkept : withoutSlashes (['/'] ++ (owner ++ stop)) = owner ++ dropWhileEnd (· == '/') stop :=
    withoutSlashes_append (by simp) howner.nonempty
      (fun c hc => howner.ne_slash c (List.mem_of_mem_head? hc))
      (fun c hc => howner.ne_slash c (List.mem_of_mem_getLast? hc)) stop
  rw [dropWhileEnd_eq_nil (by simpa using hstop), List.append_nil] at hkept
  rw [← List.singleton_append, hkept, List.splitOn_eq_singleton howner.slash_not_mem]
  rfl

/-! ### Reading values -/

/-- A value that mentions the service is read as an address. -/
lemma ownerAndName_of_path {path : List Char} (hhost : containsText host (trim value) = true)
    (hpath : Url.path (trim value) = .ok path) :
    ownerAndName value = .ok (firstTwo ((withoutSlashes path).splitOn '/')) := by
  simp only [ownerAndName, hhost, if_true, hpath, Except.map]

lemma containsText_address (hserver : server ∈ servers) (scheme rest : List Char) :
    containsText host (address scheme server rest) = true := by
  obtain ⟨sub, rfl⟩ := exists_of_mem_servers hserver
  exact containsText_iff.mpr ⟨scheme ++ ':' :: '/' :: '/' :: sub, rest, by simp [address]⟩

lemma isTrimmed_address (hscheme : scheme ∈ schemes) (hserver : server ∈ servers) (hrest : IsRoute rest) :
    IsTrimmed (address scheme server rest) := by
  refine isTrimmed_of_forall ?_
  simp only [address, List.forall_mem_append, List.forall_mem_cons]
  exact ⟨(isPlain_of_mem_schemes hscheme).isRoute.not_blank, by decide, by decide, by decide,
    (isPlain_of_mem_servers hserver).isRoute.not_blank, hrest.not_blank⟩

/-- An address is read from its path. -/
lemma ownerAndName_address (hscheme : scheme ∈ schemes) (hserver : server ∈ servers)
    (hrest : EndsHost rest) (htrim : trim value = address scheme server rest) :
    ownerAndName value = .ok (firstTwo ((withoutSlashes
      (resource (scheme.map Char.toLower) (rest.filter isKept))).splitOn '/')) := by
  refine ownerAndName_of_path ?_ ?_
  · rw [htrim]
    exact containsText_address hserver scheme rest
  · rw [htrim]
    exact Url.path_address (isScheme_of_mem hscheme) (isPlain_of_mem_servers hserver) hrest

/-- Each spelling is read as the names that it spells. -/
lemma ownerAndName_spells (howner : IsName owner) (hname : IsName name) (h : Spells owner name value) :
    ownerAndName value = .ok (some (String.ofList owner, String.ofList name)) := by
  have hroute := isRoute_names howner hname
  cases h with
  | @address scheme server rest hscheme hserver hrest =>
    have hfront : IsTrimmed (address scheme server ('/' :: names owner name)) :=
      isTrimmed_address hscheme hserver hroute.cons_slash
    have htrim : trim (address scheme server ('/' :: (names owner name ++ rest))) =
        address scheme server (['/'] ++ (names owner name ++ trimEnd rest)) := by
      rw [← List.cons_append, Url.address_append, trim_piece_append Url.address_ne_nil hfront,
        ← Url.address_append]
      rfl
    have hends : EndsHost (trimEnd rest) := forall_head?_of_front (dropWhileEnd_front _ rest) hrest
    have hstart : EndsHost (['/'] ++ (names owner name ++ trimEnd rest)) := Url.endsHost_slash _
    rw [ownerAndName_address hscheme hserver hstart htrim,
      firstTwo_resource (by simp) howner hname hends]
  | @names rest hrest =>
    have htrim : trim (names owner name ++ rest) = names owner name ++ trimEnd rest :=
      trim_piece_append (by simp [names]) (isTrimmed_of_forall hroute.not_blank) rest
    have hends : EndsName (trimEnd rest) := forall_head?_of_front (dropWhileEnd_front _ rest) hrest
    by_cases hhost : containsText host (names owner name ++ trimEnd rest) = true
    · -- The value mentions the service and is read as an address, of which it is all path.
      have hpath : Url.path (names owner name ++ trimEnd rest) =
          .ok (resource [] (([] ++ (names owner name ++ trimEnd rest)).filter isKept)) := by
        rw [List.nil_append, names, List.append_assoc, List.cons_append]
        exact Url.path_relative howner.nonempty howner.plain _
      rw [← htrim] at hhost hpath
      rw [ownerAndName_of_path hhost hpath, htrim,
        firstTwo_resource (by simp) howner hname hends.endsHost]
    · have hslash : (names owner name ++ trimEnd rest).contains '/' = true := by simp [names]
      simp only [ownerAndName, htrim, hhost, hslash, if_true, Bool.false_eq_true, if_false,
        firstTwo_splitOn howner hname hends]

/-- Of an address with plain names and slashes the first two names are read. -/
lemma ownerAndName_route (hscheme : scheme ∈ schemes) (hserver : server ∈ servers)
    (hstart : EndsName rest) (hrest : IsRoute rest) :
    ownerAndName (address scheme server rest) = .ok (firstTwo ((withoutSlashes rest).splitOn '/')) := by
  have htrim : trim (address scheme server rest) = address scheme server rest :=
    trim_eq_self_iff.mpr (isTrimmed_address hscheme hserver hrest)
  rw [ownerAndName_address hscheme hserver hstart.endsHost htrim, Url.resource_route _ hrest]

/-- Where there are no two names none are read. -/
lemma ownerAndName_nameless (h : Nameless value) : ownerAndName value = .ok none := by
  have hslashes {stop : List Char} (hstop : stop ∈ [[], ['/']]) : ∀ c ∈ stop, c = '/' := by
    simp only [List.mem_cons, List.not_mem_nil, or_false] at hstop
    obtain rfl | rfl := hstop <;> simp
  cases h with
  | word hslash hhost =>
    have hmissing : containsText host (trim value) = false := by
      rw [Bool.eq_false_iff, Ne, containsText_trim (by decide) (by decide), hhost]
      exact Bool.false_ne_true
    have hword : (trim value).contains '/' = false := by
      obtain ⟨b, a, -, -, hsplit⟩ := exists_eq_trim value
      rw [hsplit] at hslash
      simpa using fun hmem => hslash (by simp [hmem])
    simp only [ownerAndName, hmissing, hword, Bool.false_eq_true, if_false]
  | @server scheme server stop hscheme hserver hstop =>
    have hslash := hslashes hstop
    have hbare : withoutSlashes stop = [] := by
      rw [withoutSlashes, List.dropWhile_eq_nil_iff.mpr (by simpa using hslash)]
      rfl
    rw [ownerAndName_route hscheme hserver (fun c hc => hslash c (List.mem_of_mem_head? hc))
      fun c hc => .inr (hslash c hc), hbare]
    rfl
  | @owner scheme server owner stop hscheme hserver howner hstop =>
    have hslash := hslashes hstop
    have hroute : IsRoute ('/' :: (owner ++ stop)) :=
      (howner.plain.isRoute.append fun c hc => .inr (hslash c hc)).cons_slash
    rw [ownerAndName_route hscheme hserver (by simp [EndsName]) hroute, firstTwo_owner howner hslash]

/-- Blanks around a value make no difference. -/
lemma ownerAndName_between {before after : List Char} (hbefore : ∀ c ∈ before, isBlank c = true)
    (hafter : ∀ c ∈ after, isBlank c = true) (value : List Char) :
    ownerAndName (before ++ (value ++ after)) = ownerAndName value := by
  rw [ownerAndName, ownerAndName, trim_between hbefore value hafter]

/-- All spellings of a repository are read alike, as its owner and its name, and a value without two names is
read as none, whatever blanks stand around it. -/
theorem ownerAndName_spellings {before after : List Char} (hbefore : ∀ c ∈ before, isBlank c = true)
    (hafter : ∀ c ∈ after, isBlank c = true) :
    (∀ owner name value, IsName owner → IsName name → Spells owner name value →
      ownerAndName (before ++ (value ++ after)) =
        .ok (some (String.ofList owner, String.ofList name))) ∧
    ∀ value, Nameless value → ownerAndName (before ++ (value ++ after)) = .ok none := by
  constructor
  · intro owner name value howner hname hspells
    rw [ownerAndName_between hbefore hafter, ownerAndName_spells howner hname hspells]
  · intro value hnameless
    rw [ownerAndName_between hbefore hafter, ownerAndName_nameless hnameless]

/-- A repository with the name of the host is read alike from its address and from its two names, and the
address of its owner is read as none. -/
theorem ownerAndName_spellings_host :
    (∀ c ∈ [' '], isBlank c = true) ∧ (∀ c ∈ ['\r'], isBlank c = true) ∧
      ownerAndName " https://www.github.com/Azure/github.com?tab=readme\r".toList =
        .ok (some ("Azure", "github.com")) ∧
      ownerAndName " Azure/github.com/tree#main\r".toList = .ok (some ("Azure", "github.com")) ∧
      ownerAndName " http://github.com/Azure/\r".toList = .ok none := by
  have hspace : ∀ c ∈ [' '], isBlank c = true := by simp [isBlank]
  have hreturn : ∀ c ∈ ['\r'], isBlank c = true := by simp [isBlank]
  have howner : IsName "Azure".toList := ⟨by decide, by decide⟩
  have hname : IsName host := ⟨by decide, by decide⟩
  obtain ⟨hread, hnone⟩ := ownerAndName_spellings hspace hreturn
  have haddress : Spells "Azure".toList host
      (address "https".toList ("www.".toList ++ host)
        ('/' :: (names "Azure".toList host ++ "?tab=readme".toList))) :=
    .address (by decide) (by decide) (by simp [EndsHost, Url.endsHost])
  have hnames : Spells "Azure".toList host (names "Azure".toList host ++ "/tree#main".toList) :=
    .names (by simp [EndsName])
  have howned : Nameless (address "http".toList host ('/' :: ("Azure".toList ++ ['/']))) :=
    .owner (by decide) (by decide) howner (by decide)
  exact ⟨hspace, hreturn, hread _ _ _ howner hname haddress, hread _ _ _ howner hname hnames,
    hnone _ howned⟩

end BuildMend.TspLocation

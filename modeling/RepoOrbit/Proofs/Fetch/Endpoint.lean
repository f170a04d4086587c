import RepoOrbit.Proofs.Fetch.BaseAddresses

/-!
# Where a token is sent

A token is put into the address of a repository as the password of a user of its own
(`WebBase.tokenUrl`), the authority being made anew of host and port as they were read. A name
in lower case is read as itself, and the number of a port is read off its digits, so that both
are the same in the address with the token (`WebBase.endpoint_of_name`). An address of groups
has lost its brackets, and two colons stand in it, so that neither is
(`WebBase.endpoint_of_bracketed`). `token_keeps_endpoint_iff` puts both together.
-/

namespace RepoOrbit

open Url

/-- A token: letters, digits and underscores, at least one of them. -/
structure IsToken (token : String) : Prop where
  ne_empty : token ≠ ""
  chars : ∀ c ∈ token.toList, c.isAlphanum ∨ c = '_'

/-- The user that a token is given for. -/
def tokenUser : String := "x-access-token"

/-- An authority with a token in it: the host comes without brackets. -/
def tokenAuthority (token : String) (host : List Char) (port : Option String) : String :=
  tokenUser ++ ":" ++ token ++ "@" ++ String.ofList host ++ portText port

section

variable {token : String} {host : List Char} {port : Option String}

theorem tokenAuthority_toList (token : String) (host : List Char) (port : Option String) :
    (tokenAuthority token host port).toList =
      (tokenUser.toList ++ ':' :: token.toList) ++ '@' :: (host ++ (portText port).toList) := by
  simp [tokenAuthority]

theorem disjoint_of_all {l breaks : List Char} (h : l.all fun c => !breaks.contains c) : l.Disjoint breaks := by
  intro c hc hbreak
  have hnot := List.all_eq_true.mp h c hc
  rw [List.contains_iff_mem.mpr hbreak] at hnot
  exact Bool.false_ne_true hnot

theorem tokenUser_disjoint : tokenUser.toList.Disjoint (':' :: hostBreaks) := disjoint_of_all (by decide +kernel)

theorem IsToken.disjoint (h : IsToken token) : token.toList.Disjoint (':' :: hostBreaks) :=
  fun c hc hbreak => not_isAlphanum_of_mem hbreak (h.chars c hc)

theorem tokenAuthority_disjoint (htoken : IsToken token) (hhost : host.Disjoint hostBreaks)
    (hport : ∀ digits ∈ port, IsPort digits) :
    (tokenAuthority token host port).toList.Disjoint ('[' :: ']' :: authorityBreaks) := by
  have hbreaks : ∀ {l : List Char}, l.Disjoint hostBreaks → l.Disjoint ('[' :: ']' :: authorityBreaks) := fun h =>
    List.disjoint_of_subset_right (List.subset_cons_self _ _) h
  have hword : ∀ {l : List Char}, l.Disjoint (':' :: hostBreaks) → l.Disjoint hostBreaks := fun h =>
    List.disjoint_of_subset_right (List.subset_cons_self _ _) h
  rw [tokenAuthority_toList, List.disjoint_append_left, List.disjoint_append_left, List.disjoint_cons_left,
    List.disjoint_cons_left, List.disjoint_append_left]
  refine ⟨⟨hbreaks (hword tokenUser_disjoint), ?_, hbreaks (hword htoken.disjoint)⟩, signs_not_mem.1, hbreaks hhost,
    hbreaks (portText_disjoint hport)⟩
  exact fun hmem => signs_not_mem.2 (List.mem_cons_of_mem _ hmem)

end

theorem lowerHost_disjoint {host : List Char} (h : host.Disjoint hostBreaks) : (lowerHost host).Disjoint hostBreaks :=
  fun _ hc hbreak => h ((mem_lowerHost_iff (isUncased_of_mem (List.mem_cons_of_mem _ hbreak))).mp hc) hbreak

theorem isUncased_colon : Text.isUncased ':' := isUncased_of_mem List.mem_cons_self

namespace WebBase

variable (b : WebBase) {repo token : String}

/-- The port of a base address, its number written in the shortest way. -/
def shortPort : Option String := b.port.map fun digits => (portNumber digits).repr

theorem shortPort_isPort : ∀ digits ∈ b.shortPort, IsPort digits := by
  intro digits hdigits
  obtain ⟨long, hlong, rfl⟩ := Option.mem_map.mp hdigits
  have hport := b.port_isPort long hlong
  exact (IsPort.isPort_repr hport.pos hport.le).1

theorem shortPort_number : b.shortPort.map portNumber = b.port.map portNumber := by
  rw [shortPort, Option.map_map]
  refine Option.map_congr fun long hlong => ?_
  have hport := b.port_isPort long hlong
  exact (IsPort.isPort_repr hport.pos hport.le).2

/-- The authority with a token. -/
def withToken (token : String) : String := tokenAuthority token (lowerHost b.host.inner.toList) b.shortPort

theorem url_scheme (repo : String) : (b.url repo).scheme = "http" ∨ (b.url repo).scheme = "https" := by
  rcases b.scheme_web with h | h
  · exact .inl (by rw [url, h, String.ofList_toList])
  · exact .inr (by rw [url, h, String.ofList_toList])

theorem url_path_slash (repo : String) : (b.url repo).path.toList.head? = some '/' := by
  obtain ⟨l, hl⟩ := List.head?_eq_some_iff.mp (b.pathTo_slash repo)
  rw [url, String.toList_ofList, hl]
  rfl

/-- What the address with a token is read as. -/
def tokenUrl (repo token : String) : Url := { b.url repo with authority := b.withToken token }

theorem cloneUrl_eq_tokenUrl (hrepo : isRepository repo) (htoken : IsToken token) :
    cloneUrl b.text repo (some token) = .ok (b.tokenUrl repo token).toString := by
  refine cloneUrl_token (b.ofString?_address hrepo) (b.url_scheme repo) htoken.ne_empty ?_
  have hpos : b.port.map portNumber ≠ some 0 := by
    intro hzero
    obtain ⟨digits, hdigits, hnumber⟩ := Option.map_eq_some_iff.mp hzero
    have hport := (b.port_isPort digits hdigits).pos
    omega
  have hport : ((b.port.map portNumber).map fun n => ":" ++ n.repr).getD "" = portText b.shortPort := by
    rw [shortPort]
    cases b.port <;> rfl
  have huser : "x-access-token:" = tokenUser ++ ":" := by decide +kernel
  rw [authorityWithToken_eq (b.host?_url repo) (b.port?_url repo) hpos, withToken, tokenAuthority, ← hport, huser]
  rfl

theorem lowerHost_inner_disjoint : (lowerHost b.host.inner.toList).Disjoint hostBreaks :=
  lowerHost_disjoint (WebHost.inner_disjoint b.host_wellFormed)

theorem ofString?_tokenUrl (hrepo : isRepository repo) (htoken : IsToken token) :
    Url.ofString? (b.tokenUrl repo token).toString = .ok (b.tokenUrl repo token) := by
  have hdisjoint : (b.withToken token).toList.Disjoint ('[' :: ']' :: authorityBreaks) :=
    tokenAuthority_disjoint htoken b.lowerHost_inner_disjoint b.shortPort_isPort
  have hbreaks : (b.withToken token).toList.Disjoint authorityBreaks :=
    List.disjoint_of_subset_right (by simp) hdisjoint
  have hbrackets : bracketFault? (b.withToken token).toList = none :=
    bracketFault?_of_not_mem (fun hmem => hdisjoint hmem (by simp)) (fun hmem => hdisjoint hmem (by simp))
  have hne : b.withToken token ≠ "" := by
    intro hempty
    have hlist := tokenAuthority_toList token (lowerHost b.host.inner.toList) b.shortPort
    rw [← withToken, hempty] at hlist
    simp at hlist
  refine ofString?_toString (b.url_scheme repo) hne hbreaks hbrackets (b.url_path_slash repo) (fun c hc => ?_) rfl rfl
  have hpath : c ∈ (b.pathTo repo).toList.filter isKept := by
    rwa [← String.toList_ofList (l := (b.pathTo repo).toList.filter isKept)]
  obtain ⟨hmem, hkept⟩ := List.mem_filter.mp hpath
  exact ⟨hkept, b.pathTo_plain hrepo c hmem⟩

/-! ## What is read off it -/

theorem tokenUrl_authority (repo token : String) : (b.tokenUrl repo token).authority.toList =
    (tokenUser.toList ++ ':' :: token.toList) ++
      '@' :: (lowerHost b.host.inner.toList ++ (portText b.shortPort).toList) :=
  tokenAuthority_toList _ _ _

theorem shortEnd_disjoint : (lowerHost b.host.inner.toList ++ (portText b.shortPort).toList).Disjoint hostBreaks :=
  List.disjoint_append_left.mpr ⟨b.lowerHost_inner_disjoint, portText_disjoint b.shortPort_isPort⟩

theorem user?_tokenUrl (repo token : String) :
    (b.tokenUrl repo token).user? = some tokenUser ∧ (b.tokenUrl repo token).password? = some token := by
  have hcolon : ':' ∉ tokenUser.toList := fun hmem => tokenUser_disjoint hmem List.mem_cons_self
  have hread := user?_password? (b.tokenUrl_authority repo token) hcolon
    (fun hmem => b.shortEnd_disjoint hmem (by simp [hostBreaks]))
  rwa [String.ofList_toList, String.ofList_toList] at hread

/-- Before the first colon stands the host, behind it the port. -/
theorem hostAndPort_tokenUrl {name port : List Char} (repo token : String)
    (hend : lowerHost b.host.inner.toList ++ (portText b.shortPort).toList = name ++ port) (hcolon : ':' ∉ name)
    (hport : port = [] ∨ ∃ digits, port = ':' :: digits) :
    (b.tokenUrl repo token).hostAndPort = (name, port.drop 1) := by
  have hdisjoint := hend ▸ b.shortEnd_disjoint
  refine hostAndPort_of_name ?_ (.inr ⟨tokenUser.toList ++ ':' :: token.toList, rfl⟩)
    (fun hmem => hdisjoint hmem (by simp [hostBreaks])) (fun hmem => hdisjoint hmem (by simp [hostBreaks])) hcolon hport
  rw [tokenUrl_authority, hend]
  simp

end WebBase

/-! ## Colons -/

namespace WebHost

variable {host : WebHost}

theorem colon_not_mem (h : host.IsWellFormed) (hname : ¬ host.IsBracketed) :
    ':' ∉ host.inner.toList := by
  cases host with
  | name text => exact fun hmem => h.2 hmem List.mem_cons_self
  | bracketed address => exact absurd trivial hname

/-- An address in brackets has a colon behind its first one. -/
theorem exists_colons (h : host.IsWellFormed) (hbracketed : host.IsBracketed) :
    ∃ first rest, lowerHost host.inner.toList = first ++ ':' :: rest ∧ ':' ∉ first ∧ ':' ∈ rest := by
  cases host with
  | name text => exact absurd hbracketed id
  | bracketed address =>
    have hcolons : 2 ≤ (lowerHost address.toList).count ':' := by
      rw [count_lowerHost isUncased_colon]
      exact (HostAddress.isGrouped_spec h.1).1
    have hmem : ':' ∈ lowerHost address.toList := List.count_pos_iff.mp (by omega)
    obtain ⟨first, rest, hcut, hfirst⟩ := List.eq_append_cons_of_mem hmem
    refine ⟨first, rest, hcut, hfirst, List.count_pos_iff.mp ?_⟩
    rw [hcut, List.count_append, List.count_cons_self, List.count_eq_zero.mpr hfirst] at hcolons
    omega

end WebHost

/-! ## The endpoint -/

namespace WebBase

variable (b : WebBase) (repo token : String)

theorem endpoint_of_name (h : ¬ b.host.IsBracketed) :
    (b.tokenUrl repo token).host? = (b.url repo).host? ∧ (b.tokenUrl repo token).port? = (b.url repo).port? := by
  have hcolon : ':' ∉ lowerHost b.host.inner.toList :=
    (mem_lowerHost_iff isUncased_colon).not.mpr (WebHost.colon_not_mem b.host_wellFormed h)
  have hread := b.hostAndPort_tokenUrl repo token rfl hcolon (portText_front b.shortPort)
  constructor
  · rw [host?_eq hread (lowerHost_ne_nil (WebHost.inner_ne_nil b.host_wellFormed)), lowerHost_lowerHost, host?_url]
  · rw [port?_eq b.shortPort_isPort hread, shortPort_number, port?_url]

theorem endpoint_of_bracketed (h : b.host.IsBracketed) :
    (b.tokenUrl repo token).host? ≠ (b.url repo).host? ∧ (b.tokenUrl repo token).port? ≠ (b.url repo).port? := by
  obtain ⟨first, rest, hcut, hfirst, hrest⟩ := WebHost.exists_colons b.host_wellFormed h
  have hend : lowerHost b.host.inner.toList ++ (portText b.shortPort).toList =
      first ++ ':' :: (rest ++ (portText b.shortPort).toList) := by
    rw [hcut]
    simp
  have hread := b.hostAndPort_tokenUrl repo token hend hfirst (.inr ⟨_, rfl⟩)
  constructor
  · rw [host?_url, hcut]
    by_cases hnil : first = []
    · rw [hnil] at hread
      rw [host?_none hread]
      exact nofun
    · rw [host?_eq hread hnil]
      intro heq
      have hlist := congrArg String.toList (Option.some.inj heq)
      rw [String.toList_ofList, String.toList_ofList] at hlist
      have hmem : ':' ∈ lowerHost first := by rw [hlist]; simp
      exact hfirst ((mem_lowerHost_iff isUncased_colon).mp hmem)
  · rw [port?_url, port?_of_not_digits hread (List.mem_append_left _ hrest) (by decide)]
    exact nofun

end WebBase

/-- A token that is put into the address of a repository of the web leaves the scheme and the
path as they are, and is given as the password of a user of its own. It leaves the host and the
port as they are just if the host is not in brackets: an address of groups comes without its
brackets then, so that it ends before its first colon, and no port can be read. -/
theorem token_keeps_endpoint_iff (b : WebBase) {repo token : String} (hrepo : isRepository repo)
    (htoken : IsToken token) :
    ∃ plain withToken u v, cloneUrl b.text repo none = .ok plain ∧ cloneUrl b.text repo (some token) = .ok withToken ∧
      Url.ofString? plain = .ok u ∧ Url.ofString? withToken = .ok v ∧
      (v.scheme = u.scheme ∧ v.path = u.path ∧ v.user? = some "x-access-token" ∧ v.password? = some token) ∧
      (v.host? = u.host? ↔ ¬ b.host.IsBracketed) ∧ (v.port? = u.port? ↔ ¬ b.host.IsBracketed) := by
  have hplain := b.ofString?_address hrepo
  obtain ⟨huser, hpassword⟩ := b.user?_tokenUrl repo token
  refine ⟨_, _, b.url repo, b.tokenUrl repo token, cloneUrl_none hplain, b.cloneUrl_eq_tokenUrl hrepo htoken, hplain,
    b.ofString?_tokenUrl hrepo htoken, ⟨rfl, rfl, huser, hpassword⟩, ?_⟩
  by_cases h : b.host.IsBracketed
  · obtain ⟨hhost, hport⟩ := b.endpoint_of_bracketed repo token h
    exact ⟨iff_of_false hhost (not_not_intro h), iff_of_false hport (not_not_intro h)⟩
  · obtain ⟨hhost, hport⟩ := b.endpoint_of_name repo token h
    exact ⟨iff_of_true hhost h, iff_of_true hport h⟩

theorem isGrouped_loopback : HostAddress.isGrouped "::1" := by
  have hzone : HostAddress.pieces '%' "::1" = ["::1"] := by decide +kernel
  have hpieces : HostAddress.pieces ':' "::1" = ["", "", "1"] := by decide +kernel
  have hgroups : HostAddress.groups? "::1" = some ["", "", "1"] := by
    rw [HostAddress.groups?, hpieces]
    simp [String.contains_char_eq]
  rw [HostAddress.isGrouped, hzone]
  dsimp only
  rw [hgroups]
  decide +kernel

/-- A port of the machine itself. -/
def loopback : WebBase where
  scheme := "https"
  user := none
  host := .bracketed "::1"
  port := some "3000"
  path := ""
  scheme_web := .inr (by decide +kernel)
  user_plain := nofun
  host_wellFormed := by
    have hplain : "::1".toList.all fun c => !hostBreaks.contains c := by decide +kernel
    exact ⟨isGrouped_loopback, disjoint_of_all hplain⟩
  port_isPort := by
    rintro digits ⟨⟩
    exact ⟨List.all_eq_true.mp (by decide +kernel), by decide +kernel, by decide +kernel⟩
  path_absolute := .inl rfl
  path_plain := List.disjoint_nil_left _

theorem isToken_tok : IsToken "tok" := by
  have hletters : "tok".toList.all Char.isAlphanum := by decide +kernel
  exact ⟨by decide, fun c hc => .inl (List.all_eq_true.mp hletters c hc)⟩

theorem token_keeps_endpoint_iff_loopback :
    loopback.text = "https://[::1]:3000" ∧ isRepository "a/b" ∧ IsToken "tok" ∧
      ∃ plain withToken u v, cloneUrl loopback.text "a/b" none = .ok plain ∧
        cloneUrl loopback.text "a/b" (some "tok") = .ok withToken ∧ Url.ofString? plain = .ok u ∧
        Url.ofString? withToken = .ok v ∧ v.path = u.path ∧ v.password? = some "tok" ∧ v.host? ≠ u.host? ∧
        v.port? ≠ u.port? := by
  have hrepo : isRepository "a/b" := by decide +kernel
  obtain ⟨plain, withToken, u, v, hplain, hwith, hu, hv, ⟨-, hpath, -, hpassword⟩, hhost, hport⟩ :=
    token_keeps_endpoint_iff loopback hrepo isToken_tok
  have hbracketed : ¬ ¬ loopback.host.IsBracketed := not_not_intro trivial
  exact ⟨by decide +kernel, hrepo, isToken_tok, plain, withToken, u, v, hplain, hwith, hu, hv, hpath, hpassword,
    mt hhost.mp hbracketed, mt hport.mp hbracketed⟩

/-- A token does not always leave host and port of an address as they are. -/
theorem token_not_always_keeps_endpoint :
    ¬ ∀ (b : WebBase) (repo token : String), isRepository repo → IsToken token →
      ∃ plain withToken u v, cloneUrl b.text repo none = .ok plain ∧ cloneUrl b.text repo (some token) = .ok withToken ∧
        Url.ofString? plain = .ok u ∧ Url.ofString? withToken = .ok v ∧
        v.scheme = u.scheme ∧ v.host? = u.host? ∧ v.port? = u.port? ∧ v.path = u.path ∧
        v.user? = some "x-access-token" ∧ v.password? = some token := by
  intro h
  have hrepo : isRepository "a/b" := by decide +kernel
  obtain ⟨plain, withToken, u, v, hplain, hwith, hu, hv, -, hhost, -⟩ := h loopback "a/b" "tok" hrepo isToken_tok
  have hparse := loopback.ofString?_address hrepo
  obtain rfl := Except.ok.inj ((cloneUrl_none hparse).symm.trans hplain)
  obtain rfl := Except.ok.inj (hparse.symm.trans hu)
  obtain rfl := Except.ok.inj ((loopback.cloneUrl_eq_tokenUrl hrepo isToken_tok).symm.trans hwith)
  obtain rfl := Except.ok.inj ((loopback.ofString?_tokenUrl hrepo isToken_tok).symm.trans hv)
  exact (loopback.endpoint_of_bracketed "a/b" "tok" trivial).1 hhost

end RepoOrbit

import RepoOrbit.Proofs.Fetch.Addresses
import RepoOrbit.Proofs.Fetch.Identifiers

/-!
# Base addresses of the web

A base address (`WebBase`) has a scheme, perhaps a user part, a host, perhaps a port, and a
path. Its host is a name or stands in brackets (`WebHost`). `WebBase.ofString?_address` says
what the address of a repository below it is read as, `WebBase.host?_url` and
`WebBase.port?_url` which host and port that has.
-/

namespace RepoOrbit

open Url

/-- The characters that a host has not. -/
def hostBreaks : List Char := '@' :: '[' :: ']' :: authorityBreaks

/-- The number that some digits stand for. -/
def portNumber (digits : String) : Nat := Nat.ofDigitChars 10 digits.toList 0

/-- The digits of a port. -/
structure IsPort (digits : String) : Prop where
  isDigit : ∀ c ∈ digits.toList, c.isDigit
  pos : 1 ≤ portNumber digits
  le : portNumber digits ≤ 65535

/-- The host of a base address: a name or an address of decimal numbers, or an address of
groups in brackets. -/
inductive WebHost where
  | name (text : String)
  | bracketed (address : String)

namespace WebHost

/-- A host as it is written. -/
def text : WebHost → String
  | name text => text
  | bracketed address => "[" ++ address ++ "]"

/-- A host without brackets. -/
def inner : WebHost → String
  | name text => text
  | bracketed address => address

/-- Whether a host is an address of groups. -/
def IsBracketed : WebHost → Prop
  | name _ => False
  | bracketed _ => True

/-- Whether the text of a host is one of its kind. -/
def IsWellFormed : WebHost → Prop
  | name text => text ≠ "" ∧ text.toList.Disjoint (':' :: hostBreaks)
  | bracketed address => HostAddress.isGrouped address ∧ address.toList.Disjoint hostBreaks

end WebHost

/-- The user part of an authority as it is written. -/
def userText : Option String → String
  | none => ""
  | some user => user ++ "@"

/-- The port of an authority as it is written. -/
def portText : Option String → String
  | none => ""
  | some digits => ":" ++ digits

/-- A base address of the web: scheme, perhaps a user part, host, perhaps a port, and a path. -/
structure WebBase where
  scheme : String
  user : Option String
  host : WebHost
  port : Option String
  path : String
  scheme_web : scheme.toList.map Char.toLower = "http".toList ∨ scheme.toList.map Char.toLower = "https".toList
  user_plain : ∀ part ∈ user, part.toList.Disjoint ('[' :: ']' :: authorityBreaks)
  host_wellFormed : host.IsWellFormed
  port_isPort : ∀ digits ∈ port, IsPort digits
  path_absolute : path = "" ∨ path.toList.head? = some '/'
  path_plain : path.toList.Disjoint ['?', '#']

/-! ## Characters -/

theorem breaks_isUncased : (':' :: hostBreaks).all Text.isUncased := by decide +kernel

theorem breaks_not_isAlphanum : (':' :: hostBreaks).all fun c => !(c.isAlphanum || c == '_') := by decide +kernel

theorem isUncased_of_mem {c : Char} (h : c ∈ ':' :: hostBreaks) : Text.isUncased c :=
  List.all_eq_true.mp breaks_isUncased c h

theorem not_isAlphanum_of_mem {c : Char} (h : c ∈ ':' :: hostBreaks) : ¬ (c.isAlphanum ∨ c = '_') := by
  simpa using List.all_eq_true.mp breaks_not_isAlphanum c h

theorem authorityBreaks_subset : authorityBreaks ⊆ hostBreaks := fun _ hc => by simp [hostBreaks, hc]

theorem signs_not_mem : '@' ∉ '[' :: ']' :: authorityBreaks ∧ ':' ∉ hostBreaks := by decide +kernel

theorem brackets_not_mem : '[' ∉ authorityBreaks ∧ ']' ∉ authorityBreaks := by decide +kernel

namespace IsPort

variable {digits : String}

theorem disjoint (h : IsPort digits) : digits.toList.Disjoint hostBreaks := by
  intro c hc hbreak
  refine not_isAlphanum_of_mem (List.mem_cons_of_mem _ hbreak) (.inl ?_)
  rw [Char.isAlphanum, h.isDigit c hc, Bool.or_true]

theorem ne_nil (h : IsPort digits) : digits.toList ≠ [] := by
  intro hnil
  have hpos := h.pos
  rw [portNumber, hnil] at hpos
  exact absurd hpos (by decide)

/-- The number of a port is read off its shortest digits as well. -/
theorem isPort_repr {n : Nat} (hpos : 1 ≤ n) (hle : n ≤ 65535) : IsPort n.repr ∧ portNumber n.repr = n := by
  have hdigits : n.repr.toList = Nat.toDigits 10 n := Nat.toList_repr
  have hnumber : portNumber n.repr = n := by
    rw [portNumber, hdigits]
    exact Nat.ofDigitChars_toDigits (by decide) (by decide)
  refine ⟨⟨fun c hc => ?_, hnumber.symm ▸ hpos, hnumber.symm ▸ hle⟩, hnumber⟩
  rw [hdigits] at hc
  exact Nat.isDigit_of_mem_toDigits (by decide) (by decide) hc

end IsPort

theorem portText_disjoint {port : Option String} (h : ∀ digits ∈ port, IsPort digits) :
    (portText port).toList.Disjoint hostBreaks := by
  cases port with
  | none => exact List.disjoint_nil_left _
  | some digits =>
    have htext : (portText (some digits)).toList = ':' :: digits.toList := by simp [portText]
    rw [htext, List.disjoint_cons_left]
    exact ⟨signs_not_mem.2, (h digits rfl).disjoint⟩

theorem portText_front (port : Option String) :
    (portText port).toList = [] ∨ ∃ digits, (portText port).toList = ':' :: digits := by
  cases port with
  | none => exact .inl rfl
  | some digits => exact .inr ⟨digits.toList, by simp [portText]⟩

theorem userText_end (user : Option String) :
    (userText user).toList = [] ∨ ∃ part, (userText user).toList = part ++ ['@'] := by
  cases user with
  | none => exact .inl rfl
  | some part => exact .inr ⟨part.toList, by simp [userText]⟩

theorem userText_disjoint {user : Option String}
    (h : ∀ part ∈ user, part.toList.Disjoint ('[' :: ']' :: authorityBreaks)) :
    (userText user).toList.Disjoint ('[' :: ']' :: authorityBreaks) := by
  cases user with
  | none => exact List.disjoint_nil_left _
  | some part =>
    rw [userText, String.toList_append, List.disjoint_append_left]
    exact ⟨h part rfl, List.singleton_disjoint.mpr signs_not_mem.1⟩

theorem port?_eq {u : Url} {host : List Char} {port : Option String} (h : ∀ digits ∈ port, IsPort digits)
    (hread : u.hostAndPort = (host, (portText port).toList.drop 1)) : u.port? = .ok (port.map portNumber) := by
  cases port with
  | none => exact port?_of_nil hread
  | some digits =>
    have hdigits := h digits rfl
    have hdrop : (portText (some digits)).toList.drop 1 = digits.toList := by simp [portText]
    rw [hdrop] at hread
    exact port?_of_digits hread hdigits.ne_nil hdigits.isDigit hdigits.le

namespace WebHost

variable {host : WebHost}

theorem inner_disjoint (h : host.IsWellFormed) : host.inner.toList.Disjoint hostBreaks := by
  cases host with
  | name text => exact List.disjoint_of_subset_right (List.subset_cons_self _ _) h.2
  | bracketed address => exact h.2

theorem inner_ne_nil (h : host.IsWellFormed) : host.inner.toList ≠ [] := by
  cases host with
  | name text => exact fun hnil => h.1 (String.toList_eq_nil_iff.mp hnil)
  | bracketed address =>
    intro hnil
    have hcolons := (HostAddress.isGrouped_spec h.1).1
    have haddress : address.toList = [] := hnil
    rw [haddress] at hcolons
    exact absurd hcolons (by decide)

theorem text_bracketed (address : String) : (bracketed address).text.toList = '[' :: address.toList ++ [']'] := by
  simp [text]

theorem text_disjoint (h : host.IsWellFormed) : host.text.toList.Disjoint authorityBreaks := by
  have hinner := List.disjoint_of_subset_right authorityBreaks_subset (inner_disjoint h)
  cases host with
  | name text => exact hinner
  | bracketed address =>
    rw [text_bracketed, List.disjoint_append_left, List.disjoint_cons_left]
    exact ⟨⟨brackets_not_mem.1, hinner⟩, List.singleton_disjoint.mpr brackets_not_mem.2⟩

theorem text_ne_nil (h : host.IsWellFormed) : host.text.toList ≠ [] := by
  cases host with
  | name text => exact inner_ne_nil h
  | bracketed address => simp [text_bracketed]

end WebHost

/-- A character of a repository is one of a name, a slash, or a line end. -/
theorem mem_repository {repo : String} (h : isRepository repo) {c : Char} (hc : c ∈ repo.toList) :
    isNameChar c ∨ c = '/' ∨ c = '\n' := by
  obtain ⟨owner, name, tail, howner, hname, htail, rfl⟩ := exists_parts h
  simp only [String.toList_append, List.mem_append] at hc
  rcases hc with ((hc | hc) | hc) | hc
  · exact .inl (howner.isNameChar c hc)
  · exact .inr (.inl (List.mem_singleton.mp hc))
  · exact .inl (hname.isNameChar c hc)
  · rcases htail with rfl | rfl
    · cases hc
    · exact .inr (.inr (List.mem_singleton.mp hc))

namespace WebBase

variable (b : WebBase) {repo : String}

def authority : String := userText b.user ++ b.host.text ++ portText b.port

/-- A base address as it is written. -/
def text : String := b.scheme ++ "://" ++ b.authority ++ b.path

/-- The path of a repository below a base address. -/
def pathTo (repo : String) : String := withoutFinalSlashes b.path ++ "/" ++ repo ++ ".git"

/-- What the address of a repository is read as. -/
def url (repo : String) : Url :=
  ⟨String.ofList (b.scheme.toList.map Char.toLower), b.authority,
    String.ofList ((b.pathTo repo).toList.filter isKept), "", ""⟩

theorem scheme_ne_empty : b.scheme ≠ "" := by
  intro hempty
  have hweb := b.scheme_web
  rw [hempty] at hweb
  exact absurd hweb (by decide)

theorem scheme_isAlpha : ∀ c ∈ b.scheme.toList, c.isAlpha := by
  intro c hc
  have hlower : c.toLower.isAlpha := by
    have hmem := List.mem_map_of_mem (f := Char.toLower) hc
    rcases b.scheme_web with hweb | hweb
    · rw [hweb] at hmem
      exact isAlpha_of_web (.inl rfl) _ hmem
    · rw [hweb] at hmem
      exact isAlpha_of_web (.inr rfl) _ hmem
  by_cases hupper : c.isUpper
  · exact Bool.or_eq_true_iff.mpr (.inl hupper)
  · rwa [Text.toLower_of_not_isUpper hupper] at hlower

theorem authority_toList :
    b.authority.toList = (userText b.user).toList ++ (b.host.text.toList ++ (portText b.port).toList) := by
  rw [authority, String.toList_append, String.toList_append, List.append_assoc]

theorem authority_disjoint : b.authority.toList.Disjoint authorityBreaks := by
  rw [authority_toList, List.disjoint_append_left, List.disjoint_append_left]
  refine ⟨?_, WebHost.text_disjoint b.host_wellFormed, ?_⟩
  · exact List.disjoint_of_subset_right (by simp) (userText_disjoint b.user_plain)
  · exact List.disjoint_of_subset_right authorityBreaks_subset (portText_disjoint b.port_isPort)

theorem authority_ne_nil : b.authority.toList ≠ [] := by
  rw [authority_toList]
  refine List.append_ne_nil_of_right_ne_nil _ (List.append_ne_nil_of_left_ne_nil ?_ _)
  exact WebHost.text_ne_nil b.host_wellFormed

theorem bracketFault?_authority : bracketFault? b.authority.toList = none := by
  have hwell := b.host_wellFormed
  have huser := userText_disjoint b.user_plain
  have hport := portText_disjoint b.port_isPort
  rw [authority_toList]
  cases hhost : b.host with
  | name text =>
    rw [hhost] at hwell
    have hrest : (text.toList ++ (portText b.port).toList).Disjoint hostBreaks :=
      List.disjoint_append_left.mpr ⟨WebHost.inner_disjoint hwell, hport⟩
    have hall : ((userText b.user).toList ++ (text.toList ++ (portText b.port).toList)).Disjoint
        ('[' :: ']' :: authorityBreaks) :=
      List.disjoint_append_left.mpr ⟨huser, List.disjoint_of_subset_right (List.subset_cons_self _ _) hrest⟩
    exact bracketFault?_of_not_mem (fun hmem => hall hmem (by simp)) (fun hmem => hall hmem (by simp))
  | bracketed address =>
    rw [hhost] at hwell
    rw [WebHost.text_bracketed, List.append_assoc]
    refine bracketFault?_of_address (fun hmem => huser hmem (by simp))
      (fun hmem => hwell.2 hmem (by simp [hostBreaks])) ?_
    rw [String.ofList_toList]
    exact hwell.1

theorem pathTo_slash (repo : String) : (b.pathTo repo).toList.head? = some '/' := by
  have hbegin := withoutFinalSlashes_begins b.path
  cases hpath : (withoutFinalSlashes b.path).toList with
  | nil => simp [pathTo, hpath]
  | cons c l =>
    obtain ⟨rest, hrest⟩ := hbegin
    rw [hpath] at hrest
    rcases b.path_absolute with hempty | hslash
    · rw [hempty] at hrest
      cases hrest
    · rw [← hrest] at hslash
      simpa [pathTo, hpath] using hslash

theorem pathTo_plain (h : isRepository repo) : ∀ c ∈ (b.pathTo repo).toList, c ≠ '?' ∧ c ≠ '#' := by
  intro c hc
  have hmark : ∀ d ∈ ['?', '#'], c ≠ d := by
    rintro d hd rfl
    have hname : ¬ isNameChar c ∧ c ≠ '/' ∧ c ≠ '\n' ∧ c ∉ ".git".toList := by
      rcases List.mem_pair.mp hd with rfl | rfl <;> decide +kernel
    simp only [pathTo, String.toList_append, List.mem_append] at hc
    rcases hc with ((hpath | hslash) | hrepo) | hgit
    · exact b.path_plain ((withoutFinalSlashes_begins b.path).subset hpath) hd
    · exact hname.2.1 (List.mem_singleton.mp hslash)
    · rcases mem_repository h hrepo with hword | hslash | hline
      · exact hname.1 hword
      · exact hname.2.1 hslash
      · exact hname.2.2.1 hline
    · exact hname.2.2.2 hgit
  exact ⟨hmark '?' (by simp), hmark '#' (by simp)⟩

theorem address_eq (repo : String) :
    withoutFinalSlashes b.text ++ "/" ++ repo ++ ".git" = b.scheme ++ "://" ++ b.authority ++ b.pathTo repo := by
  have hlast : (b.scheme ++ "://" ++ b.authority).toList.getLast? ≠ some '/' := by
    rw [String.toList_append, List.getLast?_append, List.getLast?_eq_some_getLast b.authority_ne_nil, Option.some_or]
    intro hslash
    have hmem := List.getLast_mem b.authority_ne_nil
    rw [Option.some.inj hslash] at hmem
    exact b.authority_disjoint hmem (authorityBreaks_of_end (by simp))
  rw [text, withoutFinalSlashes_append hlast, pathTo]
  simp only [String.append_assoc]

theorem ofString?_address (h : isRepository repo) :
    Url.ofString? (withoutFinalSlashes b.text ++ "/" ++ repo ++ ".git") = .ok (b.url repo) := by
  rw [b.address_eq repo]
  exact ofString?_web b.scheme_ne_empty b.scheme_isAlpha b.authority_disjoint b.bracketFault?_authority
    (b.pathTo_slash repo) (b.pathTo_plain h)

theorem hostAndPort_url (repo : String) :
    (b.url repo).hostAndPort = (b.host.inner.toList, (portText b.port).toList.drop 1) := by
  have hwell := b.host_wellFormed
  have hport := portText_disjoint b.port_isPort
  have hauthority : (b.url repo).authority.toList =
      (userText b.user).toList ++ (b.host.text.toList ++ (portText b.port).toList) := b.authority_toList
  cases hhost : b.host with
  | name text =>
    rw [hhost] at hwell hauthority
    have hrest : (text.toList ++ (portText b.port).toList).Disjoint hostBreaks :=
      List.disjoint_append_left.mpr ⟨WebHost.inner_disjoint hwell, hport⟩
    exact hostAndPort_of_name hauthority (userText_end b.user) (fun hmem => hrest hmem (by simp [hostBreaks]))
      (fun hmem => hrest hmem (by simp [hostBreaks])) (fun hmem => hwell.2 hmem List.mem_cons_self)
      (portText_front b.port)
  | bracketed address =>
    rw [hhost] at hwell hauthority
    rw [WebHost.text_bracketed, List.append_assoc] at hauthority
    have haddress : '@' ∉ address.toList := fun hmem => hwell.2 hmem (by simp [hostBreaks])
    have hdigits : '@' ∉ (portText b.port).toList := fun hmem => hport hmem (by simp [hostBreaks])
    exact hostAndPort_of_bracketed hauthority (userText_end b.user) (by simp [WebHost.inner, haddress, hdigits])
      (fun hmem => hwell.2 hmem (by simp [hostBreaks])) (portText_front b.port)

theorem host?_url (repo : String) : (b.url repo).host? = some (String.ofList (lowerHost b.host.inner.toList)) :=
  host?_eq (b.hostAndPort_url repo) (WebHost.inner_ne_nil b.host_wellFormed)

theorem port?_url (repo : String) : (b.url repo).port? = .ok (b.port.map portNumber) :=
  port?_eq b.port_isPort (b.hostAndPort_url repo)

end WebBase

end RepoOrbit

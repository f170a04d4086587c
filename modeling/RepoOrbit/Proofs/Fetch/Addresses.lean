import Mathlib.Data.String.Basic
import RepoOrbit.Fetch.Repository
import RepoOrbit.Proofs.Fetch.HostAddresses
import RepoOrbit.Proofs.Lists
import RepoOrbit.Proofs.Text.LowerCase

/-!
# Reading addresses

What is read off an address that is written in the usual form.

* `ofString?_web`: scheme, authority and path of an address of the web;
* `hostAndPort_of_name`, `hostAndPort_of_bracketed`: the authority, of which `host?_eq` gives
  the host in lower case (`lowerHost`) and `port?_of_digits` the number of the port;
* `user?_password?`: the user and the password before them.

Of the addresses of repositories, `cloneUrl_token` gives the one with a token in it.
-/

namespace RepoOrbit

namespace Url

/-! ## Cuts -/

section

variable {separator : Char} {a b : List Char}

theorem cutAt_append (ha : separator ∉ a) (b : List Char) : cutAt separator (a ++ separator :: b) = (a, some b) := by
  have hbefore : (a ++ separator :: b).takeWhile (· != separator) = a :=
    takeWhile_append_cons (fun c hc => bne_iff_ne.mpr (ne_of_mem_of_not_mem hc ha)) (by simp)
  unfold cutAt
  dsimp only
  rw [hbefore, List.drop_left]

theorem cutAt_of_not_mem (ha : separator ∉ a) : cutAt separator a = (a, none) := by
  have hbefore : a.takeWhile (· != separator) = a :=
    List.takeWhile_eq_self_iff.mpr fun c hc => bne_iff_ne.mpr (ne_of_mem_of_not_mem hc ha)
  unfold cutAt
  dsimp only
  rw [hbefore, List.drop_length]

theorem afterLast_append (a : List Char) (hb : separator ∉ b) : afterLast separator (a ++ separator :: b) = b := by
  have hbehind : (b.reverse ++ separator :: a.reverse).takeWhile (· != separator) = b.reverse :=
    takeWhile_append_cons (fun c hc => bne_iff_ne.mpr (ne_of_mem_of_not_mem (List.mem_reverse.mp hc) hb)) (by simp)
  have hreverse : (a ++ separator :: b).reverse = b.reverse ++ separator :: a.reverse := by simp
  rw [afterLast, hreverse, hbehind, List.reverse_reverse]

theorem afterLast_of_not_mem (hb : separator ∉ b) : afterLast separator b = b := by
  have hbehind : b.reverse.takeWhile (· != separator) = b.reverse :=
    List.takeWhile_eq_self_iff.mpr fun c hc => bne_iff_ne.mpr (ne_of_mem_of_not_mem (List.mem_reverse.mp hc) hb)
  rw [afterLast, hbehind, List.reverse_reverse]

end

/-! ## Addresses of the web -/

/-- Whether a character is not dropped where an address is split. -/
def isKept (c : Char) : Bool := c != '\t' && c != '\r' && c != '\n'

/-- The characters that end an authority, are dropped from it, or are turned down in it. -/
def authorityBreaks : List Char := ['/', '?', '#'] ++ ['\t', '\r', '\n'] ++ separatorForms.map Char.ofNat

theorem authorityBreaks_of_end {d : Char} (h : d ∈ ['/', '?', '#']) : d ∈ authorityBreaks :=
  List.mem_append_left _ (List.mem_append_left _ h)

theorem authorityBreaks_of_dropped {d : Char} (h : d ∈ ['\t', '\r', '\n']) : d ∈ authorityBreaks :=
  List.mem_append_left _ (List.mem_append_right _ h)

theorem separatorForms_disjoint {l : List Char} (h : l.Disjoint authorityBreaks) {c : Char} (hc : c ∈ l) :
    c.toNat ∉ separatorForms := by
  intro hform
  refine h hc (List.mem_append_right _ (List.mem_map.mpr ⟨c.toNat, hform, Char.ofNat_toNat c⟩))

theorem ne_of_disjoint {l : List Char} (h : l.Disjoint authorityBreaks) {c d : Char} (hc : c ∈ l)
    (hd : d ∈ authorityBreaks) : c ≠ d := by
  rintro rfl
  exact h hc hd

section

variable {scheme authority path : List Char}

theorem splitScheme_append (hne : scheme ≠ []) (halpha : ∀ c ∈ scheme, c.isAlpha) (rest : List Char) :
    splitScheme (scheme ++ ':' :: rest) = (scheme.map Char.toLower, rest) := by
  have hcolon : ':' ∉ scheme := fun h => absurd (halpha _ h) (by decide)
  have hhead : scheme.head?.any Char.isAlpha := by
    obtain ⟨c, l, rfl⟩ := List.exists_cons_of_ne_nil hne
    exact halpha c List.mem_cons_self
  have hall : scheme.all isSchemeChar := by
    rw [List.all_eq_true]
    intro c hc
    simp [isSchemeChar, Char.isAlphanum, halpha c hc]
  rw [splitScheme, cutAt_append hcolon]
  simp [hhead, hall]

theorem splitAuthority_append (hauthority : authority.Disjoint authorityBreaks) (p : List Char) :
    splitAuthority ('/' :: '/' :: (authority ++ '/' :: p)) = (authority, '/' :: p) := by
  have htake : (authority ++ '/' :: p).takeWhile (fun c => c != '/' && c != '?' && c != '#') = authority := by
    refine takeWhile_append_cons (fun c hc => ?_) (by simp)
    have hne : ∀ d ∈ ['/', '?', '#'], c ≠ d := fun d hd =>
      ne_of_disjoint hauthority hc (authorityBreaks_of_end hd)
    simp [hne]
  rw [splitAuthority, htake, List.drop_left]

theorem authorityFault?_eq_none (hauthority : authority.Disjoint authorityBreaks) :
    authorityFault? authority = none := by
  have hany : ¬ authority.any fun c => separatorForms.contains c.toNat := by
    rw [List.any_eq_true]
    rintro ⟨c, hc, hform⟩
    exact separatorForms_disjoint hauthority hc (by simpa using hform)
  rw [authorityFault?, if_neg hany]

end

theorem isKept_of_isAlpha {c : Char} (h : c.isAlpha) : isKept c := by
  have hne : ∀ d : Char, ¬ d.isAlpha → c ≠ d := by
    rintro d hd rfl
    exact hd h
  simp [isKept, hne '\t' (by decide), hne '\r' (by decide), hne '\n' (by decide)]

theorem filter_isKept {l : List Char} (h : ∀ c ∈ l, isKept c) : l.filter isKept = l := List.filter_eq_self.mpr h

/-- What is left of the text of an address of the web when it is split. -/
theorem filter_dropWhile_web {scheme authority : String} (path : String) (hne : scheme ≠ "")
    (halpha : ∀ c ∈ scheme.toList, c.isAlpha) (hauthority : ∀ c ∈ authority.toList, isKept c) :
    ((scheme ++ "://" ++ authority ++ path).toList.dropWhile fun c => c.toNat ≤ 0x20).filter isKept =
      scheme.toList ++ ':' :: '/' :: '/' :: (authority.toList ++ path.toList.filter isKept) := by
  obtain ⟨c, l, hcons⟩ := List.exists_cons_of_ne_nil fun h => hne (String.toList_eq_nil_iff.mp h)
  have hhead : ¬ c.toNat ≤ 0x20 := by
    have hblanks : ∀ n ≤ 0x20, ¬ (Char.ofNat n).isAlpha := by decide
    intro hblank
    refine hblanks c.toNat hblank ?_
    rw [Char.ofNat_toNat]
    exact halpha c (by rw [hcons]; exact List.mem_cons_self)
  have htext : (scheme ++ "://" ++ authority ++ path).toList =
      scheme.toList ++ ([':', '/', '/'] ++ (authority.toList ++ path.toList)) := by
    simp [String.toList_append]
  have hdrop : (scheme ++ "://" ++ authority ++ path).toList.dropWhile (fun c => c.toNat ≤ 0x20) =
      scheme.toList ++ ([':', '/', '/'] ++ (authority.toList ++ path.toList)) := by
    rw [htext, hcons, List.cons_append, List.dropWhile_cons_of_neg (by simpa using hhead)]
  rw [hdrop, List.filter_append, List.filter_append, List.filter_append,
    filter_isKept fun c hc => isKept_of_isAlpha (halpha c hc), filter_isKept hauthority]
  rfl

theorem isAlpha_of_web {scheme : String} (h : scheme = "http" ∨ scheme = "https") : ∀ c ∈ scheme.toList, c.isAlpha := by
  rw [← List.all_eq_true]
  rcases h with rfl | rfl <;> decide +kernel

/-- How an address of the web is split. -/
theorem ofString?_web {scheme authority path : String} (hne : scheme ≠ "") (halpha : ∀ c ∈ scheme.toList, c.isAlpha)
    (hauthority : authority.toList.Disjoint authorityBreaks) (hbrackets : bracketFault? authority.toList = none)
    (hslash : path.toList.head? = some '/') (hpath : ∀ c ∈ path.toList, c ≠ '?' ∧ c ≠ '#') :
    ofString? (scheme ++ "://" ++ authority ++ path) =
      .ok ⟨String.ofList (scheme.toList.map Char.toLower), authority,
        String.ofList (path.toList.filter isKept), "", ""⟩ := by
  obtain ⟨p, hp⟩ : ∃ p, path.toList.filter isKept = '/' :: p := by
    obtain ⟨l, hl⟩ := List.head?_eq_some_iff.mp hslash
    exact ⟨l.filter isKept, by rw [hl]; rfl⟩
  have hscheme : scheme.toList ≠ [] := fun h => hne (String.toList_eq_nil_iff.mp h)
  have hplain : ∀ c ∈ authority.toList, isKept c := by
    intro c hc
    have hne : ∀ d ∈ ['\t', '\r', '\n'], c ≠ d := fun d hd =>
      ne_of_disjoint hauthority hc (authorityBreaks_of_dropped hd)
    simp [isKept, hne]
  have htext := filter_dropWhile_web path hne halpha hplain
  rw [hp] at htext
  have hkept : (fun c => c != '\t' && c != '\r' && c != '\n') = isKept := rfl
  have hnot : ∀ c, (∀ d ∈ path.toList, d ≠ c) → c ∉ '/' :: p := by
    intro c hc hmem
    rw [← hp] at hmem
    exact hc c (List.mem_filter.mp hmem).1 rfl
  have hquery := hnot '?' fun d hd => (hpath d hd).1
  have hfragment := hnot '#' fun d hd => (hpath d hd).2
  unfold ofString?
  simp only [hkept, htext, splitScheme_append hscheme halpha, splitAuthority_append hauthority, hbrackets,
    cutAt_of_not_mem hfragment, cutAt_of_not_mem hquery, authorityFault?_eq_none hauthority, hp, String.ofList_toList]
  rfl

/-- An address of the web is put together of its parts. -/
theorem toString_web {scheme authority path : String} (hscheme : scheme ≠ "") (hauthority : authority ≠ "")
    (hslash : path.toList.head? = some '/') :
    toString ⟨scheme, authority, path, "", ""⟩ = scheme ++ "://" ++ authority ++ path := by
  have hstarts : path.startsWith "/" := by
    rw [String.startsWith_string_iff]
    exact List.singleton_prefix_iff_head?_eq_some.mpr hslash
  have hcolon : scheme ++ ":" ++ ("//" ++ authority ++ path) = scheme ++ "://" ++ authority ++ path := by
    rw [← String.toList_inj]
    simp
  unfold toString
  simp only [if_neg hscheme, if_neg hauthority, hstarts, Bool.or_true, if_true, String.append_empty]
  exact hcolon

/-- An address of the web is what its text is read as. -/
theorem ofString?_toString {u : Url} (hscheme : u.scheme = "http" ∨ u.scheme = "https") (hne : u.authority ≠ "")
    (hauthority : u.authority.toList.Disjoint authorityBreaks) (hbrackets : bracketFault? u.authority.toList = none)
    (hslash : u.path.toList.head? = some '/') (hpath : ∀ c ∈ u.path.toList, isKept c ∧ c ≠ '?' ∧ c ≠ '#')
    (hquery : u.query = "") (hfragment : u.fragment = "") : ofString? u.toString = .ok u := by
  obtain ⟨scheme, authority, path, query, fragment⟩ := u
  dsimp only at *
  subst hquery hfragment
  have hlower : String.ofList (scheme.toList.map Char.toLower) = scheme := by
    rcases hscheme with rfl | rfl <;> decide +kernel
  have hsome : scheme ≠ "" := by rcases hscheme with rfl | rfl <;> decide
  have hkept : String.ofList (path.toList.filter isKept) = path := by
    rw [filter_isKept fun c hc => (hpath c hc).1, String.ofList_toList]
  rw [toString_web hsome hne hslash, ofString?_web hsome (isAlpha_of_web hscheme) hauthority hbrackets hslash
    fun c hc => (hpath c hc).2, hlower, hkept]

/-! ## Host and port -/

section

variable {u : Url} {front host name address port : List Char}

theorem afterLast_front (hfront : front = [] ∨ ∃ info, front = info ++ ['@']) (hhost : '@' ∉ host) :
    afterLast '@' (front ++ host) = host := by
  rcases hfront with rfl | ⟨info, rfl⟩
  · exact afterLast_of_not_mem hhost
  · rw [List.append_assoc]
    exact afterLast_append info hhost

theorem cutAt_port (hname : ':' ∉ name) (hport : port = [] ∨ ∃ digits, port = ':' :: digits) :
    (cutAt ':' (name ++ port)).1 = name ∧ (cutAt ':' (name ++ port)).2.getD [] = port.drop 1 := by
  rcases hport with rfl | ⟨digits, rfl⟩
  · rw [List.append_nil, cutAt_of_not_mem hname]
    exact ⟨rfl, rfl⟩
  · rw [cutAt_append hname]
    exact ⟨rfl, rfl⟩

theorem hostAndPort_of_name (hauthority : u.authority.toList = front ++ (name ++ port))
    (hfront : front = [] ∨ ∃ info, front = info ++ ['@']) (hsign : '@' ∉ name ++ port) (hbracket : '[' ∉ name ++ port)
    (hcolon : ':' ∉ name) (hport : port = [] ∨ ∃ digits, port = ':' :: digits) :
    u.hostAndPort = (name, port.drop 1) := by
  obtain ⟨hfirst, hsecond⟩ := cutAt_port hcolon hport
  unfold hostAndPort
  dsimp only
  rw [hauthority, afterLast_front hfront hsign, cutAt_of_not_mem hbracket]
  dsimp only
  rw [hfirst, hsecond]

theorem hostAndPort_of_bracketed (hauthority : u.authority.toList = front ++ ('[' :: address ++ ']' :: port))
    (hfront : front = [] ∨ ∃ info, front = info ++ ['@']) (hsign : '@' ∉ '[' :: address ++ ']' :: port)
    (hbracket : ']' ∉ address) (hport : port = [] ∨ ∃ digits, port = ':' :: digits) :
    u.hostAndPort = (address, port.drop 1) := by
  obtain ⟨-, hsecond⟩ := cutAt_port (List.not_mem_nil (a := ':')) hport
  have hcut : cutAt '[' ('[' :: address ++ ']' :: port) = ([], some (address ++ ']' :: port)) :=
    cutAt_append List.not_mem_nil _
  unfold hostAndPort
  dsimp only
  rw [hauthority, afterLast_front hfront hsign, hcut]
  dsimp only
  rw [cutAt_append hbracket]
  exact congrArg (Prod.mk address) hsecond

/-- A host in lower case; the zone behind it stays as it is. -/
def lowerHost (host : List Char) : List Char :=
  Text.lowerFrom [] (cutAt '%' host).1 ++ ((cutAt '%' host).2.map ('%' :: ·)).getD []

theorem lowerHost_of_not_mem (h : '%' ∉ host) : lowerHost host = Text.lowerFrom [] host := by
  rw [lowerHost, cutAt_of_not_mem h]
  exact List.append_nil _

theorem lowerHost_append (h : '%' ∉ name) (zone : List Char) :
    lowerHost (name ++ '%' :: zone) = Text.lowerFrom [] name ++ '%' :: zone := by
  rw [lowerHost, cutAt_append h]
  rfl

theorem isUncased_percent : Text.isUncased '%' := by decide +kernel

theorem lowerHost_lowerHost (host : List Char) : lowerHost (lowerHost host) = lowerHost host := by
  have hkeep : ∀ {name : List Char}, '%' ∉ name → '%' ∉ Text.lowerFrom [] name := fun hname hmem =>
    hname ((Text.mem_lowerFrom_iff isUncased_percent).mp hmem)
  by_cases h : '%' ∈ host
  · obtain ⟨name, zone, rfl, hname⟩ := List.eq_append_cons_of_mem h
    rw [lowerHost_append hname, lowerHost_append (hkeep hname), Text.lowerFrom_lowerFrom]
  · rw [lowerHost_of_not_mem h, lowerHost_of_not_mem (hkeep h), Text.lowerFrom_lowerFrom]

theorem count_lowerHost {d : Char} (hd : Text.isUncased d) (host : List Char) :
    (lowerHost host).count d = host.count d := by
  by_cases h : '%' ∈ host
  · obtain ⟨name, zone, rfl, hname⟩ := List.eq_append_cons_of_mem h
    rw [lowerHost_append hname, List.count_append, List.count_append, Text.count_lowerFrom hd]
  · rw [lowerHost_of_not_mem h, Text.count_lowerFrom hd]

theorem mem_lowerHost_iff {d : Char} (hd : Text.isUncased d) : d ∈ lowerHost host ↔ d ∈ host := by
  rw [← List.count_pos_iff, count_lowerHost hd, List.count_pos_iff]

theorem lowerHost_ne_nil (hne : host ≠ []) : lowerHost host ≠ [] := by
  by_cases h : '%' ∈ host
  · obtain ⟨name, zone, rfl, hname⟩ := List.eq_append_cons_of_mem h
    simp [lowerHost_append hname]
  · rw [lowerHost_of_not_mem h]
    exact Text.lowerFrom_ne_nil hne

theorem host?_eq (h : u.hostAndPort = (host, port)) (hne : host ≠ []) :
    u.host? = some (String.ofList (lowerHost host)) := by
  have hempty : host.isEmpty = false := List.isEmpty_eq_false_iff.mpr hne
  unfold host?
  rw [h]
  dsimp only
  rw [hempty, if_neg Bool.false_ne_true]
  by_cases hzone : '%' ∈ host
  · obtain ⟨name, zone, rfl, hname⟩ := List.eq_append_cons_of_mem hzone
    rw [lowerHost_append hname, cutAt_append hname]
    simp [Text.lowerText]
  · rw [lowerHost_of_not_mem hzone, cutAt_of_not_mem hzone]
    simp [Text.lowerText]

theorem host?_none (h : u.hostAndPort = ([], port)) : u.host? = none := by
  unfold host?
  rw [h]
  rfl

theorem port?_of_nil (h : u.hostAndPort = (host, [])) : u.port? = .ok none := by
  unfold port?
  rw [h]
  rfl

theorem portNumber_eq_foldl (digits : List Char) :
    digits.foldl (fun n c => n * 10 + (c.toNat - 48)) 0 = Nat.ofDigitChars 10 digits 0 := by
  simp only [Nat.ofDigitChars_eq_foldl, Nat.mul_comm 10]
  rfl

theorem port?_of_digits (h : u.hostAndPort = (host, port)) (hne : port ≠ []) (hdigits : ∀ c ∈ port, c.isDigit)
    (hle : Nat.ofDigitChars 10 port 0 ≤ 65535) : u.port? = .ok (some (Nat.ofDigitChars 10 port 0)) := by
  have hempty : port.isEmpty = false := List.isEmpty_eq_false_iff.mpr hne
  have hall : port.all Char.isDigit = true := List.all_eq_true.mpr hdigits
  unfold port?
  rw [h]
  simp only [hempty, hall, portNumber_eq_foldl, if_pos hle]
  rfl

theorem port?_of_not_digits (h : u.hostAndPort = (host, port)) {c : Char} (hc : c ∈ port) (hdigit : ¬ c.isDigit) :
    u.port? = .error (.portText (String.ofList port)) := by
  have hempty : port.isEmpty = false := List.isEmpty_eq_false_iff.mpr (List.ne_nil_of_mem hc)
  have hall : port.all Char.isDigit = false := List.all_eq_false.mpr ⟨c, hc, hdigit⟩
  unfold port?
  rw [h]
  simp only [hempty, hall]
  rfl

end

/-! ## Brackets -/

theorem bracketFault?_of_not_mem {authority : List Char} (hopen : '[' ∉ authority) (hclose : ']' ∉ authority) :
    bracketFault? authority = none := by
  simp [bracketFault?, hopen, hclose]

theorem bracketFault?_of_address {front address port : List Char} (hfront : '[' ∉ front) (hclose : ']' ∉ address)
    (hgrouped : HostAddress.isGrouped (String.ofList address)) :
    bracketFault? (front ++ ('[' :: address ++ ']' :: port)) = none := by
  obtain ⟨hcolons, hhead⟩ := HostAddress.isGrouped_spec hgrouped
  rw [String.toList_ofList] at hcolons hhead
  have hfuture : address.head? ≠ some 'v' := fun h => absurd (hhead 'v' h) (by decide)
  have hdotted : HostAddress.isDotted (String.ofList address) = false := by
    refine Bool.eq_false_iff.mpr (HostAddress.not_isDotted_of_colon ?_)
    rw [String.toList_ofList]
    exact List.count_pos_iff.mp (by omega)
  have hcut : (cutAt ']' ((cutAt '[' (front ++ ('[' :: address ++ ']' :: port))).2.getD [])).1 = address := by
    rw [List.cons_append, cutAt_append hfront, Option.getD_some, cutAt_append hclose]
  unfold bracketFault?
  rw [hcut]
  simp [hfuture, hdotted, hgrouped]

/-! ## The user part -/

/-- What stands before the last at sign of an authority. -/
def userPart? (u : Url) : Option (List Char) :=
  if '@' ∈ u.authority.toList then some (((u.authority.toList.reverse.dropWhile (· != '@')).drop 1).reverse) else none

/-- The user an address is for. -/
def user? (u : Url) : Option String := u.userPart?.map fun part => String.ofList (cutAt ':' part).1

/-- The password in an address. -/
def password? (u : Url) : Option String := u.userPart?.bind fun part => (cutAt ':' part).2.map String.ofList

theorem userPart?_eq {u : Url} {part host : List Char} (hauthority : u.authority.toList = part ++ '@' :: host)
    (hhost : '@' ∉ host) : u.userPart? = some part := by
  have hmem : '@' ∈ u.authority.toList := by rw [hauthority]; simp
  have hreverse : u.authority.toList.reverse = host.reverse ++ '@' :: part.reverse := by rw [hauthority]; simp
  have hdrop : (host.reverse ++ '@' :: part.reverse).dropWhile (· != '@') = '@' :: part.reverse := by
    rw [List.dropWhile_append_of_pos, List.dropWhile_cons_of_neg (by simp)]
    exact fun c hc => bne_iff_ne.mpr (ne_of_mem_of_not_mem (List.mem_reverse.mp hc) hhost)
  rw [userPart?, if_pos hmem, hreverse, hdrop]
  simp

theorem user?_password? {u : Url} {user password host : List Char}
    (hauthority : u.authority.toList = (user ++ ':' :: password) ++ '@' :: host) (huser : ':' ∉ user)
    (hhost : '@' ∉ host) :
    u.user? = some (String.ofList user) ∧ u.password? = some (String.ofList password) := by
  rw [user?, password?, userPart?_eq hauthority hhost, Option.map_some, Option.bind_some, cutAt_append huser]
  exact ⟨rfl, rfl⟩

end Url

/-! ## Addresses with a token -/

variable {base repo token : String} {u : Url}

theorem cloneUrl_none (h : Url.ofString? (withoutFinalSlashes base ++ "/" ++ repo ++ ".git") = .ok u) :
    cloneUrl base repo none = .ok (withoutFinalSlashes base ++ "/" ++ repo ++ ".git") := by
  unfold cloneUrl
  dsimp only
  rw [h]
  rfl

theorem cloneUrl_token (h : Url.ofString? (withoutFinalSlashes base ++ "/" ++ repo ++ ".git") = .ok u)
    (hscheme : u.scheme = "http" ∨ u.scheme = "https") (htoken : token ≠ "") {authority : String}
    (hauthority : authorityWithToken u token = .ok authority) :
    cloneUrl base repo (some token) = .ok (Url.toString { u with authority }) := by
  unfold cloneUrl
  dsimp only
  rw [h]
  simp only [bind, Except.bind]
  rw [if_pos hscheme, hauthority]
  rfl

theorem authorityWithToken_eq {host : String} {port : Option Nat} (hhost : u.host? = some host)
    (hport : u.port? = .ok port) (hpos : port ≠ some 0) :
    authorityWithToken u token =
      .ok ("x-access-token:" ++ token ++ "@" ++ host ++ (port.map fun n => ":" ++ toString n).getD "") := by
  unfold authorityWithToken
  rw [hhost, hport]
  cases port with
  | none => rfl
  | some n =>
    have hn : n ≠ 0 := fun h => hpos (by rw [h])
    simp only [bind, Except.bind, if_neg hn]
    rfl

theorem withoutFinalSlashes_begins (s : String) : (withoutFinalSlashes s).toList <+: s.toList := by
  rw [withoutFinalSlashes, String.toList_ofList, ← List.reverse_suffix, List.reverse_reverse]
  exact List.dropWhile_suffix _

theorem withoutFinalSlashes_append {s : String} (hlast : s.toList.getLast? ≠ some '/') (t : String) :
    withoutFinalSlashes (s ++ t) = s ++ withoutFinalSlashes t := by
  have hkeep : s.toList.reverse.dropWhile (· == '/') = s.toList.reverse := by
    rw [← List.head?_reverse] at hlast
    cases hreverse : s.toList.reverse with
    | nil => rfl
    | cons c l =>
      rw [hreverse] at hlast
      exact List.dropWhile_cons_of_neg (by simpa using hlast)
  rw [← String.toList_inj]
  simp only [withoutFinalSlashes, String.toList_append, String.toList_ofList, List.reverse_append,
    List.dropWhile_append, hkeep]
  split
  · rename_i hempty
    rw [List.isEmpty_iff.mp hempty]
    simp
  · simp

end RepoOrbit

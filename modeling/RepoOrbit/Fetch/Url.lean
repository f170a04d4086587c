import RepoOrbit.Fetch.HostAddress
import RepoOrbit.Text.LowerCase
import RepoOrbit.Text.Quoted

/-!
# Addresses of repositories

An address is split into scheme, authority, path, query and fragment
(`Url.ofString?`) and put together again (`Url.toString`). The authority holds
host and port behind an optional user part; both are read off it on demand.
-/

namespace RepoOrbit

/-- Why an address cannot be split or has no port. -/
inductive UrlFault where
  /-- A bracket without its partner. -/
  | looseBracket
  /-- A decimal address between brackets. -/
  | dottedInBrackets
  /-- An address of a future version that is not well formed. -/
  | badFutureAddress
  /-- No address between brackets. -/
  | notAnAddress (text : String)
  /-- A character that stands for one of the separators. -/
  | disguisedSeparator (authority : String)
  | portText (text : String)
  | portRange
  deriving DecidableEq, Repr

/-- What is said of a fault in an address. -/
def UrlFault.message : UrlFault → String
  | .looseBracket => "Invalid IPv6 URL"
  | .dottedInBrackets => "An IPv4 address cannot be in brackets"
  | .badFutureAddress => "IPvFuture address is invalid"
  | .notAnAddress text => s!"{Text.quoted text} does not appear to be an IPv4 or IPv6 address"
  | .disguisedSeparator authority =>
    s!"netloc '{authority}' contains invalid characters under NFKC normalization"
  | .portText text => s!"Port could not be cast to integer value as {Text.quoted text}"
  | .portRange => "Port out of range 0-65535"

/-- The parts of an address; what is absent is empty. -/
structure Url where
  scheme : String
  authority : String
  path : String
  query : String
  fragment : String
  deriving DecidableEq, Repr, Inhabited

namespace Url

/-- A text before and behind the first occurrence of a character, if there is
one. -/
def cutAt (separator : Char) (s : List Char) : List Char × Option (List Char) :=
  let before := s.takeWhile (· != separator)
  match s.drop before.length with
  | [] => (before, none)
  | _ :: after => (before, some after)

/-- What follows the last occurrence of a character; all if there is none. -/
def afterLast (separator : Char) (s : List Char) : List Char :=
  (s.reverse.takeWhile (· != separator)).reverse

/-- Whether a character may stand in a scheme. -/
def isSchemeChar (c : Char) : Bool := c.isAlphanum || c == '+' || c == '-' || c == '.'

/-- Split off the scheme: it begins with a letter and ends before a colon. -/
def splitScheme (s : List Char) : List Char × List Char :=
  match cutAt ':' s with
  | (scheme, some rest) =>
    if (scheme.head?.any Char.isAlpha) && scheme.all isSchemeChar then (scheme.map Char.toLower, rest)
    else ([], s)
  | (_, none) => ([], s)

/-- Split off the authority, which two slashes announce. -/
def splitAuthority : List Char → List Char × List Char
  | '/' :: '/' :: rest =>
    let authority := rest.takeWhile fun c => c != '/' && c != '?' && c != '#'
    (authority, rest.drop authority.length)
  | s => ([], s)

/-- The characters that turn into a separator, or into several characters with a
separator among them, when they are brought into a plain form. -/
def separatorForms : List Nat :=
  [0x2047, 0x2048, 0x2049, 0x2100, 0x2101, 0x2105, 0x2106, 0x2A74, 0xFE13, 0xFE16, 0xFE55, 0xFE56,
    0xFE5F, 0xFE6B, 0xFF03, 0xFF0F, 0xFF1A, 0xFF1F, 0xFF20]

/-- Whether a text is an address of a future version: `v`, a hexadecimal number, a
point and something more on the line. -/
def isFutureAddress (s : List Char) : Bool :=
  match cutAt '.' (s.drop 1) with
  | (version, some rest) =>
    !version.isEmpty && version.all HostAddress.isHex && !rest.isEmpty && !rest.contains '\n'
  | _ => false

/-- What is wrong with the address between the brackets of an authority, if
anything. -/
def bracketFault? (authority : List Char) : Option UrlFault :=
  match authority.contains '[', authority.contains ']' with
  | false, false => none
  | true, true =>
    let host := (cutAt ']' ((cutAt '[' authority).2.getD [])).1
    let text := String.ofList host
    if host.head? = some 'v' then
      if isFutureAddress host then none else some .badFutureAddress
    else if HostAddress.isDotted text then some .dottedInBrackets
    else if HostAddress.isGrouped text then none
    else some (.notAnAddress text)
  | _, _ => some .looseBracket

/-- What is wrong with an authority, if anything. -/
def authorityFault? (authority : List Char) : Option UrlFault :=
  if authority.any fun c => separatorForms.contains c.toNat then
    some (.disguisedSeparator (String.ofList authority))
  else none

/-- Split an address. Control characters and blanks before it are passed over,
and tabs and line ends are dropped everywhere. -/
def ofString? (s : String) : Except UrlFault Url := do
  let text := (s.toList.dropWhile fun c => c.toNat ≤ 0x20).filter fun c =>
    c != '\t' && c != '\r' && c != '\n'
  let (scheme, rest) := splitScheme text
  let (authority, rest) := splitAuthority rest
  if let some fault := bracketFault? authority then throw fault
  let (rest, fragment) := cutAt '#' rest
  let (path, query) := cutAt '?' rest
  if let some fault := authorityFault? authority then throw fault
  return ⟨String.ofList scheme, String.ofList authority, String.ofList path,
    String.ofList (query.getD []), String.ofList (fragment.getD [])⟩

/-- Host and port as they stand in the authority. -/
def hostAndPort (u : Url) : List Char × List Char :=
  let host := afterLast '@' u.authority.toList
  match cutAt '[' host with
  | (_, some bracketed) =>
    let (inside, after) := cutAt ']' bracketed
    (inside, (cutAt ':' (after.getD [])).2.getD [])
  | (_, none) =>
    let (name, port) := cutAt ':' host
    (name, port.getD [])

/-- The host in lower case; the zone of an address keeps its case. -/
def host? (u : Url) : Option String :=
  let (host, _) := u.hostAndPort
  if host.isEmpty then none
  else
    let (name, zone) := cutAt '%' host
    some (Text.lowerText (String.ofList name) ++
      match zone with
      | some z => "%" ++ String.ofList z
      | none => "")

/-- The number of the port, if one is given. -/
def port? (u : Url) : Except UrlFault (Option Nat) :=
  let (_, port) := u.hostAndPort
  if port.isEmpty then .ok none
  else if !port.all Char.isDigit then .error (.portText (String.ofList port))
  else
    let n := port.foldl (fun n c => n * 10 + (c.toNat - 48)) 0
    if n ≤ 65535 then .ok (some n) else .error .portRange

/-- Put an address together. -/
def toString (u : Url) : String :=
  let path :=
    if u.authority = "" then u.path
    else "//" ++ u.authority ++ (if u.path = "" || u.path.startsWith "/" then u.path else "/" ++ u.path)
  let scheme := if u.scheme = "" then "" else u.scheme ++ ":"
  let query := if u.query = "" then "" else "?" ++ u.query
  let fragment := if u.fragment = "" then "" else "#" ++ u.fragment
  scheme ++ path ++ query ++ fragment

end Url

end RepoOrbit

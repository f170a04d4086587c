import RepoOrbit.Text.WordChar

/-!
# Masking credentials

`redact` puts `***` in place of every given secret and of everything that looks
like an access token. A `Shape` tells where a credential begins and how long it
is; `substitute` goes through a text from left to right and replaces the
credentials of one shape, passing over their characters.
-/

namespace RepoOrbit.Text

/-- A shape of credentials: the length of the one that begins a text, given the
character before it. -/
abbrev Shape := Option Char → List Char → Option Nat

/-- Replace what has the shape; the first `skip` characters belong to a
replacement already made. -/
def substituteFrom (shape : Shape) (by_ : List Char) : Nat → Option Char → List Char → List Char
  | _, _, [] => []
  | skip + 1, _, c :: rest => substituteFrom shape by_ skip (some c) rest
  | 0, before, c :: rest =>
    match shape before (c :: rest) with
    | some (n + 1) => by_ ++ substituteFrom shape by_ n (some c) rest
    | _ => c :: substituteFrom shape by_ 0 (some c) rest

/-- Replace everything in a text that has the shape. -/
def substitute (shape : Shape) (by_ : List Char) (text : List Char) : List Char :=
  substituteFrom shape by_ 0 none text

/-- The mark that stands for what is masked. -/
def mask : List Char := ['*', '*', '*']

/-- A given secret. -/
def literal (secret : List Char) : Shape := fun _ text =>
  if secret.isPrefixOf text then some secret.length else none

/-- The user name under which a token is put into an address. -/
def accessUser : List Char := "x-access-token:".toList

/-- The user name with a password of at least one character and the sign after
it. -/
def userWithPassword : Shape := fun _ text =>
  if accessUser.isPrefixOf text then
    let rest := text.drop accessUser.length
    let password := rest.takeWhile fun c => c != '@' && !isWhite c
    if password.isEmpty || (rest.drop password.length).head? != some '@' then none
    else some (accessUser.length + password.length + 1)
  else none

/-- Whether a character may stand in a token. -/
def isTokenChar (c : Char) : Bool := c.isAlphanum || c == '_'

/-- One of the given beginnings at the start of a word, and at least one token
character behind it. -/
def tokenWith (beginnings : List String) : Shape := fun before text =>
  if before.any isWordChar then none
  else
    beginnings.findSome? fun b =>
      let start := b.toList
      if start.isPrefixOf text then
        let body := (text.drop start.length).takeWhile isTokenChar
        if body.isEmpty then none else some (start.length + body.length)
      else none

/-- Short access tokens. -/
def shortToken : Shape := tokenWith ["gho_", "ghp_", "ghs_", "ghu_", "ghr_"]

/-- Long access tokens. -/
def longToken : Shape := tokenWith ["github_pat_"]

/-- Mask the given secrets, one after the other; an empty one hides nothing. -/
def maskSecrets (secrets : List String) (text : List Char) : List Char :=
  secrets.foldl (fun t s => substitute (literal s.toList) mask t) text

/-- Mask what looks like a credential. -/
def maskShapes (text : List Char) : List Char :=
  let text := substitute userWithPassword (accessUser ++ mask ++ ['@']) text
  let text := substitute shortToken mask text
  substitute longToken mask text

/-- Mask the given secrets and what looks like a credential. -/
def redact (text : String) (secrets : List String) : String :=
  String.ofList (maskShapes (maskSecrets secrets text.toList))

end RepoOrbit.Text

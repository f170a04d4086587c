import RepoOrbit.Fetch.Url
import RepoOrbit.Path

/-!
# Repositories and their places

A repository is named `owner/name` (`isRepository`), lies in the cache in a
directory of its own (`cloneDirectory`) and is cloned from below a base address
(`cloneUrl`). The directory to be graphed is given below the clone
(`isSourceDirectory`), or guessed from the directories there are
(`detectSourceDirectory`).
-/

namespace RepoOrbit

/-- Whether a character may stand in an owner or a name. -/
def isNameChar (c : Char) : Bool := c.isAlphanum || c == '_' || c == '.' || c == '-'

/-- The text without a line end at its end. -/
def withoutFinalNewline (s : List Char) : List Char :=
  if s.getLast? = some '\n' then s.dropLast else s

/-- Whether two names are joined by the one slash of a text; a line end may
follow them. -/
def hasRepositoryForm (s : String) : Bool :=
  let text := withoutFinalNewline s.toList
  let owner := text.takeWhile isNameChar
  match text.drop owner.length with
  | '/' :: name => !owner.isEmpty && !name.isEmpty && name.all isNameChar
  | _ => false

/-- Whether a text names a repository: neither part is a dot or two, or begins
with a hyphen. -/
def isRepository (repo : String) : Bool :=
  hasRepositoryForm repo &&
    !(repo.splitToList (· == '/')).any fun p => p == "." || p == ".." || p.startsWith "-"

/-- Whether a text names a directory below a clone. -/
def isSourceDirectory (dir : String) : Bool :=
  let path := Path.ofString dir
  dir != "" && !path.isAbsolute && !path.names.contains ".." && !dir.startsWith "-"

/-- What a character becomes in the name of a clone. -/
def cloneNameChar (c : Char) : List Char := if c = '/' then ['_', '_'] else [c]

/-- The name of a repository's directory in the cache. -/
def cloneName (repo : String) : String := String.ofList (repo.toList.flatMap cloneNameChar)

/-- The directory of a repository in the cache. -/
def cloneDirectory (cache : Path) (repo : String) : Path := cache.join (Path.ofString (cloneName repo))

/-- The text without the slashes at its end. -/
def withoutFinalSlashes (s : String) : String :=
  String.ofList ((s.toList.reverse.dropWhile (· == '/')).reverse)

/-- The authority of an address with a token put in as a password. -/
def authorityWithToken (u : Url) (token : String) : Except UrlFault String := do
  let port ← u.port?
  let port := match port with
    | some n => if n = 0 then "" else ":" ++ ToString.toString n
    | none => ""
  return "x-access-token:" ++ token ++ "@" ++ (u.host?.getD "None") ++ port

/-- The address a repository is cloned from; a token goes into addresses of the
web only. -/
def cloneUrl (base repo : String) (token : Option String) : Except UrlFault String := do
  let address := withoutFinalSlashes base ++ "/" ++ repo ++ ".git"
  let url ← Url.ofString? address
  match token with
  | none | some "" => return address
  | some token =>
    if url.scheme = "http" ∨ url.scheme = "https" then
      return Url.toString { url with authority := ← authorityWithToken url token }
    else return address

/-- The directories that usually hold sources, the likeliest first. -/
def sourceDirectoryCandidates : List String := ["src", "lib", "app", "packages", "source", "core"]

/-- The likeliest source directory among those there are. -/
def detectSourceDirectory (present : List String) (default : String) : String :=
  (sourceDirectoryCandidates.find? present.contains).getD default

end RepoOrbit

/-!
# POSIX paths

A path is a root, possibly none, and the names on the way (`Path`). Reading a
path drops empty and `.` names but keeps `..`; `Path.toString` writes it back.

`normalize` works on the text of a path, as resolving `..` lexically does; the
result of `Path.relativeTo` is the part of a path below another.
-/

namespace RepoOrbit

/-- What a path starts from. Exactly two leading slashes are a root of their own. -/
inductive PathRoot where
  | relative
  | slash
  | doubleSlash
  deriving DecidableEq, Repr, Hashable, Inhabited

/-- The text of a root. -/
def PathRoot.text : PathRoot → String
  | .relative => ""
  | .slash => "/"
  | .doubleSlash => "//"

/-- A path: where it starts and the names that follow. -/
structure Path where
  root : PathRoot
  names : List String
  deriving DecidableEq, Repr, Hashable, Inhabited

namespace Path

/-- The pieces of a text between its slashes; never none. -/
def pieces (s : String) : List String := (s.splitToList (· == '/'))

/-- The root a text starts with. -/
def rootOf (s : String) : PathRoot :=
  match s.toList with
  | '/' :: '/' :: '/' :: _ => .slash
  | '/' :: '/' :: _ => .doubleSlash
  | '/' :: _ => .slash
  | _ => .relative

/-- Read a path. -/
def ofString (s : String) : Path :=
  ⟨rootOf s, (pieces s).filter fun p => p != "" && p != "."⟩

/-- Write a path; the path of no names is the dot. -/
def toString (p : Path) : String :=
  match p.root, p.names with
  | .relative, [] => "."
  | r, ns => r.text ++ "/".intercalate ns

instance : ToString Path := ⟨Path.toString⟩

/-- Whether the path starts from a root. -/
def isAbsolute (p : Path) : Bool := p.root != .relative

/-- The last name, empty if there is none. -/
def name (p : Path) : String := p.names.getLast?.getD ""

/-- The path without its last name. -/
def parent (p : Path) : Path := { p with names := p.names.dropLast }

/-- The path with one more name. -/
def child (p : Path) (name : String) : Path := { p with names := p.names ++ [name] }

/-- The path that `q` is when read from `p`. -/
def join (p q : Path) : Path := if q.isAbsolute then q else { p with names := p.names ++ q.names }

/-- Split a name at its last dot, unless that dot begins or ends it. -/
def splitSuffix (name : List Char) : List Char × List Char :=
  let back := name.reverse
  let after := back.takeWhile (· != '.')
  match back.drop after.length with
  | [] => (name, [])
  | _dot :: before =>
    if before.isEmpty || after.isEmpty then (name, [])
    else (before.reverse, '.' :: after.reverse)

/-- The last name's ending from its last dot on, if it has one. -/
def suffix (p : Path) : String := String.ofList (splitSuffix p.name.toList).2

/-- The last name without its suffix. -/
def stem (p : Path) : String := String.ofList (splitSuffix p.name.toList).1

/-- The names of `p` below `base`, if `p` lies there. -/
def relativeTo? (p base : Path) : Option (List String) :=
  if p.root = base.root && base.names.isPrefixOf p.names then some (p.names.drop base.names.length)
  else none

/-- The root, if there is one, and the names. -/
def parts (p : Path) : List String := if p.isAbsolute then p.root.text :: p.names else p.names

/-- Compare lists of names: the first names that differ decide, and a list comes
after its beginnings. -/
def namesLE : List String → List String → Bool
  | [], _ => true
  | _ :: _, [] => false
  | a :: as, b :: bs => if a = b then namesLE as bs else decide (a ≤ b)

/-- Compare paths part by part. -/
def le (a b : Path) : Bool := namesLE a.parts b.parts

/-- Take a name into a normalised list of names, given in reverse: `..` removes
the name before it if there is one to remove, and is dropped at a root. -/
def normalStep (rooted : Bool) (done : List String) (piece : String) : List String :=
  if piece = "" ∨ piece = "." then done
  else if piece ≠ ".." then piece :: done
  else
    match done with
    | [] => if rooted then [] else [".."]
    | top :: rest => if top = ".." then ".." :: done else rest

/-- The text of a path with `.`, `..` and extra slashes worked out. -/
def normalize (s : String) : String :=
  let root := rootOf s
  let names := ((pieces s).foldl (normalStep (root != .relative)) []).reverse
  match root, names with
  | .relative, [] => "."
  | r, ns => r.text ++ "/".intercalate ns

/-- The text that reads `s` from the directory `dir`. -/
def joinText (dir s : String) : String :=
  if s.startsWith "/" then s
  else if dir = "" || dir.endsWith "/" then dir ++ s
  else dir ++ "/" ++ s

end Path

end RepoOrbit

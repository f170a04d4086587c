import RepoOrbit.Path

/-!
# File trees

A file tree is a file, a directory of named trees or a symbolic link
(`FileTree`). A place in a tree is a list of names from its top.

* `at?` looks a place up without following links;
* `find?` follows links, and gives the place that was really found;
* `resolve` works out the links of a place whether or not it exists.
-/

namespace RepoOrbit

/-- A file with its bytes, a directory or a symbolic link. -/
inductive FileTree where
  | file (bytes : List UInt8)
  | directory (entries : List (String × FileTree))
  | link (target : String)
  deriving Inhabited

namespace FileTree

/-- The entries of a directory; of anything else, none. -/
def entries : FileTree → List (String × FileTree)
  | .directory es => es
  | _ => []

/-- Whether the tree is a directory. -/
def isDirectory : FileTree → Bool
  | .directory _ => true
  | _ => false

/-- The entry of a name. -/
def child? (t : FileTree) (name : String) : Option FileTree := t.entries.lookup name

/-- What stands at a place, links not followed. -/
def at? : FileTree → List String → Option FileTree
  | t, [] => some t
  | t, name :: rest => (t.child? name).bind fun e => e.at? rest

mutual

/-- The number of directories of a tree. -/
def directoryCount : FileTree → Nat
  | .directory es => directoryCountOfEntries es + 1
  | _ => 0

/-- The number of directories of the entries. -/
def directoryCountOfEntries : List (String × FileTree) → Nat
  | [] => 0
  | (_, t) :: rest => directoryCount t + directoryCountOfEntries rest

end

/-- How many links are followed before a lookup is given up. -/
def linkLimit : Nat := 40

/-- The place where reading the target of a link starts, for a link in the
directory at `here`. -/
def linkOrigin (target : Path) (here : List String) : List String :=
  if target.isAbsolute then [] else here

/-- Follow `todo` from the directory at `here`, up to the first link, and go on from
there with `follow`; gives the place found and what stands there. -/
def findWith (t : FileTree) (follow : List String → List String → Option (List String × FileTree)) :
    List String → List String → Option (List String × FileTree)
  | here, [] => (t.at? here).map fun e => (here, e)
  | here, name :: rest =>
    if name = ".." then t.findWith follow here.dropLast rest
    else
      match (t.at? here).bind (·.child? name) with
      | none => none
      | some (.link target) =>
        let target := Path.ofString target
        follow (linkOrigin target here) (target.names ++ rest)
      | some (.file bytes) => if rest.isEmpty then some (here ++ [name], .file bytes) else none
      | some (.directory _) => t.findWith follow (here ++ [name]) rest

/-- Follow `todo` from the directory at `here`, and `links` links at most. -/
def findFrom? (t : FileTree) : Nat → List String → List String → Option (List String × FileTree)
  | 0 => t.findWith fun _ _ => none
  | links + 1 => t.findWith (t.findFrom? links)

/-- What stands at a place once links are followed, and where it really is. -/
@[irreducible] def find? (t : FileTree) (names : List String) : Option (List String × FileTree) :=
  t.findFrom? linkLimit [] names

/-- Work out the `..` names of `todo` from the directory at `here`, up to the first
link, and go on from there with `follow`; a name of nothing is kept. -/
def resolveWith (t : FileTree) (follow : List String → List String → Option (List String)) :
    List String → List String → Option (List String)
  | here, [] => some here
  | here, name :: rest =>
    if name = ".." then t.resolveWith follow here.dropLast rest
    else
      match (t.at? here).bind (·.child? name) with
      | some (.link target) =>
        let target := Path.ofString target
        follow (linkOrigin target here) (target.names ++ rest)
      | _ => t.resolveWith follow (here ++ [name]) rest

/-- Work out the `..` names and the links of `todo` from the directory at `here`,
`links` links at most. -/
def resolveFrom? (t : FileTree) : Nat → List String → List String → Option (List String)
  | 0 => t.resolveWith fun _ _ => none
  | links + 1 => t.resolveWith (t.resolveFrom? links)

/-- The place without links and `..` names; the place itself if its links do not
come to an end. -/
@[irreducible] def resolve (t : FileTree) (names : List String) : List String :=
  (t.resolveFrom? linkLimit [] names).getD names

/-- Whether something stands at a place, links followed. -/
def holds (t : FileTree) (names : List String) : Bool := (t.find? names).isSome

/-- Whether a directory stands at a place, links followed. -/
def holdsDirectory (t : FileTree) (names : List String) : Bool :=
  (t.find? names).any fun found => found.2.isDirectory

/-! ## Changing a tree -/

/-- Put an entry in place of the one of the same name, or last. -/
def putEntry (name : String) (t : FileTree) : List (String × FileTree) → List (String × FileTree)
  | [] => [(name, t)]
  | (n, e) :: rest => if n = name then (n, t) :: rest else (n, e) :: putEntry name t rest

/-- Put a tree at a place and make the directories above it. A file or link in
the way is left as it is. -/
def put (t : FileTree) : List String → FileTree → FileTree
  | [], new => new
  | name :: rest, new =>
    match t with
    | .directory es => .directory (putEntry name (((es.lookup name).getD (.directory [])).put rest new) es)
    | other => other

/-- Make a directory at a place, and those above it; one that is there stays. -/
def makeDirectory (t : FileTree) (names : List String) : FileTree :=
  match t.at? names with
  | some _ => t
  | none => t.put names (.directory [])

/-- Take away what stands at a place. -/
def remove (t : FileTree) : List String → FileTree
  | [] => t
  | [name] =>
    match t with
    | .directory es => .directory (es.filter fun e => e.1 != name)
    | other => other
  | name :: rest =>
    match t with
    | .directory es =>
      match es.lookup name with
      | some e => .directory (putEntry name (e.remove rest) es)
      | none => t
    | other => other

/-- Have something else stand at a place, or nothing any more. -/
def change (t : FileTree) (names : List String) : Option FileTree → FileTree
  | some new => t.put names new
  | none => t.remove names

/-- Move what stands at a place to another one. -/
def move (t : FileTree) (source target : List String) : FileTree :=
  match t.at? source with
  | some e => (t.remove source).put target e
  | none => t

mutual

/-- All places below a tree, each with what stands there. -/
def places : FileTree → List (List String × FileTree)
  | .directory es => placesOfEntries es
  | _ => []

/-- All places of the entries and below them. -/
def placesOfEntries : List (String × FileTree) → List (List String × FileTree)
  | [] => []
  | (name, t) :: rest =>
    ([name], t) :: (places t).map (fun p => (name :: p.1, p.2)) ++ placesOfEntries rest

end

end FileTree

end RepoOrbit

/-!
# Categories of nodes

Every node of a graph has a category (`Category`), told by the directories on its
path: `Category.ofPath` takes the first rule one of whose names is the first
segment of the path or stands between two slashes. Letter case does not matter;
all names are of ASCII letters, and no other letter becomes one of theirs in
lower case.
-/

namespace RepoOrbit

/-- What a node belongs to. -/
inductive Category where
  | server
  | client
  | shared
  | lib
  | build
  | api
  | pages
  | export
  | other
  deriving DecidableEq, Repr, Inhabited

/-- How a category is drawn. -/
structure CategoryInfo where
  color : String
  label : String
  deriving DecidableEq, Repr, Inhabited

/-- A category with the names of the directories that belong to it: `segments`
anywhere but at the end, `inner` only between two slashes. -/
structure CategoryRule where
  category : Category
  segments : List String
  inner : List String
  deriving Repr

namespace Category

/-- All categories, in the order of a legend. -/
def all : List Category := [.server, .client, .shared, .lib, .build, .api, .pages, .export, .other]

/-- The name of a category. -/
def name : Category → String
  | .server => "server"
  | .client => "client"
  | .shared => "shared"
  | .lib => "lib"
  | .build => "build"
  | .api => "api"
  | .pages => "pages"
  | .export => "export"
  | .other => "other"

/-- How a category is drawn. -/
def info : Category → CategoryInfo
  | .server => ⟨"#50c8dc", "Server"⟩
  | .client => ⟨"#a078ff", "Client"⟩
  | .shared => ⟨"#64dca0", "Shared"⟩
  | .lib => ⟨"#ffb446", "Lib"⟩
  | .build => ⟨"#ff6478", "Build"⟩
  | .api => ⟨"#dc82dc", "API"⟩
  | .pages => ⟨"#88ccff", "Pages"⟩
  | .export => ⟨"#ffd866", "Export"⟩
  | .other => ⟨"#999999", "Other"⟩

/-- The rules, the first that fits counting. -/
def rules : List CategoryRule :=
  [⟨.server, ["server"], []⟩,
    ⟨.client, ["client"], []⟩,
    ⟨.shared, ["shared"], []⟩,
    ⟨.lib, ["lib"], []⟩,
    ⟨.build, ["build", "compiler"], ["trace"]⟩,
    ⟨.api, ["api"], []⟩,
    ⟨.pages, ["pages"], []⟩,
    ⟨.export, ["export"], []⟩]

/-- Whether a text occurs in another. -/
def occursIn (needle : List Char) : List Char → Bool
  | [] => needle.isEmpty
  | c :: rest => needle.isPrefixOf (c :: rest) || occursIn needle rest

/-- Whether a name stands between two slashes of a path. -/
def betweenSlashes (path : List Char) (name : String) : Bool :=
  occursIn ('/' :: name.toList ++ ['/']) path

/-- Whether a rule fits a path in lower case. -/
def fits (rule : CategoryRule) (path : List Char) : Bool :=
  rule.segments.contains (String.ofList (path.takeWhile (· != '/'))) ||
    rule.segments.any (betweenSlashes path) || rule.inner.any (betweenSlashes path)

/-- The category of a node with this path; the path of a directory ends in a
slash. -/
def ofPath (path : String) : Category :=
  let lower := path.toList.map Char.toLower
  match rules.find? fun r => fits r lower with
  | some r => r.category
  | none => .other

/-- The legend for the categories in use, given by their names. -/
def legend (used : List String) : List (String × CategoryInfo) :=
  (all.filter fun c => used.contains c.name).map fun c => (c.name, c.info)

end Category

end RepoOrbit

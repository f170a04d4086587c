import RepoOrbit.CommandLine.Outcome
import RepoOrbit.Graph.Writing
import RepoOrbit.Text.Json

/-!
# Commands on repositories

`build` makes the graph document of a repository, or of a directory of sources,
and writes it; `detect` prints the top-level directories of a repository and the
one that is taken for its sources.
-/

namespace RepoOrbit.CommandLine

/-- What the build command is asked for. -/
structure BuildRequest where
  repo : String
  sparseDir : Option String
  mode : ViewKind
  maxFiles : Option Nat
  out : String
  token : Option String
  source : Option (List String)

/-- The word that asks for the source directory to be found out. -/
def autoDirectory : String := "auto"

/-- A command on its way: git and the files as they are now, and what has been
said so far. -/
structure Progress where
  rehearsal : Rehearsal
  err : String

namespace Progress

/-- A command at the beginning. -/
def start (s : Surroundings) : Progress := ⟨.start s.files s.git, ""⟩

/-- What can be seen of a command so far. -/
def outcome (p : Progress) : Outcome :=
  { files := p.rehearsal.fetcher.files, runs := p.rehearsal.runs, err := p.err }

/-- Make a call and wait for its answer. -/
def fetch (p : Progress) (c : FetchConfig) (call : FetchCall) : Progress × Except CallFailure FetchAnswer :=
  let id := p.rehearsal.answers.length
  let rehearsal := p.rehearsal.perform c id [⟨call, none⟩]
  ({ p with rehearsal }, (rehearsal.answer? id).getD (.error .cancelled))

/-- Look up the top-level directories of a repository. -/
def directories (p : Progress) (s : Surroundings) (settings : Settings) (repo : String)
    (token : Option String) : Progress × Except Ending (List String) :=
  let (p, answer) := p.fetch (s.fetchConfig settings) { repo, token, task := .topDirectories, tag := s.tag }
  match answer with
  | .ok (.directories names) => (p, .ok names)
  | .ok (.source _) => (p, .ok [])
  | .error failure => (p, .error (reportFetch token failure))

/-- The source directory that is asked for, found out if need be. -/
def sourceDirectory (p : Progress) (s : Surroundings) (settings : Settings) (r : BuildRequest) :
    Progress × Except Ending String :=
  let asked := (r.sparseDir.filter (· != "")).getD settings.defaultSparseDir
  if asked = autoDirectory then
    match p.directories s settings r.repo r.token with
    | (p, .ok names) =>
      let found := detectSourceDirectory names settings.defaultSparseDir
      ({ p with err := p.err ++ s!"Detected source directory: {found}\n" }, .ok found)
    | (p, .error ending) => (p, .error ending)
  else (p, .ok asked)

/-- Fetch the sources and make their document. -/
def scan (p : Progress) (s : Surroundings) (settings : Settings) (options : BuildOptions) :
    Progress × Except Ending GraphDocument :=
  let call : FetchCall :=
    { repo := options.repo, token := options.token, task := .source options.sparseDir, tag := s.tag }
  let (p, answer) := p.fetch (s.fetchConfig settings) call
  let checkout := match answer with
    | .ok (.source root) => .ok ⟨p.rehearsal.fetcher.files, root.names⟩
    | .ok (.directories _) => .ok ⟨p.rehearsal.fetcher.files, []⟩
    | .error failure => .error (scanFailure failure)
  match scanOutcome options checkout with
  | .ok document => (p, .ok document)
  | .error error => (p, .error (.reported (Text.redact error.message options.token.toList)))

/-- Make the document that is asked for. -/
def document (p : Progress) (s : Surroundings) (settings : Settings) (r : BuildRequest)
    (sparseDir : String) : Progress × Except Ending GraphDocument :=
  let options : BuildOptions :=
    { repo := r.repo, sparseDir, mode := r.mode, maxFiles := r.maxFiles.getD settings.maxFiles, token := r.token }
  match r.source with
  | some place =>
    match p.rehearsal.fetcher.files.graphDocument place options with
    | .ok document => (p, .ok document)
    | .error _ => (p, .error (.crashed .outside))
  | none => p.scan s settings options

end Progress

/-- What is said of a document that has been written. -/
def summary (path : Path) (d : GraphDocument) : String :=
  let shown := path.toString
  s!"Wrote {shown}\n  {d.nodes.length} dir nodes, {d.links.length} dir links\n" ++
    s!"  {d.fileNodes.length} file nodes, {d.fileLinks.length} file links\n"

/-- Write a document to a file, or to the output if a dash stands for it. -/
def writeDocument (s : Surroundings) (o : Outcome) (d : GraphDocument) (out : String) : Outcome :=
  let text := (d.toValue .short).onLines
  if out = "-" then { o with out := o.out ++ text ++ "\n" }
  else
    let path := Path.ofString out
    let place := s.locate path
    let parent := if path.names.isEmpty then place else place.dropLast
    match o.files.makeDirectories parent with
    | .error fault => o.end (.crashed (.write fault))
    | .ok files =>
      match files.writeFile place text.toUTF8.toList with
      | .error fault => { o with files }.end (.crashed (.write fault))
      | .ok files => { o with files, err := o.err ++ summary path d, written := some (path, text) }

/-- Make a document and write it. -/
def build (s : Surroundings) (r : BuildRequest) : Outcome :=
  match s.settings with
  | .error ending => s.nothing.end ending
  | .ok settings =>
    match (Progress.start s).sourceDirectory s settings r with
    | (p, .error ending) => p.outcome.end ending
    | (p, .ok sparseDir) =>
      match p.document s settings r sparseDir with
      | (p, .error ending) => p.outcome.end ending
      | (p, .ok document) => writeDocument s p.outcome document r.out

/-- What is printed of the directories of a repository. -/
def directoriesValue (names : List String) (usual : String) : Value :=
  .map [("sparseDir", .text (detectSourceDirectory names usual)), ("dirs", .list (names.map .text))]

/-- Print the top-level directories of a repository. -/
def detect (s : Surroundings) (repo : String) (token : Option String) : Outcome :=
  match s.settings with
  | .error ending => s.nothing.end ending
  | .ok settings =>
    match (Progress.start s).directories s settings repo token with
    | (p, .error ending) => p.outcome.end ending
    | (p, .ok names) =>
      { p.outcome with out := (directoriesValue names settings.defaultSparseDir).onLines ++ "\n" }

end RepoOrbit.CommandLine

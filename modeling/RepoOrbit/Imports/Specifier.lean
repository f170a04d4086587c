import RepoOrbit.Imports.Occurrence
import RepoOrbit.Path
import RepoOrbit.Script.TypeScript
import RepoOrbit.Syntax.Reading

/-!
# The specifiers a source file imports

A file is read by the grammar its suffix calls for; the specifiers of its import
and export statements and of its `import(…)` calls are collected from the tree
(`treeSpecifiers`), and `require(…)` calls are found in the text. A file of no
known grammar, and one with a syntax error, is scanned as plain text for all
three forms of import.

`treeSpecifiers` walks the tree with a worklist; `SyntaxTree.specifiers` says by
recursion what it collects.
-/

namespace RepoOrbit

open Grammar Script

/-- The grammars that scripts are read by. -/
inductive ScriptGrammar where
  | javaScript
  | typeScript
  deriving DecidableEq, Repr

/-- The name of a grammar. -/
def ScriptGrammar.name : ScriptGrammar → String
  | .javaScript => "javascript"
  | .typeScript => "typescript"

/-- The JavaScript grammar, ready for parsing. -/
def javaScriptLanguage : Language := JavaScript.spec.language

/-- The TypeScript grammar, ready for parsing. -/
def typeScriptLanguage : Language := TypeScript.spec.language

/-- The grammar, ready for parsing. -/
def ScriptGrammar.language : ScriptGrammar → Language
  | .javaScript => javaScriptLanguage
  | .typeScript => typeScriptLanguage

/-- The grammar for files with a suffix, if they are parsed at all. -/
def ScriptGrammar.ofSuffix? : String → Option ScriptGrammar
  | ".js" | ".mjs" | ".cjs" => some .javaScript
  | ".ts" => some .typeScript
  | _ => none

/-- The characters from `start` up to `stop`. -/
def sliceText (source : Array Char) (start stop : Nat) : String :=
  String.ofList (source.extract start stop).toList

namespace SyntaxTree

/-- The text between the quotes of a string node. -/
def quotedText (source : Array Char) (t : SyntaxTree) : String :=
  sliceText source (t.start + 1) (t.stop - 1)

/-- The specifier a node itself names: the source of an import or export
statement, or the first argument of a call of `import`, when that is a plain
string. -/
def ownSpecifier? (source : Array Char) (t : SyntaxTree) : Option String :=
  if t.kind = "import_statement" ∨ t.kind = "export_statement" then
    match t.childLabelled? "source" with
    | some s => if s.kind = "string" then some (s.quotedText source) else none
    | none => none
  else if t.kind = "call_expression" then
    match t.childLabelled? "function", t.childLabelled? "arguments" with
    | some f, some args =>
      if f.kind = "import" then
        match args.firstNamed? with
        | some s => if s.kind = "string" then some (s.quotedText source) else none
        | none => none
      else none
    | _, _ => none
  else none

mutual

/-- The specifiers named in a tree, by recursion on its nodes. -/
def specifiers (source : Array Char) : SyntaxTree → List String
  | .node l k n s e cs =>
    (ownSpecifier? source (.node l k n s e cs)).toList ++ specifiersOfAll source cs

/-- The specifiers named in any of the trees. -/
def specifiersOfAll (source : Array Char) : List SyntaxTree → List String
  | [] => []
  | t :: rest => specifiers source t ++ specifiersOfAll source rest

end

mutual

/-- The number of nodes of a tree. -/
def size : SyntaxTree → Nat
  | .node _ _ _ _ _ cs => sizeOfAll cs + 1

/-- The number of nodes of the trees. -/
def sizeOfAll : List SyntaxTree → Nat
  | [] => 0
  | t :: rest => size t + sizeOfAll rest

end

theorem sizeOfAll_append (a b : List SyntaxTree) : sizeOfAll (a ++ b) = sizeOfAll a + sizeOfAll b := by
  induction a with
  | nil => simp [sizeOfAll]
  | cons t rest ih => simp [sizeOfAll, ih, Nat.add_assoc]

theorem sizeOfAll_reverse (ts : List SyntaxTree) : sizeOfAll ts.reverse = sizeOfAll ts := by
  induction ts with
  | nil => rfl
  | cons t rest ih => simp [sizeOfAll, sizeOfAll_append, ih, Nat.add_comm]

theorem sizeOfAll_children_lt (t : SyntaxTree) : sizeOfAll t.children < t.size := by
  cases t with
  | node => simp [children, size]

/-- Visit the trees on a worklist, the last child of a node first, and put what
they name before `found`. -/
def collectFrom (source : Array Char) (work : List SyntaxTree) (found : List String) : List String :=
  match work with
  | [] => found
  | t :: rest =>
    collectFrom source (t.children.reverse ++ rest) ((t.ownSpecifier? source).toList ++ found)
termination_by sizeOfAll work
decreasing_by
  have := sizeOfAll_children_lt t
  simp only [sizeOfAll_append, sizeOfAll_reverse, sizeOfAll]
  omega

/-- The specifiers named in a tree, by a worklist. -/
def collectSpecifiers (source : Array Char) (t : SyntaxTree) : List String := collectFrom source [t] []

end SyntaxTree

/-- One way of finding the specifiers of a text. -/
inductive SpecifierStrategy where
  | scan (form : ImportForm)
  | tree (grammar : ScriptGrammar)
  deriving DecidableEq, Repr

/-- A text that does not parse: the grammar that refused it. -/
structure SyntaxFailure where
  grammar : ScriptGrammar
  deriving DecidableEq, Repr

/-- What is said of a text that does not parse. -/
def SyntaxFailure.message (f : SyntaxFailure) : String := s!"{f.grammar.name} parse produced syntax errors"

namespace SpecifierStrategy

/-- The specifiers the strategy finds. -/
def extract (strategy : SpecifierStrategy) (text : String) : Except SyntaxFailure (List String) :=
  match strategy with
  | .scan form => .ok ((form.bodies text.toList).map String.ofList)
  | .tree grammar =>
    let chars := text.toList
    match grammar.language.tree? chars with
    | some t => .ok (t.collectSpecifiers chars.toArray)
    | none => .error ⟨grammar⟩

/-- The strategies for plain text. -/
def plainPlan : List SpecifierStrategy := [.scan .fromClause, .scan .bareImport, .scan .requireCall]

/-- The strategies for parsed text. -/
def parsedPlan (grammar : ScriptGrammar) : List SpecifierStrategy := [.tree grammar, .scan .requireCall]

/-- All the strategies of a plan find, or the first failure. -/
def runPlan (plan : List SpecifierStrategy) (text : String) : Except SyntaxFailure (List String) :=
  plan.foldlM (fun found s => do return found ++ (← s.extract text)) []

end SpecifierStrategy

/-- Sort texts by code points and drop repetitions. -/
def sortedTexts (ts : List String) : List String := (ts.mergeSort (fun a b => a ≤ b)).eraseReps

/-- The specifiers of a source file, sorted and without repetitions. -/
def specifiersOf (path : Path) (text : String) : List String :=
  let parsed := (ScriptGrammar.ofSuffix? path.suffix).bind fun g =>
    (SpecifierStrategy.runPlan (SpecifierStrategy.parsedPlan g) text).toOption
  sortedTexts <| match parsed with
    | some found => found
    | none => (SpecifierStrategy.runPlan SpecifierStrategy.plainPlan text).toOption.getD []

/-- Whether a specifier names a file by its place and not a package. -/
def isRelative (specifier : String) : Bool := specifier.startsWith "./" || specifier.startsWith "../"

/-- The suffixes of source files, in the order they are tried. -/
def sourceSuffixes : List String := [".js", ".ts", ".jsx", ".tsx", ".mjs", ".cjs"]

/-- The texts tried for a specifier: its place, the place with each suffix, and
an index file with each suffix inside the place. -/
def resolutionCandidates (importer : Path) (specifier : String) : List String :=
  let target := Path.normalize (Path.joinText importer.parent.toString specifier)
  target :: sourceSuffixes.map (target ++ ·) ++
    sourceSuffixes.map fun s => Path.joinText target ("index" ++ s)

/-- The known file a specifier names. -/
def resolveSpecifier (importer : Path) (specifier : String) (known : Path → Bool) : Option Path :=
  ((resolutionCandidates importer specifier).map Path.ofString).find? known

end RepoOrbit

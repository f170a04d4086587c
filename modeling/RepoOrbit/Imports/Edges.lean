import RepoOrbit.Files.Walk
import RepoOrbit.Text.Lossy

/-!
# Imports between files

The files that a file imports (`FileTree.importsOf`) are those its relative
specifiers resolve to; a file that cannot be read imports nothing. `ImportMap`
holds the imports of many files; `FileTree.importMap` makes one and leaves out
the files without any.
-/

namespace RepoOrbit

/-- The files each file imports. No file is listed twice, and no import is
repeated. -/
abbrev ImportMap := List (Path × List Path)

/-- What a file imports. -/
def ImportMap.importsOf (m : ImportMap) (file : Path) : List Path := (m.lookup file).getD []

namespace FileTree

/-- The text of a file, if it can be read. -/
def text? (t : FileTree) (file : Path) : Option String :=
  match t.find? file.names with
  | some (_, .file bytes) => some (Text.ofFile bytes)
  | _ => none

/-- The known files that the relative ones among the specifiers resolve to. -/
def resolveAll (file : Path) (specifiers : List String) (known : Path → Bool) : List Path :=
  let found := (specifiers.filter isRelative).filterMap fun s => resolveSpecifier file s known
  found.eraseDups.mergeSort fun a b => a.toString ≤ b.toString

/-- The known files that a file imports. -/
def importsOf (t : FileTree) (known : Path → Bool) (file : Path) : List Path :=
  match t.text? file with
  | some text => resolveAll file (specifiersOf file text) known
  | none => []

/-- The imports among the files, of those that import any. -/
def importMap (t : FileTree) (files : List Path) : ImportMap :=
  (files.map fun f => (f, t.importsOf files.contains f)).filter fun e => !e.2.isEmpty

end FileTree

end RepoOrbit

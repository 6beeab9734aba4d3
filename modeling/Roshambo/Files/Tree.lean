import Roshambo.Files.Entry
import Roshambo.Text.Blank

/-!
# Directory trees

A file system held as a value: a tree of files and directories in which paths are looked up from
the working directory, step by step, the way an operating system does. The tree hangs in
directories of which nothing else is known: they can be reached and listed, but no name in them
leads anywhere.
-/
namespace Roshambo

inductive Tree where
  | file (bytes : ByteArray)
  | directory (entries : List (String × Tree))

namespace Tree

def empty : Tree := .directory []

/-- The names on a path, an empty one for every slash too many. -/
def pathNames (path : String) : List String :=
  (Text.pieces (· == '/') path.toList).map String.ofList

def child? : Tree → String → Option Tree
  | .directory entries, name => entries.lookup name
  | .file _, _ => none

/-- The directory with the entry of this name put in or replaced; a file becomes a directory. -/
def put (tree : Tree) (name : String) (node : Tree) : Tree :=
  match tree with
  | .directory entries =>
    if (entries.lookup name).isSome then
      .directory (entries.map fun (n, old) => if n == name then (n, node) else (n, old))
    else .directory (entries ++ [(name, node)])
  | .file _ => .directory [(name, node)]

/-- Puts a node at a path below the tree, making the directories on the way. -/
def insert (tree : Tree) (names : List String) (node : Tree) : Tree :=
  match names with
  | [] => node
  | name :: rest => tree.put name (((tree.child? name).getD empty).insert rest node)

/-- Walks along names from the first tree of a trail that leads back to the working directory; an
empty trail is outside of it. A name can only follow a directory, a single dot and an empty name
stay, two dots go back. -/
def walk : (trail : List Tree) → List String → Option (List Tree)
  | trail, [] => some trail
  | trail, name :: names =>
    match trail.headD empty with
    | .file _ => none
    | .directory entries =>
      if name == "" || name == "." then walk trail names
      else if name == ".." then walk trail.tail names
      else
        match entries.lookup name with
        | some node => walk (node :: trail) names
        | none => none

/-- The most bytes a path can have. -/
def maxPathSize : Nat := 4095

/-- What a path leads to. The empty path and paths that are too long lead nowhere; an absolute
path starts outside. -/
def find (tree : Tree) : Files := fun path =>
  if path.isEmpty || maxPathSize < path.utf8ByteSize then .missing
  else
    let start := if path.toList.head? == some '/' then [] else [tree]
    match walk start (pathNames path) with
    | none => .missing
    | some trail =>
      match trail.headD empty with
      | .file bytes => .file bytes
      | .directory entries => .directory (entries.map (·.1))

end Tree

end Roshambo

/-!
# Files and paths

What the loader needs from a file system: for every path, whether it leads to a file, to a
directory or nowhere, and what is in it. Paths are kept as they were given and grow by one name at
a time.
-/
namespace Roshambo

/-- What a path leads to. -/
inductive Entry where
  | missing
  | file (bytes : ByteArray)
  | directory (names : List String)
  /-- Something that is neither a directory nor a file that can be read. -/
  | unreadable

abbrev Files := String → Entry

namespace Path

/-- The path of a name within a directory. -/
def join (dir name : String) : String :=
  if dir.isEmpty || dir.toList.getLast? == some '/' then dir ++ name else dir ++ "/" ++ name

/-- The part of a name behind its last dot, unless the name has no other character before that
dot. -/
def extension? (name : String) : Option String :=
  let reversed := name.toList.reverse
  let ending := reversed.takeWhile (· != '.')
  match reversed.dropWhile (· != '.') with
  | [] => none
  | _ :: before => if before.isEmpty then none else some (String.ofList ending.reverse)

end Path

end Roshambo

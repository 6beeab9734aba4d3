import Roshambo.Console.Program

/-!
# Command line

Carries out what the program decides: reads the assets and the input lines, and writes the output.
-/
namespace Roshambo.Main

/-- What a path of the real file system leads to. -/
def entryAt (path : String) : IO Entry := do
  let place : IO.FS.DirEntry := { root := path, fileName := "" }
  if ← place.root.isDir then
    return .directory ((← place.root.readDir).toList.map (·.fileName))
  if ← place.root.pathExists then
    try
      return .file (← IO.FS.readBinFile place.root)
    catch _ =>
      return .unreadable
  return .missing

/-- The part of the file system below an assets directory that loading asks for. -/
def assetFiles (dir : String) : IO Files := do
  let round := Path.join dir "round.json"
  let rules := Path.join dir "rules"
  let listing ← entryAt rules
  let names :=
    match listing with
    | .directory names => ruleFileNames names
    | _ => []
  let files ← names.mapM fun name => do
    let path := Path.join rules name
    return (path, ← entryAt path)
  let entries := (round, ← entryAt round) :: (rules, listing) :: files
  return fun path => (entries.lookup path).getD .missing

def write (output : Output) : IO Unit := do
  match output with
  | .out text => (← IO.getStdout).putStr text
  | .err text => (← IO.getStderr).putStr text

/-- Writes what the console has printed and forgets it. -/
def writeOut (c : Console) : IO Console := do
  c.printed.forM write
  (← IO.getStdout).flush
  return { c with printed := #[] }

/-- The next input line; nothing at the end, and nothing inside if it is no text. -/
def nextLine : IO (Option (Option String)) := do
  try
    let line ← (← IO.getStdin).getLine
    return if line.isEmpty then none else some (some line)
  catch _ =>
    return some none

/-- Writes the rest of the output and gives the exit code. -/
def conclude (failure : Option Failure) (c : Console) : IO UInt32 := do
  let result := RunResult.ofEnd c.printed.toList failure
  result.printed.forM write
  (← IO.getStdout).flush
  return result.code

/-- Takes lines as they come in, until the run is over or no line is left. -/
partial def converse (library : Library) (rounds : UInt32) (p : Progress) :
    IO (Ending × Console) := do
  match p with
  | .ended .. => return p.finish
  | .waiting c =>
    let c ← writeOut c
    match ← nextLine with
    | none => return (Progress.waiting c).finish
    | some line => converse library rounds ((Progress.waiting c).step library rounds line)

/-- The whole program. -/
def start (args : List String) : IO UInt32 := do
  let (_, options) := Options.read {} args
  let files ← if options.help then pure fun _ => .missing else assetFiles options.assets
  let (options, opening) := opening args files
  opening.printed.forM write
  match opening.start with
  | .error none => return 0
  | .error (some _) => return 1
  | .ok (library, console) =>
    if options.auto then
      let (failure, c) := console.autoPlay options.rounds
      conclude failure c
    else
      let (ending, c) ← converse library options.rounds (console.welcome.ready options.rounds)
      conclude ending.failure? c

end Roshambo.Main

def main (args : List String) : IO UInt32 := Roshambo.Main.start args

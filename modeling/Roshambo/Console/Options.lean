/-!
# Options

The options of the command line. A flag that takes a value takes the next argument whatever it is;
at the end of the line it is ignored. What cannot be used is reported and otherwise ignored.
-/
namespace Roshambo

structure Options where
  seed : UInt64 := 0xC0FFEE
  assets : String := "assets"
  rules : Option String := none
  allRules : Bool := false
  auto : Bool := false
  rounds : UInt32 := 1
  trace : Bool := false
  help : Bool := false
  deriving DecidableEq

namespace Options

/-- A decimal number below the bound; a plus sign may lead it. -/
def natBelow? (bound : Nat) (s : String) : Option Nat :=
  let digits :=
    match s.toList with
    | '+' :: digits => digits
    | digits => digits
  let n := digits.foldl (fun n c => 10 * n + (c.toNat - 48)) 0
  if !digits.isEmpty && digits.all Char.isDigit && n < bound then some n else none

/-- Reads arguments one by one; beside the options stand the lines that report what was ignored. -/
def read (options : Options) : List String → List String × Options
  | [] => ([], options)
  | "--auto" :: rest => { options with auto := true }.read rest
  | "--all-rules" :: rest => { options with allRules := true }.read rest
  | "--trace" :: rest => { options with trace := true }.read rest
  | "--help" :: rest => { options with help := true }.read rest
  | "-h" :: rest => { options with help := true }.read rest
  | "--seed" :: value :: rest =>
    match natBelow? UInt64.size value with
    | some seed => { options with seed := UInt64.ofNat seed }.read rest
    | none =>
      let (ignored, options) := options.read rest
      (("ignoring bad seed `" ++ value ++ "`") :: ignored, options)
  | "--assets" :: value :: rest => { options with assets := value }.read rest
  | "--rules" :: value :: rest => { options with rules := some value }.read rest
  | "--rounds" :: value :: rest =>
    let rounds := max 1 ((natBelow? UInt32.size value).getD 1)
    { options with rounds := UInt32.ofNat rounds }.read rest
  | ["--seed"] | ["--assets"] | ["--rules"] | ["--rounds"] => ([], options)
  | other :: rest =>
    let (ignored, options) := options.read rest
    (("ignoring unknown argument `" ++ other ++ "`") :: ignored, options)

end Options

end Roshambo

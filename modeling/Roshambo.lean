import Roshambo.Files.Tree
import Roshambo.Main
import Roshambo.Proofs.Authoring.Malformed
import Roshambo.Proofs.Round.Blindness
import Roshambo.Proofs.Round.Conservation
import Roshambo.Proofs.Round.Foreseen
import Roshambo.Proofs.Round.Front
import Roshambo.Proofs.Round.Grants
import Roshambo.Proofs.Round.Guarantees
import Roshambo.Proofs.Round.Isolation
import Roshambo.Proofs.Round.LastTurn
import Roshambo.Proofs.Round.Length
import Roshambo.Proofs.Round.Replay
import Roshambo.Proofs.Round.Resting
import Roshambo.Proofs.Round.Reveals
import Roshambo.Proofs.Round.Toggle
import Roshambo.Proofs.Files.Loading
import Roshambo.Proofs.Console.Bookkeeping
import Roshambo.Proofs.Console.Auto
import Roshambo.Proofs.Console.Interactive
import Roshambo.Proofs.Console.Strategy
import Roshambo.Proofs.Round.Watched
import Roshambo.Proofs.Round.Exact
import Roshambo.Proofs.Round.Drift
import Roshambo.Proofs.Pass.Conditions
import Roshambo.Proofs.Round.Again
import Roshambo.Proofs.Round.Changes
import Roshambo.Proofs.Round.Dealing
import Roshambo.Proofs.Round.Rerolls
import Roshambo.Proofs.Authoring.WellFormed
import Roshambo.Proofs.Encoding.RuleFile
import Roshambo.Proofs.Rule.Selection
import Roshambo.Proofs.Rule.Activation
import Roshambo.Proofs.Rule.Spelling
import Roshambo.Proofs.Encoding.RoundTrip

import TokenBudget.Files.Tree
import TokenBudget.Main
import TokenBudget.Pool.Timeline
import TokenBudget.Proofs.Instant.Plain
import TokenBudget.Proofs.Pool.Periods
import TokenBudget.Proofs.Pool.ExactBalance
import TokenBudget.Proofs.Pool.Agreement
import TokenBudget.Proofs.Pool.ExactCount
import TokenBudget.Proofs.Pool.Growth
import TokenBudget.Proofs.Pool.JointGrowth
import TokenBudget.Proofs.Contest.Requests
import TokenBudget.Proofs.Pool.Spending
import TokenBudget.Proofs.Contest.Chronological
import TokenBudget.Proofs.Contest.Lifetimes
import TokenBudget.Proofs.Pool.LifetimeOnly
import TokenBudget.Proofs.Contest.RecordedPlays
import TokenBudget.Proofs.Contest.Retry
import TokenBudget.Proofs.Contest.PastPlays
import TokenBudget.Proofs.Contest.ExtraPlay
import TokenBudget.Proofs.Contest.SavedLog
import TokenBudget.Proofs.Command.OptionsAnywhere
import TokenBudget.Proofs.Command.PlayLoop
import TokenBudget.Proofs.Command.Effects
import TokenBudget.Proofs.Contest.Isolation
import TokenBudget.Proofs.Contest.AcceptedPlays
import TokenBudget.Proofs.Contest.Faults
import TokenBudget.Proofs.Instant.Reach
import TokenBudget.Proofs.Instant.Moved
import TokenBudget.Proofs.Pool.Reach
import TokenBudget.Proofs.Pool.ExactFaults
import TokenBudget.Proofs.Settings.Reach
import TokenBudget.Proofs.Pool.Moved
import TokenBudget.Proofs.Contest.Moved
import TokenBudget.Proofs.Pool.OneToken
import TokenBudget.Proofs.Contest.OneToken
import TokenBudget.Proofs.Instant.Elapsed
import TokenBudget.Proofs.Pool.Meet
import TokenBudget.Proofs.Pool.Waiting
import TokenBudget.Proofs.Pool.Boundaries
import TokenBudget.Proofs.Settings.CarriedOver
import TokenBudget.Proofs.Settings.FirstFault
import TokenBudget.Proofs.Settings.Layers
import TokenBudget.Proofs.Contest.Regrouping

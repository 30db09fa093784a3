import Skirmish.Battle.Basic
import Skirmish.Battle.Clock
import Skirmish.Battle.Combatant
import Skirmish.Battle.Definitions
import Skirmish.Battle.Effect
import Skirmish.Battle.Log
import Skirmish.Battle.Operations
import Skirmish.Battle.Status
import Skirmish.Battle.Tick
import Skirmish.CommandLine.Request
import Skirmish.CommandLine.Session
import Skirmish.Content.Definitions
import Skirmish.Content.Directory
import Skirmish.Content.Error
import Skirmish.Content.Identifier
import Skirmish.Content.Reader
import Skirmish.Content.Registration
import Skirmish.Content.Ron.Basic
import Skirmish.Content.Ron.Meaning
import Skirmish.Content.Ron.Number
import Skirmish.Content.Ron.Reading
import Skirmish.Content.Ron.Token
import Skirmish.Content.Toml.Basic
import Skirmish.Content.Toml.Meaning
import Skirmish.Content.Toml.Moment
import Skirmish.Content.Toml.Number
import Skirmish.Content.Toml.Reading
import Skirmish.Content.Toml.Token
import Skirmish.Decimal.Numeral
import Skirmish.Decimal.Shortest
import Skirmish.Decimal.Text
import Skirmish.Formula.Binding
import Skirmish.Formula.Error
import Skirmish.Formula.Eval
import Skirmish.Formula.Expr
import Skirmish.Formula.Operation
import Skirmish.Formula.Reading
import Skirmish.Formula.Symbol
import Skirmish.Formula.Texts
import Skirmish.Formula.Token
import Skirmish.Formula.Value
import Skirmish.Formula.Vocabulary
import Skirmish.Formula.World
import Skirmish.Generator
import Skirmish.Main
import Skirmish.Proofs.Battle.Alike
import Skirmish.Proofs.Battle.Application
import Skirmish.Proofs.Battle.Atomicity
import Skirmish.Proofs.Battle.Binding
import Skirmish.Proofs.Battle.Chain
import Skirmish.Proofs.Battle.Coupling
import Skirmish.Proofs.Battle.Course
import Skirmish.Proofs.Battle.Duration
import Skirmish.Proofs.Battle.Evolution
import Skirmish.Proofs.Battle.Expiry
import Skirmish.Proofs.Battle.Fitting
import Skirmish.Proofs.Battle.Frame
import Skirmish.Proofs.Battle.Identity
import Skirmish.Proofs.Battle.Instances
import Skirmish.Proofs.Battle.Isolation
import Skirmish.Proofs.Battle.Ledger
import Skirmish.Proofs.Battle.Lifecycle
import Skirmish.Proofs.Battle.Limit
import Skirmish.Proofs.Battle.Modifiers
import Skirmish.Proofs.Battle.Purging
import Skirmish.Proofs.Battle.Reach
import Skirmish.Proofs.Battle.Readings
import Skirmish.Proofs.Battle.Reentry
import Skirmish.Proofs.Battle.Registry
import Skirmish.Proofs.Battle.Saturation
import Skirmish.Proofs.Battle.Stacking
import Skirmish.Proofs.Battle.Ticks
import Skirmish.Proofs.Content.Loading
import Skirmish.Proofs.Formula.Calls
import Skirmish.Proofs.Formula.Climbing
import Skirmish.Proofs.Formula.Collision
import Skirmish.Proofs.Formula.Diagnostics
import Skirmish.Proofs.Formula.Environment
import Skirmish.Proofs.Formula.Grammar
import Skirmish.Proofs.Formula.Inspection
import Skirmish.Proofs.Formula.Keeping
import Skirmish.Proofs.Formula.Nesting
import Skirmish.Proofs.Formula.Parsing
import Skirmish.Proofs.Formula.Placeholders
import Skirmish.Proofs.Formula.Printing
import Skirmish.Proofs.Formula.Quiet
import Skirmish.Proofs.Formula.Saturation
import Skirmish.Proofs.Formula.Simulation
import Skirmish.Proofs.Formula.Splitting
import Skirmish.Proofs.Formula.Stepping
import Skirmish.Proofs.Formula.Substitution
import Skirmish.Proofs.Formula.Yielding
import Skirmish.Proofs.Generator.Period
import Skirmish.Table

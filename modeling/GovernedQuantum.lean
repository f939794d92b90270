import GovernedQuantum.Check
import GovernedQuantum.Check.Fold
import GovernedQuantum.Check.Infer
import GovernedQuantum.Check.Issue
import GovernedQuantum.Check.Replay
import GovernedQuantum.Clock
import GovernedQuantum.CommandLine
import GovernedQuantum.CommandLine.Arguments
import GovernedQuantum.CommandLine.Files
import GovernedQuantum.Compilation
import GovernedQuantum.Configuration
import GovernedQuantum.Configuration.Toml
import GovernedQuantum.Constraint
import GovernedQuantum.Delegation
import GovernedQuantum.Diagnostic
import GovernedQuantum.Digest.Blake3
import GovernedQuantum.Entity
import GovernedQuantum.Explanation
import GovernedQuantum.Fault
import GovernedQuantum.Host
import GovernedQuantum.InferredType
import GovernedQuantum.Instruction
import GovernedQuantum.Json
import GovernedQuantum.Level
import GovernedQuantum.Limits
import GovernedQuantum.Main
import GovernedQuantum.Node
import GovernedQuantum.Number.Binary64
import GovernedQuantum.Number.Fixed
import GovernedQuantum.Number.Reading
import GovernedQuantum.Number.Shortest
import GovernedQuantum.Opcode
import GovernedQuantum.Physics
import GovernedQuantum.Program
import GovernedQuantum.Random.ChaCha
import GovernedQuantum.Register
import GovernedQuantum.Report.Language
import GovernedQuantum.Report.Session
import GovernedQuantum.Review
import GovernedQuantum.Scripted
import GovernedQuantum.Session
import GovernedQuantum.Session.Distribution
import GovernedQuantum.Session.Governance
import GovernedQuantum.Session.Qudits
import GovernedQuantum.Session.Result
import GovernedQuantum.Session.Run
import GovernedQuantum.Session.Step
import GovernedQuantum.Session.Values
import GovernedQuantum.Settings
import GovernedQuantum.Statement
import GovernedQuantum.SyntaxIssue
import GovernedQuantum.Table
import GovernedQuantum.Text.Blank
import GovernedQuantum.Text.Lines
import GovernedQuantum.Text.Utf8
import GovernedQuantum.Token
import GovernedQuantum.Value
import GovernedQuantum.Verification
import GovernedQuantum.Proofs.OrderedTable
import GovernedQuantum.Proofs.Attempts
import GovernedQuantum.Proofs.Cycles
import GovernedQuantum.Proofs.Traces
import GovernedQuantum.Proofs.Ownership
import GovernedQuantum.Proofs.NoCloning
import GovernedQuantum.Proofs.RegisterGraph
import GovernedQuantum.Proofs.EntanglementGraph
import GovernedQuantum.Proofs.Inference
import GovernedQuantum.Proofs.Statements
import GovernedQuantum.Proofs.Replaying
import GovernedQuantum.Proofs.Acceptance
import GovernedQuantum.Proofs.Backing
import GovernedQuantum.Proofs.Findings
import GovernedQuantum.Proofs.StaticSoundness
import GovernedQuantum.Proofs.Lexemes
import GovernedQuantum.Proofs.Bytecode
import GovernedQuantum.Proofs.Conservation
import GovernedQuantum.Proofs.Respacing
import GovernedQuantum.Proofs.RoundTrip
import GovernedQuantum.Proofs.Desk
import GovernedQuantum.Proofs.History
import GovernedQuantum.Proofs.ReviewProtocol
import GovernedQuantum.Proofs.Governance
import GovernedQuantum.Proofs.Pace
import GovernedQuantum.Proofs.Reuse
import GovernedQuantum.Proofs.Reachability
import GovernedQuantum.Proofs.Reporting
import GovernedQuantum.Proofs.GroupConsistency
import GovernedQuantum.Proofs.Atomicity
import GovernedQuantum.Proofs.Accounting
import GovernedQuantum.Proofs.Kinship
import GovernedQuantum.Proofs.Twins
import GovernedQuantum.Proofs.Opacity
import GovernedQuantum.Proofs.Validation
import GovernedQuantum.Proofs.Compliance
import GovernedQuantum.Proofs.Revalidation
import GovernedQuantum.Proofs.BareRuns
import GovernedQuantum.Proofs.Readings
import GovernedQuantum.Proofs.Leaks
import GovernedQuantum.Proofs.Coherence
import GovernedQuantum.Proofs.Escalation
import GovernedQuantum.Proofs.Interleaving
import GovernedQuantum.Proofs.Turns
import GovernedQuantum.Proofs.Domains
import GovernedQuantum.Proofs.Succession
import GovernedQuantum.Proofs.Separation
import GovernedQuantum.Proofs.ExactCodec
import GovernedQuantum.Proofs.Grammar
import GovernedQuantum.Proofs.Layout
import GovernedQuantum.Proofs.ModifierOrder
import GovernedQuantum.Proofs.Disentangling
import GovernedQuantum.Proofs.Evaluations
import GovernedQuantum.Proofs.Tallies
import GovernedQuantum.Proofs.ReuseReports
import GovernedQuantum.Proofs.StepLimit
import GovernedQuantum.Proofs.Policy
import GovernedQuantum.Proofs.Removal
import GovernedQuantum.Proofs.CoherenceBudget
import GovernedQuantum.Proofs.Moves
import GovernedQuantum.Proofs.SoundData
import GovernedQuantum.Proofs.DelegationLedger

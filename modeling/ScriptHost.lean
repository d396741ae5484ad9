import ScriptHost.Boundary.Catalogue
import ScriptHost.Boundary.Closure
import ScriptHost.Console.Imports
import ScriptHost.Console.Options
import ScriptHost.Console.Prompt
import ScriptHost.Embedding.Session
import ScriptHost.Machine.Invocation
import ScriptHost.Main
import ScriptHost.Program.Session
import ScriptHost.Source.Tree.Statements
import ScriptHost.Proofs.Simulation.Logic
import ScriptHost.Proofs.Simulation.Laws
import ScriptHost.Proofs.Simulation.Evaluation
import ScriptHost.Proofs.Simulation.Execution
import ScriptHost.Proofs.Simulation.Invocation
import ScriptHost.Proofs.Simulation.Facade
import ScriptHost.Proofs.Simulation.Shadow
import ScriptHost.Proofs.Binding.Declaration
import ScriptHost.Proofs.Binding.Sound
import ScriptHost.Proofs.Binding.Dispatch
import ScriptHost.Proofs.Binding.Payloads
import ScriptHost.Proofs.Binding.Twin
import ScriptHost.Proofs.Binding.Provenance
import ScriptHost.Proofs.Binding.Session
import ScriptHost.Proofs.Binding.Moment
import ScriptHost.Proofs.Trust
import ScriptHost.Proofs.PayloadSafety
import ScriptHost.Proofs.Binding.History
import ScriptHost.Proofs.Resolution
import ScriptHost.Proofs.Isolation.Matching
import ScriptHost.Proofs.Isolation.Heaps
import ScriptHost.Proofs.Isolation.Machines
import ScriptHost.Proofs.Isolation.Routines
import ScriptHost.Proofs.Isolation.Neighbours
import ScriptHost.Proofs.Isolation.Programs
import ScriptHost.Proofs.Isolation.Steps
import ScriptHost.Proofs.Isolation
import ScriptHost.Proofs.Isolation.Catalogue
import ScriptHost.Proofs.Registrations
import ScriptHost.Proofs.Window
import ScriptHost.Proofs.Depth.Requests
import ScriptHost.Proofs.Depth.Audit
import ScriptHost.Proofs.Depth
import ScriptHost.Proofs.Attribution.Calls
import ScriptHost.Proofs.Attribution.Journal
import ScriptHost.Proofs.Attribution
import ScriptHost.Proofs.Encoding
import ScriptHost.Proofs.Places
import ScriptHost.Proofs.Lexing.Extent
import ScriptHost.Proofs.Lexing.Strings
import ScriptHost.Proofs.Lexing.Gaps
import ScriptHost.Proofs.Lexing.Cut
import ScriptHost.Proofs.Lossless
import ScriptHost.Proofs.Lexing.Displaced
import ScriptHost.Proofs.Spacing
import ScriptHost.Proofs.Reading.Displacement
import ScriptHost.Proofs.Reading.Likeness
import ScriptHost.Proofs.Reading.Expressions
import ScriptHost.Proofs.Reading.Statements
import ScriptHost.Proofs.Reading.Items
import ScriptHost.Proofs.Lexing.Literals
import ScriptHost.Proofs.Lexing.Courses
import ScriptHost.Proofs.Slices
import ScriptHost.Proofs.Recovery
import ScriptHost.Proofs.Interpolation
import ScriptHost.Proofs.Placement
import ScriptHost.Proofs.Progress.Proceeds
import ScriptHost.Proofs.Progress.Expressions
import ScriptHost.Proofs.Progress.Statements
import ScriptHost.Proofs.Progress
import ScriptHost.Proofs.Grammar
import ScriptHost.Proofs.Faults
import ScriptHost.Proofs.Sequence.Keeps
import ScriptHost.Proofs.Sequence.Expressions
import ScriptHost.Proofs.Sequence.Statements
import ScriptHost.Proofs.Sequence
import ScriptHost.Proofs.Rendering.Tree
import ScriptHost.Proofs.Quoting
import ScriptHost.Proofs.Rendering.Numbers
import ScriptHost.Proofs.Rendering.Spelling
import ScriptHost.Proofs.Rendering.Words
import ScriptHost.Proofs.Rendering.Ranks
import ScriptHost.Proofs.Rendering.Postfix
import ScriptHost.Proofs.Rendering
import ScriptHost.Proofs.Splitting.Displaced
import ScriptHost.Proofs.Splitting.Runs
import ScriptHost.Proofs.Splitting.Scripts
import ScriptHost.Proofs.Splitting.Methods
import ScriptHost.Proofs.Splitting.Desks
import ScriptHost.Proofs.Splitting
import ScriptHost.Proofs.Account.Leaves
import ScriptHost.Proofs.Account.Spends
import ScriptHost.Proofs.Account.Expressions
import ScriptHost.Proofs.Account.Grammar
import ScriptHost.Proofs.Account.Statements
import ScriptHost.Proofs.Account
import ScriptHost.Proofs.Course.Interpreter
import ScriptHost.Proofs.Course.Erasure
import ScriptHost.Proofs.Course.Tally
import ScriptHost.Proofs.Loading
import ScriptHost.Proofs.Traces
import ScriptHost.Proofs.Release.Reach
import ScriptHost.Proofs.Release.Confined
import ScriptHost.Proofs.Release.Lost
import ScriptHost.Proofs.Release.Sessions
import ScriptHost.Proofs.Release
import ScriptHost.Proofs.Marshalling
import ScriptHost.Proofs.Dispatching
import ScriptHost.Proofs.Confinement
import ScriptHost.Proofs.Homes.Diary
import ScriptHost.Proofs.Homes.Keeping
import ScriptHost.Proofs.Homes.Bodies
import ScriptHost.Proofs.Homes.Interpreter
import ScriptHost.Proofs.Homes.Talk
import ScriptHost.Proofs.Homes.Sessions
import ScriptHost.Proofs.Homes.Machines
import ScriptHost.Proofs.Homes.Objects
import ScriptHost.Proofs.Homes.Dialogues
import ScriptHost.Proofs.Homes
import ScriptHost.Proofs.Closures
import ScriptHost.Proofs.Closures.Catalogue
import ScriptHost.Proofs.Window.Unseen
import ScriptHost.Proofs.Calling
import ScriptHost.Proofs.Window.Results
import ScriptHost.Proofs.Construction.Lasting
import ScriptHost.Proofs.Construction.Persistence
import ScriptHost.Proofs.Construction
import ScriptHost.Proofs.Scoping.Rules
import ScriptHost.Proofs.Scoping
import ScriptHost.Proofs.Importing
import ScriptHost.Proofs.Arguments.Signatures
import ScriptHost.Proofs.Arguments.Declarations
import ScriptHost.Proofs.Arguments.Sending
import ScriptHost.Proofs.Arguments.Orderly
import ScriptHost.Proofs.Arguments
import ScriptHost.Proofs.Lines.Chart
import ScriptHost.Proofs.Lines.Erasure
import ScriptHost.Proofs.Lines.Marks
import ScriptHost.Proofs.Lines
import ScriptHost.Proofs.Primitives.Home
import ScriptHost.Proofs.Primitives.Grounded
import ScriptHost.Proofs.Primitives.Keeping
import ScriptHost.Proofs.Primitives.Misuse
import ScriptHost.Proofs.Primitives
import ScriptHost.Proofs.Narrowing.Doubles
import ScriptHost.Proofs.Narrowing
import ScriptHost.Proofs.Chronicle
import ScriptHost.Proofs.Equality
import ScriptHost.Proofs.Lists.Growth
import ScriptHost.Proofs.Lists
import ScriptHost.Proofs.Texts

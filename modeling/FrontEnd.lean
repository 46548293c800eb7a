import FrontEnd.Main
import FrontEnd.Proofs.Lockstep.Policy
import FrontEnd.Proofs.Lockstep.Concatenation
import FrontEnd.Proofs.Lockstep.Directive
import FrontEnd.Proofs.Token.Placement
import FrontEnd.Proofs.Token.FixedPoint
import FrontEnd.Proofs.Course.Unit
import FrontEnd.Proofs.Written.File
import FrontEnd.Proofs.Written.Context
import FrontEnd.Proofs.Fence.Basic
import FrontEnd.Proofs.Fence.Declaration
import FrontEnd.Proofs.Fence.Sequence
import FrontEnd.Proofs.Fence.Statement
import FrontEnd.Proofs.Fence.Function
import FrontEnd.Proofs.Spelling.Basic
import FrontEnd.Proofs.Spelling.Layout
import FrontEnd.Proofs.Token.Followed
import FrontEnd.Proofs.Token.Lines
import FrontEnd.Proofs.Token.LeftOpen
import FrontEnd.Proofs.Recovery.Diagnostics
import FrontEnd.Proofs.Built.Brackets
import FrontEnd.Proofs.Lockstep.Alternative
import FrontEnd.Proofs.Ending.Stream
import FrontEnd.Proofs.Check.Violations
import FrontEnd.Proofs.Lockstep.Unplaced
import FrontEnd.Proofs.Tree.Coverage
import FrontEnd.Proofs.Token.Segments
import FrontEnd.Proofs.Token.Marks
import FrontEnd.Proofs.Token.Alone
import FrontEnd.Proofs.CommandLine.Outcome
import FrontEnd.Proofs.Lockstep.Onward
import FrontEnd.Proofs.Semicolon.File
import FrontEnd.Proofs.Recovery.Unwinding
import FrontEnd.Proofs.Schema.Statement
import FrontEnd.Proofs.Tree.Listing
import FrontEnd.Proofs.Source
import FrontEnd.Proofs.Properties
import FrontEnd.Proofs.Level.Statement
import FrontEnd.Proofs.Level.Arguments

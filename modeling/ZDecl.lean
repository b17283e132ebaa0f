import ZDecl.Archive.Directory
import ZDecl.Archive.Memory
import ZDecl.Failure.Excerpt
import ZDecl.Report
import ZDecl.Token.Display
import ZDecl.Proofs.Grammar.Nesting
import ZDecl.Proofs.Grammar.Headers
import ZDecl.Proofs.Grammar.Items
import ZDecl.Proofs.Grammar.Acceptance
import ZDecl.Proofs.Session.Run
import ZDecl.Proofs.Session.FirstFailure
import ZDecl.Proofs.Session.Finds
import ZDecl.Proofs.Session.Steps
import ZDecl.Proofs.Include.Expansion
import ZDecl.Proofs.Include.Guard
import ZDecl.Proofs.Text.Decoding
import ZDecl.Proofs.Token.Boundary
import ZDecl.Proofs.Token.Tiling
import ZDecl.Proofs.Token.Reading
import ZDecl.Proofs.Session.Parts
import ZDecl.Proofs.Scan.Places
import ZDecl.Proofs.Include.Protocol
import ZDecl.Proofs.Include.FailurePlace
import ZDecl.Proofs.Scan.Likeness
import ZDecl.Proofs.Token.Literal
import ZDecl.Proofs.Session.Layout
import ZDecl.Proofs.Grammar.Braces
import ZDecl.Proofs.Session.Balance
import ZDecl.Proofs.Scan.Locality
import ZDecl.Proofs.Session.Stretch
import ZDecl.Proofs.Session.Kept
import ZDecl.Proofs.Session.Composition
import ZDecl.Proofs.Session.Acceptable
import ZDecl.Proofs.Session.Earliest
import ZDecl.Proofs.Scan.Promptness
import ZDecl.Proofs.Grammar.Promptness
import ZDecl.Proofs.Include.FreshPath
import ZDecl.Proofs.Text.Encoding
import ZDecl.Proofs.Token.Cut
import ZDecl.Proofs.Token.Seam
import ZDecl.Proofs.Token.Splice
import ZDecl.Proofs.Token.Stability
import ZDecl.Proofs.Token.Printing
import ZDecl.Proofs.Text.Folding
import ZDecl.Proofs.Archive.Containment
import ZDecl.Proofs.Archive.Location
import ZDecl.Proofs.Include.Opening
import ZDecl.Proofs.Include.Recording
import ZDecl.Proofs.Include.DirectoryGuard
import ZDecl.Proofs.Grammar.Closing
import ZDecl.Proofs.Session.Blocks
import ZDecl.Proofs.Scan.Strictness
import ZDecl.Proofs.Session.Growth
import ZDecl.Proofs.Include.Lockstep
import ZDecl.Proofs.Include.Restrictions
import ZDecl.Proofs.Include.Logging
import ZDecl.Proofs.Token.Endings
import ZDecl.Proofs.Grammar.Stopping
import ZDecl.Proofs.Include.Derivation
import ZDecl.Proofs.Session.Expressions
import ZDecl.Proofs.Grammar.Clauses
import ZDecl.Proofs.Session.Headers
import ZDecl.Proofs.Token.Longest
import ZDecl.Proofs.Include.Spelling
import ZDecl.Proofs.Failure.Caret
import ZDecl.Proofs.Include.Listing

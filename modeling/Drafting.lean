import Drafting.Double
import Drafting.Workbench.Archive
import Drafting.Workbench.Report
import Drafting.Proofs.Accounting
import Drafting.Proofs.Ownership
import Drafting.Proofs.Refusing
import Drafting.Proofs.Scoping
import Drafting.Proofs.Signature
import Drafting.Proofs.Catalogue
import Drafting.Proofs.Exact
import Drafting.Proofs.Freshness
import Drafting.Proofs.Printing
import Drafting.Proofs.Founding
import Drafting.Proofs.Recording
import Drafting.Proofs.Upholding
import Drafting.Proofs.Restoring
import Drafting.Proofs.Gathering
import Drafting.Proofs.Attachment
import Drafting.Proofs.Evaluation
import Drafting.Proofs.Lines
import Drafting.Proofs.Distances
import Drafting.Proofs.Curves
import Drafting.Proofs.Ellipses
import Drafting.Proofs.Satisfying
import Drafting.Proofs.Doubles
import Drafting.Proofs.Scaling
import Drafting.Proofs.Transcribing
import Drafting.Proofs.Composing
import Drafting.Proofs.Assigning
import Drafting.Proofs.Repeating
import Drafting.Proofs.Settling
import Drafting.Proofs.Issuing
import Drafting.Proofs.Reaching
import Drafting.Proofs.Outliving
import Drafting.Proofs.Rereading
import Drafting.Proofs.Remapping
import Drafting.Proofs.Naming
import Drafting.Proofs.Inspecting
import Drafting.Proofs.Confining
import Drafting.Proofs.Mirroring
import Drafting.Proofs.Isometry
import Drafting.Proofs.Copying
import Drafting.Proofs.Halting
import Drafting.Proofs.Likeness
import Drafting.Proofs.Returning
import Drafting.Proofs.Standing
import Drafting.Proofs.Remembering
import Drafting.Proofs.Remeasuring
import Drafting.Proofs.Placing
import Drafting.Proofs.Failing
import Drafting.Proofs.Comparing
import Drafting.Proofs.Tolerating
import Drafting.Proofs.Expecting
import Drafting.Proofs.Claiming
import Drafting.Proofs.Assembling
import Drafting.Proofs.Retrieving
import Drafting.Proofs.Listing
import Drafting.Proofs.Importing
import Drafting.Proofs.Guarding

import Folio.Markup.Workbench
import Folio.Render.Settled
import Folio.Convert
import Folio.Service.Endpoint
import Folio.Log
import Folio.Progress
import Folio.Files.Tree
import Folio.Main
import Folio.Proofs.Verdict
import Folio.Proofs.Conservation
import Folio.Proofs.Tracking
import Folio.Proofs.ContentModel
import Folio.Proofs.Footnotes
import Folio.Proofs.TableLayout
import Folio.Proofs.Joining
import Folio.Proofs.ReadBack
import Folio.Proofs.Slots
import Folio.Proofs.Interchange
import Folio.Proofs.Refusals
import Folio.Proofs.Uploads
import Folio.Proofs.Footprint
import Folio.Proofs.Closing
import Folio.Proofs.Linking
import Folio.Proofs.Pointers
import Folio.Proofs.Staging
import Folio.Proofs.Acceptance
import Folio.Proofs.Sweeping
import Folio.Proofs.Rules
import Folio.Proofs.Cutting
import Folio.Proofs.Repeating
import Folio.Proofs.Fragment
import Folio.Proofs.Description
import Folio.Proofs.PercentCoding
import Folio.Proofs.QuotedName
import Folio.Proofs.Complaints
import Folio.Proofs.SharedRegister
import Folio.Proofs.Indentation
import Folio.Proofs.Ancestors
import Folio.Proofs.Containers
import Folio.Proofs.Counts
import Folio.Proofs.Overwriting

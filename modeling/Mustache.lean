import Mustache.Data.External
import Mustache.Data.Plain
import Mustache.Directory
import Mustache.Proofs.BoundedOutput
import Mustache.Proofs.Complements
import Mustache.Proofs.Entities
import Mustache.Proofs.EqualValues
import Mustache.Proofs.Excerpts
import Mustache.Proofs.Failures
import Mustache.Proofs.HtmlOutput
import Mustache.Proofs.LastingFaults
import Mustache.Proofs.LineComposition
import Mustache.Proofs.LoadedFiles
import Mustache.Proofs.ReadyValues
import Mustache.Proofs.RememberedNames
import Mustache.Proofs.Stepping
import Mustache.Proofs.UnreadEntries
import Mustache.Proofs.Carriers
import Mustache.Proofs.UnlistedItems
import Mustache.Proofs.AscendingMembers
import Mustache.Proofs.ExternalForm
import Mustache.Proofs.LastBindings
import Mustache.Proofs.FaultPlaces
import Mustache.Proofs.PlainValues

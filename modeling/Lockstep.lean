import Lockstep.Flow.Trace
import Lockstep.Main
import Lockstep.Proofs.Correlation.Crossing
import Lockstep.Proofs.Correlation.Meaning
import Lockstep.Proofs.Correlation.Lineage
import Lockstep.Proofs.Correlation.Listing
import Lockstep.Proofs.Correlation.Limit
import Lockstep.Proofs.Correlation.Shortest
import Lockstep.Proofs.Correlation.Traces
import Lockstep.Proofs.Correlation.Depth
import Lockstep.Proofs.Flow.Renaming
import Lockstep.Proofs.Flow.Agreement
import Lockstep.Proofs.Correlation.Renaming
import Lockstep.Proofs.Flow.CallStack
import Lockstep.Proofs.Flow.Realizable
import Lockstep.Proofs.Correlation.SharedCalls
import Lockstep.Proofs.Correlation.Guard
import Lockstep.Proofs.Correlation.SharedContext
import Lockstep.Proofs.Correlation.Alignment
import Lockstep.Proofs.Correlation.Embedding
import Lockstep.Proofs.Correlation.Independence
import Lockstep.Proofs.Correlation.Growth
import Lockstep.Proofs.Correlation.Relisting
import Lockstep.Proofs.Correlation.Mirror
import Lockstep.Proofs.Correlation.Agreement
import Lockstep.Proofs.Correlation.Policies
import Lockstep.Graph.Store
import Lockstep.Proofs.Correlation.Barriers
import Lockstep.Proofs.Graph.Store
import Lockstep.Proofs.Graph.Coherence
import Lockstep.Proofs.Attempt
import Lockstep.Proofs.Graph.Document
import Lockstep.Proofs.Graph.RoundTrip
import Lockstep.Proofs.Catalogue.Reading
import Lockstep.Proofs.Catalogue.Forms
import Lockstep.Proofs.Catalogue.Telling
import Lockstep.Proofs.Template.Layout
import Lockstep.Proofs.Template.Steady
import Lockstep.Proofs.Catalogue.Describing
import Lockstep.Proofs.Catalogue.Meaning
import Lockstep.Proofs.Catalogue.Surplus
import Lockstep.Proofs.Graph.Drawing
import Lockstep.Proofs.Graph.Rendering
import Lockstep.Proofs.Correlation.Processing
import Lockstep.Proofs.Search.Queue
import Lockstep.Proofs.Flow.Termination
import Lockstep.Proofs.Correlation.Termination
import Lockstep.Proofs.Report.Log
import Lockstep.Proofs.Report.Rules
import Lockstep.Proofs.Report.Agreement
import Lockstep.Proofs.Flow.Trace
import Lockstep.Proofs.Correlation.Enumeration
import Lockstep.Proofs.Flow.Nesting
import Lockstep.Proofs.CommandLine.Delivery
import Lockstep.Flow.Store
import Lockstep.Proofs.Flow.Coherence

import HomeHub.Attributes
import HomeHub.Demo
import HomeHub.Main
import HomeHub.Model.Access
import HomeHub.Pipeline
import HomeHub.Proofs.Check
import HomeHub.Proofs.Groups
import HomeHub.Proofs.ServiceGroups
import HomeHub.Session.Action
import HomeHub.Proofs.TypeNames
import HomeHub.Proofs.TypeClash
import HomeHub.Proofs.Visits
import HomeHub.Proofs.Debounce
import HomeHub.Proofs.Feed
import HomeHub.Proofs.Reader
import HomeHub.Proofs.Growth
import HomeHub.Proofs.Subscription
import HomeHub.Proofs.HeldReader
import HomeHub.Proofs.HeldRun
import HomeHub.Proofs.HeldOnBus
import HomeHub.Proofs.Coherence
import HomeHub.Proofs.Identifiers
import HomeHub.Proofs.MemberNames
import HomeHub.Proofs.JsonRecord
import HomeHub.Proofs.JsonText
import HomeHub.Proofs.ModelDump
import HomeHub.Proofs.EntityProperties
import HomeHub.Proofs.NameOrder
import HomeHub.Proofs.CatalogOrder
import HomeHub.Proofs.InputOrder
import HomeHub.Proofs.BulkCall
import HomeHub.Proofs.SourceText
import HomeHub.Proofs.SourceItems
import HomeHub.Proofs.ClosingRuns
import HomeHub.Proofs.FinalErrors
import HomeHub.Proofs.DocumentCatalog
import HomeHub.Proofs.RecordKeys
import HomeHub.Proofs.AttributeFit
import HomeHub.Proofs.SelectorKinds
import HomeHub.Proofs.ServiceDefinitions
import HomeHub.Proofs.FilePlaces
import HomeHub.Proofs.PipelineRuns
import HomeHub.Proofs.Closing
import HomeHub.Proofs.MemberClash
import HomeHub.Proofs.AssembledGroups
import HomeHub.Proofs.HeldTransitions
import HomeHub.Proofs.TransitionChain
import HomeHub.Proofs.WriteTimes
import HomeHub.Proofs.Descriptions
import HomeHub.Proofs.CarriageReturns
import HomeHub.Proofs.EntitySets
import HomeHub.Proofs.ScopeNames
import HomeHub.Proofs.SnakeKeys
import HomeHub.Proofs.SingleCalls
import HomeHub.Proofs.SourceLiterals
import HomeHub.Proofs.ExtensionCalls
import HomeHub.Proofs.LenientRecords
import HomeHub.Proofs.SubscriberCounts
import HomeHub.Proofs.Configuration

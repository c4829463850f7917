import CallerGraph.Cancellation
import CallerGraph.Main
import CallerGraph.Proofs.CallTable
import CallerGraph.Proofs.Chain
import CallerGraph.Proofs.Itinerary
import CallerGraph.Proofs.CallCollection
import CallerGraph.Proofs.Recording
import CallerGraph.Proofs.Traversal
import CallerGraph.Proofs.ExploredGraph
import CallerGraph.Proofs.HierarchyAgreement
import CallerGraph.Proofs.Finishing
import CallerGraph.Proofs.Portrait
import CallerGraph.Proofs.OrderIndependence
import CallerGraph.Proofs.Pruning
import CallerGraph.Graph.Indexed
import CallerGraph.Proofs.Index
import CallerGraph.Proofs.FinishedGraph
import CallerGraph.Proofs.LabelGrammar
import CallerGraph.Proofs.LabelReading
import CallerGraph.Proofs.LabelLayout
import CallerGraph.Proofs.Dialogue
import CallerGraph.Proofs.Endings
import CallerGraph.Proofs.AllOrNothing
import CallerGraph.Proofs.UnnoticedStops
import CallerGraph.Proofs.LookupOrder
import CallerGraph.Proofs.Failures
import CallerGraph.Proofs.CyclePolicies
import CallerGraph.Proofs.Growth
import CallerGraph.Proofs.Unpruned
import CallerGraph.Proofs.Anchoring
import CallerGraph.Proofs.FirstAppearance
import CallerGraph.Proofs.Preorder
import CallerGraph.Proofs.Walk
import CallerGraph.Graph.Tabled
import CallerGraph.Proofs.TablesInStep
import CallerGraph.Proofs.RegistryHistory
import CallerGraph.Proofs.LineLevels
import CallerGraph.Proofs.LinesRead
import CallerGraph.Color.Tabled
import CallerGraph.Proofs.ClassColors
import CallerGraph.Proofs.GraphDocument
import CallerGraph.Proofs.FileWrites
import CallerGraph.Proofs.GraphFiles
import CallerGraph.Proofs.QuietLoading
import CallerGraph.Proofs.Jobs
import CallerGraph.Proofs.RunOutcomes
import CallerGraph.Proofs.AgreeingQueries
import CallerGraph.Proofs.Refinishing
import CallerGraph.Graph.IndexedCalls
import CallerGraph.Proofs.CallHistory
import CallerGraph.Proofs.HeededStops
import CallerGraph.CommandLine.Scan
import CallerGraph.Proofs.SettingsItems
import CallerGraph.Color.Numeral
import CallerGraph.Proofs.ColorDigits
import CallerGraph.Color.Generator
import CallerGraph.Proofs.NumberOrder
import CallerGraph.Proofs.FarthestColor
import CallerGraph.Proofs.ListingOrder
import CallerGraph.Proofs.AnonymousContexts
import CallerGraph.Proofs.CallKeys
import CallerGraph.Exploration.CallStack
import CallerGraph.Proofs.SharedPath
import CallerGraph.Proofs.CallReturns

import IncludeTrace.Main
import IncludeTrace.Proofs.Interleaving
import IncludeTrace.Proofs.WrittenTrace
import IncludeTrace.Proofs.DocumentForest
import IncludeTrace.Proofs.GuardedForest
import IncludeTrace.Proofs.LexicalWalk
import IncludeTrace.Proofs.SegmentKeys
import IncludeTrace.Proofs.NormalForm
import IncludeTrace.Proofs.Reresolving
import IncludeTrace.Proofs.BrowserRows
import IncludeTrace.Proofs.BrowsingPhases
import IncludeTrace.Proofs.DotReading
import IncludeTrace.Proofs.Errands
import IncludeTrace.Proofs.StaleMatches
import IncludeTrace.Proofs.GraphFiles
import IncludeTrace.Proofs.SavedGraphs
import IncludeTrace.Proofs.DgmlReading
import IncludeTrace.Proofs.JoinedStreams
import IncludeTrace.Proofs.AbsoluteForms
import IncludeTrace.Proofs.ShortestNames
import IncludeTrace.Proofs.ConsecutiveTraces
import IncludeTrace.Proofs.UnfoldedGraphs
import IncludeTrace.Proofs.WholeFiles
import IncludeTrace.Proofs.ShownNames
import IncludeTrace.Proofs.InnermostBases
import IncludeTrace.Proofs.GraphOutputs
import IncludeTrace.Proofs.JsonOutputs
import IncludeTrace.Proofs.ShortestRoutes
import IncludeTrace.Proofs.EarliestNames
import IncludeTrace.Proofs.OutlineReading
import IncludeTrace.Proofs.MatchRounds
import IncludeTrace.Proofs.StrayMatches
import IncludeTrace.Proofs.MermaidLabels
import IncludeTrace.Proofs.DirectoryOrder
import IncludeTrace.Proofs.LineEnds
import IncludeTrace.Proofs.PendingTrees
import IncludeTrace.Proofs.AncestorStack

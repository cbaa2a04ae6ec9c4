import BlockCalc.Main
import BlockCalc.Screen.View
import BlockCalc.Proofs.Completion
import BlockCalc.Proofs.Earliest
import BlockCalc.Proofs.ExactValue
import BlockCalc.Proofs.Layout
import BlockCalc.Proofs.Parentheses
import BlockCalc.Proofs.TreeSource
import BlockCalc.Proofs.Unassigned
import BlockCalc.Proofs.DeadStores
import BlockCalc.Proofs.Faults
import BlockCalc.Proofs.Reformatting
import BlockCalc.Proofs.Tiling
import BlockCalc.Proofs.Separation
import BlockCalc.Proofs.Alike
import BlockCalc.Proofs.Conversations
import BlockCalc.Proofs.Detection
import BlockCalc.Proofs.LineEntry
import BlockCalc.Proofs.EntryStates
import BlockCalc.Proofs.ExpressionPrograms
import BlockCalc.Proofs.TreeTokens
import BlockCalc.Proofs.Excerpts
import BlockCalc.Proofs.ExactWarnings
import BlockCalc.Proofs.PrefixForm
import BlockCalc.Proofs.ReadingPlaces
import BlockCalc.Proofs.Replay
import BlockCalc.Proofs.Recall
import BlockCalc.Proofs.WordCompletion
import BlockCalc.Proofs.FormattedFiles
import BlockCalc.Proofs.CommandDepth
import BlockCalc.Proofs.Rounding
import BlockCalc.Proofs.Requests
import BlockCalc.Proofs.Bindings
import BlockCalc.Proofs.SourceLists

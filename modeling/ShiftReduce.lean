import ShiftReduce.DecisionTable.Text
import ShiftReduce.Grammar
import ShiftReduce.Proofs.AdjacencyCheck
import ShiftReduce.Proofs.AdjacencyRelation
import ShiftReduce.Proofs.Bare.Branch
import ShiftReduce.Proofs.Bare.Prediction
import ShiftReduce.Proofs.Bare.Results
import ShiftReduce.Proofs.Bare.Search
import ShiftReduce.Proofs.Bound
import ShiftReduce.Proofs.Branch.Completeness
import ShiftReduce.Proofs.Branch.Configurations
import ShiftReduce.Proofs.Branch.DeadEnds
import ShiftReduce.Proofs.Branch.Failures
import ShiftReduce.Proofs.Branch.Machine
import ShiftReduce.Proofs.Branch.Prediction
import ShiftReduce.Proofs.Branch.Soundness
import ShiftReduce.Proofs.Branch.Termination
import ShiftReduce.Proofs.Branch.Transition
import ShiftReduce.Proofs.Branch.Verified
import ShiftReduce.Proofs.Closing
import ShiftReduce.Proofs.Completeness
import ShiftReduce.Proofs.Deduplication
import ShiftReduce.Proofs.EndedBranches
import ShiftReduce.Proofs.ErrorPositions
import ShiftReduce.Proofs.ExactPrediction
import ShiftReduce.Proofs.Expressions
import ShiftReduce.Proofs.Expressions.Language
import ShiftReduce.Proofs.FailureDiagnostics
import ShiftReduce.Proofs.FirstSymbols
import ShiftReduce.Proofs.ForkAlternatives
import ShiftReduce.Proofs.Grammar.Adjacency
import ShiftReduce.Proofs.Grammar.Items
import ShiftReduce.Proofs.InspectionDepth
import ShiftReduce.Proofs.LinkedLookahead
import ShiftReduce.Proofs.PredictionShortcuts
import ShiftReduce.Proofs.PurePrediction
import ShiftReduce.Proofs.Refinement
import ShiftReduce.Proofs.RefusedMoves
import ShiftReduce.Proofs.Renaming.Branch
import ShiftReduce.Proofs.Renaming.Grammar
import ShiftReduce.Proofs.Renaming.Prediction
import ShiftReduce.Proofs.Renaming.Results
import ShiftReduce.Proofs.Renaming.Search
import ShiftReduce.Proofs.Renaming.Symbols
import ShiftReduce.Proofs.Replay
import ShiftReduce.Proofs.RuleOrder
import ShiftReduce.Proofs.Search.Bound
import ShiftReduce.Proofs.Search.Driver
import ShiftReduce.Proofs.Search.Enumeration
import ShiftReduce.Proofs.Search.EventTree
import ShiftReduce.Proofs.Search.Finite
import ShiftReduce.Proofs.Search.Pruning
import ShiftReduce.Proofs.Search.SingleSuccess
import ShiftReduce.Proofs.Search.Verdict
import ShiftReduce.Proofs.Soundness
import ShiftReduce.Proofs.StackAdjacency
import ShiftReduce.Proofs.StartSymbol
import ShiftReduce.Proofs.SymbolOrder
import ShiftReduce.Proofs.TableIndex
import ShiftReduce.Proofs.Termination
import ShiftReduce.Proofs.TokenConservation
import ShiftReduce.Proofs.TokenKinds
import ShiftReduce.Proofs.Tree.Nodes
import ShiftReduce.Proofs.Tree.Parse
import ShiftReduce.Proofs.TreeWalk
import ShiftReduce.Proofs.UndoLog
import ShiftReduce.Search
import ShiftReduce.Search.Options.Reader
import ShiftReduce.Symbol.Named
import ShiftReduce.Symbol.Ranked
import ShiftReduce.Token.Text

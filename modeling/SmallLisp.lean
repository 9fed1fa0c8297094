import SmallLisp.Main
import SmallLisp.Scope.Description
import SmallLisp.Proofs.Bounds
import SmallLisp.Proofs.Bounds.Reading
import SmallLisp.Proofs.Bounds.Store
import SmallLisp.Proofs.Lockstep
import SmallLisp.Proofs.Lockstep.Evaluation
import SmallLisp.Proofs.Lockstep.Loading
import SmallLisp.Proofs.Lockstep.Operations
import SmallLisp.Proofs.Lockstep.Control
import SmallLisp.Proofs.Lockstep.Interpreter
import SmallLisp.Proofs.Lockstep.Invariant
import SmallLisp.Proofs.ImportState
import SmallLisp.Proofs.FrameEffects
import SmallLisp.Proofs.NonInterference
import SmallLisp.Proofs.SettledValues
import SmallLisp.Proofs.Reading.RoundTrip
import SmallLisp.Proofs.Reading.Literals
import SmallLisp.Proofs.Reading.Pieces
import SmallLisp.Proofs.ImportCycles
import SmallLisp.Proofs.Inlining
import SmallLisp.Proofs.InteractiveLoop
import SmallLisp.Proofs.Counters
import SmallLisp.Proofs.ExactArithmetic
import SmallLisp.Proofs.BindingEffects
import SmallLisp.Proofs.ValueOperations
import SmallLisp.Proofs.CallingWithValues
import SmallLisp.Proofs.FoldedLists
import SmallLisp.Proofs.SelfEvaluation
import SmallLisp.Proofs.NamedFunctions
import SmallLisp.Proofs.ValueOrder
import SmallLisp.Proofs.ImportPlaces
import SmallLisp.Proofs.CutTexts
import SmallLisp.Proofs.VisibleNames
import SmallLisp.Proofs.ForestRuns

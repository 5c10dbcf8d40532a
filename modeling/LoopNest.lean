import LoopNest.Number.Shortest
import LoopNest.Scalar.Kind
import LoopNest.GroupedIndex
import LoopNest.Text.Basic
import LoopNest.Text.Width
import LoopNest.Storage.Layout
import LoopNest.Bound.Basic
import LoopNest.Bound.Eval
import LoopNest.Diagnostic.Basic
import LoopNest.Domain.Basic
import LoopNest.Dispatch.Plan
import LoopNest.Loop.Basic
import LoopNest.Loop.Unroll
import LoopNest.Settings.FileTree
import LoopNest.Diagnostic.Drawing
import LoopNest.Record.Codec
import LoopNest.Session
import LoopNest.Proofs.Dispatch.Bijection
import LoopNest.Proofs.Dispatch.Strides
import LoopNest.Proofs.Dispatch.Partition
import LoopNest.Proofs.Loop.Enumeration
import LoopNest.Proofs.Loop.Agreement
import LoopNest.Proofs.Loop.Exhaustion
import LoopNest.Proofs.Storage.Addressing
import LoopNest.Proofs.Storage.LastStores
import LoopNest.Proofs.Storage.Positions
import LoopNest.Proofs.Storage.Clearing
import LoopNest.Proofs.Storage.Rules
import LoopNest.Proofs.Storage.Allocation
import LoopNest.Proofs.Storage.FloatViews
import LoopNest.Proofs.Launch.DisjointWrites
import LoopNest.Proofs.Bound.Exactness
import LoopNest.Proofs.Bound.Acceptance
import LoopNest.Proofs.Dispatch.CellOrder
import LoopNest.Proofs.Domain.Grammar
import LoopNest.Proofs.Domain.StaticBounds
import LoopNest.Proofs.Text.Slices
import LoopNest.Proofs.Domain.Computed
import LoopNest.Proofs.Domain.Written
import LoopNest.Proofs.Domain.Anchors
import LoopNest.Proofs.Record.Padding
import LoopNest.Proofs.Loop.Variables
import LoopNest.Proofs.Launch.Visits
import LoopNest.Proofs.Loop.Refusals
import LoopNest.Proofs.Loop.Nesting
import LoopNest.Proofs.Settings.Nearest
import LoopNest.Proofs.Settings.ReadBack
import LoopNest.Proofs.Settings.Comments
import LoopNest.Proofs.Diagnostic.Excerpt
import LoopNest.Proofs.Diagnostic.Colours
import LoopNest.Proofs.Diagnostic.Parts
import LoopNest.Proofs.Diagnostic.Pointing

import NGraphBridge.MarkForClustering.History
import NGraphBridge.GraphCycles.Correct
import NGraphBridge.Deadness.Populate
import NGraphBridge.AssignClusters.Pass
import NGraphBridge.AssignClusters.Invariant
import NGraphBridge.AssignClusters.Phases
import NGraphBridge.AssignClusters.Tagging
import NGraphBridge.AssignClusters.Convexity
import NGraphBridge.Deadness.Liveness
import NGraphBridge.AssignClusters.Liveness
import NGraphBridge.TF.GraphEdit
import NGraphBridge.EncapsulateClusters.Pass
import NGraphBridge.EncapsulateClusters.Analysis
import NGraphBridge.EncapsulateClusters.Rewrite
import NGraphBridge.EncapsulateClusters.Copies
import NGraphBridge.EncapsulateClusters.Values
import NGraphBridge.DeassignClusters
import NGraphBridge.NGraphRewritePass.Pass
import NGraphBridge.NGraphRewritePass.Process
import NGraphBridge.NGraphRewritePass.StaticInputs
import NGraphBridge.Lib.StraightLine
import NGraphBridge.NGraph.Function
import NGraphBridge.Executable.Executable
import NGraphBridge.Executable.Rebuild
import NGraphBridge.Executable.Trivial
import NGraphBridge.Executable.Blobs
import NGraphBridge.Lib.Recency
import NGraphBridge.NGraphEncapsulateOp.Cache
import NGraphBridge.TF.TensorStream
import NGraphBridge.NGraphEncapsulateOp.Signature
import NGraphBridge.EncapsulateClusters.Quotient
import NGraphBridge.Deadness.Errors
import NGraphBridge.AssignClusters.Errors
import NGraphBridge.AssignClusters.Contractions
import NGraphBridge.EncapsulateClusters.Devices
import NGraphBridge.NGraphRewritePass.Devices
import NGraphBridge.NgraphOptimizer.Pass
import NGraphBridge.NgraphOptimizer.Fetches
import NGraphBridge.Lib.Axes
import NGraphBridge.Lib.Tensor
import NGraphBridge.Lib.TensorOps
import NGraphBridge.Lib.RowMajor
import NGraphBridge.TransposeSinking.Evaluation
import NGraphBridge.Lib.Crossing
import NGraphBridge.TransposeSinking.Binary
import NGraphBridge.TransposeSinking.LowerRank
import NGraphBridge.TransposeSinking.Pad
import NGraphBridge.TransposeSinking.Steps
import NGraphBridge.TransposeSinking.Rules
import NGraphBridge.TransposeSinking.Sinks
import NGraphBridge.TransposeSinking.Concat
import NGraphBridge.TransposeSinking.Invariant
import NGraphBridge.TransposeSinking.Entries
import NGraphBridge.Lib.Slicing
import NGraphBridge.Lib.Windows
import NGraphBridge.NGraphBuilder.Opset
import NGraphBridge.TransposeSinking.ConcatValue
import NGraphBridge.TransposeSinking.Purge
import NGraphBridge.NGraphBuilder.Builder
import NGraphBridge.NGraphBuilder.Slice
import NGraphBridge.NGraphBuilder.SplitV
import NGraphBridge.NGraphBuilder.Unpack
import NGraphBridge.Lib.Bytes
import NGraphBridge.NGraphBuilder.Const
import NGraphBridge.Lib.Stretching
import NGraphBridge.NGraphBuilder.Select
import NGraphBridge.NGraphBuilder.Conversions
import NGraphBridge.NGraphBuilder.MaxPool
import NGraphBridge.NGraphBuilder.Conv2D
import NGraphBridge.NGraphBuilder.FusedConv2D
import NGraphBridge.NGraphBuilder.Layouts
import NGraphBridge.TransposeSinking.Values
import NGraphBridge.TransposeSinking.Soundness
import NGraphBridge.Lib.Postorder
import NGraphBridge.TransposeSinking.Run
import NGraphBridge.NGraphEncapsulateOp.Failures
import NGraphBridge.AssignClusters.Coupling
import NGraphBridge.AssignClusters.Fixpoint
import NGraphBridge.Deadness.Strings
import NGraphBridge.AssignClusters.Logging
import NGraphBridge.EncapsulateClusters.Failure
import NGraphBridge.EncapsulateClusters.Names
import NGraphBridge.Lib.Correlation
import NGraphBridge.NGraphBuilder.ConvAxes
import NGraphBridge.NGraphBuilder.Conv2DValue
import NGraphBridge.Lib.InnerProduct
import NGraphBridge.NGraphBuilder.Conv2DBackprop
import NGraphBridge.NGraphBuilder.DepthwiseConv2D
import NGraphBridge.NGraphBuilder.Gather
import NGraphBridge.AssignClusters.Coherence
import NGraphBridge.AssignClusters.Outgoing
import NGraphBridge.NGraph.Inference
import NGraphBridge.Executable.Hoisting
import NGraphBridge.NGraphRewritePass.Bridged
import NGraphBridge.NGraphRewritePass.Values
import NGraphBridge.NgraphOptimizer.WellFormed
import NGraphBridge.NgraphOptimizer.Values
import NGraphBridge.Lib.Slots
import NGraphBridge.NGraphBuilder.TranslateGraph
import NGraphBridge.NGraphBuilder.GraphValues
import NGraphBridge.NGraphBuilder.OpTable
import NGraphBridge.NGraphRewritePass.Presented
import NGraphBridge.NGraphRewritePass.Translated
import NGraphBridge.NGraphEncapsulateOp.Compute
import NGraphBridge.NGraphEncapsulateOp.Constructor
import NGraphBridge.NGraphRewritePass.Kernels
import NGraphBridge.NGraphBuilder.TranslatedGraph

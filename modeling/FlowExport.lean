import FlowExport.Main
import FlowExport.Proofs.Node.Gateway
import FlowExport.Proofs.Node.Standard
import FlowExport.Proofs.Node.Aggregator
import FlowExport.Proofs.Node.Childless
import FlowExport.Proofs.Node.FullTable
import FlowExport.Proofs.Flow.FirstCome
import FlowExport.Proofs.Mesh.Conservation
import FlowExport.Proofs.Wire.DataMerging
import FlowExport.Proofs.Wire.RoundTrip
import FlowExport.Proofs.Wire.TemplateMerging
import FlowExport.Proofs.Wire.ExpandedReading
import FlowExport.Proofs.Wire.Grammar
import FlowExport.Proofs.Wire.FullGrammar
import FlowExport.Proofs.Wire.ArrivalOrder
import FlowExport.Proofs.Wire.Hierarchy
import FlowExport.Proofs.Wire.TwoEncodings
import FlowExport.Proofs.Wire.FailedSets
import FlowExport.Proofs.Wire.Sizing
import FlowExport.Proofs.Wire.BufferRun
import FlowExport.Proofs.Wire.Unsigned
import FlowExport.Proofs.Wire.DataBody
import FlowExport.Proofs.Checked.Node

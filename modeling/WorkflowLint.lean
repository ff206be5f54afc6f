import WorkflowLint.Check
import WorkflowLint.Main
import WorkflowLint.Options.Decode
import WorkflowLint.Proofs.CodeDiscipline
import WorkflowLint.Proofs.CommandVerdicts
import WorkflowLint.Proofs.FormatAgreement
import WorkflowLint.Proofs.Graph.OrderFreedom
import WorkflowLint.Proofs.Graph.TopologyWarnings
import WorkflowLint.Proofs.Ids.Collisions
import WorkflowLint.Proofs.Ids.LeastIds
import WorkflowLint.Proofs.Json.UniqueText
import WorkflowLint.Proofs.OrderedTrees
import WorkflowLint.Proofs.ReportLines
import WorkflowLint.Proofs.ReportReading
import WorkflowLint.Proofs.Structure.AdmittedLanguages
import WorkflowLint.Proofs.Structure.DiscoveryOrder
import WorkflowLint.Proofs.Structure.GraphAgreement
import WorkflowLint.Proofs.Structure.GraphLints
import WorkflowLint.Proofs.Structure.Growth
import WorkflowLint.Proofs.Structure.MissingStart
import WorkflowLint.Proofs.Structure.NodeAccounting
import WorkflowLint.Proofs.Structure.Renaming
import WorkflowLint.Proofs.Structure.Reordering
import WorkflowLint.Proofs.Structure.RepeatedIds
import WorkflowLint.Proofs.Structure.SameReadings
import WorkflowLint.Proofs.Structure.ShapeTolerance
import WorkflowLint.Proofs.Structure.UnreadEntries
import WorkflowLint.Proofs.Structure.WellFormedness
import WorkflowLint.Proofs.Yaml.ChainedMerges

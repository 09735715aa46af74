import ProjectOrder.Main
import ProjectOrder.Files.Disk
import ProjectOrder.Files.Tree
import ProjectOrder.Proofs.Arrangement.Tree
import ProjectOrder.Proofs.Arrangement.Repeated
import ProjectOrder.Proofs.Collation.KeyOrder
import ProjectOrder.Proofs.Document.Canonical
import ProjectOrder.Proofs.Files.Disk
import ProjectOrder.Proofs.Project.FileRun
import ProjectOrder.Proofs.Project.Overlap
import ProjectOrder.Proofs.Settings.Disjoint
import ProjectOrder.Proofs.Project.Pairs
import ProjectOrder.Proofs.Command.Convergence
import ProjectOrder.Proofs.Project.Isolation
import ProjectOrder.Proofs.Files.Script
import ProjectOrder.Proofs.Project.Foresight
import ProjectOrder.Proofs.Project.Trees
import ProjectOrder.Proofs.Arrangement.Rearranged
import ProjectOrder.Proofs.Document.Lineage
import ProjectOrder.Proofs.Markup.References
import ProjectOrder.Proofs.Document.FlatEntries
import ProjectOrder.Proofs.Document.NestedEntries
import ProjectOrder.Proofs.Document.TopLevel
import ProjectOrder.Proofs.Markup.Legibility
import ProjectOrder.Proofs.Document.Described
import ProjectOrder.Proofs.Document.Rereading
import ProjectOrder.Proofs.Encoding.Tables
import ProjectOrder.Proofs.Encoding.Fidelity
import ProjectOrder.Proofs.Document.Meaning
import ProjectOrder.Proofs.Command.Ending
import ProjectOrder.Proofs.Document.Writable
import ProjectOrder.Proofs.Arrangement.Moves
import ProjectOrder.Proofs.Arrangement.Subfolders
import ProjectOrder.Proofs.Arrangement.TieBreak
import ProjectOrder.Proofs.Markup.JoinedReferences
import ProjectOrder.Proofs.Document.FolderText
import ProjectOrder.Proofs.Document.ShuffledText
import ProjectOrder.Proofs.Project.Search
import ProjectOrder.Proofs.Project.Companion
import ProjectOrder.Proofs.Settings.Layers
import ProjectOrder.Proofs.Settings.Shown
import ProjectOrder.Proofs.Project.Verification
import ProjectOrder.Proofs.Document.Flattening
import ProjectOrder.Proofs.Collation.Spellings

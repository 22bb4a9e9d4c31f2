import ValueForm.Bytes
import ValueForm.Reader
import ValueForm.Descriptor
import ValueForm.Descriptor.Flattened
import ValueForm.ClassFile.Constant
import ValueForm.ClassFile.Pool
import ValueForm.ClassFile.Attribute
import ValueForm.ClassFile.DebugTable
import ValueForm.ClassFile.Annotations
import ValueForm.ClassFile.Basic
import ValueForm.ClassFile.Marker
import ValueForm.Instruction.Basic
import ValueForm.Instruction.Opcode
import ValueForm.Instruction.Codec
import ValueForm.Instruction.Branch
import ValueForm.Instruction.Listing
import ValueForm.Analysis.Site
import ValueForm.Analysis.Value
import ValueForm.Analysis.Registry
import ValueForm.Analysis.Frame
import ValueForm.Note
import ValueForm.Oracle
import ValueForm.Inquiry
import ValueForm.Analysis.Error
import ValueForm.Analysis.Shuffle
import ValueForm.Analysis.Transfer
import ValueForm.Analysis.Body
import ValueForm.Analysis.Flow
import ValueForm.StackMap.Frame
import ValueForm.StackMap.Snapshot
import ValueForm.Flattening.Workbench
import ValueForm.Flattening.Emission
import ValueForm.Flattening.Layout
import ValueForm.Flattening.FrameMap
import ValueForm.Flattening.Body
import ValueForm.Conversion.Error
import ValueForm.Conversion.Descriptors
import ValueForm.Conversion.Class
import ValueForm.Zip.Checksum
import ValueForm.Zip.BitStream
import ValueForm.Zip.Huffman
import ValueForm.Zip.Inflate
import ValueForm.Zip.EntryName
import ValueForm.Archive.Basic
import ValueForm.Zip.Error
import ValueForm.Zip.Record
import ValueForm.Zip.ExtraField
import ValueForm.Zip.Directory
import ValueForm.Zip.Unpack
import ValueForm.Zip.Pack
import ValueForm.Archive.Conversion
import ValueForm.Archive.OutputPath
import ValueForm.Archive.File
import ValueForm.CommandLine.Arguments
import ValueForm.CommandLine.Report
import ValueForm.Main
import ValueForm.Proofs.Analysis.SiteSet
import ValueForm.Proofs.Inquiry
import ValueForm.Proofs.Oracle
import ValueForm.Proofs.Analysis.Absorption
import ValueForm.Proofs.Analysis.Decisions
import ValueForm.Proofs.Analysis.Evaluation
import ValueForm.Proofs.Analysis.Rules
import ValueForm.Proofs.Analysis.Inversion
import ValueForm.Proofs.Analysis.Progress
import ValueForm.Proofs.Analysis.Worklist
import ValueForm.Proofs.Analysis.FixedPoint
import ValueForm.Proofs.Flattening.Forms
import ValueForm.Proofs.Flattening.Execution
import ValueForm.Proofs.Flattening.Representation
import ValueForm.Proofs.Flattening.Soundness
import ValueForm.Proofs.Instruction.Encoding
import ValueForm.Proofs.Instruction.Code
import ValueForm.Proofs.ClassFile.Pool
import ValueForm.Proofs.ClassFile.Interning
import ValueForm.Proofs.Flattening.Workbench
import ValueForm.Proofs.Flattening.Emission
import ValueForm.Proofs.Flattening.Layout
import ValueForm.Proofs.Instruction.Branch
import ValueForm.Proofs.Flattening.Counterparts
import ValueForm.Proofs.Flattening.Relocation
import ValueForm.Proofs.Flattening.Tables
import ValueForm.Proofs.Flattening.Assembly
import ValueForm.Proofs.Flattening.ControlFlow
import ValueForm.Proofs.Flattening.Erasure
import ValueForm.Proofs.Analysis.Construction
import ValueForm.Proofs.Analysis.Schedule
import ValueForm.Proofs.Conversion.Identity
import ValueForm.Proofs.Conversion.Output
import ValueForm.Proofs.Instruction.Padding
import ValueForm.Proofs.ClassFile.Edits
import ValueForm.Proofs.StackMap.Frame
import ValueForm.Proofs.StackMap.Snapshot
import ValueForm.Proofs.Flattening.FrameMap
import ValueForm.Proofs.Flattening.StackMap
import ValueForm.Proofs.Conversion.Coverage
import ValueForm.Proofs.Conversion.Preservation
import ValueForm.Proofs.Conversion.Constructors
import ValueForm.Proofs.Archive.Conversion
import ValueForm.Proofs.ClassFile.Marker
import ValueForm.Proofs.Analysis.Independence
import ValueForm.Proofs.Analysis.FlatArrays
import ValueForm.Proofs.Analysis.Everywhere
import ValueForm.Proofs.Analysis.Merging
import ValueForm.Proofs.Analysis.Settling
import ValueForm.Proofs.Analysis.Termination
import ValueForm.Proofs.Flattening.CodeTables
import ValueForm.Proofs.Descriptor.Grammar
import ValueForm.Proofs.Descriptor.Flattened
import ValueForm.Proofs.ClassFile.Annotations
import ValueForm.Proofs.ClassFile.AttributeBodies
import ValueForm.Proofs.Flattening.Convergence
import ValueForm.Proofs.Flattening.Growth
import ValueForm.Proofs.Analysis.Pairing
import ValueForm.Proofs.Analysis.Words
import ValueForm.Proofs.StackMap.Shortest
import ValueForm.Proofs.Flattening.LocalTypes

import SigScan.Main
import SigScan.Selection
import SigScan.Proofs.Elf.Encoding
import SigScan.Proofs.Elf.SectionImage
import SigScan.Proofs.Elf.SegmentImage
import SigScan.Proofs.Elf.NarrowFile
import SigScan.Proofs.Escape
import SigScan.Proofs.Text.Hexadecimal
import SigScan.Proofs.Transcript
import SigScan.Proofs.Signature.Matches
import SigScan.Proofs.Signature.WellFormed
import SigScan.Proofs.Signature.Safety
import SigScan.Proofs.Signature.Locality
import SigScan.Proofs.Signature.Idiom
import SigScan.Proofs.Registry.ScanOrder
import SigScan.Proofs.Projection
import SigScan.Proofs.Registry.History
import SigScan.Proofs.Provenance
import SigScan.Proofs.Pe.Encoding
import SigScan.Proofs.Pe.PlannedImage
import SigScan.Proofs.Registry.Relocation
import SigScan.Proofs.Elf.Truncation
import SigScan.Proofs.Document
import SigScan.Proofs.CommandLine.TextReport
import SigScan.Proofs.CommandLine.Arguments
import SigScan.Proofs.CommandLine.Display
import SigScan.Proofs.CommandLine.OutputModes
import SigScan.Proofs.Pattern.Exactness
import SigScan.Proofs.Pattern.Spelling
import SigScan.Proofs.Signature.LoopWindow
import SigScan.Proofs.Signature.Displacement
import SigScan.Proofs.Signature.Halves
import SigScan.Proofs.MatchLine
import SigScan.Proofs.FoundAddresses
import SigScan.Proofs.Elf.CodeChoice
import SigScan.Proofs.Pe.Names
import SigScan.Proofs.Text.Respelling

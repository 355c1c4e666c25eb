import CheatCode.Main
import CheatCode.Workbench
import CheatCode.Proofs.Listing.BranchTargets
import CheatCode.Proofs.Packet.Contents
import CheatCode.Proofs.Source.Idempotence
import CheatCode.Proofs.Packet.Alike
import CheatCode.Proofs.Packet.Reframing
import CheatCode.Proofs.Packet.Recognition
import CheatCode.Proofs.Packet.WellFormed
import CheatCode.Proofs.Listing.Merging
import CheatCode.Proofs.Listing.Columns
import CheatCode.Proofs.Source.Naming
import CheatCode.Proofs.Listing.Reassembly
import CheatCode.Proofs.Source.Preparing
import CheatCode.Proofs.Source.Diagnosing
import CheatCode.Proofs.Packet.Refusal
import CheatCode.Proofs.Packet.FrameLines
import CheatCode.Proofs.Packet.KeepReturn
import CheatCode.Proofs.Command.Spelling
import CheatCode.Proofs.Packet.Parameters
import CheatCode.Proofs.Command.Pipeline
import CheatCode.Proofs.Packet.Acceptance
import CheatCode.Proofs.Packet.Presentation
import CheatCode.Proofs.Packet.Bytes
import CheatCode.Proofs.Packet.SingleWrites
import CheatCode.Proofs.Listing.Immediates
import CheatCode.Proofs.Listing.Grammar
import CheatCode.Proofs.Source.Offsets
import CheatCode.Proofs.Source.Keeping
import CheatCode.Proofs.Listing.OperandFields
import CheatCode.Proofs.Listing.AbsoluteBranches
import CheatCode.Proofs.Source.Balance
import CheatCode.Proofs.Source.Dividing
import CheatCode.Proofs.Source.Spacing
import CheatCode.Proofs.Packet.Serialization
import CheatCode.Proofs.Listing.WordArithmetic
import CheatCode.Proofs.Command.Atomicity
import CheatCode.Proofs.Command.Given

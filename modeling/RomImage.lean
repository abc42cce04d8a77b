import RomImage.CommandLine.Terminal
import RomImage.Container.Contents
import RomImage.Main
import RomImage.Proofs.Stream.Conduct
import RomImage.Stream.Scripted
import RomImage.Proofs.Stream.Transfer
import RomImage.Proofs.Stream.Position
import RomImage.Proofs.Stream.Staging
import RomImage.Proofs.Container
import RomImage.Proofs.Container.Draft
import RomImage.Proofs.Container.Resized
import RomImage.Proofs.Rule.Matched
import RomImage.Proofs.Rule.Layout
import RomImage.Proofs.Rule.Apply
import RomImage.Proofs.Stream.Calls
import RomImage.Proofs.Disk.Frame
import RomImage.Proofs.Disk.Run
import RomImage.Proofs.Build
import RomImage.Proofs.Rule.Place
import RomImage.Proofs.Rule.Staged
import RomImage.Proofs.Build.Output
import RomImage.Proofs.Build.Overwrite
import RomImage.Proofs.Build.Handles
import RomImage.Proofs.Build.Reported
import RomImage.Proofs.Rule.Failed
import RomImage.Proofs.Rule.Faults
import RomImage.Proofs.Rule.Oblivious
import RomImage.Proofs.Rule.Limited
import RomImage.Proofs.CommandLine.Arguments
import RomImage.Proofs.CommandLine.Status
import RomImage.Proofs.CommandLine.Escapes
import RomImage.Proofs.Stream.Copied
import RomImage.Proofs.Stream.Filled
import RomImage.Proofs.Stream.Handed
import RomImage.Proofs.Rule.Reading
import RomImage.Proofs.Rule.Gate
import RomImage.Proofs.Rule.Sound
import RomImage.Proofs.Rule.Recover
import RomImage.Proofs.Rule.Produced
import RomImage.Proofs.Build.Unopened
import RomImage.Proofs.CommandLine.Unopened
import RomImage.Proofs.Stream.Measured
import RomImage.Proofs.CommandLine.Forms
import RomImage.Proofs.CommandLine.Reportable
import RomImage.Proofs.Report.Decoded
import RomImage.Proofs.Stream.Chunks
import RomImage.Proofs.Rule.Budget
import RomImage.Proofs.CommandLine.Switched

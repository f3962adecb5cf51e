import ResourceBuild.Config.Save
import ResourceBuild.Host.Machine
import ResourceBuild.Main
import ResourceBuild.Proofs.Build.Preview
import ResourceBuild.Proofs.Config.Missing
import ResourceBuild.Proofs.Config.Parts
import ResourceBuild.Proofs.Config.Reload
import ResourceBuild.Proofs.Manifest.Disabled
import ResourceBuild.Proofs.Manifest.Literal
import ResourceBuild.Proofs.Manifest.Unambiguous
import ResourceBuild.Proofs.Release.Announcement
import ResourceBuild.Proofs.Release.Monitor
import ResourceBuild.Proofs.Metadata.Lookup
import ResourceBuild.Proofs.Decode.Row
import ResourceBuild.Proofs.Manifest.Row
import ResourceBuild.Proofs.Manifest.Rewriting
import ResourceBuild.Proofs.Manifest.Sound
import ResourceBuild.Proofs.Build.Check
import ResourceBuild.Proofs.Config.Stamp
import ResourceBuild.Proofs.Release.Spelling
import ResourceBuild.Proofs.Time.Zone
import ResourceBuild.Proofs.Config.Version
import ResourceBuild.Proofs.Bundle.Flags
import ResourceBuild.Proofs.CommandLine.ReleaseCheck

import SdkBindings.Main
import SdkBindings.Proofs.Milestones
import SdkBindings.Proofs.ExitStatus
import SdkBindings.Proofs.Extension
import SdkBindings.Proofs.Spelling
import SdkBindings.Proofs.CanonicalWalk
import SdkBindings.Proofs.StrictWalk
import SdkBindings.Proofs.ProducedFiles
import SdkBindings.Proofs.NulFree
import SdkBindings.Proofs.StartFailure
import SdkBindings.Proofs.LenientWalk
import SdkBindings.Proofs.Escapes
import SdkBindings.Proofs.Effects
import SdkBindings.Proofs.Harmless
import SdkBindings.Proofs.PreviewedRun
import SdkBindings.Proofs.Lookups
import SdkBindings.Proofs.MadeDirectories
import SdkBindings.Proofs.Confinement
import SdkBindings.Proofs.SteadyWalk
import SdkBindings.Proofs.Rewriting
import SdkBindings.Proofs.SecondStart
import SdkBindings.Proofs.Success
import SdkBindings.Proofs.Rerun
import SdkBindings.Proofs.Readiness
import SdkBindings.Proofs.Utf8Sequence
import SdkBindings.Proofs.Symbols
import SdkBindings.Proofs.StrayBytes
import SdkBindings.Proofs.Transcript
import SdkBindings.Proofs.NaiveWalk
import SdkBindings.Proofs.IncludeDirectory
import SdkBindings.Proofs.FurnishedWalk
import SdkBindings.Proofs.Retry
import SdkBindings.Proofs.ArgumentKinds
import SdkBindings.Proofs.Occurrences
import SdkBindings.Proofs.Refusals
import SdkBindings.Proofs.RefusedChecks
import SdkBindings.Proofs.WalkBound
import SdkBindings.Proofs.ComponentWalk
import SdkBindings.Proofs.ForgetfulWalk
import SdkBindings.Proofs.HeaderSearch
import SdkBindings.Proofs.ShellReading
import SdkBindings.Proofs.PrintedCommand
import SdkBindings.Proofs.NormalLookup
import SdkBindings.Proofs.LiteralDirectory
import SdkBindings.Proofs.ReadBack
import SdkBindings.Proofs.PrintedFields
import SdkBindings.Proofs.GeneratorCall
import SdkBindings.Proofs.WhiteSpace
import SdkBindings.Proofs.ValidConfiguration
import SdkBindings.Proofs.OutputDirectory
import SdkBindings.Proofs.NormalText
import SdkBindings.Proofs.GroupedDigits
import SdkBindings.Proofs.SummaryRows
import SdkBindings.Proofs.QuotedName
import SdkBindings.Proofs.FaultReport

import DdsRtps.Analysis.Breakdown
import DdsRtps.Analysis.Categories
import DdsRtps.Analysis.Explanation
import DdsRtps.Analysis.FileRegistry
import DdsRtps.Analysis.GroupTotals
import DdsRtps.Analysis.Labels
import DdsRtps.Analysis.ReportRead
import DdsRtps.Benchmarking.NamesRoundTrip
import DdsRtps.Benchmarking.ParallelPass
import DdsRtps.Discovery.History
import DdsRtps.Discovery.Malformed
import DdsRtps.Discovery.PacketOrder
import DdsRtps.Discovery.ParameterLists
import DdsRtps.Discovery.StoreInvariant
import DdsRtps.Drive.LatestFiles
import DdsRtps.Harness.CheckSafety
import DdsRtps.Harness.CoherentEvidence
import DdsRtps.Harness.CoherentOutput
import DdsRtps.Harness.EarlyDeath
import DdsRtps.Harness.FinalStates
import DdsRtps.Harness.LossVerdicts
import DdsRtps.Harness.OrderedAccess
import DdsRtps.Harness.ProductNames
import DdsRtps.Harness.ReceiverChanges
import DdsRtps.Harness.SampleVerdicts
import DdsRtps.Harness.WrittenLines
import DdsRtps.Hdds.Agreement
import DdsRtps.Hdds.Cdr2Safety
import DdsRtps.Hdds.DefaultPartition
import DdsRtps.Hdds.LegalOptions
import DdsRtps.Hdds.MatchOrder
import DdsRtps.Hdds.NoMatchLost
import DdsRtps.Hdds.Rng
import DdsRtps.ShapeMain.CoherentCalls
import DdsRtps.ShapeMain.ColorFilter
import DdsRtps.ShapeMain.Drain
import DdsRtps.ShapeMain.Durations
import DdsRtps.ShapeMain.FinalCalls
import DdsRtps.ShapeMain.GrowingSizes
import DdsRtps.ShapeMain.RustDds
import DdsRtps.ShapeMain.ZigReads
import DdsRtps.Xlsx.ClassAttributes
import DdsRtps.Xlsx.HeaderSpans
import DdsRtps.Xlsx.SharedCells
import DdsRtps.Xlsx.Summary
import DdsRtps.Harness.DeadlineVerdicts
import DdsRtps.Harness.PayloadVerdicts

import DetSim.ToMathlib.TreeMapSum
import DetSim.ToMathlib.TreeMapIndex
import DetSim.ToMathlib.RootedDistance
import DetSim.Model.Frontier
import DetSim.Model.Scheduler
import DetSim.Soundness.ShadowState
import DetSim.Soundness.Verdict
import DetSim.Soundness.SchedulerSessions
import DetSim.Soundness.FrontierIndexes
import DetSim.Soundness.FrontierRelaxation
import DetSim.Soundness.FrontierCoherence
import DetSim.Soundness.FrontierRuns
import DetSim.Soundness.FrontierExploration
import DetSim.Soundness.FrontierLayers
import DetSim.Soundness.EdgeAdmission
import DetSim.Soundness.WorkerReplies
import DetSim.Soundness.ParallelSearch
import DetSim.Soundness.ChannelFraming
import DetSim.Soundness.SnapshotReads
import DetSim.Soundness.FutexCoherence
import DetSim.Soundness.UnfinishedCalls
import DetSim.Soundness.Deadlines
import DetSim.Soundness.History
import DetSim.Soundness.BatchReplay
import DetSim.Soundness.ObjectCache
import DetSim.Soundness.LimitAgreement
import DetSim.Soundness.Routing
import DetSim.Soundness.Datagrams
import DetSim.Soundness.Segments
import DetSim.Soundness.DirectoryScans
import DetSim.Soundness.PathWalks
import DetSim.Soundness.PipeStreams
import DetSim.Soundness.ChoiceEnumeration
import DetSim.Soundness.PointerIdentities
import DetSim.Soundness.ChoicePresets
import DetSim.Soundness.SelectSets
import DetSim.Soundness.ObservationMemo
import DetSim.Soundness.ResidentPages

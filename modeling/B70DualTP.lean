import B70DualTP.Communicator.Refinement
import B70DualTP.Coordinator.HostOnly
import B70DualTP.Coordinator.Replica
import B70DualTP.Coordinator.PointToPoint
import B70DualTP.Coordinator.Tracing
import B70DualTP.Coordinator.SwitchConsistency
import B70DualTP.Coordinator.GlooOnly
import B70DualTP.Coordinator.Broadcast
import B70DualTP.Communicator.OutOfPlace
import B70DualTP.Coordinator.Pipeline
import B70DualTP.Coordinator.NodeCount
import B70DualTP.Communicator.Source
import B70DualTP.Communicator.Gatherv
import B70DualTP.Communicator.Scatterv
import B70DualTP.Communicator.ScatterAxis
import B70DualTP.Coordinator.Teardown
import B70DualTP.Coordinator.ParallelSizes
import B70DualTP.Coordinator.PatchedGroup
import B70DualTP.Coordinator.UniqueNames
import B70DualTP.Repro.Overlap
import B70DualTP.Repro.Checksum
import B70DualTP.Repro.Bandwidth
import B70DualTP.Coordinator.JobCollectives
import B70DualTP.Communicator.ScatterGather
import B70DualTP.Coordinator.Relay
import B70DualTP.Communicator.Cache
import B70DualTP.Coordinator.Neighbours
import B70DualTP.Coordinator.FirstRank
import B70DualTP.Repro.Probe
import B70DualTP.Coordinator.ExpertBuffers
import B70DualTP.Repro.Benchmark

import CuTracer.Amdgcn.Packed
import CuTracer.Amdgcn.Replay
import CuTracer.Amdgcn.Slice
import CuTracer.Capture.Compressed
import CuTracer.Capture.Deadlock
import CuTracer.Capture.Histogram
import CuTracer.Capture.Loops
import CuTracer.Capture.Receiver
import CuTracer.Capture.Records
import CuTracer.ComputeSanitizer.RacecheckReports
import CuTracer.Delay.Replay
import CuTracer.Delay.Sleep
import CuTracer.Hooks.LaunchGuard
import CuTracer.Hooks.Reuse
import CuTracer.Library.Binary32
import CuTracer.Library.DeltaDebugging
import CuTracer.Library.Loop
import CuTracer.Library.Rounding
import CuTracer.MemoryModel.Analyze
import CuTracer.MemoryModel.Evidence
import CuTracer.MemoryModel.HappensBefore
import CuTracer.MemoryModel.Lossless
import CuTracer.MemoryModel.Waits
import CuTracer.Plan.Atoms
import CuTracer.Plan.Presentation
import CuTracer.PlanRuntime.Runs
import CuTracer.Query.Warps
import CuTracer.Reduce.Agreement
import CuTracer.Reduce.Reading
import CuTracer.Runtime.Accounts
import CuTracer.Runtime.Graphs
import CuTracer.Runtime.Lifetimes
import CuTracer.Service.Advance
import CuTracer.Service.Checkpoint
import CuTracer.Service.Fingerprints
import CuTracer.Service.Gates
import CuTracer.Service.Interrupt
import CuTracer.Service.Known
import CuTracer.Service.Lease
import CuTracer.Service.Linearizable
import CuTracer.Service.PromptSession
import CuTracer.Service.Sampling
import CuTracer.Service.Sanitized
import CuTracer.Service.SubmissionRate
import CuTracer.Service.TraceAnalysis
import CuTracer.Service.VerdictMemo
import CuTracer.Stress.Geometry
import CuTracer.Stress.Log
import CuTracer.Stress.Resume
import CuTracer.Stress.Shape
import CuTracer.Stress.Targeting
import CuTracer.Trace.ConfigReaders
import CuTracer.Trace.Targeting

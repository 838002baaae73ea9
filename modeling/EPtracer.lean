import EPtracer.Lib.CString
import EPtracer.Lib.Words
import EPtracer.Lib.Tokens
import EPtracer.Lib.Printf
import EPtracer.Lib.Lines
import EPtracer.Lib.Delimited
import EPtracer.Lib.Trace
import EPtracer.Lib.Producer
import EPtracer.Lib.Ring
import EPtracer.Lib.RingInvariant
import EPtracer.Lib.RingRuns
import EPtracer.Lib.RingAccount
import EPtracer.Lib.Keyed
import EPtracer.Lib.Writers
import EPtracer.Lib.Procedure
import EPtracer.Lib.Process
import EPtracer.Target.Selection
import EPtracer.Target.Soundness
import EPtracer.Target.Compare
import EPtracer.Syscall.Event
import EPtracer.Syscall.Multiplexer
import EPtracer.Syscall.Stream
import EPtracer.Syscall.Handler
import EPtracer.Syscall.Labels
import EPtracer.Syscall.Coverage
import EPtracer.Syscall.Debugger
import EPtracer.Syscall.Forgery
import EPtracer.Syscall.Metric
import EPtracer.Syscall.Readable
import EPtracer.Syscall.Binder
import EPtracer.Syscall.Backlog
import EPtracer.Syscall.Transcript
import EPtracer.Stack.Sample
import EPtracer.Stack.Delivery
import EPtracer.Stack.Resources
import EPtracer.Stack.Frames
import EPtracer.Stack.Output
import EPtracer.Stack.Cpus
import EPtracer.Stack.Threads
import EPtracer.Spawn.Handover
import EPtracer.Spawn.Selection
import EPtracer.Spawn.Arguments
import EPtracer.Spawn.GetPid
import EPtracer.Target.Identifiers
import EPtracer.Jdwp.Parser
import EPtracer.Jdwp.Filter
import EPtracer.Jdwp.Bounds
import EPtracer.Jdwp.Record
import EPtracer.Jdwp.Event
import EPtracer.Jdwp.Stream
import EPtracer.Jdwp.Loader
import EPtracer.Lifecycle.Skeleton
import EPtracer.Lifecycle.Main
import EPtracer.Lifecycle.Stages
import EPtracer.Lifecycle.Lifetime
import EPtracer.Lifecycle.Target

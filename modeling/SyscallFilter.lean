import SyscallFilter.Main
import SyscallFilter.ProcessControl
import SyscallFilter.Proofs.CommandLine.Classification
import SyscallFilter.Proofs.CommandLine.TraceOptions
import SyscallFilter.Proofs.Draft.Requests
import SyscallFilter.Proofs.FilterSetup.Coherence
import SyscallFilter.Proofs.Generator.Accepted
import SyscallFilter.Proofs.Generator.BlockCount
import SyscallFilter.Proofs.Generator.BlockTests
import SyscallFilter.Proofs.Generator.Coalescing
import SyscallFilter.Proofs.Generator.Listing
import SyscallFilter.Proofs.Machine.Checked
import SyscallFilter.Proofs.NumberSpec.Rendering
import SyscallFilter.Proofs.Selection.FirstShortest
import SyscallFilter.Proofs.Selection.Increment
import SyscallFilter.Proofs.Selection.SpecialCalls
import SyscallFilter.Proofs.StopOrder.Recognition

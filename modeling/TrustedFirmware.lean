import TrustedFirmware.RuntimeSvc.Dispatch
import TrustedFirmware.Spmd.FfaVersionFrame
import TrustedFirmware.Psci.Locking
import TrustedFirmware.Psci.CpuOnCache
import TrustedFirmware.Psci.CpuOnRaces
import TrustedFirmware.Spmc.DatastoreRuns
import TrustedFirmware.Spmc.Writes
import TrustedFirmware.Spmc.Exclusive
import TrustedFirmware.Spmc.UseCount
import TrustedFirmware.Lfa.Sequences
import TrustedFirmware.Lfa.Interleavings
import TrustedFirmware.Bl1.FwuAuthentic
import TrustedFirmware.Sdei.BindingSafety
import TrustedFirmware.Sdei.Nesting
import TrustedFirmware.Qti.SipMemAssignAnswers
import TrustedFirmware.Gpt.TransitionReach
import TrustedFirmware.Gpt.InitErrors
import TrustedFirmware.Fwu.AlternateBank
import TrustedFirmware.Bl1.FwuRecord
import TrustedFirmware.Bl1.FwuAssertions
import TrustedFirmware.Bl31.EhfNesting
import TrustedFirmware.Spmc.FailedCalls
import TrustedFirmware.Spmc.Lifetime
import TrustedFirmware.Lfa.Refusals
import TrustedFirmware.Io.FipExclusive
import TrustedFirmware.Io.FipFile
import TrustedFirmware.Drtm.AddressMapPages
import TrustedFirmware.Drtm.Returns
import TrustedFirmware.Auth.NvCounter
import TrustedFirmware.Auth.CertificateLayout
import TrustedFirmware.Qti.InterruptDispatch
import TrustedFirmware.Fdt.ReservedMemory
import TrustedFirmware.Sfcp.RoundTrip
import TrustedFirmware.Sfcp.ErrorReplies
import TrustedFirmware.Locks.BakeryTickets
import TrustedFirmware.Locks.BakeryProgress
import TrustedFirmware.Partition.MbrLoad
import TrustedFirmware.Libc.SnprintfText
import TrustedFirmware.Css.Sds
import TrustedFirmware.Hob.List
import TrustedFirmware.Io.Mtd
import TrustedFirmware.Scmi.Listing
import TrustedFirmware.Debugfs.FipFiles

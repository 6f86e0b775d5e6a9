import QcomUsb.Filter.DispatchQueue
import QcomUsb.Inf.Lookup
import QcomUsb.Inf.OwnLine
import QcomUsb.Inf.Passes
import QcomUsb.Ndis.BusyTx
import QcomUsb.Ndis.ClientWriteRuns
import QcomUsb.Ndis.CtrlWrite
import QcomUsb.Ndis.ExternalDelivery
import QcomUsb.Ndis.GetVersionRsp
import QcomUsb.Ndis.HomeNetwork
import QcomUsb.Ndis.IdleWalks
import QcomUsb.Ndis.OidRequests
import QcomUsb.Ndis.QmiQuota
import QcomUsb.Ndis.QmictlTransactions
import QcomUsb.Ndis.QosDispatch
import QcomUsb.Ndis.QosFragments
import QcomUsb.Ndis.QosPending
import QcomUsb.Ndis.QosReport
import QcomUsb.Ndis.RemovalEvents
import QcomUsb.Ndis.RxStreams
import QcomUsb.Ndis.ServiceFile
import QcomUsb.Ndis.TlpPurge
import QcomUsb.Ndis.TlpTimer
import QcomUsb.Ndis.TxComplete
import QcomUsb.Ndis.TxFlowControl
import QcomUsb.Ndis.TxKick
import QcomUsb.Qdss.DrainRounds
import QcomUsb.Transport.BurstLocks
import QcomUsb.Transport.BurstPacing
import QcomUsb.Transport.ChecksumFixup
import QcomUsb.Transport.DownlinkRuns
import QcomUsb.Transport.FlowCommandFrames
import QcomUsb.Transport.FlowCommandRuns
import QcomUsb.Transport.L2Completions
import QcomUsb.Transport.MuxFrame
import QcomUsb.Transport.QmapDemux
import QcomUsb.Transport.ReadCancel
import QcomUsb.Transport.SharedControl
import QcomUsb.Transport.SingleReads
import QcomUsb.Transport.TlpTransparent
import QcomUsb.Transport.WriteCancel
import QcomUsb.Transport.WriteControl
import QcomUsb.Transport.WriteEvents
import QcomUsb.Transport.WriteResume
import QcomUsb.Usb.AsyncReads
import QcomUsb.Usb.Delivery
import QcomUsb.Usb.NotifyPool
import QcomUsb.UsbNet.Aggregation.Starvation
import QcomUsb.UsbNet.Aggregation.Timer
import QcomUsb.UsbNet.DownReason
import QcomUsb.UsbNet.Exchange
import QcomUsb.UsbNet.NotifyLifetime
import QcomUsb.UsbNet.NotifyProtocol
import QcomUsb.UsbNet.ReadChainRuns
import QcomUsb.UsbNet.Teardown
import QcomUsb.UsbNet.UrbWriters
import QcomUsb.WdfSerial.EventChar
import QcomUsb.WdfSerial.Overflow
import QcomUsb.WdfSerial.OwnTimer
import QcomUsb.WdfSerial.PendingWrites
import QcomUsb.WdfSerial.PowerFreshness
import QcomUsb.WdfSerial.Stream
import QcomUsb.WdfSerial.TotalTimeout
import QcomUsb.WdfSerial.Turns
import QcomUsb.WdfSerial.UrbCounts
import QcomUsb.WdfSerial.WaitMask
import QcomUsb.WdfSerial.Waiting

-- SUMMARY: QoS filters of the miniport: the headers of a packet, which packets a filter takes, and how it recognises the later fragments of a packet.
import QcomUsb.Library.Tlv

/-!
# QoS filters

A filter takes the packets whose headers fit. Only the first fragment of a packet has a transport
header, so a filter that takes one keeps its addresses and identification on the `PacketInfoList`,
and takes the later fragments by them.
-/

namespace Ndis.Qos

open Tlv

/-! ## Headers -/

/-- `ntohs` of a `USHORT` in memory. -/
def ntohs (mem : Nat → UInt8) (p : Nat) : Nat := lengthField (mem (p + 1)) (mem p)

/-- `ntohl` of a `ULONG` in memory. -/
def ntohl (mem : Nat → UInt8) (p : Nat) : UInt32 := .ofNat (65536 * ntohs mem p + ntohs mem (p + 2))

def icmp : UInt8 := 0x01
def tcp : UInt8 := 0x06
def udp : UInt8 := 0x11
def tcpudp : UInt8 := 0xFD

/-- `REF_IPV4_HDR`. -/
structure RefIpv4Hdr where
  version : UInt8
  tos : UInt8
  identification : Nat
  flags : UInt8
  fragmentOffset : Nat
  protocol : UInt8
  srcAddr : UInt32
  destAddr : UInt32
  srcPort : Nat
  destPort : Nat
  icmpType : UInt8
  icmpCode : UInt8
deriving DecidableEq

/-- `MPQOS_GetIPHeaderV4`, for a packet at the start of `mem`. -/
def getIPHeaderV4 (mem : Nat → UInt8) : RefIpv4Hdr :=
  let hdrLen := ((mem 0 &&& 0x0F) * 4).toNat
  let protocol := mem 9
  let ports := protocol = tcp ∨ protocol = udp
  { version := (mem 0 &&& 0xF0) >>> 4
    tos := mem 1
    -- not swapped
    identification := lengthField (mem 4) (mem 5)
    flags := mem 6 >>> 5
    fragmentOffset := lengthField (mem 7) (mem 6 &&& 0x1F)
    protocol := protocol
    srcAddr := ntohl mem 12
    destAddr := ntohl mem 16
    srcPort := if ports then ntohs mem hdrLen else 0
    destPort := if ports then ntohs mem (hdrLen + 2) else 0
    icmpType := if protocol = icmp then mem hdrLen else 0
    icmpCode := if protocol = icmp then mem (hdrLen + 1) else 0 }

/-- `REF_IPV6_HDR`. -/
structure RefIpv6Hdr where
  trafficClass : UInt8
  flowLabel : Nat
  srcAddr : List UInt8
  destAddr : List UInt8
  srcPort : Nat
  destPort : Nat
  mFlag : UInt8
  fragmentOffset : Nat
  identification : UInt32
  protocol : UInt8
deriving DecidableEq

def typeIcmpv6 : UInt8 := 0x3A
def typeFragment : UInt8 := 0x2C
def typeRouting : UInt8 := 43
def typeHopByHopOpt : UInt8 := 0

/-- What `QCQOS_GetIPHeaderV6` knows at an extension header: the type of the header and where it
is, and what the fragment headers before it have said. -/
structure Walk where
  nextHdr : UInt8
  puc : Nat
  mFlag : UInt8
  fragmentOffset : Nat
  identification : UInt32

/-- The extension headers, one for each round. A header is read as long as it is in a buffer of
`size` bytes. -/
def walk (mem : Nat → UInt8) (size : Nat) : Nat → Walk → Option Walk
  | 0, _ => none
  | fuel + 1, w =>
    if w.nextHdr = typeRouting ∨ w.nextHdr = typeHopByHopOpt then
      if w.puc + 2 ≤ size then
        walk mem size fuel
          { w with nextHdr := mem w.puc, puc := w.puc + (8 + (mem (w.puc + 1)).toNat * 8) }
      else none
    else if w.nextHdr = typeFragment then
      if w.puc + 8 ≤ size then
        walk mem size fuel
          { nextHdr := mem w.puc
            puc := w.puc + 8
            mFlag := mem (w.puc + 3) &&& 0x01
            fragmentOffset := (mem (w.puc + 2)).toNat * 32 + (mem (w.puc + 3) >>> 3).toNat
            identification := ntohl mem (w.puc + 4) }
      else none
    else some w

/-- `QCQOS_GetIPHeaderV6`. There is no answer if it reads outside of the buffer. -/
def getIPHeaderV6 (mem : Nat → UInt8) (size : Nat) : Option RefIpv6Hdr := do
  let w ← walk mem size (size + 1)
    { nextHdr := mem 6, puc := 40, mFlag := 0, fragmentOffset := 0, identification := 0 }
  let ports := w.nextHdr = tcp ∨ w.nextHdr = udp
  if ports ∧ size < w.puc + 4 then none
  else
    some
      { trafficClass := (mem 0 &&& 0x0F) <<< 4 ||| (mem 1 &&& 0xF0)
        -- the low bits are not swapped
        flowLabel := 65536 * (mem 1 &&& 0x0F).toNat + lengthField (mem 2) (mem 3)
        srcAddr := Memory.slice mem 8 16
        destAddr := Memory.slice mem 24 16
        srcPort := if ports then ntohs mem w.puc else 0
        destPort := if ports then ntohs mem (w.puc + 2) else 0
        mFlag := w.mFlag
        fragmentOffset := w.fragmentOffset
        identification := w.identification
        protocol := if ports ∨ w.nextHdr = typeIcmpv6 then w.nextHdr else 0 }

/-! ## Fragments -/

/-- `MPQOS_PKT_INFO`. -/
inductive PktInfo
  | v4 (srcAddr destAddr : UInt32) (ulProtocol : UInt8) (identification : Nat)
  | v6 (srcAddr destAddr : List UInt8) (identification : UInt32) (ulProtocol : UInt8)
  | other (ipVersion : UInt8)
deriving DecidableEq

def RefIpv4Hdr.pktInfo (hdr : RefIpv4Hdr) : PktInfo :=
  if hdr.version = 4 then .v4 hdr.srcAddr hdr.destAddr hdr.protocol hdr.identification
  else .other hdr.version

def RefIpv6Hdr.pktInfo (hdr : RefIpv6Hdr) : PktInfo :=
  .v6 hdr.srcAddr hdr.destAddr hdr.identification hdr.protocol

/-- Which part of a packet a fragment is. -/
inductive Fragment
  | whole
  | first
  | middle
  | last
deriving DecidableEq

/-- The flag says that more fragments follow. -/
def fragmentOf (more : Prop) [Decidable more] (fragmentOffset : Nat) : Fragment :=
  if more then if fragmentOffset = 0 then .first else .middle
  else if fragmentOffset ≠ 0 then .last else .whole

/-- `MPQOS_IpIdMatch`. -/
def ipIdMatch (info : PktInfo) (pktInfoList : List PktInfo) : Bool :=
  match info with
  | .other _ => false
  | info => pktInfoList.contains info

/-! ## Filters -/

/-- A port of a filter, with `Specified` and `Range`. -/
structure FilterPort where
  specified : Bool
  port : Nat
  range : Nat
deriving DecidableEq

/-- The comparison that is made for each port. -/
def FilterPort.Admits (p : FilterPort) (port : Nat) : Prop :=
  p.specified = true → p.port ≤ port ∧ port ≤ p.port + p.range

instance (p : FilterPort) (port : Nat) : Decidable (p.Admits port) :=
  inferInstanceAs (Decidable (p.specified = true → p.port ≤ port ∧ port ≤ p.port + p.range))

/-- A field of the ICMP header, with `Specified`. -/
structure IcmpField where
  specified : Bool
  value : UInt8
deriving DecidableEq

def IcmpField.Admits (f : IcmpField) (value : UInt8) : Prop := f.specified = true → value = f.value

instance (f : IcmpField) (value : UInt8) : Decidable (f.Admits value) :=
  inferInstanceAs (Decidable (f.specified = true → value = f.value))

/-- `IPV6_ADDR_PREFIX_MASK`. -/
structure Ipv6AddrPrefixMask where
  high64 : UInt64
  low64 : UInt64
deriving DecidableEq

/-- `QMI_FILTER`, without its links. -/
structure QmiFilter where
  index : UInt8
  ipVersion : UInt8
  ipv4SrcAddr : UInt32
  ipv4SrcAddrSubnetMask : UInt32
  ipv4DestAddr : UInt32
  ipv4DestAddrSubnetMask : UInt32
  ipv4NextHdrProtocol : UInt8
  ipv4TypeOfService : UInt8
  ipv4TypeOfServiceMask : UInt8
  tcpSrcPort : FilterPort
  tcpDestPort : FilterPort
  udpSrcPort : FilterPort
  udpDestPort : FilterPort
  icmpFilterMsgType : IcmpField
  icmpFilterCodeField : IcmpField
  tcpUdpSrcPort : FilterPort
  tcpUdpDestPort : FilterPort
  precedence : Nat
  filterId : Nat
  ipv6SrcAddr : List UInt8
  ipv6SrcAddrPrefixLen : UInt8
  ipv6DestAddr : List UInt8
  ipv6DestAddrPrefixLen : UInt8
  ipv6NextHdrProtocol : UInt8
  ipv6TrafficClass : UInt8
  ipv6TrafficClassMask : UInt8
  ipv6FlowLabel : Nat
  ipv6SrcAddrMask : Ipv6AddrPrefixMask
  ipv6DestAddrMask : Ipv6AddrPrefixMask
  packetInfoList : List PktInfo
deriving DecidableEq

namespace QmiFilter

/-- `MPQOS_CachePacketInfo`. -/
def cachePacketInfo (f : QmiFilter) (info : PktInfo) (allocated : Bool) : QmiFilter :=
  if allocated then { f with packetInfoList := f.packetInfoList ++ [info] } else f

/-- The port and ICMP fields of a TCP or UDP header, or of one of the protocol `TCPUDP`. -/
def TransportFits (f : QmiFilter) (protocol : UInt8) (srcPort destPort : Nat) : Prop :=
  (protocol = tcp → f.tcpSrcPort.Admits srcPort ∧ f.tcpDestPort.Admits destPort) ∧
    (protocol = udp → f.udpSrcPort.Admits srcPort ∧ f.udpDestPort.Admits destPort) ∧
    f.tcpUdpSrcPort.Admits srcPort ∧ f.tcpUdpDestPort.Admits destPort

instance (f : QmiFilter) (protocol : UInt8) (srcPort destPort : Nat) :
    Decidable (f.TransportFits protocol srcPort destPort) :=
  inferInstanceAs (Decidable
    ((protocol = tcp → f.tcpSrcPort.Admits srcPort ∧ f.tcpDestPort.Admits destPort) ∧
      (protocol = udp → f.udpSrcPort.Admits srcPort ∧ f.udpDestPort.Admits destPort) ∧
      f.tcpUdpSrcPort.Admits srcPort ∧ f.tcpUdpDestPort.Admits destPort))

/-- The comparisons of `MPQOS_DoesPktMatchThisFilterEx`. -/
def FitsV4 (f : QmiFilter) (hdr : RefIpv4Hdr) : Prop :=
  (f.ipv4TypeOfServiceMask ≠ 0 → hdr.tos = f.ipv4TypeOfService) ∧
    (if f.ipv4NextHdrProtocol = tcpudp then hdr.protocol = tcp ∨ hdr.protocol = udp
      else f.ipv4NextHdrProtocol ≠ 0 → hdr.protocol = f.ipv4NextHdrProtocol) ∧
    (f.ipv4SrcAddrSubnetMask ≠ 0 →
      hdr.srcAddr &&& f.ipv4SrcAddrSubnetMask = f.ipv4SrcAddr &&& f.ipv4SrcAddrSubnetMask) ∧
    (f.ipv4DestAddrSubnetMask ≠ 0 →
      hdr.destAddr &&& f.ipv4DestAddrSubnetMask = f.ipv4DestAddr &&& f.ipv4DestAddrSubnetMask) ∧
    (f.ipv4NextHdrProtocol ≠ 0 →
      if hdr.protocol = tcp ∨ hdr.protocol = udp ∨ hdr.protocol = tcpudp then
        f.TransportFits hdr.protocol hdr.srcPort hdr.destPort
      else hdr.protocol = icmp ∧ f.icmpFilterMsgType.Admits hdr.icmpType ∧
        f.icmpFilterCodeField.Admits hdr.icmpCode)

instance (f : QmiFilter) (hdr : RefIpv4Hdr) : Decidable (f.FitsV4 hdr) := by
  unfold FitsV4
  infer_instance

/-- An `ULONGLONG` of an address. -/
def ulonglong (bytes : List UInt8) : UInt64 :=
  bytes.foldr (fun b n => n <<< 8 ||| b.toUInt64) 0

/-- `QCQOS_AddressesMatchV6`. -/
def AddressesMatchV6 (addr1 addr2 : List UInt8) (mask : Ipv6AddrPrefixMask) : Prop :=
  ulonglong (addr1.take 8) &&& mask.high64 = ulonglong (addr2.take 8) &&& mask.high64 ∧
    ulonglong (addr1.drop 8) &&& mask.low64 = ulonglong (addr2.drop 8) &&& mask.low64

instance (addr1 addr2 : List UInt8) (mask : Ipv6AddrPrefixMask) :
    Decidable (AddressesMatchV6 addr1 addr2 mask) := by
  unfold AddressesMatchV6
  infer_instance

/-- The comparisons of `MPQOS_DoesPktMatchThisFilterV6` that are made. -/
def FitsV6 (f : QmiFilter) (hdr : RefIpv6Hdr) : Prop :=
  (f.ipv6SrcAddrPrefixLen ≠ 0 → AddressesMatchV6 hdr.srcAddr f.ipv6SrcAddr f.ipv6SrcAddrMask) ∧
    (f.ipv6DestAddrPrefixLen ≠ 0 →
      AddressesMatchV6 hdr.destAddr f.ipv6DestAddr f.ipv6DestAddrMask) ∧
    (f.ipv6NextHdrProtocol ≠ 0 ∧ f.ipv6NextHdrProtocol ≠ tcpudp →
      f.ipv6NextHdrProtocol = hdr.protocol) ∧
    (f.ipv6TrafficClass ≠ 0 →
      f.ipv6TrafficClass &&& f.ipv6TrafficClassMask = hdr.trafficClass &&& f.ipv6TrafficClassMask) ∧
    (f.ipv6FlowLabel ≠ 0 → f.ipv6FlowLabel = hdr.flowLabel) ∧
    (hdr.protocol = tcp ∨ hdr.protocol = udp ∨ hdr.protocol = tcpudp →
      f.TransportFits hdr.protocol hdr.srcPort hdr.destPort)

instance (f : QmiFilter) (hdr : RefIpv6Hdr) : Decidable (f.FitsV6 hdr) := by
  unfold FitsV6
  infer_instance

/-- A comparison is made. Without one `bMatch` stays `FALSE`. -/
def ComparesV6 (f : QmiFilter) (hdr : RefIpv6Hdr) : Prop :=
  f.ipv6SrcAddrPrefixLen ≠ 0 ∨ f.ipv6DestAddrPrefixLen ≠ 0 ∨
    (f.ipv6NextHdrProtocol ≠ 0 ∧ f.ipv6NextHdrProtocol ≠ tcpudp) ∨ f.ipv6TrafficClass ≠ 0 ∨
    f.ipv6FlowLabel ≠ 0 ∨
    (hdr.protocol = tcp ∧ (f.tcpSrcPort.specified ∨ f.tcpDestPort.specified)) ∨
    (hdr.protocol = udp ∧ (f.udpSrcPort.specified ∨ f.udpDestPort.specified)) ∨
    ((hdr.protocol = tcp ∨ hdr.protocol = udp ∨ hdr.protocol = tcpudp) ∧
      (f.tcpUdpSrcPort.specified ∨ f.tcpUdpDestPort.specified)) ∨
    hdr.protocol = typeIcmpv6

instance (f : QmiFilter) (hdr : RefIpv6Hdr) : Decidable (f.ComparesV6 hdr) := by
  unfold ComparesV6
  infer_instance

/-- What a filter does with a fragment, where `fits` is the answer for its headers: whether it takes
the fragment, and the filter after it. -/
def takeFragment (f : QmiFilter) (fragment : Fragment) (info : PktInfo) (fits allocated : Bool) :
    Bool × QmiFilter :=
  match fragment with
  | .whole => (fits, f)
  | .first => (fits, if fits then f.cachePacketInfo info allocated else f)
  | .middle => (ipIdMatch info f.packetInfoList, f)
  | .last =>
    if ipIdMatch info f.packetInfoList then
      (true, { f with packetInfoList := f.packetInfoList.erase info })
    else (false, f)

/-- `MPQOS_DoesPktMatchThisFilterV6`. -/
def doesPktMatchThisFilterV6 (f : QmiFilter) (hdr : RefIpv6Hdr) (allocated : Bool) :
    Bool × QmiFilter :=
  f.takeFragment (fragmentOf (hdr.mFlag = 1) hdr.fragmentOffset) hdr.pktInfo
    (decide (f.FitsV6 hdr ∧ f.ComparesV6 hdr)) allocated

/-- `MPQOS_DoesPktMatchThisFilterEx`, for a packet whose network header is at the start of `mem`. -/
def doesPktMatchThisFilterEx (f : QmiFilter) (mem : Nat → UInt8) (size : Nat) (allocated : Bool) :
    Option (Bool × QmiFilter) :=
  let hdr := getIPHeaderV4 mem
  if hdr.version ≠ f.ipVersion then some (false, f)
  else if f.ipVersion = 6 then
    (getIPHeaderV6 mem size).map fun hdr => f.doesPktMatchThisFilterV6 hdr allocated
  else
    some (f.takeFragment (fragmentOf (hdr.flags &&& 0x01 ≠ 0) hdr.fragmentOffset) hdr.pktInfo
      (decide (f.FitsV4 hdr)) allocated)

end QmiFilter

end Ndis.Qos

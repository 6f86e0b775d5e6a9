-- SUMMARY: The QoS indications of the device: how the flow reports and their filters are read, and that a report is read as it was written.
import QcomUsb.Library.TlvEncode
import QcomUsb.Ndis.QosFlows

/-!
# QoS reports

A report is a list of TLVs. One of them names the flow and what happens to it, and another one has a
TLV for each filter, whose value is a list of TLVs again, one for each field. The fields are read at
the sizes of their structures.
-/

namespace Ndis.Qos

open Memory Tlv

/-- What `QCQOS_ConstructIPPrefixMask` gives for a prefix length. -/
abbrev PrefixMask := UInt8 → Ipv6AddrPrefixMask

section

variable (mask : PrefixMask) (mem : Nat → UInt8)

/-! ## Reading -/

/-- `QOS_FILTER_TLV_TCP_UDP_PORT`. -/
def filterPortAt (p : Nat) : FilterPort := ⟨true, ushort mem (p + 3), ushort mem (p + 5)⟩

/-- The fields that an IPv6 source address changes. -/
def QmiFilter.setIpv6SrcAddr (f : QmiFilter) (addr : List UInt8) (prefixLen : UInt8) : QmiFilter :=
  if prefixLen ≤ 128 then
    { f with ipv6SrcAddr := addr, ipv6SrcAddrPrefixLen := prefixLen, ipv6SrcAddrMask := mask prefixLen }
  else { f with ipv6SrcAddr := addr, ipv6SrcAddrPrefixLen := 0 }

def QmiFilter.setIpv6DestAddr (f : QmiFilter) (addr : List UInt8) (prefixLen : UInt8) : QmiFilter :=
  if prefixLen ≤ 128 then
    { f with ipv6DestAddr := addr, ipv6DestAddrPrefixLen := prefixLen, ipv6DestAddrMask := mask prefixLen }
  else { f with ipv6DestAddr := addr, ipv6DestAddrPrefixLen := 0 }

/-- A turn of `ParseQmiQosFilter` for the TLV at `p`: the filter after it, and by how much the
position goes on. -/
def parseFilterTlv (p : Nat) (f : QmiFilter) : QmiFilter × Nat :=
  match (mem p).toNat with
  | 0x10 => ({ f with index := mem (p + 3) }, 4)
  | 0x11 => ({ f with ipVersion := mem (p + 3) }, 4)
  | 0x12 =>
    ({ f with ipv4SrcAddr := ulong mem (p + 3), ipv4SrcAddrSubnetMask := ulong mem (p + 7) }, 11)
  | 0x13 =>
    ({ f with ipv4DestAddr := ulong mem (p + 3), ipv4DestAddrSubnetMask := ulong mem (p + 7) }, 11)
  | 0x14 => ({ f with ipv4NextHdrProtocol := mem (p + 3), ipv6NextHdrProtocol := mem (p + 3) }, 4)
  | 0x15 => ({ f with ipv4TypeOfService := mem (p + 3), ipv4TypeOfServiceMask := mem (p + 4) }, 5)
  | 0x1B => ({ f with tcpSrcPort := filterPortAt mem p }, 7)
  | 0x1C => ({ f with tcpDestPort := filterPortAt mem p }, 7)
  | 0x1D => ({ f with udpSrcPort := filterPortAt mem p }, 7)
  | 0x1E => ({ f with udpDestPort := filterPortAt mem p }, 7)
  | 0x24 => ({ f with tcpUdpSrcPort := filterPortAt mem p }, 7)
  | 0x25 => ({ f with tcpUdpDestPort := filterPortAt mem p }, 7)
  | 0x1F => ({ f with icmpFilterMsgType := ⟨true, mem (p + 3)⟩ }, 4)
  | 0x20 => ({ f with icmpFilterCodeField := ⟨true, mem (p + 3)⟩ }, 4)
  | 0x22 => ({ f with precedence := ushort mem (p + 3) }, 5)
  | 0x23 => ({ f with filterId := ushort mem (p + 3) }, 5)
  | 0x16 =>
    (if sizeAt mem p > 16 then f.setIpv6SrcAddr mask (slice mem (p + 3) 16) (mem (p + 19)) else f, 20)
  | 0x17 =>
    (if sizeAt mem p > 16 then f.setIpv6DestAddr mask (slice mem (p + 3) 16) (mem (p + 19)) else f, 20)
  | 0x19 => ({ f with ipv6TrafficClass := mem (p + 3), ipv6TrafficClassMask := mem (p + 4) }, 5)
  | 0x1A => ({ f with ipv6FlowLabel := (ulong mem (p + 3)).toNat }, 7)
  | _ => (f, 3 + sizeAt mem p)

/-- `ParseQmiQosFilter`: the filter and the position behind it. -/
def parseQmiQosFilter : Nat → Nat → Int → QmiFilter → Option (QmiFilter × Nat)
  | 0, _, _, _ => none
  | fuel + 1, position, remainingLength, f =>
    if remainingLength > 0 then
      let (f, size) := parseFilterTlv mask mem position f
      parseQmiQosFilter fuel (position + size) (remainingLength - size) f
    else some (f, position)

/-- The loop over the filters of `QOS_EVENT_RPT_IND_TLV_TX_FILTER_TYPE`. The position is lost at a TLV
of another type, and where the lengths do not add up. -/
def parseTxFilters : Nat → Nat → Int → List QmiFilter → Option (List QmiFilter × Option Nat)
  | 0, _, _, _ => none
  | fuel + 1, position, filterTlvTotalLength, filters =>
    if filterTlvTotalLength > 0 then
      if mem position = 0x10 then
        match parseQmiQosFilter mask mem (sizeAt mem position + 1) (position + 3) (sizeAt mem position)
          .zeroed with
        | none => none
        | some (f, next) =>
          parseTxFilters fuel next (filterTlvTotalLength - 3 - sizeAt mem position) (filters ++ [f])
      else some (filters, none)
    else some (filters, if filterTlvTotalLength < 0 then none else some position)

/-- What `ProcessQosFlowReport` knows when it has read some of the TLVs. -/
structure ReportState where
  flowId : UInt32
  action : Option UInt8
  filters : List QmiFilter

/-- The loop of `ProcessQosFlowReport`. -/
def parseFlowReport : Nat → Nat → Nat → ReportState → Option ReportState
  | 0, _, _, _ => none
  | fuel + 1, position, endPosition, r =>
    if position < endPosition then
      let skip :=
        if sizeAt mem position = 0 then some r
        else parseFlowReport fuel (position + 3 + sizeAt mem position) endPosition r
      match (mem position).toNat with
      | 0x01 => parseFlowReport fuel (position + 4) endPosition r
      | 0x10 =>
        parseFlowReport fuel (position + 9) endPosition
          { r with flowId := ulong mem (position + 3), action := some (mem (position + 8)) }
      | 0x13 =>
        match parseTxFilters mask mem (sizeAt mem position + 1) (position + 3) (sizeAt mem position)
          r.filters with
        | none => none
        | some (filters, none) => some { r with filters := filters }
        | some (filters, some next) =>
          parseFlowReport fuel next endPosition { r with filters := filters }
      | _ => skip
    else some r

/-- `action`. -/
def flowAction : Option UInt8 → FlowAction
  | some 1 | some 4 => .activated
  | some 2 => .modified
  | some 3 => .deleted
  | some 5 => .enabled
  | some 6 => .disabled
  | _ => .unknown

/-- What `ProcessQosFlowReport` reads from a report. -/
def readFlowReport (flowReport reportLength : Nat) : Option FlowReport :=
  (parseFlowReport mask mem (reportLength + 1) flowReport (flowReport + reportLength)
    { flowId := 0, action := none, filters := [] }).map fun r =>
      { flowId := r.flowId, action := flowAction r.action, filters := r.filters }

/-- The loop of `ProcessQosEventReportInd`: the reports that are read. `tlv` stays at the first TLV. -/
def eventReports : Nat → Nat → Nat → Nat → Option (List FlowReport)
  | 0, _, _, _ => none
  | fuel + 1, tlv, position, endPosition =>
    if position < endPosition then
      let report :=
        if mem tlv = 0x10 then
          (readFlowReport mask mem (position + 3) (sizeAt mem tlv)).map fun r => [r]
        else some []
      match report with
      | none => none
      | some report =>
        if sizeAt mem tlv = 0 then some report
        else (eventReports fuel tlv (position + 3 + sizeAt mem tlv) endPosition).map (report ++ ·)
    else some []

/-- The reports of an indication whose TLVs are at `tlvs`. -/
def processQosEventReportInd (tlvs length : Nat) : Option (List FlowReport) :=
  eventReports mask mem (length + 1) tlvs tlvs (tlvs + length)

end

/-! ## Writing -/

inductive PortField
  | tcpSrc
  | tcpDest
  | udpSrc
  | udpDest
  | tcpUdpSrc
  | tcpUdpDest

/-- The TLV types that `ParseQmiQosFilter` knows. -/
def filterTlvTypes : List UInt8 :=
  [0x10, 0x11, 0x12, 0x13, 0x14, 0x15, 0x16, 0x17, 0x19, 0x1A, 0x1B, 0x1C, 0x1D, 0x1E, 0x1F, 0x20,
    0x22, 0x23, 0x24, 0x25]

/-- A field of a filter, as the device reports it. -/
inductive FilterField
  | ipFilterIdx (index : UInt8)
  | ipVersion (version : UInt8)
  | ipv4SrcAddr (addr subnetMask : UInt32)
  | ipv4DestAddr (addr subnetMask : UInt32)
  | nextHdrProtocol (protocol : UInt8)
  | ipv4TypeOfService (service serviceMask : UInt8)
  | port (field : PortField) (port range : UInt16)
  | icmpFilterMsgType (type : UInt8)
  | icmpFilterMsgCode (code : UInt8)
  | precedence (precedence : UInt16)
  | filterId (id : UInt16)
  | ipv6SrcAddr (addr : Vector UInt8 16) (prefixLen : UInt8)
  | ipv6DestAddr (addr : Vector UInt8 16) (prefixLen : UInt8)
  | ipv6TrafficClass (trafficClass trafficClassMask : UInt8)
  | ipv6FlowLabel (label : UInt32)
  | other (item : Item) (h : item.type ∉ filterTlvTypes) (fits : item.Fits)

def PortField.type : PortField → UInt8
  | .tcpSrc => 0x1B
  | .tcpDest => 0x1C
  | .udpSrc => 0x1D
  | .udpDest => 0x1E
  | .tcpUdpSrc => 0x24
  | .tcpUdpDest => 0x25

def PortField.set (field : PortField) (port : FilterPort) (f : QmiFilter) : QmiFilter :=
  match field with
  | .tcpSrc => { f with tcpSrcPort := port }
  | .tcpDest => { f with tcpDestPort := port }
  | .udpSrc => { f with udpSrcPort := port }
  | .udpDest => { f with udpDestPort := port }
  | .tcpUdpSrc => { f with tcpUdpSrcPort := port }
  | .tcpUdpDest => { f with tcpUdpDestPort := port }

namespace FilterField

/-- The TLV of a field. -/
def tlv : FilterField → Item
  | .ipFilterIdx b => ⟨0x10, [b]⟩
  | .ipVersion b => ⟨0x11, [b]⟩
  | .ipv4SrcAddr a m => ⟨0x12, le32 a ++ le32 m⟩
  | .ipv4DestAddr a m => ⟨0x13, le32 a ++ le32 m⟩
  | .nextHdrProtocol b => ⟨0x14, [b]⟩
  | .ipv4TypeOfService b m => ⟨0x15, [b, m]⟩
  | .port field n r => ⟨field.type, le16 n.toNat ++ le16 r.toNat⟩
  | .icmpFilterMsgType b => ⟨0x1F, [b]⟩
  | .icmpFilterMsgCode b => ⟨0x20, [b]⟩
  | .precedence n => ⟨0x22, le16 n.toNat⟩
  | .filterId n => ⟨0x23, le16 n.toNat⟩
  | .ipv6SrcAddr a n => ⟨0x16, a.toList ++ [n]⟩
  | .ipv6DestAddr a n => ⟨0x17, a.toList ++ [n]⟩
  | .ipv6TrafficClass b m => ⟨0x19, [b, m]⟩
  | .ipv6FlowLabel n => ⟨0x1A, le32 n⟩
  | .other item _ _ => item

/-- What a field means for the filter. -/
def set (mask : PrefixMask) (f : QmiFilter) : FilterField → QmiFilter
  | .ipFilterIdx b => { f with index := b }
  | .ipVersion b => { f with ipVersion := b }
  | .ipv4SrcAddr a m => { f with ipv4SrcAddr := a, ipv4SrcAddrSubnetMask := m }
  | .ipv4DestAddr a m => { f with ipv4DestAddr := a, ipv4DestAddrSubnetMask := m }
  | .nextHdrProtocol b => { f with ipv4NextHdrProtocol := b, ipv6NextHdrProtocol := b }
  | .ipv4TypeOfService b m => { f with ipv4TypeOfService := b, ipv4TypeOfServiceMask := m }
  | .port field n r => field.set ⟨true, n.toNat, r.toNat⟩ f
  | .icmpFilterMsgType b => { f with icmpFilterMsgType := ⟨true, b⟩ }
  | .icmpFilterMsgCode b => { f with icmpFilterCodeField := ⟨true, b⟩ }
  | .precedence n => { f with precedence := n.toNat }
  | .filterId n => { f with filterId := n.toNat }
  | .ipv6SrcAddr a n => f.setIpv6SrcAddr mask a.toList n
  | .ipv6DestAddr a n => f.setIpv6DestAddr mask a.toList n
  | .ipv6TrafficClass b m => { f with ipv6TrafficClass := b, ipv6TrafficClassMask := m }
  | .ipv6FlowLabel n => { f with ipv6FlowLabel := n.toNat }
  | .other _ _ _ => f

theorem fits (field : FilterField) : field.tlv.Fits := by
  cases field with
  | other item _ hfits => exact hfits
  | _ => simp [tlv, Item.Fits, le16, le32]

end FilterField

variable {mask : PrefixMask} {mem : Nat → UInt8} {p n : Nat}

theorem filterPortAt_of_slice {port range : UInt16}
    (h : slice mem (p + 3) 4 = le16 port.toNat ++ le16 range.toNat) :
    filterPortAt mem p = ⟨true, port.toNat, range.toNat⟩ := by
  obtain ⟨hport, hrange⟩ := slice_eq_append h
  have hr : ushort mem (p + 5) = range.toNat := ushort_of_slice range.toNat_lt hrange
  rw [filterPortAt, ushort_of_slice port.toNat_lt hport, hr]

theorem ulongs_of_slice {a b : UInt32} (h : slice mem (p + 3) 8 = le32 a ++ le32 b) :
    ulong mem (p + 3) = a ∧ ulong mem (p + 7) = b := by
  obtain ⟨ha, hb⟩ := slice_eq_append h
  exact ⟨ulong_of_slice ha, ulong_of_slice hb⟩

theorem addr_of_slice {addr : Vector UInt8 16} {prefixLen : UInt8}
    (h : slice mem (p + 3) 17 = addr.toList ++ [prefixLen]) :
    slice mem (p + 3) 16 = addr.toList ∧ mem (p + 19) = prefixLen := by
  obtain ⟨haddr, hprefix⟩ := slice_eq_append h
  rw [Vector.length_toList] at haddr hprefix
  exact ⟨haddr, (byte_of_slice hprefix).1⟩

/-- A TLV of a type that is not known is passed over. -/
theorem parseFilterTlv_of_other (f : QmiFilter) (h : mem p ∉ filterTlvTypes) :
    parseFilterTlv mask mem p f = (f, 3 + sizeAt mem p) := by
  have hn : (mem p).toNat ∉ filterTlvTypes.map UInt8.toNat := by
    intro hmem
    obtain ⟨type, htype, heq⟩ := List.mem_map.mp hmem
    exact h (UInt8.toNat_inj.mp heq ▸ htype)
  rw [parseFilterTlv]
  generalize (mem p).toNat = k at hn ⊢
  split
  case h_21 => rfl
  all_goals exact absurd (by decide) hn

/-- A field is read as it was written. -/
theorem parseFilterTlv_of_at (field : FilterField) (f : QmiFilter) (h : At mem p field.tlv) :
    parseFilterTlv mask mem p f = (field.set mask f, field.tlv.size) := by
  obtain ⟨htype, hsize, hvalue⟩ := h
  cases field with
  | ipFilterIdx b | ipVersion b | nextHdrProtocol b | icmpFilterMsgType b | icmpFilterMsgCode b =>
    have hbyte := (byte_of_slice hvalue).1
    simp [parseFilterTlv, htype, FilterField.tlv, FilterField.set, Item.size, hbyte]
  | ipv4TypeOfService b m | ipv6TrafficClass b m =>
    obtain ⟨hfirst, hrest⟩ := byte_of_slice hvalue
    have hsecond := (byte_of_slice hrest).1
    simp [parseFilterTlv, htype, FilterField.tlv, FilterField.set, Item.size, hfirst, hsecond]
  | ipv4SrcAddr a m | ipv4DestAddr a m =>
    have hfields := ulongs_of_slice hvalue
    simp [parseFilterTlv, htype, FilterField.tlv, FilterField.set, Item.size, hfields, le32, le16]
  | port field n r =>
    have hport := filterPortAt_of_slice hvalue
    cases field <;>
      simp [parseFilterTlv, htype, FilterField.tlv, FilterField.set, Item.size, PortField.type,
        PortField.set, hport, le16]
  | precedence n | filterId n =>
    have hnumber := ushort_of_slice n.toNat_lt hvalue
    simp [parseFilterTlv, htype, FilterField.tlv, FilterField.set, Item.size, hnumber, le16]
  | ipv6SrcAddr a n | ipv6DestAddr a n =>
    have hlength : (a.toList ++ [n]).length = 17 := by simp
    rw [FilterField.tlv, hlength] at hvalue
    have haddr := addr_of_slice hvalue
    simp [parseFilterTlv, htype, FilterField.tlv, FilterField.set, Item.size, hsize, haddr]
  | ipv6FlowLabel n =>
    have hnumber := ulong_of_slice hvalue
    simp [parseFilterTlv, htype, FilterField.tlv, FilterField.set, Item.size, hnumber, le32, le16]
  | other item hother _ =>
    rw [parseFilterTlv_of_other f (htype ▸ hother), hsize]
    rfl

/-- The filter that fields describe. -/
def filterOf (mask : PrefixMask) (fields : List FilterField) : QmiFilter :=
  fields.foldl (FilterField.set mask) .zeroed

/-- The fields of a filter are read one after the other, from the first to the last. -/
theorem parseQmiQosFilter_encode {fields : List FilterField} {fuel : Nat} (mask : PrefixMask)
    (f : QmiFilter) (h : slice mem p n = encode (fields.map FilterField.tlv)) (hfuel : n < fuel) :
    parseQmiQosFilter mask mem fuel p n f = some (fields.foldl (FilterField.set mask) f, p + n) := by
  induction fields generalizing p n fuel f with
  | nil =>
    have hn : n = 0 := by simpa [encode] using congrArg List.length h
    obtain _ | fuel := fuel
    · omega
    · simp [parseQmiQosFilter, hn]
  | cons field fields ih =>
    obtain ⟨hat, hrest, hle⟩ := at_of_encode field.fits h
    have hsize : 3 ≤ field.tlv.size := Nat.le_add_right 3 _
    obtain _ | fuel := fuel
    · omega
    rw [parseQmiQosFilter, if_pos (by omega), parseFilterTlv_of_at field f hat]
    have hint : (n : Int) - (field.tlv.size : Nat) = ((n - field.tlv.size : Nat) : Int) := by omega
    dsimp only
    rw [hint, ih (field.set mask f) hrest (by omega), List.foldl_cons, Nat.add_assoc,
      Nat.add_sub_cancel' hle]

/-- The TLV of a filter. -/
def filterTlv (fields : List FilterField) : Item := ⟨0x10, encode (fields.map FilterField.tlv)⟩

/-- The filters are read in the order of the report. -/
theorem parseTxFilters_encode {filters : List (List FilterField)} {fuel : Nat} (mask : PrefixMask)
    (acc : List QmiFilter)
    (hfits : ∀ fields ∈ filters, (filterTlv fields).Fits)
    (h : slice mem p n = encode (filters.map filterTlv)) (hfuel : n < fuel) :
    parseTxFilters mask mem fuel p n acc = some (acc ++ filters.map (filterOf mask), some (p + n)) := by
  induction filters generalizing p n fuel acc with
  | nil =>
    have hn : n = 0 := by simpa [encode] using congrArg List.length h
    obtain _ | fuel := fuel
    · omega
    · simp [parseTxFilters, hn]
  | cons fields filters ih =>
    obtain ⟨hfit, hfits⟩ := List.forall_mem_cons.mp hfits
    obtain ⟨⟨htype, hsize, hvalue⟩, hrest, hle⟩ := at_of_encode hfit h
    rw [← hsize] at hvalue
    have hitem : (filterTlv fields).size = 3 + sizeAt mem p := by rw [Item.size, hsize]
    rw [hitem] at hrest hle
    obtain _ | fuel := fuel
    · omega
    have hparse := parseQmiQosFilter_encode mask .zeroed hvalue (Nat.lt_succ_self _)
    have hint : (n : Int) - 3 - (sizeAt mem p : Nat) = ((n - (3 + sizeAt mem p) : Nat) : Int) := by omega
    have hfuel' : n - (3 + sizeAt mem p) < fuel := by omega
    have hnext := ih (acc ++ [filterOf mask fields]) hfits hrest hfuel'
    rw [← Nat.add_assoc] at hnext
    have hspec : mem p = 0x10 := htype
    rw [parseTxFilters, if_pos (by omega), if_pos hspec, hparse]
    dsimp only
    rw [hint, ← filterOf, hnext, List.append_assoc, List.singleton_append, List.map_cons]
    congr 3
    omega

/-! ## Reports -/

/-- A field of a report, as the device sends it. -/
inductive ReportField
  | phyLinkState (state : UInt8)
  | globalFlowReport (qosId : UInt32) (newFlow stateChange : UInt8)
  | txFilter (filters : List (List FilterField))
  | other (item : Item) (h : item.type ∉ ([0x01, 0x10, 0x13] : List UInt8))

namespace ReportField

def tlv : ReportField → Item
  | .phyLinkState b => ⟨0x01, [b]⟩
  | .globalFlowReport id new state => ⟨0x10, le32 id ++ [new, state]⟩
  | .txFilter filters => ⟨0x13, encode (filters.map filterTlv)⟩
  | .other item _ => item

/-- The lengths fit their fields, and a TLV that is skipped is not empty: an empty one ends the
report. -/
def Ok : ReportField → Prop
  | .txFilter filters =>
    (∀ fields ∈ filters, (filterTlv fields).Fits) ∧ (tlv (.txFilter filters)).Fits
  | .other item _ => item.Fits ∧ item.value ≠ []
  | _ => True

/-- What a field means for the report. -/
def set (mask : PrefixMask) (r : ReportState) : ReportField → ReportState
  | .phyLinkState _ => r
  | .globalFlowReport id _ state => { r with flowId := id, action := some state }
  | .txFilter filters => { r with filters := r.filters ++ filters.map (filterOf mask) }
  | .other _ _ => r

theorem fits {field : ReportField} (h : field.Ok) : field.tlv.Fits := by
  cases field with
  | phyLinkState b => simp [tlv, Item.Fits]
  | globalFlowReport id new state => simp [tlv, Item.Fits, le16, le32]
  | txFilter filters => exact h.2
  | other item hother => exact h.1

end ReportField

theorem parseFlowReport_of_other {fuel endPosition : Nat} (r : ReportState) (hp : p < endPosition)
    (h : mem p ∉ ([0x01, 0x10, 0x13] : List UInt8)) (hsize : sizeAt mem p ≠ 0) :
    parseFlowReport mask mem (fuel + 1) p endPosition r =
      parseFlowReport mask mem fuel (p + 3 + sizeAt mem p) endPosition r := by
  have hn : (mem p).toNat ∉ ([0x01, 0x10, 0x13] : List UInt8).map UInt8.toNat := by
    intro hmem
    obtain ⟨type, htype, heq⟩ := List.mem_map.mp hmem
    exact h (UInt8.toNat_inj.mp heq ▸ htype)
  rw [parseFlowReport, if_pos hp]
  dsimp only
  rw [if_neg hsize]
  generalize (mem p).toNat = k at hn ⊢
  split
  case h_4 => rfl
  all_goals exact absurd (by decide) hn

/-- The TLVs of a report are read one after the other. -/
theorem parseFlowReport_encode {fields : List ReportField} {fuel : Nat} (r : ReportState)
    (hok : ∀ field ∈ fields, field.Ok) (h : slice mem p n = encode (fields.map ReportField.tlv))
    (hfuel : n < fuel) :
    parseFlowReport mask mem fuel p (p + n) r = some (fields.foldl (ReportField.set mask) r) := by
  induction fields generalizing p n fuel r with
  | nil =>
    have hn : n = 0 := by simpa [encode] using congrArg List.length h
    obtain _ | fuel := fuel
    · omega
    · simp [parseFlowReport, hn]
  | cons field fields ih =>
    obtain ⟨hfield, hfields⟩ := List.forall_mem_cons.mp hok
    obtain ⟨⟨htype, hsize, hvalue⟩, hrest, hle⟩ := at_of_encode (ReportField.fits hfield) h
    have hthree : 3 ≤ field.tlv.size := Nat.le_add_right 3 _
    obtain _ | fuel := fuel
    · omega
    have hend : p + n = p + field.tlv.size + (n - field.tlv.size) := by omega
    have hfuel' : n - field.tlv.size < fuel := by omega
    have hnext := ih (field.set mask r) hfields hrest hfuel'
    rw [← hend] at hnext
    rw [List.foldl_cons]
    cases field with
    | phyLinkState b =>
      rw [parseFlowReport, if_pos (by omega), htype]
      exact hnext
    | globalFlowReport id new state =>
      obtain ⟨hid, hbytes⟩ := slice_eq_append hvalue
      obtain ⟨-, hbytes⟩ := byte_of_slice hbytes
      have hstate : mem (p + 8) = state := (byte_of_slice hbytes).1
      rw [parseFlowReport, if_pos (by omega), htype]
      dsimp only [ReportField.tlv]
      have hflow : ulong mem (p + 3) = id := ulong_of_slice hid
      rw [hflow, hstate]
      exact hnext
    | txFilter filters =>
      rw [← hsize] at hvalue
      have hfilters := parseTxFilters_encode mask r.filters hfield.1 hvalue (Nat.lt_succ_self _)
      have hposition : p + 3 + sizeAt mem p = p + (ReportField.txFilter filters).tlv.size := by
        rw [Item.size, hsize, Nat.add_assoc]
      rw [parseFlowReport, if_pos (by omega), htype]
      dsimp only [ReportField.tlv]
      rw [hfilters, hposition]
      exact hnext
    | other item hother =>
      have hnonempty : sizeAt mem p ≠ 0 := by
        rw [hsize]
        exact fun hzero => hfield.2 (List.length_eq_zero_iff.mp hzero)
      have hposition : p + 3 + sizeAt mem p = p + item.size := by
        rw [Item.size, hsize, Nat.add_assoc]
        rfl
      rw [parseFlowReport_of_other r (by omega) (htype ▸ hother) hnonempty, hposition]
      exact hnext

/-- The report that fields describe. -/
def reportOf (mask : PrefixMask) (fields : List ReportField) : FlowReport :=
  let r := fields.foldl (ReportField.set mask) { flowId := 0, action := none, filters := [] }
  { flowId := r.flowId, action := flowAction r.action, filters := r.filters }

theorem readFlowReport_encode {fields : List ReportField} (hok : ∀ field ∈ fields, field.Ok)
    (h : slice mem p n = encode (fields.map ReportField.tlv)) :
    readFlowReport mask mem p n = some (reportOf mask fields) := by
  rw [readFlowReport, parseFlowReport_encode _ hok h (Nat.lt_succ_self n)]
  rfl

/-! ## Indications -/

/-- The TLV of a report in an indication. -/
def reportTlv (fields : List ReportField) : Item := ⟨0x10, encode (fields.map ReportField.tlv)⟩

theorem eventReports_encode {reports : List (List ReportField)} {tlv length fuel : Nat}
    (htype : mem tlv = 0x10) (hlength : sizeAt mem tlv = length) (hpos : 0 < length)
    (hok : ∀ fields ∈ reports, ∀ field ∈ fields, field.Ok)
    (hsame : ∀ fields ∈ reports, (reportTlv fields).value.length = length)
    (hfits : length < 65536) (h : slice mem p n = encode (reports.map reportTlv)) (hfuel : n < fuel) :
    eventReports mask mem fuel tlv p (p + n) = some (reports.map (reportOf mask)) := by
  induction reports generalizing p n fuel with
  | nil =>
    have hn : n = 0 := by simpa [encode] using congrArg List.length h
    obtain _ | fuel := fuel
    · omega
    · simp [eventReports, hn]
  | cons fields reports ih =>
    obtain ⟨hfields, hok⟩ := List.forall_mem_cons.mp hok
    obtain ⟨hlen, hsame⟩ := List.forall_mem_cons.mp hsame
    have hfit : (reportTlv fields).Fits := hlen.trans_lt hfits
    obtain ⟨⟨-, -, hvalue⟩, hrest, hle⟩ := at_of_encode hfit h
    rw [hlen] at hvalue
    have hsize : (reportTlv fields).size = 3 + length := by rw [Item.size, hlen]
    rw [hsize] at hrest hle
    obtain _ | fuel := fuel
    · omega
    have hend : p + n = p + (3 + length) + (n - (3 + length)) := by omega
    have hfuel' : n - (3 + length) < fuel := by omega
    have hnext := ih hok hsame hrest hfuel'
    rw [← hend, ← Nat.add_assoc] at hnext
    rw [eventReports, if_pos (by omega), if_pos htype, hlength, readFlowReport_encode hfields hvalue]
    dsimp only [Option.map_some]
    rw [if_neg (by omega), hnext]
    rfl

/-- The reports of an indication are read as they were written, if they are of one length: the length
of the first one is taken for all. -/
theorem processQosEventReportInd_encode {reports : List (List ReportField)} {length : Nat}
    (hok : ∀ fields ∈ reports, ∀ field ∈ fields, field.Ok)
    (hsame : ∀ fields ∈ reports, (reportTlv fields).value.length = length) (hpos : 0 < length)
    (hfits : length < 65536) (h : slice mem p n = encode (reports.map reportTlv)) :
    processQosEventReportInd mask mem p n = some (reports.map (reportOf mask)) := by
  cases reports with
  | nil =>
    have hn : n = 0 := by simpa [encode] using congrArg List.length h
    simp [processQosEventReportInd, eventReports, hn]
  | cons fields reports =>
    have hlen := hsame fields List.mem_cons_self
    have hfit : (reportTlv fields).Fits := hlen.trans_lt hfits
    obtain ⟨⟨htype, hsize, -⟩, -⟩ := at_of_encode hfit h
    exact eventReports_encode htype (hsize.trans hlen) hpos hok hsame hfits h (Nat.lt_succ_self n)

/-- A flow with a filter for the version and the ports, and an end of it. -/
def sampleReports : List (List ReportField) :=
  [[.globalFlowReport 7 1 1, .txFilter [[.ipVersion 4, .port .udpDest 53 2, .precedence 3]]],
    [.globalFlowReport 7 0 3, .other ⟨0x11, List.replicate 19 0⟩ (by decide)]]

/-- The bytes of the indication, from the address zero on. -/
def sampleIndication (p : Nat) : UInt8 := (encode (sampleReports.map reportTlv)).getD p 0

theorem processQosEventReportInd_encode_sample :
    processQosEventReportInd (fun _ => ⟨0, 0⟩) sampleIndication 0 68 =
      some (sampleReports.map (reportOf fun _ => ⟨0, 0⟩)) :=
  processQosEventReportInd_encode
    (by simp [sampleReports, ReportField.Ok, Item.Fits, ReportField.tlv, filterTlv, encode, Item.encode,
      FilterField.tlv, PortField.type, le16])
    (by decide : ∀ fields ∈ sampleReports, (reportTlv fields).value.length = 31)
    (by decide) (by decide) (by decide)

/-! ## Any report -/

/-- A turn goes on by three bytes at least. -/
theorem three_le_parseFilterTlv (mask : PrefixMask) (mem : Nat → UInt8) (p : Nat) (f : QmiFilter) :
    3 ≤ (parseFilterTlv mask mem p f).2 := by
  rw [parseFilterTlv]
  split
  all_goals simp

theorem parseQmiQosFilter_some {fuel : Nat} (mask : PrefixMask) (mem : Nat → UInt8) (p : Nat)
    {remaining : Int} (f : QmiFilter) (hfuel : remaining < fuel) (hpos : 0 < fuel) :
    ∃ f' next, parseQmiQosFilter mask mem fuel p remaining f = some (f', next) ∧ p ≤ next := by
  induction fuel generalizing p remaining f with
  | zero => omega
  | succ fuel ih =>
    rw [parseQmiQosFilter]
    split_ifs with hmore
    · have hthree := three_le_parseFilterTlv mask mem p f
      have hfuel' : remaining - (parseFilterTlv mask mem p f).2 < fuel := by omega
      obtain ⟨f', next, heq, hle⟩ := ih (p + (parseFilterTlv mask mem p f).2)
        (parseFilterTlv mask mem p f).1 hfuel' (by omega)
      exact ⟨f', next, heq, by omega⟩
    · exact ⟨f, p, rfl, le_rfl⟩

theorem parseTxFilters_some {fuel : Nat} (mask : PrefixMask) (mem : Nat → UInt8) (p : Nat)
    {total : Int} (filters : List QmiFilter) (hfuel : total < fuel) (hpos : 0 < fuel) :
    ∃ filters' next, parseTxFilters mask mem fuel p total filters = some (filters', next) ∧
      ∀ q, next = some q → p ≤ q := by
  induction fuel generalizing p total filters with
  | zero => omega
  | succ fuel ih =>
    rw [parseTxFilters]
    split_ifs with hmore htype
    · obtain ⟨f, next, hparse, hle⟩ := parseQmiQosFilter_some mask mem (p + 3) .zeroed
        (by omega : (sizeAt mem p : Int) < (sizeAt mem p + 1 : Nat)) (by omega)
      rw [hparse]
      dsimp only
      have hfuel' : total - 3 - sizeAt mem p < fuel := by omega
      obtain ⟨filters', next', heq, hnext⟩ := ih next (filters ++ [f]) hfuel' (by omega)
      refine ⟨filters', next', heq, fun q hq => ?_⟩
      have hle' := hnext q hq
      omega
    · exact ⟨filters, none, rfl, by simp⟩
    · exact ⟨filters, none, rfl, by simp⟩
    · refine ⟨filters, some p, rfl, fun q hq => ?_⟩
      rw [Option.some.inj hq]

theorem parseFlowReport_some {fuel endPosition : Nat} (mask : PrefixMask) (mem : Nat → UInt8)
    (r : ReportState) (hpos : 0 < fuel) (hfuel : endPosition < p + fuel) :
    ∃ r', parseFlowReport mask mem fuel p endPosition r = some r' := by
  induction fuel generalizing p r with
  | zero => omega
  | succ fuel ih =>
    rw [parseFlowReport]
    by_cases hmore : p < endPosition
    · rw [if_pos hmore]
      have hnext : ∀ q, p < q → ∀ r, ∃ r', parseFlowReport mask mem fuel q endPosition r = some r' :=
        fun q hq r => ih r (by omega) (by omega)
      have hskip : ∃ r', (if sizeAt mem p = 0 then some r
          else parseFlowReport mask mem fuel (p + 3 + sizeAt mem p) endPosition r) = some r' := by
        by_cases hzero : sizeAt mem p = 0
        · exact ⟨r, if_pos hzero⟩
        · rw [if_neg hzero]
          exact hnext _ (by omega) r
      dsimp only
      split
      · exact hnext _ (by omega) r
      · exact hnext _ (by omega) _
      · obtain ⟨filters, next, heq, hle⟩ := parseTxFilters_some mask mem (p + 3) r.filters
          (by omega : (sizeAt mem p : Int) < (sizeAt mem p + 1 : Nat)) (by omega)
        rw [heq]
        cases next with
        | none => exact ⟨_, rfl⟩
        | some q =>
          have hq := hle q rfl
          exact hnext q (by omega) _
      · exact hskip
    · rw [if_neg hmore]
      exact ⟨r, rfl⟩

theorem readFlowReport_some (mask : PrefixMask) (mem : Nat → UInt8) (flowReport reportLength : Nat) :
    ∃ r, readFlowReport mask mem flowReport reportLength = some r := by
  have hfuel : flowReport + reportLength < flowReport + (reportLength + 1) := by omega
  obtain ⟨r, hr⟩ := parseFlowReport_some mask mem { flowId := 0, action := none, filters := [] }
    (Nat.succ_pos reportLength) hfuel
  exact ⟨_, by rw [readFlowReport, hr]; rfl⟩

theorem eventReports_some {fuel tlv endPosition : Nat} (hpos : 0 < fuel)
    (hfuel : endPosition < p + fuel) :
    ∃ reports, eventReports mask mem fuel tlv p endPosition = some reports := by
  induction fuel generalizing p with
  | zero => omega
  | succ fuel ih =>
    rw [eventReports]
    by_cases hmore : p < endPosition
    · rw [if_pos hmore]
      obtain ⟨report, hreport⟩ : ∃ report, (if mem tlv = 0x10 then
          (readFlowReport mask mem (p + 3) (sizeAt mem tlv)).map fun r => [r] else some []) = some report := by
        obtain ⟨r, hr⟩ := readFlowReport_some mask mem (p + 3) (sizeAt mem tlv)
        split_ifs
        · exact ⟨[r], by rw [hr]; rfl⟩
        · exact ⟨[], rfl⟩
      obtain ⟨reports, hnext⟩ := ih (p := p + 3 + sizeAt mem tlv) (by omega) (by omega)
      rw [hreport, hnext]
      dsimp only [Option.map_some]
      split_ifs
      · exact ⟨report, rfl⟩
      · exact ⟨report ++ reports, rfl⟩
    · rw [if_neg hmore]
      exact ⟨[], rfl⟩

/-- Every indication is read to its end, whatever its bytes are and however deep its TLVs are nested. -/
theorem processQosEventReportInd_some (mask : PrefixMask) (mem : Nat → UInt8) (tlvs length : Nat) :
    ∃ reports, processQosEventReportInd mask mem tlvs length = some reports :=
  eventReports_some (Nat.succ_pos length) (by omega)

end Ndis.Qos

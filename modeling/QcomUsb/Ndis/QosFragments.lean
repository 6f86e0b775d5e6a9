-- SUMMARY: The later fragments of a packet go to the flow of its first fragment, whatever the threads do in between.
import QcomUsb.Ndis.QosPackets

/-!
# Fragments

Only the first fragment of a packet is compared with the filters. The filter that takes it keeps an
entry, by which it takes the other fragments, until it has seen the last one.
-/

namespace Ndis.Qos

open Transition

variable {P : Type}

/-! ## The entries of a filter -/

/-- The version of the packets that an entry is for. -/
def PktInfo.version : PktInfo → UInt8
  | .v4 .. => 4
  | .v6 .. => 6
  | .other version => version

/-- Which fragment of which packet is in the buffer. -/
def fragmentInfo (mem : Nat → UInt8) (size : Nat) : Option (Fragment × PktInfo) :=
  let hdr := getIPHeaderV4 mem
  if hdr.version = 6 then
    (getIPHeaderV6 mem size).map fun hdr =>
      (fragmentOf (hdr.mFlag = 1) hdr.fragmentOffset, hdr.pktInfo)
  else some (fragmentOf (hdr.flags &&& 0x01 ≠ 0) hdr.fragmentOffset, hdr.pktInfo)

variable {f : QmiFilter} {mem : Nat → UInt8} {size : Nat} {allocated : Bool} {fragment : Fragment}
  {info : PktInfo}

namespace State

variable {s s' : State P} {c : Config} {fl : FlowPtr} {g : Nat} {p : P}

/-- The only filter of the flows with an entry for the packet is that of `fl`, and the filter is
looked at. -/
structure OwnedBy (c : Config) (s : State P) (info : PktInfo) (fl : FlowPtr) (g : Nat) : Prop where
  linked : s.Linked g
  flow : (s.filter g).flow = fl
  keeps : info ∈ (s.filter g).filter.packetInfoList
  version : info.version = (s.filter g).filter.ipVersion
  searched : s.precedence g < qosFilterPrecedenceInvalid ∨ c.mpDisableQoS = false
  only : ∀ x, s.Linked x → info ∈ (s.filter x).filter.packetInfoList → x = g

/-- No filter of the flows has an entry for the packet. -/
def Unowned (s : State P) (info : PktInfo) : Prop :=
  ∀ g, s.Linked g → info ∉ (s.filter g).filter.packetInfoList

/-- The later fragments of the packet go to the flow. -/
def RoutedTo (c : Config) (s : State P) (info : PktInfo) (fl : FlowPtr) : Prop :=
  (∃ g, s.OwnedBy c info fl g) ∨ fl = .defaultQosFlow ∧ s.Unowned info

/-- What the way of a packet depends on. -/
structure SameFilters (s s' : State P) (info : PktInfo) : Prop where
  linked : ∀ g, s'.Linked g ↔ s.Linked g
  flow : ∀ g, (s'.filter g).flow = (s.filter g).flow
  version : ∀ g, (s'.filter g).filter.ipVersion = (s.filter g).filter.ipVersion
  precedence : ∀ g, s'.precedence g = s.precedence g
  keeps : ∀ g,
    info ∈ (s'.filter g).filter.packetInfoList ↔ info ∈ (s.filter g).filter.packetInfoList

theorem SameFilters.of_eq (hlinked : ∀ g, s'.Linked g ↔ s.Linked g) (hfilter : s'.filter = s.filter) :
    s.SameFilters s' info where
  linked := hlinked
  flow g := by rw [hfilter]
  version g := by rw [hfilter]
  precedence g := by rw [State.precedence, State.precedence, hfilter]
  keeps g := by rw [hfilter]

theorem Unowned.same (h : s.Unowned info) (hs : s.SameFilters s' info) : s'.Unowned info :=
  fun g hg hmem => h g ((hs.linked g).mp hg) ((hs.keeps g).mp hmem)

theorem RoutedTo.same (h : s.RoutedTo c info fl) (hs : s.SameFilters s' info) :
    s'.RoutedTo c info fl := by
  rcases h with ⟨g, hg⟩ | ⟨rfl, hg⟩
  · refine .inl ⟨g, (hs.linked g).mpr hg.linked, (hs.flow g).trans hg.flow, (hs.keeps g).mpr hg.keeps,
      hg.version.trans (hs.version g).symm, ?_, fun x hx hmem => ?_⟩
    · rw [hs.precedence]
      exact hg.searched
    · exact hg.only x ((hs.linked x).mp hx) ((hs.keeps x).mp hmem)
  · exact .inr ⟨rfl, hg.same hs⟩

/-! ## The steps that leave the filters alone -/

end State

/-! ## Runs -/

/-- The step leaves the filters as they are, and what they keep for the packet. -/
def Op.Keeps (info : PktInfo) : Op P → Prop
  | .processQosFlowReport .. | .purgeQueues => False
  | .categorizePacket _ (some mem) size _ =>
    fragmentInfo mem size ≠ some (.first, info) ∧ fragmentInfo mem size ≠ some (.last, info)
  | _ => True

end Ndis.Qos

-- SUMMARY: The reasons a Gobi net device is down, its carrier, and the traffic it refuses.
import QcomUsb.UsbNet.Qmap

/-!
# Down reasons

`mDownReason` has a bit for each reason the device is down. `GobiSetDownReason` turns the
carrier off and `GobiClearDownReason` turns it on once no bit is left, but neither of them
writes a bit. So a reason that is set is never seen again.
-/

namespace UsbNet

/-- The reasons of `common.h`. -/
inductive DownReason where
  | noNdisConnection
  | cdcConnectionSpeed
  | driverSuspended
  | netIfaceStopped
  deriving DecidableEq, Repr

/-- The bit of `mDownReason`. -/
def DownReason.bit : DownReason → Nat
  | .noNdisConnection => 0
  | .cdcConnectionSpeed => 1
  | .driverSuspended => 2
  | .netIfaceStopped => 3

/-- What the link of a `sGobiUSBNet` consists of. `mURBList` are the frames queued for the
traffic thread, and its length is `mURBListLen`. -/
structure GobiLink where
  mbQMIValid : Bool
  mDownReason : Nat
  carrier : Bool
  mURBList : List (List UInt8)

/-- `usbnet_link_change` of the kernel: the carrier after it, from the carrier before and
the arguments `link` and `need_reset`. -/
abbrev UsbnetLinkChange := Bool → Bool → Bool → Bool

/-- `GobiSetDownReason`. The reason is not used. -/
def gobiSetDownReason (usbnetLinkChange : UsbnetLinkChange) (d : GobiLink) (_reason : DownReason) :
    GobiLink :=
  { d with carrier := usbnetLinkChange d.carrier false false }

/-- `GobiClearDownReason`. The reason is not used. -/
def gobiClearDownReason (usbnetLinkChange : UsbnetLinkChange) (d : GobiLink)
    (_reason : DownReason) : GobiLink :=
  if d.mbQMIValid = false then d
  else if d.mDownReason = 0 then { d with carrier := usbnetLinkChange d.carrier true false }
  else d

/-- `GobiTestDownReason`. -/
def gobiTestDownReason (d : GobiLink) (reason : DownReason) : Bool :=
  if d.mbQMIValid = false then false else d.mDownReason.testBit reason.bit

/-- `NETDEV_TX_OK` and `NETDEV_TX_BUSY`. -/
inductive NetdevTx where
  | ok
  | busy
  deriving DecidableEq, Repr

/-- What `GobiUSBNetStartXmit` depends on besides the device: the limit of the queue, and
which of its three allocations succeed. -/
structure XmitEnv where
  txQueueLength : Nat
  urbListEntry : Bool
  urb : Bool
  urbData : Bool

/-- `GobiUSBNetStartXmit`. The mux id is 0 unless the driver is built for virtual USB. -/
def gobiUSBNetStartXmit (d : GobiLink) (env : XmitEnv) (skb : List UInt8) (data : Nat) :
    NetdevTx × GobiLink :=
  if gobiTestDownReason d .driverSuspended = true then (.busy, d)
  else if env.txQueueLength ≤ d.mURBList.length then (.busy, d)
  else if env.urbListEntry = false then (.busy, d)
  else if env.urb = false then (.busy, d)
  else if env.urbData = false then (.busy, d)
  else (.ok, { d with mURBList := d.mURBList ++ [qmapMux skb data] })

/-- `QMIWDSCallback` once a report arrived. The report may hold a link state and a
reconfiguration; a report that cannot be parsed is `none`. -/
def qmiWdsCallback (usbnetLinkChange : UsbnetLinkChange) (d : GobiLink)
    (report : Option (Option Bool × Bool)) : GobiLink :=
  if d.mbQMIValid = false then d
  else
    match report with
    | none => d
    | some (linkState, bReconfigure) =>
      let bLinkState := linkState.getD (!gobiTestDownReason d .noNdisConnection)
      if bReconfigure then
        gobiClearDownReason usbnetLinkChange
          (gobiSetDownReason usbnetLinkChange d .noNdisConnection) .noNdisConnection
      else if bLinkState then gobiClearDownReason usbnetLinkChange d .noNdisConnection
      else gobiSetDownReason usbnetLinkChange d .noNdisConnection

/-! ## Sequences of calls -/

/-- A call on a down reason. -/
inductive DownCall where
  | set (reason : DownReason)
  | clear (reason : DownReason)
  deriving DecidableEq, Repr

def DownCall.apply (usbnetLinkChange : UsbnetLinkChange) (d : GobiLink) : DownCall → GobiLink
  | .set reason => gobiSetDownReason usbnetLinkChange d reason
  | .clear reason => gobiClearDownReason usbnetLinkChange d reason

/-- The device after a sequence of calls. -/
def afterDownCalls (usbnetLinkChange : UsbnetLinkChange) (d : GobiLink) (calls : List DownCall) :
    GobiLink :=
  calls.foldl (DownCall.apply usbnetLinkChange) d

/-- The reason was set and not cleared since. -/
def Outstanding (calls : List DownCall) (reason : DownReason) : Prop :=
  ∃ past later, calls = past ++ .set reason :: later ∧ .clear reason ∉ later

/-- `GobiUSBNetProbe` clears the bits and sets two reasons. -/
def probedLink (usbnetLinkChange : UsbnetLinkChange) (d : GobiLink) : GobiLink :=
  afterDownCalls usbnetLinkChange { d with mDownReason := 0 }
    [.set .noNdisConnection, .set .netIfaceStopped]

/-- A report of the wireless data service amounts to calls. -/
def reportCalls (report : Option (Option Bool × Bool)) : List DownCall :=
  match report with
  | none => []
  | some (linkState, bReconfigure) =>
    if bReconfigure then [.set .noNdisConnection, .clear .noNdisConnection]
    else if linkState.getD true then [.clear .noNdisConnection]
    else [.set .noNdisConnection]

variable {usbnetLinkChange : UsbnetLinkChange} {d : GobiLink} {calls : List DownCall}

/-- A device that is valid and has no bit set. -/
structure GobiLink.Clean (d : GobiLink) : Prop where
  mbQMIValid : d.mbQMIValid = true
  mDownReason : d.mDownReason = 0

theorem DownCall.apply_clean (h : d.Clean) (call : DownCall) :
    (call.apply usbnetLinkChange d).Clean := by
  cases call with
  | set reason => exact ⟨h.mbQMIValid, h.mDownReason⟩
  | clear reason =>
    simp only [DownCall.apply, gobiClearDownReason]
    split_ifs
    · exact h
    · exact ⟨h.mbQMIValid, h.mDownReason⟩
    · exact h

/-- No call leaves a bit behind. -/
theorem afterDownCalls_clean (usbnetLinkChange : UsbnetLinkChange) (h : d.Clean)
    (calls : List DownCall) :
    (afterDownCalls usbnetLinkChange d calls).Clean := by
  induction calls generalizing d with
  | nil => exact h
  | cons call calls ih => exact ih (DownCall.apply_clean h call)

theorem gobiTestDownReason_clean (h : d.Clean) (reason : DownReason) :
    gobiTestDownReason d reason = false := by
  simp [gobiTestDownReason, h.mbQMIValid, h.mDownReason]

/-- A queue with room and memory for the frame. -/
structure XmitEnv.Ready (env : XmitEnv) (d : GobiLink) : Prop where
  room : d.mURBList.length < env.txQueueLength
  urbListEntry : env.urbListEntry = true
  urb : env.urb = true
  urbData : env.urbData = true

/-- With room and memory a frame is refused exactly when the suspend bit is set. -/
theorem gobiUSBNetStartXmit_busy {env : XmitEnv} (h : env.Ready d) (skb : List UInt8) (data : Nat) :
    (gobiUSBNetStartXmit d env skb data).1 = .busy ↔
      gobiTestDownReason d .driverSuspended = true := by
  have hroom : ¬ env.txQueueLength ≤ d.mURBList.length := Nat.not_le.mpr h.room
  cases htest : gobiTestDownReason d .driverSuspended with
  | true => simp [gobiUSBNetStartXmit, htest]
  | false => simp [gobiUSBNetStartXmit, htest, hroom, h.urbListEntry, h.urb, h.urbData]

/-- The device `d` answers as the reasons outstanding after `calls` say. -/
structure FollowsReasons (calls : List DownCall) (d : GobiLink) : Prop where
  carrier : d.carrier = true → ∀ reason, ¬ Outstanding calls reason
  test : ∀ reason, gobiTestDownReason d reason = true ↔ Outstanding calls reason
  xmit : ∀ env : XmitEnv, env.Ready d → ∀ skb data,
    ((gobiUSBNetStartXmit d env skb data).1 = .busy ↔ Outstanding calls .driverSuspended)

/-- The device follows the down reasons exactly when no reason is outstanding. -/
theorem followsReasons_iff (usbnetLinkChange : UsbnetLinkChange) (d : GobiLink) (h : d.Clean)
    (calls : List DownCall) :
    FollowsReasons calls (afterDownCalls usbnetLinkChange d calls) ↔
      ∀ reason, ¬ Outstanding calls reason := by
  have hclean := afterDownCalls_clean usbnetLinkChange h calls
  constructor
  · intro hf reason hout
    have htest := (hf.test reason).mpr hout
    rw [gobiTestDownReason_clean hclean reason] at htest
    cases htest
  · intro hnone
    have htest (reason : DownReason) : gobiTestDownReason
        (afterDownCalls usbnetLinkChange d calls) reason = true ↔ Outstanding calls reason := by
      simp [gobiTestDownReason_clean hclean reason, hnone reason]
    refine ⟨fun _ => hnone, htest, ?_⟩
    intro env hready skb data
    rw [gobiUSBNetStartXmit_busy hready skb data]
    exact htest .driverSuspended

/-- `usbnet_link_change` turns the carrier on for a link that needs no reset. -/
def kernelLinkChange : UsbnetLinkChange := fun _ link needReset => link && !needReset

/-- A valid device without bits, for the examples. -/
def cleanLink : GobiLink := ⟨true, 0, false, []⟩

theorem followsReasons_iff_resumed :
    FollowsReasons [.set .driverSuspended, .clear .driverSuspended]
      (afterDownCalls kernelLinkChange cleanLink [.set .driverSuspended, .clear .driverSuspended]) ↔
    ∀ reason, ¬ Outstanding [.set .driverSuspended, .clear .driverSuspended] reason :=
  followsReasons_iff kernelLinkChange cleanLink ⟨rfl, rfl⟩ _

/-- After a suspend the interface is opened: the carrier is on and traffic is not refused. -/
theorem followsReasons_suspended :
    ¬ FollowsReasons [.set .driverSuspended, .clear .netIfaceStopped]
      (afterDownCalls kernelLinkChange cleanLink [.set .driverSuspended, .clear .netIfaceStopped]) := by
  intro hf
  have hcarrier : (afterDownCalls kernelLinkChange cleanLink
      [.set .driverSuspended, .clear .netIfaceStopped]).carrier = true := rfl
  exact hf.carrier hcarrier .driverSuspended ⟨[], _, rfl, by simp⟩

end UsbNet

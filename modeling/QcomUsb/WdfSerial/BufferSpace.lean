-- SUMMARY: The ring buffer of the serial read thread over its runs: it stays well formed, its bytes are counted, and what the thread copies fits.
import QcomUsb.WdfSerial.ReadSteps

/-!
# Space in the ring buffer

The thread asks for room before it takes a URB off the completion list, and copies
after it has released the lock. Nobody else writes to the buffer, so the room is still
there.
-/

namespace WdfSerial

/-- The URB the thread copies. -/
def Control.inHand : Control → Option Urb
  | .copy u => some u
  | _ => none

/-- The ring buffer is well formed, `AmountInInQueue` counts its bytes, and there is room for the
data in the hands of the thread. -/
structure State.Buffered (s : State) : Prop where
  ring : s.readRingBuffer.Inv
  amount : s.amountInInQueue = s.bytesUsed
  fits : ∀ u ∈ s.control.inHand, u.availableBytes ≤ s.bytesFree

variable {d : VendorConfig} {s s' : State} {ok : Bool}

theorem inHand_of_sending {c : Control} (hc : c = .wait ∨ c = .emptyFreeList ∨ c.sending = true) :
    c.inHand = none := by
  rcases hc with rfl | rfl | hc
  · rfl
  · rfl
  · cases c <;> simp_all [Control.inHand, Control.sending]

theorem startResend_inHand (s : State) : s.startResend.control.inHand = none := by
  unfold State.startResend
  split <;> rfl

namespace State.Buffered

/-- The buffer stays, and nothing is taken in hand. -/
theorem of_same (h : s.Buffered) (hring : s'.readRingBuffer = s.readRingBuffer)
    (hamount : s'.amountInInQueue = s.amountInInQueue) (hc : s'.control.inHand = none) :
    s'.Buffered where
  ring := hring ▸ h.ring
  amount := hamount.trans (h.amount.trans (congrArg RingBuffer.bytesUsed hring.symm))
  fits u hu := by simp [hc] at hu

theorem readRing (h : s.Buffered) (hc : s.control.inHand = none) (r : ReadRequest) (mapped : Bool)
    (status : List UInt8 → ReadStatus) : (s.readRing r mapped status).Buffered where
  ring := (readRing_spec h.ring r mapped status).1
  amount := rfl
  fits u hu := by simp [State.readRing, hc] at hu

/-- There is room for the data, so it is copied. -/
theorem copied {u : Urb} (h : s.Buffered) (hc : s.control = .copy u) :
    ∃ ring : RingBuffer, ring.Inv ∧ ring.contents = s.readRingBuffer.contents ++ u.readBuffer ∧
      s.copyStep u = { s with
        readRingBuffer := ring
        urbs := s.urbs.insertFree u
        amountInInQueue := ring.bytesUsed
        control := .completion } := by
  have hfits : u.availableBytes ≤ s.bytesFree := h.fits u (by rw [hc]; rfl)
  rcases copyStep_cases h.ring u with ⟨-, hcopied⟩ | ⟨hfull, -⟩
  · exact hcopied
  · exact absurd hfits (Nat.not_le_of_lt hfull)

theorem thread (h : s.Buffered) (hs : s.threadStep d ok = some s') : s'.Buffered := by
  cases threadStep_cases hs with
  | completion hc hstep =>
    cases hstep with
    | empty | errorLimit | overflow => exact h.of_same rfl rfl rfl
    | recycle => exact h.of_same rfl rfl (by rw [hc]; rfl)
    | @take u rest n gone hlist hfits =>
      refine ⟨h.ring, h.amount, fun v hv => ?_⟩
      obtain rfl : u = v := by simpa [Control.inHand] using hv
      exact hfits
  | @copy u hc =>
    obtain ⟨ring, hring, -, heq⟩ := h.copied hc
    rw [heq]
    exact ⟨hring, rfl, fun v hv => by simp [Control.inHand] at hv⟩
  | completionDone hc =>
    unfold State.completionDoneStep
    dsimp only
    split <;> exact h.of_same rfl rfl rfl
  | arrive hc hstep =>
    cases hstep with
    | bypass | drain => exact h.of_same rfl rfl rfl
    | nothing | keep | forwarded | atOnce => exact h.of_same rfl rfl (startResend_inHand _)
  | drain hc hstep =>
    have hhand : s.control.inHand = none := by rw [hc]; rfl
    cases hstep with
    | empty | noRead => exact h.of_same rfl rfl (startResend_inHand _)
    | @notified r t status hnext | @served r t status hnext =>
      have ht : t.Buffered ∧ t.control.inHand = none := by
        cases nextRead_cases hnext <;> exact ⟨h.of_same rfl rfl hhand, hhand⟩
      exact (ht.1.readRing ht.2 r ok status).of_same rfl rfl ht.2
  | timeout hc hstep =>
    have hhand : s.control.inHand = none := by rw [hc]; rfl
    cases hstep with
    | empty | timedOut => exact h.of_same rfl rfl rfl
    | @partialRead r rest status =>
      have ht : State.Buffered { s with timeoutReadQueue := rest } := h.of_same rfl rfl hhand
      exact (ht.readRing hhand r ok status).of_same rfl rfl rfl
  | sends hc hstep =>
    cases hstep with
    | goes l n c hl hc' => exact h.of_same rfl rfl (inHand_of_sending hc')
    | @finish k => cases k <;> exact h.of_same rfl rfl rfl
  | clearRing hc => exact ⟨h.ring.clear, rfl, fun u hu => by simp [Control.inHand] at hu⟩
  | @cleared k => cases k <;> exact h.of_same rfl rfl rfl
  | arriveClosed | stopTarget => exact h.of_same rfl rfl rfl

theorem wake (h : s.Buffered) (e : Event) : (s.wake e).Buffered := by
  cases e with
  | d0Entry =>
    simp only [State.wake]
    split <;> exact h.of_same rfl rfl rfl
  | _ => exact h.of_same rfl rfl rfl

theorem step {op : Op} (h : s.Buffered) (hs : s.step d op = some s') : s'.Buffered := by
  cases step_cases hs with
  | wake => exact h.wake _
  | thread hstep => exact h.thread hstep
  | _ => exact ⟨h.ring, h.amount, h.fits⟩

end State.Buffered

theorem setupState_buffered (n : Nat) (pBuffer : Nat → UInt8) (capacity : Nat) :
    (setupState n pBuffer capacity).Buffered :=
  ⟨RingBuffer.init_inv .., rfl, fun u hu => by simp [setupState, Control.inHand] at hu⟩

end WdfSerial

-- SUMMARY: External QMI clients get each message that is addressed to them once and in order, as long as their reads are not cancelled behind the test of the cancel flag.
import QcomUsb.Ndis.ExternalReads

/-!
# Delivery to external clients

For a working adapter the search for the clients of a message is a walk over the device list. What
a client has received, with the message a thread still has for it, is what arrived for it.
-/

namespace Ndis.Ioc

open ListWalk Transition

variable {d : Devices} {s s' : State} {item : Item} {c thread : Nat}

/-! ## The search -/

namespace Devices

/-- A device that is reached reaches the same devices. -/
theorem reaches_eq (d : Devices) {a b : Nat} (h : reaches d.muxInterface a b = true) (e : Nat) :
    reaches d.muxInterface b e = reaches d.muxInterface a e := by
  have hmux := d.consistent a b h
  unfold reaches at h ⊢
  rw [hmux]
  split_ifs at h ⊢ with hne
  · rw [beq_iff_eq.mp h]
  · simp only [Bool.and_eq_true, beq_iff_eq] at h
    rw [h.1, h.2]

theorem reaches_self (d : Devices) (a : Nat) : reaches d.muxInterface a a = true := by
  unfold reaches
  split_ifs <;> simp

theorem isFirst_eq (d : Devices) {a b : Nat} (h : reaches d.muxInterface a b = true) (msg : Msg) :
    d.isFirst b msg = d.isFirst a msg := by
  funext c
  rw [isFirst, isFirst, DevInfo.isFirst, DevInfo.isFirst, d.reaches_eq h]

/-- The search starts at any of the adapters with the same clients. -/
theorem findIoDevice_eq (d : Devices) {a b : Nat} (h : reaches d.muxInterface a b = true)
    (msg : Msg) (last : Option Nat) : d.findIoDevice b msg last = d.findIoDevice a msg last := by
  have hfirst := d.isFirst_eq h msg
  have hnext : d.isNext b msg = d.isNext a msg := funext fun c => by
    rw [isNext, isNext, d.reaches_eq h]
  cases last with
  | none => rw [findIoDevice, findIoDevice, hfirst]
  | some last => rw [findIoDevice, findIoDevice, hnext]

/-- The first match of a broadcast is one of a later match. -/
theorem isFirst_eq_isNext (d : Devices) {adapter : Nat} {msg : Msg} (hmsg : msg.isBroadcast = true)
    (hc : c ∈ d.deviceList) : d.isFirst adapter msg c = d.isNext adapter msg c := by
  have hid : (d.dev c).hasId msg.clientId = false := by
    rw [beq_iff_eq.mp hmsg]
    exact d.notBroadcast c hc
  rw [isFirst, DevInfo.isFirst, isNext, hid, hmsg, Bool.false_or, Bool.true_and, Bool.and_comm,
    Bool.and_assoc]

/-- The search for the clients of a broadcast is a walk. -/
theorem findIoDevice_eq_next (d : Devices) {adapter : Nat} {msg : Msg}
    (hmsg : msg.isBroadcast = true) (last : Option Nat) :
    d.findIoDevice adapter msg last = next (d.isNext adapter msg) d.deviceList last := by
  cases last with
  | none => exact List.find?_congr fun c hc => d.isFirst_eq_isNext hmsg hc
  | some last => rfl

/-- The clients of a broadcast indication that is not too short are those of the walk. -/
theorem addressed_broadcast (d : Devices) (hmsg : item.msg.isBroadcast = true)
    (hind : item.msg.isInd = true) (hlength : qcqmuxHdrSize ≤ item.msg.qmux.length) :
    d.addressed c item = d.isNext item.adapter item.msg c := by
  simp only [addressed, isNext, hmsg, hind, hlength, decide_true, Bool.true_and, if_true]
  rw [Bool.and_comm, Bool.and_assoc]

/-- The clients of another message match in the first search. -/
theorem isFirst_of_addressed (d : Devices) (hmsg : item.msg.isBroadcast = false)
    (h : d.addressed c item = true) : d.isFirst item.adapter item.msg c = true := by
  simp only [addressed, hmsg, Bool.false_eq_true, if_false, Bool.and_eq_true] at h
  simp only [isFirst, DevInfo.isFirst, Bool.and_eq_true, Bool.or_eq_true]
  exact ⟨⟨h.1.1.2, h.1.2⟩, .inl h.2.2⟩

theorem addressed_of_isFirst (d : Devices) (hmsg : item.msg.isBroadcast = false)
    (hid : item.msg.clientId ≠ 0) (hlength : qcqmuxHdrSize ≤ item.msg.qmux.length)
    (h : d.isFirst item.adapter item.msg c = true) : d.addressed c item = true := by
  simp only [isFirst, DevInfo.isFirst, hmsg, Bool.false_and, Bool.or_false, Bool.and_eq_true] at h
  simp only [addressed, hmsg, Bool.false_eq_true, if_false, Bool.and_eq_true]
  exact ⟨⟨⟨decide_eq_true hlength, h.1.1⟩, h.1.2⟩, bne_iff_ne.mpr hid, h.2⟩

/-- A message that is too short is for no client. -/
theorem not_addressed_of_short (d : Devices) (h : item.msg.qmux.length < qcqmuxHdrSize) :
    d.addressed c item = false := by
  simp [addressed, Nat.not_le.mpr h]

/-- A message with the id of a client is for this client only. -/
theorem eq_of_addressed (d : Devices) (hmsg : item.msg.isBroadcast = false) {c' : Nat}
    (hc : c ∈ d.deviceList) (hc' : c' ∈ d.deviceList) (h : d.addressed c item = true)
    (h' : d.addressed c' item = true) : c = c' := by
  simp only [addressed, hmsg, Bool.false_eq_true, if_false, Bool.and_eq_true, beq_iff_eq,
    bne_iff_ne] at h h'
  refine d.unique c hc c' hc' (h'.1.1.2.trans h.1.1.2.symm) ?_ _ h.2.1 h.2.2 h'.2.2
  rw [d.reaches_eq h.1.2]
  exact h'.1.2

end Devices

/-! ## Calls under way -/

/-- What a call of `MPQMI_SendQMUXToExternalClient` has done so far: a broadcast has walked over the
list up to its last device, and any other message has not been sent yet. -/
structure Sends (d : Devices) (thread : Nat) (sending : Sending) : Prop where
  thread : sending.item.thread = thread
  isInd : sending.item.msg.isBroadcast = true → sending.item.msg.isInd = true
  reaches : reaches d.muxInterface sending.item.adapter sending.adapter = true
  walked : sending.item.msg.isBroadcast = true →
    Walked (d.isNext sending.item.adapter sending.item.msg) d.deviceList sending.served
      sending.pIocDev
  unsent : sending.item.msg.isBroadcast = false → sending.served = [] ∧ sending.pIocDev = none
  found : ∀ c, sending.found = some c →
    c ∈ d.deviceList ∧ d.addressed c sending.item = true ∧
      d.findIoDevice sending.item.adapter sending.item.msg sending.pIocDev = some c

namespace Sends

variable {sending : Sending}

theorem start (d : Devices) (item : Item)
    (hind : item.msg.isBroadcast = true → item.msg.isInd = true) :
    Sends d item.thread ⟨item, item.adapter, none, none, []⟩ where
  thread := rfl
  isInd := hind
  reaches := d.reaches_self item.adapter
  walked := fun _ => .start _ _
  unsent := fun _ => ⟨rfl, rfl⟩
  found := by simp

/-- What the search finds is a client of the message, unless the message is too short. -/
theorem addressed_of_findIoDevice (h : Sends d thread sending)
    (hnoId : sending.item.msg.clientId = 0 →
      ∀ c ∈ d.deviceList, d.isFirst sending.adapter sending.item.msg c = false)
    (hlength : qcqmuxHdrSize ≤ sending.item.msg.qmux.length)
    (hfind : d.findIoDevice sending.item.adapter sending.item.msg sending.pIocDev = some c) :
    c ∈ d.deviceList ∧ d.addressed c sending.item = true := by
  cases hmsg : sending.item.msg.isBroadcast with
  | true =>
    rw [d.findIoDevice_eq_next hmsg] at hfind
    obtain ⟨-, hc, hnext, -⟩ := (h.walked hmsg).next_some d.nodup hfind
    exact ⟨hc, (d.addressed_broadcast hmsg (h.isInd hmsg) hlength).trans hnext⟩
  | false =>
    rw [(h.unsent hmsg).2] at hfind
    have hc := List.mem_of_find?_eq_some hfind
    have hfirst := List.find?_some hfind
    refine ⟨hc, d.addressed_of_isFirst hmsg (fun hid => ?_) hlength hfirst⟩
    have hnot := hnoId hid c hc
    rw [d.isFirst_eq h.reaches] at hnot
    cases hnot.symm.trans hfirst

/-- When the search finds no device any more, all clients of the message are served. -/
theorem mem_served_of_findIoDevice (h : Sends d thread sending)
    (hfind : d.findIoDevice sending.item.adapter sending.item.msg sending.pIocDev = none)
    (hc : c ∈ d.deviceList) (haddressed : d.addressed c sending.item = true) :
    c ∈ sending.served := by
  cases hmsg : sending.item.msg.isBroadcast with
  | true =>
    rw [d.findIoDevice_eq_next hmsg] at hfind
    rw [(h.walked hmsg).next_none d.nodup hfind, List.mem_filter]
    have hlength : qcqmuxHdrSize ≤ sending.item.msg.qmux.length := by
      by_contra hshort
      cases (d.not_addressed_of_short (Nat.lt_of_not_le hshort)).symm.trans haddressed
    exact ⟨hc, (d.addressed_broadcast hmsg (h.isInd hmsg) hlength).symm.trans haddressed⟩
  | false =>
    rw [(h.unsent hmsg).2] at hfind
    have hnone := List.find?_eq_none.mp hfind c hc
    exact absurd (d.isFirst_of_addressed hmsg haddressed) hnone

/-- The client that was found is not served yet. -/
theorem not_mem_served (h : Sends d thread sending) (hfound : sending.found = some c) :
    c ∉ sending.served := by
  obtain ⟨-, -, hfind⟩ := h.found c hfound
  cases hmsg : sending.item.msg.isBroadcast with
  | true =>
    rw [d.findIoDevice_eq_next hmsg] at hfind
    exact ((h.walked hmsg).next_some d.nodup hfind).2.2.2
  | false =>
    rw [(h.unsent hmsg).1]
    exact List.not_mem_nil

/-- A device is found. -/
theorem look (h : Sends d thread sending)
    (hnoId : sending.item.msg.clientId = 0 →
      ∀ c ∈ d.deviceList, d.isFirst sending.adapter sending.item.msg c = false)
    (hlength : qcqmuxHdrSize ≤ sending.item.msg.qmux.length)
    (hfind : d.findIoDevice sending.item.adapter sending.item.msg sending.pIocDev = some c) :
    Sends d thread { sending with adapter := (d.dev c).adapter, found := some c } where
  thread := h.thread
  isInd := h.isInd
  reaches := by
    have haddressed := (h.addressed_of_findIoDevice hnoId hlength hfind).2
    simp only [Devices.addressed, Bool.and_eq_true] at haddressed
    exact haddressed.1.2
  walked := h.walked
  unsent := h.unsent
  found := by
    rintro x ⟨⟩
    obtain ⟨hc, haddressed⟩ := h.addressed_of_findIoDevice hnoId hlength hfind
    exact ⟨hc, haddressed, hfind⟩

/-- The device that was found is served, and a broadcast goes on. -/
theorem serve (h : Sends d thread sending) (hmsg : sending.item.msg.isBroadcast = true)
    (hfound : sending.found = some c) :
    Sends d thread
      { sending with pIocDev := some c, found := none, served := sending.served ++ [c] } where
  thread := h.thread
  isInd := h.isInd
  reaches := h.reaches
  walked := fun _ => by
    have hfind := (h.found c hfound).2.2
    rw [d.findIoDevice_eq_next hmsg] at hfind
    exact ((h.walked hmsg).next_some d.nodup hfind).1
  unsent := by simp [hmsg]
  found := by simp

end Sends

/-! ## What was received -/

/-- The calls under way, and what the clients have received. -/
structure Delivered (d : Devices) (s : State) : Prop where
  sends : ∀ thread sending, s.sender thread = some sending → Sends d thread sending
  inOrder : ∀ c ∈ d.deviceList, ∀ thread,
    (s.received c).filter (·.thread = thread) ++ s.inFlight d c thread =
      s.arrived.filter fun item => item.thread = thread ∧ d.addressed c item = true

theorem Delivered.initial (d : Devices) : Delivered d .initial where
  sends := by simp [State.initial]
  inOrder := fun _ _ _ => rfl

/-- The reads do not change what was received. -/
theorem Delivered.congr (h : Delivered d s) (hsender : s'.sender = s.sender)
    (harrived : s'.arrived = s.arrived) (hreceived : ∀ c, s'.received c = s.received c) :
    Delivered d s' where
  sends := hsender ▸ h.sends
  inOrder := by
    intro c hc thread
    rw [hreceived, harrived, ← h.inOrder c hc thread, State.inFlight, State.inFlight, hsender]

section

variable {sending : Sending} {next : Option Sending}

theorem inFlight_of_some (hsender : s.sender thread = some sending) :
    s.inFlight d c thread =
      if d.addressed c sending.item = true ∧ c ∉ sending.served then [sending.item] else [] := by
  rw [State.inFlight, hsender]

theorem inFlight_of_none (hsender : s.sender thread = none) : s.inFlight d c thread = [] := by
  rw [State.inFlight, hsender]

theorem inFlight_of_ne {t : Nat} (ht : t ≠ thread)
    (hsender : s'.sender = Function.update s.sender thread next) :
    s'.inFlight d c t = s.inFlight d c t := by
  rw [State.inFlight, State.inFlight, hsender, Function.update_of_ne ht]

/-- One call changed, and the others are what they were. -/
theorem Delivered.sends_update (h : Delivered d s)
    (hsends : ∀ n, next = some n → Sends d thread n) :
    ∀ t n, Function.update s.sender thread next t = some n → Sends d t n := by
  intro t n hn
  rcases eq_or_ne t thread with rfl | ht
  · rw [Function.update_self] at hn
    exact hsends n hn
  · rw [Function.update_of_ne ht] at hn
    exact h.sends t n hn

/-- A call goes on without serving a client. It still has its message for the same clients. -/
theorem Delivered.search (h : Delivered d s) (hsends : ∀ n, next = some n → Sends d thread n)
    (hsender : s'.sender = Function.update s.sender thread next)
    (harrived : s'.arrived = s.arrived) (hreceived : ∀ c, s'.received c = s.received c)
    (hinFlight : ∀ c ∈ d.deviceList, s'.inFlight d c thread = s.inFlight d c thread) :
    Delivered d s' where
  sends := hsender ▸ h.sends_update hsends
  inOrder := by
    intro c hc t
    rw [hreceived, harrived, ← h.inOrder c hc t]
    rcases eq_or_ne t thread with rfl | ht
    · rw [hinFlight c hc]
    · rw [inFlight_of_ne ht hsender]

theorem look_delivered (h : Delivered d s)
    (hok : ∀ sending ∈ s.sender thread, sending.Steady d s)
    (hstep : s.look d thread = some s') : Delivered d s' := by
  unfold State.look at hstep
  split at hstep
  · rename_i item adapter pIocDev served hsending
    have hsends := h.sends thread _ hsending
    have hsteady := hok _ hsending
    unfold Sending.Steady at hsteady
    dsimp only at hsteady
    -- the message of a call that ends was for nobody else
    have hend (hserved : ∀ c ∈ d.deviceList, d.addressed c item = true → c ∈ served)
        (heq : some { s with sender := Function.update s.sender thread none } = some s') :
        Delivered d s' := by
      cases heq
      refine h.search (by simp) rfl rfl (fun _ => rfl) fun c hc => ?_
      rw [inFlight_of_none (Function.update_self ..), inFlight_of_some hsending, if_neg]
      exact fun hflight => hflight.2 (hserved c hc hflight.1)
    cases hworking : s.isQmiWorking adapter with
    | false =>
      simp only [hworking, Bool.false_eq_true, if_false] at hstep hsteady
      exact hend hsteady hstep
    | true =>
      rw [hworking, if_pos rfl] at hsteady
      rw [hworking, if_pos rfl, d.findIoDevice_eq hsends.reaches] at hstep
      cases hfind : d.findIoDevice item.adapter item.msg pIocDev with
      | none =>
        rw [hfind] at hstep
        exact hend (fun c hc => hsends.mem_served_of_findIoDevice hfind hc) hstep
      | some x =>
        simp only [hfind] at hstep
        split_ifs at hstep with hshort
        · refine hend (fun c hc haddressed => ?_) hstep
          cases (d.not_addressed_of_short hshort).symm.trans haddressed
        · cases hstep
          have hlength := Nat.le_of_not_lt hshort
          have hnext := hsends.look (fun hid => hsteady hid hlength) hlength hfind
          refine h.search (fun n hn => ?_) rfl rfl (fun _ => rfl) fun c hc => ?_
          · cases hn
            exact hnext
          · rw [inFlight_of_some (Function.update_self ..), inFlight_of_some hsending]
  · cases hstep

/-- A call starts. -/
theorem arrive_delivered {adapter : Nat} {msg : Msg} (h : Delivered d s)
    (hstep : s.arrive thread adapter msg = some s') : Delivered d s' := by
  unfold State.arrive at hstep
  split at hstep
  · cases hstep
  · rename_i hnone
    dsimp only at hstep
    split_ifs at hstep with hreject
    · cases hstep
      refine ⟨h.sends, fun c hc t => ?_⟩
      have hnot : d.addressed c ⟨thread, adapter, msg⟩ = false := by
        simp only [Bool.and_eq_true, Bool.not_eq_true'] at hreject
        simp [Devices.addressed, hreject.1, hreject.2]
      rw [List.filter_append, List.filter_singleton, ← h.inOrder c hc t]
      simp [hnot, State.received, State.inFlight]
    · cases hstep
      have hstart := Sends.start d ⟨thread, adapter, msg⟩ fun hmsg => by
        simpa [hmsg] using hreject
      refine ⟨h.sends_update fun n hn => ?_, fun c hc t => ?_⟩
      · cases hn
        exact hstart
      · rw [List.filter_append, ← h.inOrder c hc t]
        rcases eq_or_ne t thread with rfl | ht
        · rw [inFlight_of_none hnone, inFlight_of_some (Function.update_self ..)]
          cases haddressed : d.addressed c ⟨t, adapter, msg⟩ <;>
            simp [haddressed, State.received]
        · rw [inFlight_of_ne (s := s) ht rfl]
          simp [ht.symm, State.received]

end

/-! ## Delivery to one client -/

/-- A client got a message, and nothing else changed for the clients and the calls. -/
structure Gains (s s' : State) (c : Nat) (item : Item) : Prop where
  sender : s'.sender = s.sender
  arrived : s'.arrived = s.arrived
  self : s'.received c = s.received c ++ [item]
  other : ∀ c', c' ≠ c → s'.received c' = s.received c'

theorem insertReadDataQueue_gains (s : State) (c : Nat) (item : Item) :
    Gains s (s.insertReadDataQueue c item) c item where
  sender := rfl
  arrived := rfl
  self := by simp [State.received, State.insertReadDataQueue]
  other := fun c' hc => by simp [State.received, State.insertReadDataQueue, hc]

/-- A read is filled while no message waits. -/
theorem fillRead_gains (hdata : s.readDataQueue c = []) (irp : Irp) (item : Item) :
    Gains s (s.fillRead c irp item) c item where
  sender := rfl
  arrived := rfl
  self := by simp [State.received, State.fillRead, hdata]
  other := fun c' hc => by simp [State.received, State.fillRead, hc]

/-- Whether a read takes the message or not, the client gets it. -/
theorem fillReadIrp_gains (item : Item) (irps : List Irp)
    (hq : irps = [] ∨ s.readDataQueue c = []) :
    Gains s (State.fillReadIrp c item irps s) c item := by
  induction irps generalizing s with
  | nil => exact insertReadDataQueue_gains s c item
  | cons irp rest ih =>
    have hdata : s.readDataQueue c = [] := hq.resolve_left (List.cons_ne_nil irp rest)
    have hrest (status : NtStatus) :
        Gains s (State.fillReadIrp c item rest ((s.dequeueIrp c irp rest).setStatus irp status)) c
          item := by
      have hgains := ih (s := (s.dequeueIrp c irp rest).setStatus irp status) (.inr hdata)
      exact ⟨hgains.sender, hgains.arrived, hgains.self, hgains.other⟩
    unfold State.fillReadIrp
    dsimp only
    split_ifs
    · have hgains := fillRead_gains (s := s.dequeueIrp c irp rest) hdata irp item
      exact ⟨hgains.sender, hgains.arrived, hgains.self, hgains.other⟩
    · exact hrest .bufferTooSmall
    · exact hrest .cancelled

/-- Without a change of the queues and the reads, only the calls and the adapters differ. -/
theorem ReadInv.calls (h : ReadInv s) (sender : Nat → Option Sending) (arrived : List Item)
    (isQmiWorking : Nat → Bool) (pendingCtrlRequests : Nat → UInt8 → Int) :
    ReadInv { s with
      sender := sender
      arrived := arrived
      isQmiWorking := isQmiWorking
      pendingCtrlRequests := pendingCtrlRequests } := by
  obtain ⟨place, hplace⟩ := h.located
  exact ⟨⟨place, hplace.congr rfl rfl⟩, h.cancelOk.congr rfl rfl h.cancelOk.reading,
    h.filledOk.congr rfl rfl rfl fun _ _ hj => hj, h.notBoth⟩

/-- The client that was found is served, and the message is in flight for it no more. -/
theorem Delivered.serve {sending : Sending} {t : State} (h : Delivered d s)
    (hsending : s.sender thread = some sending) (hfound : sending.found = some c)
    (hgains : Gains s t c sending.item) :
    Delivered d { t with
      sender := Function.update t.sender thread
        (if sending.item.msg.isBroadcast then
          some { sending with pIocDev := some c, found := none, served := sending.served ++ [c] }
        else none) } := by
  have hsends := h.sends thread sending hsending
  obtain ⟨hc, haddressed, -⟩ := hsends.found c hfound
  have hnot := hsends.not_mem_served hfound
  refine ⟨?_, fun c' hc' t' => ?_⟩
  · dsimp only
    rw [hgains.sender]
    refine h.sends_update fun n hn => ?_
    cases hmsg : sending.item.msg.isBroadcast with
    | true =>
      rw [hmsg, if_pos rfl, Option.some.injEq] at hn
      exact hn ▸ hsends.serve hmsg hfound
    | false =>
      rw [hmsg] at hn
      cases hn
  · have hold := h.inOrder c' hc' t'
    rw [← hgains.arrived] at hold
    refine Eq.trans ?_ hold
    change (t.received c').filter _ ++ _ = _
    rcases eq_or_ne t' thread with rfl | ht
    · -- the client has the message, and no other one has got or lost it
      rcases eq_or_ne c' c with rfl | hne
      · rw [hgains.self, inFlight_of_some hsending, if_pos (And.intro haddressed hnot),
          List.filter_append]
        cases hmsg : sending.item.msg.isBroadcast with
        | true => simp [State.inFlight, hsends.thread]
        | false => simp [State.inFlight, hsends.thread]
      · rw [hgains.other c' hne, inFlight_of_some hsending]
        cases hmsg : sending.item.msg.isBroadcast with
        | true => simp [State.inFlight, hne]
        | false =>
          have hother : d.addressed c' sending.item = false := by
            rw [← Bool.not_eq_true]
            exact fun h' => hne (d.eq_of_addressed hmsg hc' hc h' haddressed)
          simp [State.inFlight, hother]
    · rw [inFlight_of_ne ht rfl, State.inFlight, State.inFlight, hgains.sender]
      rcases eq_or_ne c' c with rfl | hne
      · rw [hgains.self, List.filter_append]
        simp [hsends.thread, ht.symm]
      · rw [hgains.other c' hne]

theorem deliver_keeps (h : ReadInv s) (hdelivered : Delivered d s)
    (hstep : s.deliver d thread = some s') : ReadInv s' ∧ Delivered d s' := by
  unfold State.deliver at hstep
  split at hstep
  · rename_i item adapter pIocDev c served hsending
    obtain ⟨-, hstep⟩ := Option.ite_none_right_eq_some.mp hstep
    dsimp only at hstep
    obtain ⟨t, ht⟩ : ∃ t, t = if item.msg.isInd = true then s else
      s.countResponse adapter (d.dev c).qmiType := ⟨_, rfl⟩
    rw [← ht] at hstep
    have hread : ReadInv t := by
      rw [ht]
      split_ifs
      · exact h
      · exact h.calls ..
    have hgains : Gains s (State.fillReadIrp c item (t.readIrpQueue c) t) c item := by
      have hgains := fillReadIrp_gains item (t.readIrpQueue c) (hread.notBoth c).symm
      rw [ht] at hgains ⊢
      split_ifs at hgains ⊢
      · exact hgains
      · exact ⟨hgains.sender, hgains.arrived, hgains.self, hgains.other⟩
    cases hstep
    exact ⟨(fillReadIrp_readInv item _ hread rfl).calls ..,
      hdelivered.serve hsending rfl hgains⟩
  · cases hstep

theorem readFinish_delivered (h : Delivered d s) (hstep : s.readFinish c = some s') :
    Delivered d s' := by
  unfold State.readFinish at hstep
  split at hstep
  · cases hstep
  · rename_i irp hread
    dsimp only at hstep
    split at hstep
    · rename_i item rest hdata
      split_ifs at hstep
      · cases hstep
        refine h.congr rfl rfl fun c' => ?_
        rcases eq_or_ne c' c with rfl | hc
        · simp [State.received, State.fillRead, State.ioCompleteRequest, hdata]
        · simp [State.received, State.fillRead, State.ioCompleteRequest, hc]
      · cases hstep
        exact h.congr rfl rfl fun _ => rfl
    · cases hstep
      exact h.congr rfl rfl fun _ => rfl

/-- The steps that only move reads do not change what was received. -/
theorem readLock_delivered {irp : Irp} (h : Delivered d s) (hstep : s.readLock irp = some s') :
    Delivered d s' := by
  obtain ⟨-, hstep⟩ := Option.ite_none_right_eq_some.mp hstep
  dsimp only at hstep
  split_ifs at hstep <;> cases hstep <;> exact h.congr rfl rfl fun _ => rfl

theorem read_delivered {irp : Irp} {stopped : Bool} (h : Delivered d s)
    (hstep : s.read d irp stopped = some s') : Delivered d s' := by
  obtain ⟨-, hstep⟩ := Option.ite_none_left_eq_some.mp hstep
  dsimp only at hstep
  split_ifs at hstep <;> cases hstep <;> exact h.congr rfl rfl fun _ => rfl

theorem cancelReadRoutine_delivered {irp : Irp} (h : Delivered d s)
    (hstep : s.cancelReadRoutine irp = some s') : Delivered d s' := by
  obtain ⟨-, hstep⟩ := Option.ite_none_right_eq_some.mp hstep
  dsimp only at hstep
  split_ifs at hstep <;> cases hstep <;> exact h.congr rfl rfl fun _ => rfl

theorem emptyIrpCompletionQueue_delivered (h : Delivered d s)
    (hstep : s.emptyIrpCompletionQueue c = some s') : Delivered d s' := by
  unfold State.emptyIrpCompletionQueue at hstep
  split at hstep
  · cases hstep
  · obtain ⟨-, hstep⟩ := Option.ite_none_right_eq_some.mp hstep
    cases hstep
    exact h.congr rfl rfl fun _ => rfl

/-! ## Runs -/

/-- The invariant of a run. -/
structure Inv (d : Devices) (s : State) : Prop where
  reads : ReadInv s
  delivered : Delivered d s

theorem Inv.step {op : Op} (h : Inv d s) (hok : op.Steady d s) (hstep : step d s op = some s') :
    Inv d s' := by
  cases op with
  | arrive thread adapter msg =>
    refine ⟨?_, arrive_delivered h.delivered hstep⟩
    simp only [Ioc.step, State.arrive] at hstep
    split at hstep
    · cases hstep
    · split_ifs at hstep <;> cases hstep <;> exact h.reads.calls ..
  | look thread =>
    refine ⟨?_, look_delivered h.delivered hok hstep⟩
    simp only [Ioc.step, State.look] at hstep
    split at hstep
    · split at hstep
      · cases hstep
        exact h.reads.calls ..
      · split_ifs at hstep <;> cases hstep <;> exact h.reads.calls ..
    · cases hstep
  | deliver thread =>
    obtain ⟨hreads, hdelivered⟩ := deliver_keeps h.reads h.delivered hstep
    exact ⟨hreads, hdelivered⟩
  | read irp stopped => exact ⟨read_readInv h.reads hstep, read_delivered h.delivered hstep⟩
  | readLock irp => exact ⟨readLock_readInv h.reads hstep, readLock_delivered h.delivered hstep⟩
  | readFinish c => exact ⟨readFinish_readInv h.reads hstep, readFinish_delivered h.delivered hstep⟩
  | ioCancelIrp irp =>
    cases hstep
    exact ⟨ioCancelIrp_readInv h.reads hok, h.delivered.congr rfl rfl fun _ => rfl⟩
  | cancelReadRoutine irp =>
    exact ⟨cancelReadRoutine_readInv h.reads hstep, cancelReadRoutine_delivered h.delivered hstep⟩
  | emptyIrpCompletionQueue c =>
    exact ⟨emptyIrpCompletionQueue_readInv h.reads hstep,
      emptyIrpCompletionQueue_delivered h.delivered hstep⟩
  | qmiWorking adapter working =>
    cases hstep
    exact ⟨h.reads.calls .., h.delivered.congr rfl rfl fun _ => rfl⟩

theorem Inv.exact (h : Inv d s) : s.Exact d where
  inOrder := h.delivered.inOrder
  filled := h.reads.filledOk.filled
  filledOnce := h.reads.filledOk.once
  success := h.reads.filledOk.success
  notBoth := h.reads.notBoth
  onePlace := by
    obtain ⟨place, hplace⟩ := h.reads.located
    exact fun irp hirp => hplace.tracks.onePlace ((hplace.submitted irp).mp hirp)
  cancelled := h.reads.cancelOk.cancelled

/-- The clients get their messages in every run of steady steps. -/
theorem exact_of_steady (d : Devices) (ops : List Op)
    (hok : ∀ p ∈ (externalClients d).fires .initial ops, p.2.Steady d p.1) :
    ∀ s ∈ (externalClients d).visits .initial ops, s.Exact d := by
  intro s hs
  have hstep : ∀ s op s' o, Inv d s → op.Steady d s → externalClients d s op = some (s', o) →
      Inv d s' := fun s op s' o hinv hop hs => hinv.step hop (step_of_externalClients hs)
  have hinv := Machine.visits_all_of_fires hstep ⟨.initial, .initial d⟩ hok s hs
  exact hinv.exact

/-- Two clients of one service and one adapter, with the ids 1 and 2. -/
def twoClients : Devices where
  muxInterface := fun _ => ⟨0, 0, 0, 0⟩
  deviceList := [0, 1]
  dev := fun c => ⟨0, false, 2, c.toUInt8 + 1, 0⟩
  nodup := by decide
  consistent := fun _ _ _ => rfl
  notBroadcast := by decide
  unique := by
    have hid : ∀ c ∈ [0, 1], ∀ id : UInt8, id ≠ 0 →
        (DevInfo.mk 0 false 2 (Nat.toUInt8 c + 1) 0).hasId id = true → Nat.toUInt8 c + 1 = id := by
      simp only [DevInfo.hasId, Bool.or_eq_true, beq_iff_eq]
      rintro c - id hne (heq | rfl)
      · exact heq
      · exact absurd rfl hne
    have hinj : ∀ c ∈ [0, 1], ∀ c' ∈ [0, 1], Nat.toUInt8 c + 1 = Nat.toUInt8 c' + 1 → c = c' := by
      decide
    intro c hc c' hc' _ _ id hne h h'
    exact hinj c hc c' hc' ((hid c hc id hne h).trans (hid c' hc' id hne h').symm)

/-- A broadcast meets a read that is too short and one that is long enough, and a client without a
read. A read is cancelled while it waits. -/
def broadcastRun : List Op :=
  [.read ⟨0, 0, 2⟩ false, .readLock ⟨0, 0, 2⟩, .readFinish 0, .read ⟨1, 0, 8⟩ false,
    .readLock ⟨1, 0, 8⟩, .readFinish 0, .arrive 0 0 ⟨2, broadcastCid, [4, 0, 0, 9]⟩, .look 0,
    .deliver 0, .look 0, .deliver 0, .look 0, .emptyIrpCompletionQueue 0,
    .emptyIrpCompletionQueue 0, .read ⟨2, 1, 8⟩ false, .readLock ⟨2, 1, 8⟩, .readFinish 1,
    .read ⟨3, 1, 8⟩ false, .readLock ⟨3, 1, 8⟩, .readFinish 1, .ioCancelIrp ⟨3, 1, 8⟩,
    .cancelReadRoutine ⟨3, 1, 8⟩, .emptyIrpCompletionQueue 1]

theorem exact_of_steady_broadcast :
    (∀ p ∈ (externalClients twoClients).fires .initial broadcastRun, p.2.Steady twoClients p.1) ∧
      ∀ s ∈ (externalClients twoClients).visits .initial broadcastRun, s.Exact twoClients := by
  have hok : ∀ p ∈ (externalClients twoClients).fires .initial broadcastRun,
      p.2.Steady twoClients p.1 := by decide +kernel
  exact ⟨hok, exact_of_steady twoClients broadcastRun hok⟩

/-- A read that is cancelled between the test of `Cancel` and the installation of its routine stays
on `ReadIrpQueue`, and no routine is under way for it. -/
theorem cancelled_read_stays :
    ∃ s ∈ (externalClients twoClients).visits .initial
      [.read ⟨0, 0, 8⟩ false, .readLock ⟨0, 0, 8⟩, .ioCancelIrp ⟨0, 0, 8⟩, .readFinish 0],
      ¬ s.Exact twoClients := by
  obtain ⟨s, hs, hqueue, hcancel, hgone⟩ :
      ∃ s ∈ (externalClients twoClients).visits .initial
        [.read ⟨0, 0, 8⟩ false, .readLock ⟨0, 0, 8⟩, .ioCancelIrp ⟨0, 0, 8⟩, .readFinish 0],
        (⟨0, 0, 8⟩ : Irp) ∈ s.readIrpQueue 0 ∧ s.io.cancel ⟨0, 0, 8⟩ = true ∧
          (⟨0, 0, 8⟩ : Irp) ∉ s.io.running := by
    decide +kernel
  exact ⟨s, hs, fun h => hgone (h.cancelled 0 _ hqueue hcancel)⟩

end Ndis.Ioc

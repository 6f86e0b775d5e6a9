-- SUMMARY: The queue of QMI requests of the miniport and the work item that sends them, a limited number for each service.
import QcomUsb.Library.Transition

/-!
# Queued QMI requests

`MPWork_PostWriteRequests` takes requests off the head of `CtrlWriteList` and sends them
while the service of the head has fewer than `MaxPendingQMIReqs` requests pending. A
head over the limit goes to the tail, and the pass ends. `CtrlWriteLock` is not held
while a request is sent.
-/

namespace Ndis.CtrlWrite

open Transition

/-- `QMUX_TYPE_CTL`. -/
def qmuxTypeCtl : UInt8 := 0x00

/-- The fields of the QMI header in a `QCWRITEQUEUE` that its queueing depends on. -/
structure WriteQueue where
  qmiType : UInt8
  clientId : UInt8
deriving DecidableEq

/-- An element of `CtrlWriteList`. The number says when it was put there. -/
structure Queued extends WriteQueue where
  serial : Nat
deriving DecidableEq

/-- Where the pass of the work item is: not under way, at the test of its loop, or sending. -/
inductive Pass
  | idle
  | loop
  | sending (request : Queued)
deriving DecidableEq

/-- The fields of the adapter. An observer counts the requests put on `CtrlWriteList` and keeps the
ones sent, and the ones that a pass left behind although their service was below the limit. -/
structure State where
  ctrlWriteList : List Queued
  ctrlWritePendingList : List WriteQueue
  pendingCtrlRequests : UInt8 → Int
  maxPendingQMIReqs : Int
  clientId : UInt8 → UInt8
  isQmiWorking : Bool
  pass : Pass
  puts : Nat
  sent : List Queued
  leftBehind : List Queued

/-- What can happen: a request is queued, the requests that waited for a client id are queued, a
response comes in, QMI starts or stops working, or the pass goes on. Sending can fail for lack of
memory. -/
inductive Op
  | enqueue (request : WriteQueue)
  | moveQMIRequests
  | response (service : UInt8)
  | qmiWorking (working : Bool)
  | pass (allocated : Bool)

namespace State

/-- Requests go to the tail of `CtrlWriteList`. -/
def insertTail (s : State) (requests : List WriteQueue) : State :=
  { s with
    ctrlWriteList := s.ctrlWriteList ++ (requests.zipIdx s.puts).map fun r => ⟨r.1, r.2⟩
    puts := s.puts + requests.length }

/-- `MP_USBSendControl` and `MP_USBRequest`. -/
def enqueue (s : State) (request : WriteQueue) : State :=
  if request.qmiType ≠ qmuxTypeCtl ∧ request.clientId = 0x00 then
    { s with ctrlWritePendingList := s.ctrlWritePendingList ++ [request] }
  else s.insertTail [request]

/-- The client id that `MPMAIN_MoveQMIRequests` fills in. -/
def fillClientId (s : State) (request : WriteQueue) : WriteQueue :=
  if request.qmiType ≠ qmuxTypeCtl ∧ request.clientId = 0x00 then
    if s.clientId request.qmiType ≠ 0x00 then
      { request with clientId := s.clientId request.qmiType }
    else request
  else request

/-- `MPMAIN_MoveQMIRequests`. -/
def moveQMIRequests (s : State) : State :=
  { s with ctrlWritePendingList := [] }.insertTail (s.ctrlWritePendingList.map s.fillClientId)

def addPending (s : State) (service : UInt8) (n : Int) : State :=
  { s with
    pendingCtrlRequests :=
      Function.update s.pendingCtrlRequests service (s.pendingCtrlRequests service + n) }

/-- The service has room for a request. -/
def belowLimit (s : State) (service : UInt8) : Bool :=
  decide (s.pendingCtrlRequests service < s.maxPendingQMIReqs)

/-- The pass lets go of `CtrlWriteLock` for good. -/
def endPass (s : State) : State :=
  { s with
    pass := .idle
    leftBehind := s.leftBehind ++ s.ctrlWriteList.filter fun r => s.belowLimit r.qmiType }

/-- One turn of the loop of `MPWork_PostWriteRequests` under `CtrlWriteLock`. -/
def turn (s : State) : State :=
  match s.ctrlWriteList with
  | [] => s.endPass
  | request :: rest =>
    if s.belowLimit request.qmiType then
      { s with ctrlWriteList := rest, pass := .sending request }
    else { s with ctrlWriteList := rest ++ [request] }.endPass

/-- `MP_USBSendControlRequest`. -/
def send (s : State) (request : Queued) (allocated : Bool) : State :=
  if allocated then
    { s.addPending request.qmiType 1 with pass := .loop, sent := s.sent ++ [request] }
  else { s with pass := .loop }

/-- The pass goes on to its next lock boundary. While QMI is not working none is made. -/
def goOn (s : State) (allocated : Bool) : State :=
  match s.pass with
  | .idle => if s.isQmiWorking then { s with pass := .loop } else s
  | .loop => s.turn
  | .sending request => s.send request allocated

def step (s : State) : Op → State
  | .enqueue request => s.enqueue request
  | .moveQMIRequests => s.moveQMIRequests
  | .response service => s.addPending service (-1)
  | .qmiWorking working => { s with isQmiWorking := working }
  | .pass allocated => s.goOn allocated

end State

def ctrlWrite : Machine State Op Unit := fun s op => some (s.step op, ())

/-- An adapter with requests on its lists, and no pass under way. -/
def start (queue waiting : List WriteQueue) (pending : UInt8 → Int) (limit : Int)
    (clientId : UInt8 → UInt8) (isQmiWorking : Bool) : State where
  ctrlWriteList := queue.zipIdx.map fun r => ⟨r.1, r.2⟩
  ctrlWritePendingList := waiting
  pendingCtrlRequests := pending
  maxPendingQMIReqs := limit
  clientId := clientId
  isQmiWorking := isQmiWorking
  pass := .idle
  puts := queue.length
  sent := []
  leftBehind := []

/-! ## Order and progress -/

/-- Two requests to one service are in the order in which they were queued. -/
def Before (q r : Queued) : Prop := q.qmiType = r.qmiType → q.serial < r.serial

instance : DecidableRel Before := fun q r =>
  inferInstanceAs (Decidable (q.qmiType = r.qmiType → q.serial < r.serial))

/-- The request that is being sent. -/
def Pass.inHand : Pass → List Queued
  | .sending request => [request]
  | _ => []

/-- The requests that were sent and those that will be, in the order as it stands. -/
def State.line (s : State) : List Queued := s.sent ++ s.pass.inHand ++ s.ctrlWriteList

def State.InOrder (s : State) : Prop := s.line.Pairwise Before

instance (s : State) : Decidable s.InOrder := inferInstanceAs (Decidable (s.line.Pairwise Before))

/-- A pass that finds the service of the head at its limit finds no other request of that service,
and no request of a service below its limit. -/
def HeadBlocksNone (s : State) : Op → Prop
  | .pass _ =>
    s.pass = .loop → ∀ request ∈ s.ctrlWriteList.head?, s.belowLimit request.qmiType = false →
      ∀ r ∈ s.ctrlWriteList.tail, r.qmiType ≠ request.qmiType ∧ s.belowLimit r.qmiType = false
  | _ => True

/-- The numbers given so far are below the next one. -/
def State.Numbered (s : State) : Prop := ∀ r ∈ s.line, r.serial < s.puts

section

variable {s : State}

theorem line_insertTail (s : State) (requests : List WriteQueue) :
    (s.insertTail requests).line =
      s.line ++ (requests.zipIdx s.puts).map fun r => ⟨r.1, r.2⟩ := by
  simp [State.line, State.insertTail]

theorem serial_of_mem_zipIdx {requests : List WriteQueue} {n : Nat} {r : Queued}
    (h : r ∈ (requests.zipIdx n).map fun r => (⟨r.1, r.2⟩ : Queued)) :
    n ≤ r.serial ∧ r.serial < n + requests.length := by
  obtain ⟨⟨w, i⟩, hmem, rfl⟩ := List.mem_map.mp h
  exact ⟨List.le_snd_of_mem_zipIdx hmem, List.snd_lt_add_of_mem_zipIdx hmem⟩

theorem pairwise_zipIdx (requests : List WriteQueue) (n : Nat) :
    ((requests.zipIdx n).map fun r => (⟨r.1, r.2⟩ : Queued)).Pairwise Before := by
  induction requests generalizing n with
  | nil => exact List.Pairwise.nil
  | cons w requests ih =>
    refine List.pairwise_cons.mpr ⟨fun r hr _ => ?_, ih (n + 1)⟩
    exact (serial_of_mem_zipIdx hr).1

theorem State.Numbered.insertTail (h : s.Numbered) (requests : List WriteQueue) :
    (s.insertTail requests).Numbered := by
  intro r hr
  rw [line_insertTail] at hr
  have hputs : (s.insertTail requests).puts = s.puts + requests.length := rfl
  rcases List.mem_append.mp hr with hold | hnew
  · have := h r hold
    omega
  · have := (serial_of_mem_zipIdx hnew).2
    omega

theorem State.InOrder.insertTail (h : s.InOrder) (hnum : s.Numbered) (requests : List WriteQueue) :
    (s.insertTail requests).InOrder := by
  rw [State.InOrder, line_insertTail]
  refine List.pairwise_append.mpr ⟨h, pairwise_zipIdx _ _, fun q hq r hr _ => ?_⟩
  exact Nat.lt_of_lt_of_le (hnum q hq) (serial_of_mem_zipIdx hr).1

/-- Moving an entry to the end keeps the order exactly if nothing behind it is of its service. -/
theorem pairwise_rotate {front rest : List Queued} {q : Queued}
    (h : (front ++ q :: rest).Pairwise Before) :
    (front ++ (rest ++ [q])).Pairwise Before ↔ ∀ r ∈ rest, r.qmiType ≠ q.qmiType := by
  obtain ⟨hfront, hrest, hcross⟩ := List.pairwise_append.mp h
  obtain ⟨hq, hrest⟩ := List.pairwise_cons.mp hrest
  constructor
  · intro hrotated r hr hsame
    have hafter : (rest ++ [q]).Pairwise Before := (List.pairwise_append.mp hrotated).2.1
    have hlt : r.serial < q.serial :=
      (List.pairwise_append.mp hafter).2.2 r hr q List.mem_cons_self hsame
    exact Nat.lt_asymm hlt (hq r hr hsame.symm)
  · intro hother
    refine List.pairwise_append.mpr ⟨hfront, ?_, fun a ha b hb => ?_⟩
    · refine List.pairwise_append.mpr ⟨hrest, List.pairwise_singleton _ _, fun r hr b hb hsame => ?_⟩
      obtain rfl := List.mem_singleton.mp hb
      exact absurd hsame (hother r hr)
    · refine hcross a ha b ?_
      simpa [or_comm] using hb

/-! ## One step -/

/-- Requests are sent in order, and no pass leaves one behind that it could send. -/
structure State.Fair (s : State) : Prop where
  inOrder : s.InOrder
  leftBehind : s.leftBehind = []

theorem numbered_of_perm {s' : State} (h : s.Numbered) (hline : s'.line.Perm s.line)
    (hputs : s'.puts = s.puts) : s'.Numbered := by
  intro r hr
  rw [hputs]
  exact h r (hline.mem_iff.mp hr)

/-- A step that does not touch the requests. -/
theorem State.Fair.of_line {s' : State} (h : s.Fair) (hline : s'.line.Sublist s.line)
    (hleft : s'.leftBehind = s.leftBehind) : s'.Fair :=
  ⟨h.inOrder.sublist hline, hleft.trans h.leftBehind⟩

theorem State.Fair.insertTail (h : s.Fair) (hnum : s.Numbered) (requests : List WriteQueue) :
    (s.insertTail requests).Fair :=
  ⟨h.inOrder.insertTail hnum requests, h.leftBehind⟩

theorem turn_of_nil (hlist : s.ctrlWriteList = []) : s.turn = s.endPass := by
  simp [State.turn, hlist]

theorem turn_of_below {request : Queued} {rest : List Queued}
    (hlist : s.ctrlWriteList = request :: rest) (hbelow : s.belowLimit request.qmiType = true) :
    s.turn = { s with ctrlWriteList := rest, pass := .sending request } := by
  simp [State.turn, hlist, hbelow]

theorem turn_of_full {request : Queued} {rest : List Queued}
    (hlist : s.ctrlWriteList = request :: rest) (hfull : s.belowLimit request.qmiType = false) :
    s.turn = { s with ctrlWriteList := rest ++ [request] }.endPass := by
  simp [State.turn, hlist, hfull]

theorem line_turn_of_below {request : Queued} {rest : List Queued} (hpass : s.pass = .loop)
    (hlist : s.ctrlWriteList = request :: rest) (hbelow : s.belowLimit request.qmiType = true) :
    s.turn.line = s.line := by
  simp [turn_of_below hlist hbelow, State.line, hpass, hlist, Pass.inHand]

theorem line_turn_of_full {request : Queued} {rest : List Queued}
    (hlist : s.ctrlWriteList = request :: rest) (hfull : s.belowLimit request.qmiType = false) :
    s.turn.line = s.sent ++ (rest ++ [request]) := by
  simp [turn_of_full hlist hfull, State.endPass, State.line, Pass.inHand]

theorem leftBehind_turn_of_full {request : Queued} {rest : List Queued} (h : s.leftBehind = [])
    (hlist : s.ctrlWriteList = request :: rest) (hfull : s.belowLimit request.qmiType = false) :
    s.turn.leftBehind = [] ↔ ∀ r ∈ rest, s.belowLimit r.qmiType = false := by
  rw [turn_of_full hlist hfull]
  change s.leftBehind ++ (rest ++ [request]).filter (fun r => s.belowLimit r.qmiType) = [] ↔ _
  simp [h, hfull]

/-- A turn of the loop keeps the queue fair exactly if the head it finds blocks no other request. -/
theorem turn_fair (h : s.Fair) (hpass : s.pass = .loop) (allocated : Bool) :
    s.turn.Fair ↔ HeadBlocksNone s (.pass allocated) := by
  cases hlist : s.ctrlWriteList with
  | nil =>
    rw [turn_of_nil hlist]
    refine iff_of_true (h.of_line ?_ ?_) (by simp [HeadBlocksNone, hlist])
    · simp [State.line, State.endPass, hpass, Pass.inHand]
    · simp [State.endPass, hlist]
  | cons request rest =>
    cases hbelow : s.belowLimit request.qmiType with
    | true =>
      refine iff_of_true (h.of_line (by rw [line_turn_of_below hpass hlist hbelow]) ?_)
        (by simp [HeadBlocksNone, hlist, hbelow])
      rw [turn_of_below hlist hbelow]
    | false =>
      have hcond : HeadBlocksNone s (.pass allocated) ↔
          ∀ r ∈ rest, r.qmiType ≠ request.qmiType ∧ s.belowLimit r.qmiType = false := by
        simp [HeadBlocksNone, hpass, hlist, hbelow]
      have horder : (s.sent ++ request :: rest).Pairwise Before := by
        simpa [State.InOrder, State.line, hpass, hlist, Pass.inHand] using h.inOrder
      have hrotated : s.turn.InOrder ↔ ∀ r ∈ rest, r.qmiType ≠ request.qmiType := by
        rw [State.InOrder, line_turn_of_full hlist hbelow]
        exact pairwise_rotate horder
      have hleft := leftBehind_turn_of_full h.leftBehind hlist hbelow
      rw [hcond]
      constructor
      · intro hfair r hr
        exact ⟨hrotated.mp hfair.inOrder r hr, hleft.mp hfair.leftBehind r hr⟩
      · intro hblocks
        exact ⟨hrotated.mpr fun r hr => (hblocks r hr).1, hleft.mpr fun r hr => (hblocks r hr).2⟩

theorem line_send {request : Queued} (hpass : s.pass = .sending request) (allocated : Bool) :
    (s.send request allocated).line.Sublist s.line := by
  cases allocated with
  | true => simp [State.send, State.line, State.addPending, hpass, Pass.inHand]
  | false => simp [State.send, State.line, hpass, Pass.inHand]

theorem State.Numbered.turn (h : s.Numbered) (hpass : s.pass = .loop) : s.turn.Numbered := by
  cases hlist : s.ctrlWriteList with
  | nil =>
    rw [turn_of_nil hlist]
    exact numbered_of_perm h (by simp [State.line, State.endPass, hpass, Pass.inHand]) rfl
  | cons request rest =>
    cases hbelow : s.belowLimit request.qmiType with
    | true =>
      refine numbered_of_perm h (by rw [line_turn_of_below hpass hlist hbelow]) ?_
      rw [turn_of_below hlist hbelow]
    | false =>
      refine numbered_of_perm h ?_ (by rw [turn_of_full hlist hbelow]; rfl)
      rw [line_turn_of_full hlist hbelow]
      have hperm := (List.perm_append_singleton request rest).append_left s.sent
      simpa only [State.line, hpass, hlist, Pass.inHand, List.append_nil] using hperm

theorem State.Numbered.step {op : Op} (h : s.Numbered) : (s.step op).Numbered := by
  cases op with
  | enqueue request =>
    simp only [State.step, State.enqueue]
    split
    · exact h
    · exact h.insertTail [request]
  | moveQMIRequests => exact State.Numbered.insertTail (s := { s with ctrlWritePendingList := [] }) h _
  | response service => exact h
  | qmiWorking working => exact h
  | pass allocated =>
    simp only [State.step, State.goOn]
    cases hpass : s.pass with
    | idle =>
      cases s.isQmiWorking with
      | true => exact numbered_of_perm h (by simp [State.line, hpass, Pass.inHand]) rfl
      | false => exact h
    | loop =>
      exact h.turn hpass
    | sending request =>
      intro r hr
      have hputs : (s.send request allocated).puts = s.puts := by cases allocated <;> rfl
      rw [hputs]
      exact h r ((line_send hpass allocated).subset hr)

theorem step_fair {op : Op} (hnum : s.Numbered) (h : s.Fair) :
    (s.step op).Fair ↔ HeadBlocksNone s op := by
  cases op with
  | enqueue request =>
    refine iff_of_true ?_ trivial
    simp only [State.step, State.enqueue]
    split
    · exact h.of_line (.refl _) rfl
    · exact h.insertTail hnum [request]
  | moveQMIRequests =>
    exact iff_of_true (State.Fair.insertTail (s := { s with ctrlWritePendingList := [] })
      (h.of_line (.refl _) rfl) hnum _) trivial
  | response service => exact iff_of_true (h.of_line (.refl _) rfl) trivial
  | qmiWorking working => exact iff_of_true (h.of_line (.refl _) rfl) trivial
  | pass allocated =>
    simp only [State.step, State.goOn]
    cases hpass : s.pass with
    | idle =>
      refine iff_of_true ?_ (by simp [HeadBlocksNone, hpass])
      cases s.isQmiWorking with
      | true => exact h.of_line (by simp [State.line, hpass, Pass.inHand]) rfl
      | false => exact h
    | loop => exact turn_fair h hpass allocated
    | sending request =>
      refine iff_of_true (h.of_line (line_send hpass allocated) ?_) (by simp [HeadBlocksNone, hpass])
      cases allocated <;> rfl

/-- The requests to each service are sent in order and none is left behind exactly if, whenever a
pass finds the service of the head at its limit, no other request can suffer from it. -/
theorem ctrlWrite_fair (queue waiting : List WriteQueue) (pending : UInt8 → Int) (limit : Int)
    (clientId : UInt8 → UInt8) (isQmiWorking : Bool) (ops : List Op) :
    (∀ s ∈ ctrlWrite.visits (start queue waiting pending limit clientId isQmiWorking) ops,
      s.Fair) ↔
      ∀ p ∈ ctrlWrite.fires (start queue waiting pending limit clientId isQmiWorking) ops,
        HeadBlocksNone p.1 p.2 := by
  have hkept : ∀ s op s' (o : Unit), s.Numbered → True →
      ctrlWrite s op = some (s', o) → s'.Numbered := by
    intro s op s' o h _ hstep
    obtain ⟨rfl, -⟩ := Prod.mk.inj (Option.some.inj hstep)
    exact h.step
  have hfair : ∀ s op s' (o : Unit), s.Numbered → s.Fair → True →
      ctrlWrite s op = some (s', o) → (s'.Fair ↔ HeadBlocksNone s op) := by
    intro s op s' o hnum h _ hstep
    obtain ⟨rfl, -⟩ := Prod.mk.inj (Option.some.inj hstep)
    exact step_fair hnum h
  refine Machine.visits_all_iff_fires hkept hfair ?_ ⟨?_, rfl⟩ fun _ _ => trivial
  · intro r hr
    have hmem : r ∈ queue.zipIdx.map fun r => (⟨r.1, r.2⟩ : Queued) := by
      simpa [start, State.line, Pass.inHand] using hr
    have hlt := (serial_of_mem_zipIdx hmem).2
    rw [Nat.zero_add] at hlt
    exact hlt
  · simpa [State.InOrder, start, State.line, Pass.inHand] using pairwise_zipIdx queue 0

end

/-- Two requests to the service 1 wait while one is pending. The first one goes behind the second,
which is sent first when the response comes in. -/
theorem ctrlWrite_fair_rotated :
    ¬ ∀ s ∈ ctrlWrite.visits
        (start [⟨1, 7⟩, ⟨1, 8⟩] [] (fun v => if v = 1 then 1 else 0) 1 (fun _ => 0) true)
        [.pass true, .pass true, .response 1, .pass true, .pass true, .pass true], s.Fair := by
  intro hall
  have hlast := List.getLast_mem (List.ne_nil_of_mem (Machine.start_mem_visits (M := ctrlWrite)
    (start [⟨1, 7⟩, ⟨1, 8⟩] [] (fun v => if v = 1 then 1 else 0) 1 (fun _ => 0) true)
    [.pass true, .pass true, .response 1, .pass true, .pass true, .pass true]))
  have hinOrder := (hall _ hlast).inOrder
  revert hinOrder
  decide +kernel

end Ndis.CtrlWrite

-- SUMMARY: Walks over idle clients, and the runs in which open clients keep their ids.
import QcomUsb.Ndis.OpenClients

/-!
# Idle walks

A walk that stops at a device of its own adapter, while nobody counts himself at it, is the only
one to give its id up. The device stays on the list until it is cleared, and the walk goes on from
there.
-/

namespace Ndis.IdleClients

open Transition ServiceFile

namespace State

variable {s s' : State} {a d f : Nat} {file file' : File} {v : Dev}

/-! ## Requests, answers and new file objects -/

/-- A device is added behind the others, with nothing of its own. -/
theorem Inv.addDevice (h : s.Inv) (adapter controlObject : Nat) :
    (s.addDevice adapter controlObject).Inv := by
  have hunused := h.listed.unused s.nextDev le_rfl
  let v : Dev :=
    { Dev.unused with adapter := adapter, controlObject := controlObject, request := .granting }
  have he : (s.dev s.nextDev).Evolves v := by
    rw [hunused]
    exact .of_fresh ⟨rfl, rfl, rfl, rfl, rfl⟩ (.inl ⟨rfl, rfl, rfl, rfl, rfl⟩)
  have hin : (s.setDev s.nextDev v).InStep := h.inStep.setDev he (by rw [hunused])
  refine ⟨⟨hin.ledger, hin.counted, hin.fits, hin.owner, hin.window, hin.past, hin.pending⟩,
    ?_, ?_, ?_, ?_, ?_, h.listed.strayed⟩
  · refine List.nodup_append.mpr ⟨h.listed.nodup, List.nodup_singleton _, ?_⟩
    intro e he e' he'
    rw [List.mem_singleton.mp he']
    exact (h.listed.born e he).ne
  · intro e he
    change e < s.nextDev + 1
    rcases List.mem_append.mp he with he | he
    · exact Nat.lt_succ_of_lt (h.listed.born e he)
    · rw [List.mem_singleton.mp he]
      exact Nat.lt_succ_self _
  · intro e (hle : s.nextDev + 1 ≤ e)
    change (s.setDev s.nextDev v).dev e = _
    rw [setDev_dev_ne (by omega)]
    exact h.listed.unused e (by omega)
  · intro e (hlt : e < s.nextDev + 1)
    change e ∈ s.deviceList ++ [s.nextDev] ∨ ((s.setDev s.nextDev v).dev e).Dead
    rcases eq_or_ne e s.nextDev with rfl | hne
    · exact .inl (List.mem_append_right _ (List.mem_singleton_self _))
    · rw [setDev_dev_ne hne]
      exact (h.listed.listed e (by omega)).imp_left (List.mem_append_left _)
  · exact fun a w hw => List.mem_append_left _ (h.listed.window a w hw)

/-- A step of the request for a service file. -/
theorem Inv.request (h : s.Inv) {grant : Grant} (hs : s.request d grant = some s') : s'.Inv := by
  have hlt (hborn : (s.dev d).request ≠ .unborn) : d < s.nextDev := by
    by_contra hge
    exact hborn (by rw [h.listed.unused d (by omega)]; rfl)
  unfold State.request at hs
  cases hphase : (s.dev d).request with
  | unborn => simp [hphase] at hs
  | done => simp [hphase] at hs
  | granting =>
    have hfresh : (s.dev d).Fresh := by
      cases h.inStep.ledger d with
      | fresh hfresh => exact hfresh
      | held hheld => exact absurd hphase hheld.request
      | given hgiven => exact absurd hphase hgiven.request
    have hne := hlt (by simp [hphase])
    simp only [hphase] at hs
    cases grant with
    | refused =>
      obtain rfl := Option.some.inj hs
      exact h.setDev hne (.of_fresh hfresh (.inl ⟨hfresh.obtained, hfresh.clientId, hfresh.acquired,
        hfresh.released, hfresh.awaiting⟩)) rfl
    | granted qmiType clientId =>
      dsimp only at hs
      split_ifs at hs with hid
      obtain rfl := Option.some.inj hs
      exact h.setDev hne
        (.of_fresh hfresh (.inr ⟨nofun, rfl, hid, hfresh.released, hfresh.awaiting⟩)) rfl
    | externalCtl =>
      obtain rfl := Option.some.inj hs
      have hid : (1 : UInt8) ≠ 0 := by decide
      exact h.setDev hne
        (.of_fresh hfresh (.inr ⟨nofun, rfl, hid, hfresh.released, hfresh.awaiting⟩)) rfl
  | finishing =>
    simp only [hphase] at hs
    obtain rfl := Option.some.inj hs
    refine h.setDev (hlt (by simp [hphase])) ?_ rfl
    cases h.inStep.ledger d with
    | fresh hfresh =>
      exact .of_fresh hfresh (.inl ⟨hfresh.obtained, hfresh.clientId, by simp [hfresh.clientId],
        hfresh.released, hfresh.awaiting⟩)
    | held hheld =>
      have hheld' : Dev.Held { s.dev d with acquired := (s.dev d).clientId ≠ 0, request := .done } :=
        ⟨nofun, hheld.obtained, hheld.clientId, hheld.released, hheld.awaiting⟩
      exact ⟨.held hheld', fun _ => ⟨rfl, rfl, rfl⟩,
        fun _ => ⟨hheld', fun _ => by simp [hheld.clientId]⟩,
        fun hgiven => absurd hgiven hheld.not_given, fun hgiven => absurd hgiven hheld'.not_given⟩
    | given hgiven =>
      have hgiven' : Dev.Given { s.dev d with acquired := (s.dev d).clientId ≠ 0, request := .done } :=
        ⟨nofun, hgiven.released⟩
      refine ⟨.given hgiven', fun _ => ⟨rfl, rfl, rfl⟩, fun hheld => absurd hgiven hheld.not_given,
        fun _ => ⟨hgiven', ?_⟩, fun _ => hgiven⟩
      rintro (hacquired | hid)
      · exact .inr (of_decide_eq_true hacquired)
      · exact .inr hid

/-- A device answers a release. -/
theorem Inv.handleReleaseClientIdRsp (h : s.Inv) {success : Bool}
    (hs : s.handleReleaseClientIdRsp d success = some s') : s'.Inv := by
  unfold State.handleReleaseClientIdRsp at hs
  cases hawaiting : (s.dev d).awaiting with
  | nil => simp [hawaiting] at hs
  | cons id rest =>
    simp only [hawaiting] at hs
    have hgiven : (s.dev d).Given := by
      cases h.inStep.ledger d with
      | fresh hfresh => simp [hfresh.awaiting] at hawaiting
      | held hheld => simp [hheld.awaiting] at hawaiting
      | given hgiven => exact hgiven
    have hlt := h.listed.lt_nextDev hgiven.obtained_ne
    split_ifs at hs with hid
    · obtain rfl := Option.some.inj hs
      exact h.setDev hlt (.clear hgiven rfl ⟨rfl, rfl, rfl⟩ rfl rfl fun hacquired => hacquired) rfl
    · obtain rfl := Option.some.inj hs
      refine h.setDev hlt ?_ rfl
      have hgiven' : Dev.Given { s.dev d with awaiting := rest } := ⟨hgiven.request, hgiven.released⟩
      exact ⟨.given hgiven', fun _ => ⟨rfl, rfl, rfl⟩, fun hheld => absurd hgiven hheld.not_given,
        fun _ => ⟨hgiven', fun halive => halive⟩, fun _ => hgiven⟩

/-- A file object that is not counted yet is added. -/
theorem Inv.addFile (h : s.Inv) (hcounted : file.phase.counted = false)
    (hpast : file.phase.past = false)
    (hfits : ∀ d, file.phase.device = some d → file.Fits (s.dev d)) :
    { s with files := s.files ++ [file] }.Inv := by
  have howns : file.phase.owns ≠ true := by
    intro howns
    rw [FilePhase.counted_of_owns howns] at hcounted
    cases hcounted
  have hfiles : ∀ (g : Nat) (other : File), (s.files ++ [file])[g]? = some other →
      s.files[g]? = some other ∨ other = file := by
    intro g other hg
    rcases lt_or_ge g s.files.length with hlt | hge
    · rw [List.getElem?_append_left hlt] at hg
      exact .inl hg
    · rw [List.getElem?_append_right hge] at hg
      exact .inr (List.mem_singleton.mp (List.mem_of_getElem? hg))
  refine ⟨⟨h.inStep.ledger, ?_, ?_, ?_, h.inStep.window, ?_, ?_⟩, h.listed.files _⟩
  · intro d
    have hnone : file.phase.countsAt d = false := by simp [FilePhase.countsAt, hcounted]
    unfold countedAt
    simp only [List.countP_append, List.countP_singleton, hnone, Bool.false_eq_true, if_false,
      add_zero]
    exact h.inStep.counted d
  · intro g other d hg hdevice
    rcases hfiles g other hg with hold | rfl
    · exact h.inStep.fits g other d hold hdevice
    · exact hfits d hdevice
  · intro g g' other other' hg hg' hown hown' hsame
    rcases hfiles g other hg with hold | rfl
    · rcases hfiles g' other' hg' with hold' | rfl
      · exact h.inStep.owner g g' other other' hold hold' hown hown' hsame
      · exact absurd hown' howns
    · exact absurd hown howns
  · intro g other d hg hpast' hdevice
    rcases hfiles g other hg with hold | rfl
    · exact h.inStep.past g other d hold hpast' hdevice
    · rw [hpast] at hpast'
      cases hpast'
  · intro d hgiven halive
    refine (h.inStep.pending d hgiven halive).imp_left ?_
    rintro ⟨g, other, hg, hclears⟩
    obtain ⟨hlt, -⟩ := List.getElem?_eq_some_iff.mp hg
    exact ⟨g, other, (List.getElem?_append_left hlt).trans hg, hclears⟩

/-- `IRP_MJ_CREATE` finds a device with an id, which is of the type that is asked for. -/
theorem Inv.create (h : s.Inv) {controlObject : Nat} {qmiType : UInt8}
    (hs : s.create controlObject qmiType = some s') : s'.Inv := by
  unfold State.create at hs
  dsimp only at hs
  split_ifs at hs with htype
  cases hfind : s.findIoDevice ⟨controlObject, qmiType, 0, .failed⟩ true with
  | none =>
    rw [hfind] at hs
    obtain rfl := Option.some.inj hs
    exact h.addFile rfl rfl nofun
  | some d =>
    rw [hfind] at hs
    obtain rfl := Option.some.inj hs
    have hcorrect := List.find?_some hfind
    simp only [isCorrectQmiRequest, Bool.and_eq_true, beq_iff_eq, if_true, bne_iff_ne] at hcorrect
    obtain ⟨hcontrol, hsame, -, hid⟩ := hcorrect
    refine h.addFile rfl rfl fun e he => ?_
    obtain rfl : d = e := Option.some.inj he
    exact ⟨htype, hcontrol, by rw [(h.inStep.ledger d).obtained_type hid, hsame]⟩

/-! ## Walks -/

@[simp] theorem setWalk_walk_self {w : Option WalkPhase} : (s.setWalk a w).walk a = w :=
  Function.update_self ..

theorem setWalk_walk_ne {w : Option WalkPhase} {b : Nat} (h : b ≠ a) :
    (s.setWalk a w).walk b = s.walk b :=
  Function.update_of_ne h ..

/-- A walk goes on when what it has given up is cleared, to end or to stop at a device. -/
theorem Inv.setWalk (h : s.Inv) {w : Option WalkPhase}
    (hold : ∀ d, s.walk a = some (.resuming d) → ¬ (s.dev d).Alive)
    (hw : ∀ p, w = some p →
      p.Fits a (s.dev p.device) ∧ (s.dev p.device).Alive ∧ p.device ∈ s.deviceList) :
    (s.setWalk a w).Inv := by
  have hwalks : ∀ b p, (s.setWalk a w).walk b = some p →
      b = a ∧ w = some p ∨ s.walk b = some p := by
    intro b p hb
    rcases eq_or_ne b a with rfl | hne
    · exact .inl ⟨rfl, by rwa [setWalk_walk_self] at hb⟩
    · exact .inr (by rwa [setWalk_walk_ne hne] at hb)
  have hin := h.inStep
  refine ⟨⟨hin.ledger, hin.counted, hin.fits, hin.owner, fun b p hb => ?_,
    fun f file d hf hpast hdevice => ?_, fun d hgiven halive => ?_⟩, h.listed.nodup, h.listed.born,
    h.listed.unused, h.listed.listed, fun b p hb => ?_, h.listed.strayed⟩
  · rcases hwalks b p hb with ⟨rfl, hp⟩ | hb
    · exact (hw p hp).1
    · exact hin.window b p hb
  · have hnot := hin.past f file d hf hpast hdevice
    -- a device that a file object has cleared is not one to stop at
    have hdead : ¬ (s.dev d).Alive := by
      have hfits := hin.fits f file d hf hdevice
      unfold File.Fits at hfits
      cases hphase : file.phase with
      | uncounting | leaving | deleting =>
        rw [hphase] at hfits hdevice
        exact hfits.2
      | counting | checking | opening | failing | failed | opened | releasing | clearing | closed =>
        rw [hphase] at hpast
        cases hpast
    constructor <;> intro hb <;> rcases hwalks _ _ hb with ⟨-, hp⟩ | hb
    · exact hdead (hw _ hp).2.1
    · exact hnot.1 hb
    · exact hdead (hw _ hp).2.1
    · exact hnot.2 hb
  · refine (hin.pending d hgiven halive).imp_right fun hresuming => ?_
    rcases eq_or_ne (s.dev d).adapter a with heq | hne
    · exact absurd halive (hold d (heq ▸ hresuming))
    · exact (setWalk_walk_ne hne).trans hresuming
  · rcases hwalks b p hb with ⟨rfl, hp⟩ | hb
    · exact (hw p hp).2.2
    · exact h.listed.window b p hb

/-- A walk gives the id of its device up, which no file object has opened. -/
theorem InStep.walkGive (h : s.InStep) (hwalk : s.walk (s.dev d).adapter = some (.releasing d)) :
    ((s.setDev d (s.dev d).give).setWalk (s.dev d).adapter (some (.resuming d))).InStep := by
  have hfit := h.window _ _ hwalk
  have hheld : (s.dev d).Held := hfit.phase
  have hnone : ∀ (g : Nat) (other : File), s.files[g]? = some other → other.phase.device = some d →
      other.phase.owns = false := by
    intro g other hg hdevice
    by_contra hown
    simp only [Bool.not_eq_false] at hown
    exact (h.count_pos hg hdevice (FilePhase.counted_of_owns hown)).ne' hfit.deviceOpenCount
  have hadapters : ∀ e, ((s.setDev d (s.dev d).give).dev e).adapter = (s.dev e).adapter := by
    intro e
    rcases eq_or_ne e d with rfl | hne
    · rw [setDev_dev_self]
      rfl
    · rw [setDev_dev_ne hne]
  have hcounts := setDev_deviceOpenCount (s := s) (d := d) (v := (s.dev d).give) rfl
  constructor
  · intro e
    change ((s.setDev d (s.dev d).give).dev e).Ledger
    rcases eq_or_ne e d with rfl | hne
    · rw [setDev_dev_self]
      exact .given hheld.give
    · rw [setDev_dev_ne hne]
      exact h.ledger e
  · exact fun e => (hcounts e).trans (h.counted e)
  · intro g other e hg hdevice
    change other.Fits ((s.setDev d (s.dev d).give).dev e)
    have hfits := h.fits g other e hg hdevice
    rcases eq_or_ne e d with rfl | hne
    · rw [setDev_dev_self]
      exact File.FitsIn.give hfits hheld (hnone g other hg hdevice)
    · rw [setDev_dev_ne hne]
      exact hfits
  · exact h.owner
  · intro b p hb
    change p.Fits b ((s.setDev d (s.dev d).give).dev p.device)
    rcases eq_or_ne b (s.dev d).adapter with rfl | hne
    · rw [setWalk_walk_self] at hb
      obtain rfl := Option.some.inj hb
      refine ⟨hadapters d, (hcounts d).trans hfit.deviceOpenCount, ?_⟩
      change ((s.setDev d (s.dev d).give).dev d).Given
      rw [setDev_dev_self]
      exact hheld.give
    · rw [setWalk_walk_ne hne] at hb
      have hfits := h.window b p hb
      -- a walk of another adapter has stopped at another device
      have hother : p.device ≠ d := by
        intro heq
        rw [heq] at hfits
        exact hne hfits.adapter.symm
      rw [setDev_dev_ne hother]
      exact hfits
  · intro g other e hg hpast hdevice
    have hnot := h.past g other e hg hpast hdevice
    have hne : e ≠ d := fun heq => hnot.1 (heq ▸ hwalk)
    have hwalks : ∀ b p, ((s.setDev d (s.dev d).give).setWalk (s.dev d).adapter
        (some (.resuming d))).walk b = some p → p = .resuming d ∨ s.walk b = some p := by
      intro b p hb
      rcases eq_or_ne b (s.dev d).adapter with rfl | hne
      · rw [setWalk_walk_self] at hb
        exact .inl (Option.some.inj hb).symm
      · rw [setWalk_walk_ne hne] at hb
        exact .inr hb
    unfold notWalked
    constructor <;> intro hb <;> rcases hwalks _ _ hb with hp | hb
    · cases hp
    · exact hnot.1 (hadapters e ▸ hb)
    · exact hne (WalkPhase.resuming.inj hp)
    · exact hnot.2 (hadapters e ▸ hb)
  · intro e hgiven halive
    change ((s.setDev d (s.dev d).give).dev e).Given at hgiven
    change ((s.setDev d (s.dev d).give).dev e).Alive at halive
    change _ ∨ State.walk _ ((s.setDev d (s.dev d).give).dev e).adapter = _
    rw [hadapters e]
    rcases eq_or_ne e d with rfl | hne
    · exact .inr setWalk_walk_self
    · rw [setDev_dev_ne hne] at hgiven halive
      refine (h.pending e hgiven halive).imp_right fun hresuming => ?_
      rw [setWalk_walk_ne]
      · exact hresuming
      · intro heq
        rw [heq, hwalk] at hresuming
        cases hresuming

theorem Inv.walkRelease (h : s.Inv) (hwalk : s.walk a = some (.releasing d)) :
    ((s.releaseClientId a d true).setWalk a (some (.resuming d))).Inv := by
  have hfit := h.inStep.window a _ hwalk
  have hheld : (s.dev d).Held := hfit.phase
  obtain rfl : (s.dev d).adapter = a := hfit.adapter
  have hlt := h.listed.lt_nextDev hheld.obtained_ne
  rw [releaseClientId_of_held hheld]
  have hlist := h.listed.setDev (v := (s.dev d).give) hlt fun hdead => absurd hdead.1 hheld.not_given
  refine ⟨h.inStep.walkGive hwalk, hlist.nodup, hlist.born, hlist.unused, hlist.listed,
    fun b p hb => ?_, hlist.strayed⟩
  rcases eq_or_ne b (s.dev d).adapter with rfl | hne
  · rw [setWalk_walk_self] at hb
    obtain rfl := Option.some.inj hb
    have hmem : d ∈ s.deviceList := h.listed.window _ _ hwalk
    exact hmem
  · rw [setWalk_walk_ne hne] at hb
    exact h.listed.window b p hb

/-- What a walk clears has been given up. -/
theorem Inv.clearIdle (h : s.Inv) (hgiven : (s.dev d).Given) : (s.clearIdle d).Inv := by
  have hlt := h.listed.lt_nextDev hgiven.obtained_ne
  exact h.setDev hlt (.clear hgiven rfl ⟨rfl, rfl, rfl⟩ rfl rfl nofun) rfl

theorem not_alive_clearIdle : ¬ ((s.clearIdle d).dev d).Alive := by
  unfold State.clearIdle
  rw [setDev_dev_self]
  rintro (hacquired | hid)
  · cases hacquired
  · exact hid rfl

/-- Where a walk stops along the rest does not depend on a device before it. -/
theorem KeepsToAdapter.setDev {ds : List Nat} (h : s.KeepsToAdapter a ds) (hd : d ∉ ds) :
    (s.setDev d v).KeepsToAdapter a ds := by
  have hdev : ∀ e ∈ ds, (s.setDev d v).dev e = s.dev e := by
    intro e he
    apply setDev_dev_ne
    rintro rfl
    exact hd he
  have hstops : (s.setDev d v).stopsAt ds = s.stopsAt ds := by
    unfold stopsAt
    exact List.find?_congr fun e he => by rw [hdev e he]
  intro e he
  rw [hstops] at he
  rw [hdev e (List.mem_of_find?_eq_some he)]
  exact h e he

theorem KeepsToAdapter.tail {ds : List Nat} (h : s.KeepsToAdapter a (d :: ds))
    (hstop : ¬ ((s.dev d).deviceOpenCount = 0 ∧ (s.dev d).acquired = true ∧ (s.dev d).idleTime ≠ 0 ∧
      (s.dev d).clientId ≠ 0)) : s.KeepsToAdapter a ds := by
  intro e he
  refine h e ?_
  unfold stopsAt
  rw [List.find?_cons_of_neg (by simpa using hstop)]
  exact he

/-- A walk that is at no device goes along the list. -/
theorem Inv.walkFrom {ds : List Nat} (h : s.Inv) (hwalk : s.walk a = none)
    (hmem : ∀ d ∈ ds, d ∈ s.deviceList) (hnodup : ds.Nodup) (hguard : s.KeepsToAdapter a ds) :
    (s.walkFrom a ds).Inv := by
  induction ds generalizing s with
  | nil => exact h.setWalk (fun d hd => by rw [hwalk] at hd; cases hd) nofun
  | cons d rest ih =>
    obtain ⟨hd, hrest⟩ := List.nodup_cons.mp hnodup
    have hmemd := hmem d List.mem_cons_self
    have hmem' : ∀ e ∈ rest, e ∈ s.deviceList := fun e he => hmem e (List.mem_cons_of_mem _ he)
    unfold State.walkFrom
    dsimp only
    split_ifs with hidle htime hid
    · -- the walk stops, and of its own adapter's devices no other walk gives one up
      have hadapter : (s.dev d).adapter = a := by
        refine hguard d ?_
        unfold stopsAt
        exact List.find?_cons_of_pos (by simp [hidle, htime, hid])
      have hheld : (s.dev d).Held := by
        apply h.inStep.held_of_acquired hidle.2
        · intro g other hg hphase
          have hpos := h.inStep.count_pos hg (d := d) (by rw [hphase]; rfl) (by rw [hphase]; rfl)
          exact hpos.ne' hidle.1
        · rw [hadapter, hwalk]
          exact nofun
      refine h.setWalk (fun e he => by rw [hwalk] at he; cases he) fun p hp => ?_
      obtain rfl := Option.some.inj hp
      exact ⟨⟨hadapter, hidle.1, hheld⟩, .inl hidle.2, hmemd⟩
    · -- an answer has already taken the id of a device that is being given up
      have hgiven : (s.dev d).Given := by
        cases h.inStep.ledger d with
        | fresh hfresh => exact absurd (.inl hidle.2) hfresh.not_alive
        | held hheld => exact absurd hheld.clientId hid
        | given hgiven => exact hgiven
      have hstop := hguard.tail fun hstop => hid hstop.2.2.2
      exact ih (h.clearIdle hgiven) hwalk hmem' hrest (hstop.setDev hd)
    · have hstop := hguard.tail fun hstop => htime hstop.2.2.1
      have hlt := h.listed.born d hmemd
      exact ih (h.setDev hlt (.aside (h.inStep.ledger d) ..) rfl) hwalk hmem' hrest
        (hstop.setDev hd)
    · have hstop := hguard.tail fun hstop => hidle ⟨hstop.1, hstop.2.1⟩
      exact ih h hwalk hmem' hrest hstop

/-- A walk does not look at where walks are. -/
theorem walkFrom_setWalk (ds : List Nat) (w : Option WalkPhase) :
    (s.setWalk a w).walkFrom a ds = s.walkFrom a ds := by
  induction ds generalizing s with
  | nil => simp [State.walkFrom, setWalk]
  | cons d rest ih =>
    have hset : ∀ v, ((s.setWalk a w).setDev d v).walkFrom a rest =
        (s.setDev d v).walkFrom a rest :=
      fun v => ih (s := s.setDev d v)
    simp only [State.walkFrom, show (s.setWalk a w).dev d = s.dev d from rfl]
    split_ifs
    · simp [setWalk]
    · exact hset _
    · exact hset _
    · exact ih

theorem not_mem_behind (h : s.deviceList.Nodup) : d ∉ s.behind d := by
  unfold behind
  cases hdrop : s.deviceList.dropWhile (· ≠ d) with
  | nil => simp
  | cons e rest =>
    have hsub : (e :: rest).Nodup := hdrop ▸ h.sublist (List.dropWhile_sublist _)
    have he : e = d := by
      have hhead := List.head_dropWhile_not (· ≠ d) (hdrop ▸ List.cons_ne_nil e rest)
      simp only [hdrop, List.head_cons] at hhead
      simpa using hhead
    rw [← he]
    exact (List.nodup_cons.mp hsub).1

theorem behind_sublist : (s.behind d).Sublist s.deviceList :=
  (List.tail_sublist _).trans (List.dropWhile_sublist _)

/-- Every step of a walk that meets its condition. -/
theorem Inv.walkStep (h : s.Inv) {sent : Bool} (hguard : s.WalkGuarded a sent) :
    (s.walkStep a sent).Inv := by
  unfold WalkGuarded at hguard
  unfold State.walkStep
  cases hwalk : s.walk a with
  | none =>
    rw [hwalk] at hguard
    exact h.walkFrom hwalk (fun _ hd => hd) h.listed.nodup hguard
  | some p =>
    rw [hwalk] at hguard
    cases p with
    | releasing d =>
      dsimp only at hguard ⊢
      rw [hguard]
      exact h.walkRelease hwalk
    | resuming d =>
      dsimp only at hguard ⊢
      have hmem : d ∈ s.deviceList := h.listed.window a _ hwalk
      have hgiven : (s.dev d).Given := (h.inStep.window a _ hwalk).phase
      rw [if_pos hmem]
      have hcleared : ((s.clearIdle d).setWalk a none).Inv := by
        refine (h.clearIdle hgiven).setWalk (fun e he => ?_) nofun
        obtain rfl : d = e := WalkPhase.resuming.inj (Option.some.inj (hwalk.symm.trans he))
        exact not_alive_clearIdle
      have hnext : (s.clearIdle d).KeepsToAdapter a (s.behind d) :=
        hguard.setDev (not_mem_behind h.listed.nodup)
      rw [← walkFrom_setWalk (s.behind d) none]
      exact hcleared.walkFrom setWalk_walk_self (fun e he => behind_sublist.subset he)
        (h.listed.nodup.sublist behind_sublist) hnext

/-! ## Runs -/

theorem Inv.step {externalQctlEnabled : Nat → Bool} (h : s.Inv) {op : Op} (hguard : s.Guarded op)
    (hs : s.step externalQctlEnabled op = some s') : s'.Inv := by
  cases op with
  | addDevice adapter controlObject =>
    obtain rfl := Option.some.inj hs
    exact h.addDevice adapter controlObject
  | request d grant => exact h.request hs
  | create controlObject qmiType => exact h.create hs
  | file f answers =>
    obtain ⟨file, hf, hs⟩ := Option.bind_eq_some_iff.mp hs
    exact h.fileStep hf (hguard file hf) hs
  | walk a sent =>
    obtain rfl := Option.some.inj hs
    exact h.walkStep hguard
  | releaseRsp d success => exact h.handleReleaseClientIdRsp hs

theorem inv_initial : initial.Inv := by
  have hfresh : Dev.unused.Fresh := ⟨rfl, rfl, rfl, rfl, rfl⟩
  refine ⟨⟨fun _ => .fresh hfresh, fun _ => rfl, nofun, nofun, nofun, nofun, fun d hgiven => ?_⟩,
    List.nodup_nil, nofun, fun _ _ => rfl, nofun, nofun, rfl⟩
  exact absurd rfl hgiven.obtained_ne

theorem Inv.keepsIds (h : s.Inv) : s.KeepsIds where
  opened f file d hf hphase := by
    obtain ⟨hfound, hheld, hacquired, -⟩ := h.inStep.fitsIn hf hphase rfl
    exact ⟨h.listed.mem_of_not_dead hfound.obtained_ne fun hdead => hdead.2 (.inl hacquired),
      hacquired, hheld.obtained⟩
  released d := by
    cases h.inStep.ledger d with
    | fresh hfresh => exact .inl hfresh.released
    | held hheld => exact .inl hheld.released
    | given hgiven =>
      obtain ⟨id, hobtained, hreleased, -⟩ := hgiven.released
      exact .inr ⟨id, hobtained, hreleased⟩
  forgotten d hobtained hid := by
    rcases (h.inStep.ledger d).held_or_given hobtained with hheld | hgiven
    · exact absurd hid hheld.clientId
    · obtain ⟨id, -, hreleased, -⟩ := hgiven.released
      simp [hreleased]
  strayed := h.listed.strayed

/-- In every run that meets the conditions an open client keeps its id. -/
theorem keepsIds_of_guarded (externalQctlEnabled : Nat → Bool) (ops : List Op)
    (hguard : ∀ p ∈ (idleClients externalQctlEnabled).fires initial ops, p.1.Guarded p.2) :
    ∀ s ∈ (idleClients externalQctlEnabled).visits initial ops, s.KeepsIds := by
  intro s hs
  refine Inv.keepsIds (Machine.visits_all_of_fires ?_ inv_initial hguard s hs)
  intro s op s' o h hop hstep
  exact h.step hop (step_of_idleClients hstep)

end State

/-! ## A client that is opened in the window -/

/-- A client gets an id for WDS, and a walk finds it idle. -/
def idleSince : List Op :=
  [.addDevice 0 7, .request 0 (.granted 1 5), .request 0 .refused, .walk 0 true]

def ready : Answers := ⟨true, true, true⟩

/-- The client is opened and closed between two walks. -/
def closedRun : List Op :=
  idleSince ++ .create 7 1 :: List.replicate 9 (.file 0 ready) ++ [.walk 0 true, .releaseRsp 0 true]

theorem guarded_closedRun :
    ∀ p ∈ (idleClients fun _ => false).fires .initial closedRun, p.1.Guarded p.2 := by
  decide +kernel

theorem keepsIds_of_guarded_closedRun :
    (∀ p ∈ (idleClients fun _ => false).fires .initial closedRun, p.1.Guarded p.2) ∧
      ∀ s ∈ (idleClients fun _ => false).visits .initial closedRun, s.KeepsIds :=
  ⟨guarded_closedRun, State.keepsIds_of_guarded (fun _ => false) closedRun guarded_closedRun⟩

/-- A walk has stopped at the client. It is opened, and the walk goes on. -/
def windowRun : List Op :=
  idleSince ++ [.walk 0 true, .create 7 1, .file 0 ready, .file 0 ready, .file 0 ready, .walk 0 true,
    .walk 0 true]

/-- It is opened and closed before the walk goes on. -/
def strayRun : List Op :=
  idleSince ++ .walk 0 true :: .walk 0 true :: .create 7 1 :: List.replicate 9 (.file 0 ready) ++
    [.walk 0 true]

/-- An open client is not acquired any more, or a walk goes on from a device that is off the list. -/
theorem not_keepsIds_windowRun :
    (¬ ∀ s ∈ (idleClients fun _ => false).visits .initial windowRun, s.KeepsIds) ∧
      ¬ ∀ s ∈ (idleClients fun _ => false).visits .initial strayRun, s.KeepsIds := by
  constructor
  · obtain ⟨s, hs, file, hfile, hphase, hacquired⟩ :
        ∃ s ∈ (idleClients fun _ => false).visits .initial windowRun, ∃ file ∈ s.files[0]?,
          file.phase = .opened 0 ∧ (s.dev 0).acquired = false := by
      decide +kernel
    intro h
    cases hacquired.symm.trans ((h s hs).opened 0 file 0 hfile hphase).2.1
  · obtain ⟨s, hs, hstrayed⟩ :
        ∃ s ∈ (idleClients fun _ => false).visits .initial strayRun, s.strayed = true := by
      decide +kernel
    intro h
    cases (h s hs).strayed.symm.trans hstrayed

end Ndis.IdleClients

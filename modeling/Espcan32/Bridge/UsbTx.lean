import Espcan32.Lib.System
import Espcan32.Pcan.RoundTrip

/-!
# From the CAN bus to the host

`twai_rx_task` stamps the frames it receives and pushes them into `rx_ring`; `usb_tx_task` drains
the ring into EP2-IN batches, adds calibration records and the bus errors of `ctrl_task`, and
presents each batch until the endpoint has taken it.  The clock may move at any moment, and the
endpoint may refuse a batch for as long as it likes.

* `UsbInv.step` : frames come before errors in every batch, and calibration records alone.
* `flushed_ticks_exact` : **the host gives every frame of every flushed batch its tick**, in every
  run in which no frame joins a batch 256 ticks or more after the one before it.
* `stalled_ticks_wrong` : two frames that piled up behind a stalled endpoint may be farther apart.
-/

namespace Espcan32

namespace Bridge

open Pcan

/-! ### The source -/

/-- `CFG_RB_RX_DEPTH`. -/
def rbRxDepth : ℕ := 1024

/-- The capacity of `s_evt_queue`. -/
def evtQueueLen : ℕ := 8

/-- `USBTX_MAX_DRAIN`. -/
def usbtxMaxDrain : ℕ := 96

/-- A `twai_message_t` as `twai_receive()` returns it. -/
structure TwaiMessage where
  identifier : UInt32
  extd : Bool
  rtr : Bool
  dataLengthCode : UInt8
  data : Vector UInt8 frameMaxDlc
  deriving DecidableEq, Repr

/-- The frame `pcan_twai_receive()` makes of a message, at `us` microseconds. -/
def twaiReceive (m : TwaiMessage) (us : ℕ) : Frame :=
  let dlc := if UInt8.ofNat frameMaxDlc < m.dataLengthCode then UInt8.ofNat frameMaxDlc
    else m.dataLengthCode
  { id := m.identifier
    ts16 := timeNow16 us
    dlc := dlc
    flags := (if m.extd then frameFlagExt else 0) ||| (if m.rtr then frameFlagRtr else 0)
    data := Vector.ofFn fun i => if m.rtr = false ∧ i < dlc.toNat then m.data[i] else 0
    writerId := 0 }

/-- What `usb_tx_task` is about to add to its batch. -/
inductive Item where
  | frame (f : Frame)
  | error (errMask : UInt8)
  | calib

/-- The record of an item added at `us` microseconds. -/
def Item.record (us : ℕ) : Item → Rec
  | .frame f => .frame f
  | .error errMask => .error errMask (timeNow16 us)
  | .calib => .calib (timeNow16 us)

/-- Where `usb_tx_task` is. -/
inductive UsbPc where
  /-- Blocked in the pop at the head of the loop. -/
  | top
  /-- About to add an item; a refusal is followed by a flush and a second try if `retry`. -/
  | add (i : Item) (retry : Bool) (next : UsbPc)
  /-- In the coalescing loop. -/
  | drain (drained : ℕ)
  /-- Before the calibration check. -/
  | calib
  /-- Behind the calibration record. -/
  | calibDone
  /-- In the loop over the bus errors. -/
  | events
  /-- In `usb_tx_flush_pending()`. -/
  | flush (next : UsbPc)

/-- The state of the two tasks and of what they share. -/
structure UsbState where
  us : ℕ
  rxHeld : Option Frame
  rxRing : List Frame
  evtQueue : List UInt8
  b : Batch
  lastCalibUs : ℕ
  pc : UsbPc

/-- A step: the clock moves; `twai_rx_task` receives a message or pushes the frame it made of it,
getting the lock in time or not; `ctrl_task` posts an error mask; `usb_tx_task` moves, and the
endpoint takes the batch it presents, if it presents one, or not. -/
inductive UsbStep where
  | clock (d : ℕ)
  | receive (m : TwaiMessage)
  | push (lock : Bool)
  | post (errMask : UInt8)
  | usb (accepted : Bool)

namespace UsbState

variable (s : UsbState)

/-- One step of `usb_tx_task`. -/
def usbTxTask (accepted : Bool) : UsbState :=
  match s.pc with
  | .top =>
    match s.rxRing with
    | [] => { s with pc := .calib }
    | f :: ring => { s with rxRing := ring, pc := .add (.frame f) true (.drain 0) }
  | .drain drained =>
    if drained < usbtxMaxDrain then
      match s.rxRing with
      | [] => { s with pc := .calib }
      | f :: ring => { s with rxRing := ring, pc := .add (.frame f) true (.drain (drained + 1)) }
    else { s with pc := .calib }
  | .add i retry next =>
    let (b, ok) := s.b.add (i.record s.us)
    if ok then { s with b := b, pc := next }
    else if retry then { s with pc := .flush (.add i false next) }
    else { s with pc := next }
  | .calib =>
    if tsCalibPeriodMs * 1000 ≤ s.us - s.lastCalibUs then
      { s with pc := .flush (.add .calib false (.flush .calibDone)) }
    else { s with pc := .events }
  | .calibDone => { s with lastCalibUs := s.us, pc := .events }
  | .events =>
    match s.evtQueue with
    | [] => { s with pc := .flush .top }
    | errMask :: queue => { s with evtQueue := queue, pc := .add (.error errMask) true .events }
  | .flush next =>
    if s.b.recCnt = 0 then { s with pc := next }
    else if accepted then { s with b := s.b.reset, pc := next }
    else s

/-- One step. -/
def step : UsbStep → Option UsbState
  | .clock d => some { s with us := s.us + d }
  | .receive m =>
    match s.rxHeld with
    | none => some { s with rxHeld := some (twaiReceive m s.us) }
    | some _ => none
  | .push lock =>
    match s.rxHeld with
    | none => none
    | some f =>
      some { s with
        rxHeld := none
        rxRing := if s.rxRing.length < rbRxDepth ∧ lock then s.rxRing ++ [f] else s.rxRing }
  | .post errMask =>
    some { s with
      evtQueue := if s.evtQueue.length < evtQueueLen then s.evtQueue ++ [errMask] else s.evtQueue }
  | .usb accepted => some (s.usbTxTask accepted)

/-- The start of `usb_tx_task`, `us` microseconds after `pcan_time_init()`, with a batch on the
stack that holds anything. -/
def init (us : ℕ) (b : Batch) : UsbState := ⟨us, none, [], [], b.reset, us, .top⟩

end UsbState

/-- The tasks as a system. -/
def usbSystem : System UsbState UsbStep := .ofFun UsbState.step

/-! ### What is flushed -/

/-- The records in the batch that is being built, and the batches flushed with theirs. -/
structure UsbRecord where
  cur : List Rec
  out : List (Batch × List Rec)

/-- Keep the record of what the batches hold. -/
def usbRecord (s : UsbState) (l : UsbStep) (r : UsbRecord) : UsbRecord :=
  match l, s.pc with
  | .usb _, .add i _ _ =>
    if (s.b.add (i.record s.us)).2 then { r with cur := r.cur ++ [i.record s.us] } else r
  | .usb true, .flush _ => if s.b.recCnt = 0 then r else ⟨[], r.out ++ [(s.b, r.cur)]⟩
  | _, _ => r

/-- The host's decoder gives the frames of a flushed batch their ticks. -/
def TicksExact (x : Batch × List Rec) : Prop :=
  (hostDecodeBatch x.1.buf x.1.len).map (fun mc => mc.frames.map (·.ts16)) =
    some ((x.2.filterMap Rec.frame?).map (·.ts16))

instance (x : Batch × List Rec) : Decidable (TicksExact x) := by
  unfold TicksExact; infer_instance

/-- A frame that joins a batch with a timestamp in it is less than 256 ticks behind the last. -/
def JoinsClosely (s : UsbState) : UsbStep → Prop
  | .usb _ =>
    match s.pc with
    | .add (.frame f) _ _ =>
      (s.b.add (.frame f)).2 = true → s.b.ts.haveFirst = true →
        (f.ts16 - s.b.ts.lastTs16).toNat ≤ 255
    | _ => True
  | _ => True

instance (s : UsbState) (l : UsbStep) : Decidable (JoinsClosely s l) := by
  unfold JoinsClosely
  split
  · split <;> infer_instance
  · infer_instance

/-! ### The steps with a batch -/

section Steps

variable {s : UsbState} {retry : Bool} {i : Item} {next : UsbPc} (r : UsbRecord) (accepted : Bool)

theorem usbTxTask_added (hpc : s.pc = .add i retry next) (hadd : (s.b.add (i.record s.us)).2 = true) :
    s.usbTxTask accepted = { s with b := (s.b.add (i.record s.us)).1, pc := next } ∧
      usbRecord s (.usb accepted) r = { r with cur := r.cur ++ [i.record s.us] } := by
  simp [UsbState.usbTxTask, usbRecord, hpc, hadd]

/-- A refused item is kept for a second try, if there is one. -/
theorem usbTxTask_refused (hpc : s.pc = .add i retry next)
    (hadd : (s.b.add (i.record s.us)).2 = false) :
    s.usbTxTask accepted = { s with pc := if retry then .flush (.add i false next) else next } ∧
      usbRecord s (.usb accepted) r = r := by
  cases retry <;> simp [UsbState.usbTxTask, usbRecord, hpc, hadd]

theorem usbTxTask_nothing (hpc : s.pc = .flush next) (hcnt : s.b.recCnt = 0) :
    s.usbTxTask accepted = { s with pc := next } ∧ usbRecord s (.usb accepted) r = r := by
  cases accepted <;> simp [UsbState.usbTxTask, usbRecord, hpc, hcnt]

theorem usbTxTask_waits (hpc : s.pc = .flush next) (hcnt : s.b.recCnt ≠ 0) :
    s.usbTxTask false = s ∧ usbRecord s (.usb false) r = r := by
  simp [UsbState.usbTxTask, usbRecord, hpc, hcnt]

theorem usbTxTask_flushed (hpc : s.pc = .flush next) (hcnt : s.b.recCnt ≠ 0) :
    s.usbTxTask true = { s with b := s.b.reset, pc := next } ∧
      usbRecord s (.usb true) r = ⟨[], r.out ++ [(s.b, r.cur)]⟩ := by
  simp [UsbState.usbTxTask, usbRecord, hpc, hcnt]

/-- The other steps of `usb_tx_task` leave the batch alone. -/
theorem usbRecord_elsewhere (hadd : ∀ i retry next, s.pc ≠ .add i retry next)
    (hflush : ∀ next, s.pc ≠ .flush next) : usbRecord s (.usb accepted) r = r := by
  cases hpc : s.pc with
  | add i retry next => exact absurd hpc (hadd i retry next)
  | flush next => exact absurd hpc (hflush next)
  | top | drain | calib | calibDone | events => cases accepted <;> simp [usbRecord, hpc]

end Steps

/-! ### The invariant -/

/-- All the records are frames. -/
def AllFrames (recs : List Rec) : Prop := ∀ r ∈ recs, r.frame? ≠ none

/-- What the place of `usb_tx_task` says about the batch. -/
def PcOk : UsbPc → List Rec → Prop
  | .top, cur | .calibDone, cur => cur = []
  | .drain _, cur | .calib, cur => AllFrames cur
  | .events, _ => True
  | .add (.frame _) _ next, cur => AllFrames cur ∧ ∃ n, next = .drain n
  | .add (.error _) _ next, _ => next = .events
  | .add .calib _ next, cur => cur = [] ∧ next = .flush .calibDone
  | .flush next, _ => PcOk next []

/-- Dense frames, and behind them no frame. -/
def FramesFirst (recs : List Rec) : Prop :=
  ∃ fs es, recs = fs ++ es ∧ AllFrames fs ∧ Dense fs ∧ ∀ r ∈ es, r.frame? = none

/-- What holds between steps. -/
structure UsbInv (s : UsbState) (r : UsbRecord) : Prop where
  packs : s.b.Packs r.cur
  pc : PcOk s.pc r.cur
  cur : FramesFirst r.cur
  out : ∀ x ∈ r.out, TicksExact x

theorem FramesFirst.nil : FramesFirst [] := ⟨[], [], rfl, by simp [AllFrames], .nil, by simp⟩

/-- A batch of dense frames stays one with a frame close to the last. -/
theorem FramesFirst.frame {cur : List Rec} (h : FramesFirst cur) (hall : AllFrames cur) {f : Frame}
    (hgap : ∀ t, (cur.filterMap Rec.tick).getLast? = some t → (f.ts16 - t).toNat ≤ 255) :
    FramesFirst (cur ++ [.frame f]) := by
  obtain ⟨fs, es, rfl, hfs, hd, hes⟩ := h
  obtain rfl : es = [] := by
    rcases es with _ | ⟨r, es⟩
    · rfl
    · exact absurd (hes r List.mem_cons_self) (hall r (by simp))
  rw [List.append_nil] at hgap ⊢
  refine ⟨fs ++ [.frame f], [], by simp, ?_, ?_, by simp⟩
  · intro r hr
    rcases List.mem_append.1 hr with hr | hr
    · exact hfs r hr
    · rw [List.mem_singleton.1 hr]; simp [Rec.frame?]
  · rw [Pcan.Dense, List.filterMap_append]
    exact List.isChain_append.2 ⟨hd, .singleton _, fun t ht x hx => by
      obtain rfl : f.ts16 = x := by simpa [Rec.tick] using hx
      exact hgap t ht⟩

/-- A record that is no frame may follow anything. -/
theorem FramesFirst.other {cur : List Rec} (h : FramesFirst cur) {r : Rec} (hr : r.frame? = none) :
    FramesFirst (cur ++ [r]) := by
  obtain ⟨fs, es, rfl, hfs, hd, hes⟩ := h
  refine ⟨fs, es ++ [r], List.append_assoc .., hfs, hd, fun r' hr' => ?_⟩
  rcases List.mem_append.1 hr' with hr' | hr'
  · exact hes r' hr'
  · rwa [List.mem_singleton.1 hr']

/-- The host gives the frames of such a batch their ticks. -/
theorem ticksExact_of_framesFirst {b : Batch} {recs : List Rec} (hp : b.Packs recs)
    (hne : recs ≠ []) (h : FramesFirst recs) : TicksExact (b, recs) := by
  obtain ⟨mc, hmc, -, hframes, -⟩ := hostDecodeBatch_packs hp hne
  obtain ⟨fs, es, rfl, hfs, hd, hes⟩ := h
  have hcalib : CalibFirst fs := by
    rintro pre t post rfl
    exact absurd rfl (hfs (.calib t) (by simp))
  have hnone : es.filterMap Rec.frame? = [] := List.filterMap_eq_nil_iff.2 hes
  rw [reconstruct_append hes, reconstruct_exact _ hcalib hd] at hframes
  rw [TicksExact, hmc, Option.map_some, hframes, List.filterMap_append, hnone, List.append_nil,
    List.map_map]
  rfl

namespace UsbInv

variable {s s' : UsbState} {r : UsbRecord}

/-- A step that leaves the batch alone. -/
theorem move (hi : UsbInv s r) (hb : s'.b = s.b) (hpc : PcOk s'.pc r.cur) : UsbInv s' r :=
  ⟨hb ▸ hi.packs, hpc, hi.cur, hi.out⟩

/-- The item is added, or refused. -/
theorem add (hi : UsbInv s r) {accepted : Bool} {i : Item} {retry : Bool} {next : UsbPc}
    (hpc : s.pc = .add i retry next) (hj : JoinsClosely s (.usb accepted)) :
    UsbInv (s.usbTxTask accepted) (usbRecord s (.usb accepted) r) := by
  have hok := hi.pc
  rw [hpc] at hok
  cases hadd : (s.b.add (i.record s.us)).2 with
  | true =>
    obtain ⟨hs, hr⟩ := usbTxTask_added r accepted hpc hadd
    rw [hs, hr]
    cases i with
    | frame f =>
      obtain ⟨hall, n, rfl⟩ := hok
      refine ⟨hi.packs.add hadd, fun r' hr' => ?_, hi.cur.frame hall fun t ht => ?_, hi.out⟩
      · rcases List.mem_append.1 hr' with hr' | hr'
        · exact hall r' hr'
        · rw [List.mem_singleton.1 hr']; simp [Item.record, Rec.frame?]
      · -- the last tick of the batch is the one its tracker keeps
        have hfirst : s.b.ts.haveFirst = true := by
          rw [hi.packs.haveFirst, List.any_eq_true]
          obtain ⟨r', hr', htick⟩ := List.mem_filterMap.1 (List.mem_of_getLast? ht)
          exact ⟨r', hr', by simp [htick]⟩
        rw [JoinsClosely, hpc] at hj
        rw [← hi.packs.lastTs16 t ht]
        exact hj hadd hfirst
    | error m =>
      obtain rfl : next = .events := hok
      exact ⟨hi.packs.add hadd, trivial, hi.cur.other rfl, hi.out⟩
    | calib =>
      obtain ⟨-, rfl⟩ := hok
      exact ⟨hi.packs.add hadd, rfl, hi.cur.other rfl, hi.out⟩
  -- the batch takes no more: it is flushed before another try, or the item is given up
  | false =>
    obtain ⟨hs, hr⟩ := usbTxTask_refused r accepted hpc hadd
    rw [hs, hr]
    cases retry with
    | true =>
      refine hi.move rfl ?_
      cases i with
      | frame f => exact ⟨by simp [AllFrames], hok.2⟩
      | error m => exact hok
      | calib => exact ⟨rfl, hok.2⟩
    | false =>
      refine hi.move rfl ?_
      cases i with
      | frame f =>
        obtain ⟨hall, n, rfl⟩ := hok
        exact hall
      | error m =>
        obtain rfl : next = .events := hok
        trivial
      | calib =>
        obtain ⟨-, rfl⟩ := hok
        rfl

/-- The batch is flushed. -/
theorem flush (hi : UsbInv s r) {accepted : Bool} {next : UsbPc} (hpc : s.pc = .flush next) :
    UsbInv (s.usbTxTask accepted) (usbRecord s (.usb accepted) r) := by
  have hok : PcOk next [] := by
    have h := hi.pc
    rw [hpc] at h
    exact h
  by_cases hcnt : s.b.recCnt = 0
  · have hnil : r.cur = [] := hi.packs.recCnt_eq_zero_iff.1 hcnt
    obtain ⟨hs, hr⟩ := usbTxTask_nothing r accepted hpc hcnt
    rw [hs, hr]
    exact hi.move rfl (by rw [hnil]; exact hok)
  cases accepted with
  -- the batch waits as it is
  | false =>
    obtain ⟨hs, hr⟩ := usbTxTask_waits r hpc hcnt
    rw [hs, hr]
    exact hi
  | true =>
    obtain ⟨hs, hr⟩ := usbTxTask_flushed r hpc hcnt
    rw [hs, hr]
    refine ⟨.reset s.b, hok, .nil, fun x hx => ?_⟩
    rcases List.mem_append.1 hx with hx | hx
    · exact hi.out x hx
    · rw [List.mem_singleton.1 hx]
      exact ticksExact_of_framesFirst hi.packs
        (fun h => hcnt (hi.packs.recCnt_eq_zero_iff.2 h)) hi.cur

/-- One step of `usb_tx_task`. -/
theorem usb (hi : UsbInv s r) {accepted : Bool} (hj : JoinsClosely s (.usb accepted)) :
    UsbInv (s.usbTxTask accepted) (usbRecord s (.usb accepted) r) := by
  have hok := hi.pc
  cases hpc : s.pc with
  | add i retry next => exact hi.add hpc hj
  | flush next => exact hi.flush hpc
  | top =>
    rw [hpc] at hok
    rw [usbRecord_elsewhere r accepted (by simp [hpc]) (by simp [hpc]), UsbState.usbTxTask, hpc]
    have hnil : r.cur = [] := hok
    cases s.rxRing with
    | nil => exact hi.move rfl (by simp [hnil, PcOk, AllFrames])
    | cons f ring => exact hi.move rfl ⟨by simp [hnil, AllFrames], 0, rfl⟩
  | drain n =>
    rw [hpc] at hok
    rw [usbRecord_elsewhere r accepted (by simp [hpc]) (by simp [hpc]), UsbState.usbTxTask, hpc]
    dsimp only
    split
    · cases s.rxRing with
      | nil => exact hi.move rfl hok
      | cons f ring => exact hi.move rfl ⟨hok, n + 1, rfl⟩
    · exact hi.move rfl hok
  | calib =>
    rw [usbRecord_elsewhere r accepted (by simp [hpc]) (by simp [hpc]), UsbState.usbTxTask, hpc]
    dsimp only
    split
    · exact hi.move rfl ⟨rfl, rfl⟩
    · exact hi.move rfl trivial
  | calibDone =>
    rw [usbRecord_elsewhere r accepted (by simp [hpc]) (by simp [hpc]), UsbState.usbTxTask, hpc]
    exact hi.move rfl trivial
  | events =>
    rw [usbRecord_elsewhere r accepted (by simp [hpc]) (by simp [hpc]), UsbState.usbTxTask, hpc]
    cases s.evtQueue with
    | nil => exact hi.move rfl rfl
    | cons m queue => exact hi.move rfl rfl

theorem step (hi : UsbInv s r) {l : UsbStep} (hj : JoinsClosely s l) (hst : s.step l = some s') :
    UsbInv s' (usbRecord s l r) := by
  cases l with
  | clock d => obtain rfl := Option.some.inj hst; exact hi.move rfl hi.pc
  | receive m =>
    rw [UsbState.step] at hst
    split at hst
    · obtain rfl := Option.some.inj hst; exact hi.move rfl hi.pc
    · cases hst
  | push lock =>
    rw [UsbState.step] at hst
    split at hst
    · cases hst
    · obtain rfl := Option.some.inj hst; exact hi.move rfl hi.pc
  | post m => obtain rfl := Option.some.inj hst; exact hi.move rfl hi.pc
  | usb accepted => obtain rfl := Option.some.inj hst; exact hi.usb hj

end UsbInv

/-! ### Runs -/

theorem UsbInv.of_init (us : ℕ) (b : Batch) : UsbInv (.init us b) ⟨[], []⟩ where
  packs := .reset b
  pc := rfl
  cur := .nil
  out := by simp

/-- **The host gives every frame its tick.**  In every run in which no frame joins a batch 256
ticks or more after the last record of it, the host's decoder gives the frames of every flushed
batch the ticks they were stamped with. -/
theorem flushed_ticks_exact {us : ℕ} {b : Batch} {ls : List UsbStep} {s : UsbState} {r : UsbRecord}
    (hrun : ((usbSystem.guard JoinsClosely).withAux usbRecord).Run (.init us b, ⟨[], []⟩) ls (s, r)) :
    ∀ x ∈ r.out, TicksExact x := by
  have hi : UsbInv s r := by
    refine hrun.invariant (I := fun p => UsbInv p.1 p.2) (.of_init us b) ?_
    rintro ⟨s, r⟩ l ⟨s', r'⟩ hi ⟨⟨hj, hst⟩, rfl⟩
    exact hi.step hj hst
  exact hi.out

/-- A message of the bus with two data bytes. -/
def shortMessage (identifier : UInt32) : TwaiMessage :=
  ⟨identifier, false, false, 2, #v[1, 2, 0, 0, 0, 0, 0, 0]⟩

/-- Two frames, ten ticks apart, that share a batch. -/
def closeFrames : Option (UsbState × UsbRecord) :=
  System.exec UsbState.step JoinsClosely usbRecord
    (.init 0 ⟨fun _ => 0, 0, 0, ⟨true, 0⟩⟩, ⟨[], []⟩)
    ([.receive (shortMessage 0x100), .push true, .clock 427, .receive (shortMessage 0x101),
      .push true] ++ List.replicate 8 (.usb true))

theorem flushed_ticks_exact_close :
    ∃ p, closeFrames = some p ∧ p.2.out.map (fun x => x.2.map Rec.tick) = [[some 0, some 10]] ∧
      ∀ x ∈ p.2.out, TicksExact x := by
  have hticks : closeFrames.map (fun p => p.2.out.map fun x => x.2.map Rec.tick) =
      some [[some 0, some 10]] := by decide +kernel
  obtain ⟨⟨s, r⟩, h, hticks⟩ := Option.map_eq_some_iff.1 hticks
  exact ⟨(s, r), h, hticks, flushed_ticks_exact (System.Run.of_exec h)⟩

/-- A frame is presented to a stalled endpoint; behind it, two frames 299 ticks apart pile up in
the ring, and share the next batch. -/
def stalledFrames : Option (UsbState × UsbRecord) :=
  System.exec UsbState.step (fun _ _ => True) usbRecord
    (.init 0 ⟨fun _ => 0, 0, 0, ⟨true, 0⟩⟩, ⟨[], []⟩)
    ([.receive (shortMessage 0x100), .push true] ++ List.replicate 6 (.usb false) ++
      [.receive (shortMessage 0x101), .push true, .clock 12800, .receive (shortMessage 0x102),
        .push true] ++ List.replicate 9 (.usb true))

theorem stalled_ticks_wrong :
    ¬ ∀ (us : ℕ) (b : Batch) (ls : List UsbStep) (s : UsbState) (r : UsbRecord),
      (usbSystem.withAux usbRecord).Run (.init us b, ⟨[], []⟩) ls (s, r) →
        ∀ x ∈ r.out, TicksExact x := by
  intro hall
  have hwrong : stalledFrames.map (fun p => p.2.out.map fun x => decide (TicksExact x)) =
      some [true, false] := by decide +kernel
  obtain ⟨⟨s, r⟩, h, hwrong⟩ := Option.map_eq_some_iff.1 hwrong
  have hexact := hall 0 _ _ s r (System.Run.of_exec h).of_guard_withAux
  have hmem : false ∈ r.out.map fun x => decide (TicksExact x) := by
    rw [hwrong]; simp
  obtain ⟨x, hx, hd⟩ := List.mem_map.1 hmem
  exact of_decide_eq_false hd (hexact x hx)

end Bridge

end Espcan32

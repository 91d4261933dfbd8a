import Espcan32.Bridge.UsbTx

/-!
# Nothing is lost on the way to the host

`usb_tx_task` makes one record of every frame that it pops from `rx_ring`, of every error mask that
it receives, and of every calibration that is due.  A record that does not fit the batch is added to
the one begun behind the flush.  A calibration record has a batch of its own: the host re-anchors
its time only for the first record of a batch.

* `UsbLedger` : the items that `usb_tx_task` has taken, beside the records of its batches.
* `Packs.fits` : an empty batch takes every record, so no second try fails.
* `LedgerInv.step` : the items taken are those of the flushed records, those of the batch that is
  being built, and the one that `usb_tx_task` has in hand, in this order.
* `lossless` : **the flushed batches hold one record for each item, in order**.
-/

namespace Espcan32

namespace Bridge

open Pcan

/-! ### The ledger -/

/-- The item that a record is made of. -/
def itemOf : Rec → Item
  | .frame f => .frame f
  | .error errMask _ => .error errMask
  | .calib _ => .calib

@[simp] theorem itemOf_record (us : ℕ) (i : Item) : itemOf (i.record us) = i := by
  cases i <;> rfl

/-- What a step of `usb_tx_task` takes: a frame that it pops, an error mask that it receives, a
calibration that is due. -/
def takes (s : UsbState) : UsbStep → List Item
  | .usb _ =>
    match s.pc with
    | .top => (s.rxRing.head?.map Item.frame).toList
    | .drain drained =>
      if drained < usbtxMaxDrain then (s.rxRing.head?.map Item.frame).toList else []
    | .calib => if tsCalibPeriodMs * 1000 ≤ s.us - s.lastCalibUs then [.calib] else []
    | .events => (s.evtQueue.head?.map Item.error).toList
    | _ => []
  | _ => []

/-- The records of the batches, and the items taken. -/
structure UsbLedger where
  record : UsbRecord
  taken : List Item

/-- Keep the ledger. -/
def usbLedger (s : UsbState) (l : UsbStep) (g : UsbLedger) : UsbLedger :=
  ⟨usbRecord s l g.record, g.taken ++ takes s l⟩

/-- The item that `usb_tx_task` has taken and not added yet. -/
def UsbPc.inHand : UsbPc → List Item
  | .add i _ _ => [i]
  | .flush next => next.inHand
  | _ => []

/-- A calibration record has the batch for itself. -/
def CalibAlone (recs : List Rec) : Prop := ∀ r ∈ recs, itemOf r = .calib → recs = [r]

/-! ### An empty batch takes every record -/

theorem length_bytes_le (r : Rec) (haveFirst : Bool) : (r.bytes haveFirst).length ≤ 16 := by
  have hts : (if haveFirst then 1 else 2) ≤ 2 := by split <;> omega
  cases r with
  | frame f =>
    have hid : (if f.ext then 4 else 2) ≤ 4 := by split <;> omega
    have hsrr : (if f.srr ∧ f.rtr = false then 1 else 0) ≤ 1 := by split <;> omega
    have hdlc := f.wireDlc_le
    have hdata : f.dataBytes ≤ 8 := by
      rw [Frame.dataBytes]
      split <;> omega
    rw [Rec.bytes, f.length_record]
    omega
  | error m t =>
    rw [Rec.bytes, length_statusRecord, if_pos rfl, List.length_nil]
    omega
  | calib t =>
    rw [Rec.bytes, length_statusRecord, length_putLe16]
    simp

/-- A record that was refused fits the batch behind the flush. -/
theorem Packs.fits {b : Batch} (h : b.Packs []) (r : Rec) : (b.add r).2 = true := by
  have hle := length_bytes_le r b.ts.haveFirst
  have hlen : b.len = 2 := h.len
  rw [b.add_eq, if_neg]
  rw [hlen, usbTxBufferSize]
  omega

/-! ### The invariant -/

/-- No record is a calibration. -/
def NoCalib (recs : List Rec) : Prop := ∀ r ∈ recs, itemOf r ≠ .calib

/-- What the place of `usb_tx_task` says about the batch: behind a flush it is empty, and a
calibration record comes to an empty batch only, to be flushed at once. -/
def PlaceOk : UsbPc → List Rec → Prop
  | .top, cur | .calibDone, cur => cur = []
  | .drain _, cur | .calib, cur | .events, cur => NoCalib cur
  | .add .calib _ next, cur => cur = [] ∧ next = .flush .calibDone
  | .add _ retry next, cur =>
    NoCalib cur ∧ (retry = false → cur = []) ∧ (next = .events ∨ ∃ n, next = .drain n)
  | .flush next, _ => PlaceOk next []

/-- What holds between steps. -/
structure LedgerInv (s : UsbState) (g : UsbLedger) : Prop where
  packs : s.b.Packs g.record.cur
  place : PlaceOk s.pc g.record.cur
  account : (g.record.out.flatMap Prod.snd ++ g.record.cur).map itemOf ++ s.pc.inHand = g.taken
  alone : CalibAlone g.record.cur
  out : ∀ x ∈ g.record.out, x.1.Packs x.2 ∧ CalibAlone x.2

theorem NoCalib.nil : NoCalib [] := fun _ hr => absurd hr (List.not_mem_nil)

theorem NoCalib.snoc {cur : List Rec} (h : NoCalib cur) (us : ℕ) {i : Item} (hne : i ≠ .calib) :
    NoCalib (cur ++ [i.record us]) := by
  intro r hr
  rcases List.mem_append.1 hr with hr | hr
  · exact h r hr
  · rwa [List.mem_singleton.1 hr, itemOf_record]

theorem NoCalib.alone {cur : List Rec} (h : NoCalib cur) : CalibAlone cur :=
  fun r hr hc => absurd hc (h r hr)

/-- A second try is made with an empty batch. -/
theorem PlaceOk.second_try {i : Item} {next : UsbPc} {cur : List Rec}
    (h : PlaceOk (.add i false next) cur) : cur = [] := by
  cases i with
  | frame f => exact h.2.1 rfl
  | error m => exact h.2.1 rfl
  | calib => exact h.1

/-- Nothing is in hand behind an item. -/
theorem PlaceOk.inHand_next {i : Item} {retry : Bool} {next : UsbPc} {cur : List Rec}
    (h : PlaceOk (.add i retry next) cur) : next.inHand = [] := by
  cases i with
  | frame f | error m => obtain ⟨-, -, rfl | ⟨n, rfl⟩⟩ := h <;> rfl
  | calib => obtain ⟨-, rfl⟩ := h; rfl

/-- The batch with the item in it. -/
theorem PlaceOk.added {i : Item} {retry : Bool} {next : UsbPc} {cur : List Rec}
    (h : PlaceOk (.add i retry next) cur) (us : ℕ) :
    PlaceOk next (cur ++ [i.record us]) ∧ CalibAlone (cur ++ [i.record us]) := by
  have hsnoc (hno : NoCalib cur) (hne : i ≠ .calib) : NoCalib (cur ++ [i.record us]) :=
    hno.snoc us hne
  cases i with
  | frame f | error m =>
    obtain ⟨hno, -, hnext⟩ := h
    have hno' := hsnoc hno (by simp)
    refine ⟨?_, hno'.alone⟩
    obtain rfl | ⟨n, rfl⟩ := hnext
    · exact hno'
    · exact hno'
  | calib =>
    obtain ⟨rfl, rfl⟩ := h
    refine ⟨rfl, fun r hr _ => ?_⟩
    rw [List.mem_singleton.1 hr]
    rfl

/-- The second try comes behind the flush. -/
theorem PlaceOk.again {i : Item} {retry : Bool} {next : UsbPc} {cur : List Rec}
    (h : PlaceOk (.add i retry next) cur) : PlaceOk (.add i false next) [] := by
  cases i with
  | frame f | error m => exact ⟨.nil, fun _ => rfl, h.2.2⟩
  | calib => exact ⟨rfl, h.2⟩

namespace LedgerInv

variable {s s' : UsbState} {g : UsbLedger}

/-- A step that leaves the batch alone, and takes `items`. -/
theorem take (hi : LedgerInv s g) (items : List Item) (hb : s'.b = s.b)
    (hplace : PlaceOk s'.pc g.record.cur) (hhand : s'.pc.inHand = s.pc.inHand ++ items) :
    LedgerInv s' ⟨g.record, g.taken ++ items⟩ where
  packs := hb ▸ hi.packs
  place := hplace
  account := by rw [hhand, ← List.append_assoc, hi.account]
  alone := hi.alone
  out := hi.out

/-- The item is added, or kept for the second try. -/
theorem add (hi : LedgerInv s g) {accepted : Bool} {i : Item} {retry : Bool} {next : UsbPc}
    (hpc : s.pc = .add i retry next) :
    LedgerInv (s.usbTxTask accepted) (usbLedger s (.usb accepted) g) := by
  have ⟨hpacks, hplace, haccount, halone, hout⟩ := hi
  have hnone : takes s (.usb accepted) = [] := by simp [takes, hpc]
  rw [hpc] at hplace haccount
  rw [usbLedger, hnone, List.append_nil]
  cases hadd : (s.b.add (i.record s.us)).2 with
  | true =>
    obtain ⟨hs, hr⟩ := usbTxTask_added g.record accepted hpc hadd
    rw [hs, hr]
    refine ⟨hpacks.add hadd, (hplace.added s.us).1, ?_, (hplace.added s.us).2, hout⟩
    rw [← haccount]
    simp [UsbPc.inHand, hplace.inHand_next]
  | false =>
    obtain ⟨hs, hr⟩ := usbTxTask_refused g.record accepted hpc hadd
    rw [hs, hr]
    cases retry with
    | true => exact ⟨hpacks, hplace.again, haccount, halone, hout⟩
    | false =>
      rw [hplace.second_try] at hpacks
      exact absurd (Packs.fits hpacks (i.record s.us)) (by simp [hadd])

/-- The batch is flushed, or there is none. -/
theorem flush (hi : LedgerInv s g) {accepted : Bool} {next : UsbPc} (hpc : s.pc = .flush next) :
    LedgerInv (s.usbTxTask accepted) (usbLedger s (.usb accepted) g) := by
  have ⟨hpacks, hplace, haccount, halone, hout⟩ := hi
  have hnone : takes s (.usb accepted) = [] := by simp [takes, hpc]
  rw [hpc] at hplace haccount
  rw [usbLedger, hnone, List.append_nil]
  by_cases hcnt : s.b.recCnt = 0
  · have hnil : g.record.cur = [] := hpacks.recCnt_eq_zero_iff.1 hcnt
    obtain ⟨hs, hr⟩ := usbTxTask_nothing g.record accepted hpc hcnt
    rw [hs, hr]
    exact ⟨hpacks, by rw [hnil]; exact hplace, haccount, halone, hout⟩
  cases accepted with
  | false =>
    obtain ⟨hs, hr⟩ := usbTxTask_waits g.record hpc hcnt
    rw [hs, hr]
    exact hi
  | true =>
    obtain ⟨hs, hr⟩ := usbTxTask_flushed g.record hpc hcnt
    rw [hs, hr]
    refine ⟨.reset s.b, hplace, ?_, NoCalib.nil.alone, fun x hx => ?_⟩
    · rw [← haccount]
      simp [UsbPc.inHand]
    · rcases List.mem_append.1 hx with hx | hx
      · exact hout x hx
      · rw [List.mem_singleton.1 hx]
        exact ⟨hpacks, halone⟩

/-- One step of `usb_tx_task`. -/
theorem usb (hi : LedgerInv s g) (accepted : Bool) :
    LedgerInv (s.usbTxTask accepted) (usbLedger s (.usb accepted) g) := by
  have hplace := hi.place
  cases hpc : s.pc with
  | add i retry next => exact hi.add hpc
  | flush next => exact hi.flush hpc
  | top =>
    rw [hpc] at hplace
    have hnil : g.record.cur = [] := hplace
    rw [usbLedger, usbRecord_elsewhere _ _ (by simp [hpc]) (by simp [hpc]), UsbState.usbTxTask,
      takes, hpc]
    cases s.rxRing with
    | nil => exact hi.take [] rfl (by rw [hnil]; exact .nil) (by rw [hpc]; rfl)
    | cons f ring =>
      exact hi.take [.frame f] rfl ⟨hnil ▸ .nil, by simp, .inr ⟨0, rfl⟩⟩ (by rw [hpc]; rfl)
  | drain n =>
    rw [hpc] at hplace
    have hno : NoCalib g.record.cur := hplace
    rw [usbLedger, usbRecord_elsewhere _ _ (by simp [hpc]) (by simp [hpc]), UsbState.usbTxTask,
      takes, hpc]
    dsimp only
    split
    · cases s.rxRing with
      | nil => exact hi.take [] rfl hno (by rw [hpc]; rfl)
      | cons f ring =>
        exact hi.take [.frame f] rfl ⟨hno, by simp, .inr ⟨n + 1, rfl⟩⟩ (by rw [hpc]; rfl)
    · exact hi.take [] rfl hno (by rw [hpc]; rfl)
  | calib =>
    rw [hpc] at hplace
    have hno : NoCalib g.record.cur := hplace
    rw [usbLedger, usbRecord_elsewhere _ _ (by simp [hpc]) (by simp [hpc]), UsbState.usbTxTask,
      takes, hpc]
    dsimp only
    split
    · exact hi.take [.calib] rfl ⟨rfl, rfl⟩ (by rw [hpc]; rfl)
    · exact hi.take [] rfl hno (by rw [hpc]; rfl)
  | calibDone =>
    rw [hpc] at hplace
    have hnil : g.record.cur = [] := hplace
    rw [usbLedger, usbRecord_elsewhere _ _ (by simp [hpc]) (by simp [hpc]), UsbState.usbTxTask,
      takes, hpc]
    exact hi.take [] rfl (hnil ▸ .nil) (by rw [hpc]; rfl)
  | events =>
    rw [hpc] at hplace
    have hno : NoCalib g.record.cur := hplace
    rw [usbLedger, usbRecord_elsewhere _ _ (by simp [hpc]) (by simp [hpc]), UsbState.usbTxTask,
      takes, hpc]
    cases s.evtQueue with
    | nil => exact hi.take [] rfl rfl (by rw [hpc]; rfl)
    | cons m queue => exact hi.take [.error m] rfl ⟨hno, by simp, .inl rfl⟩ (by rw [hpc]; rfl)

theorem step (hi : LedgerInv s g) {l : UsbStep} (hst : s.step l = some s') :
    LedgerInv s' (usbLedger s l g) := by
  cases l with
  | clock d => obtain rfl := Option.some.inj hst; exact hi.take [] rfl hi.place (by simp)
  | receive m =>
    rw [UsbState.step] at hst
    split at hst
    · obtain rfl := Option.some.inj hst; exact hi.take [] rfl hi.place (by simp)
    · cases hst
  | push lock =>
    rw [UsbState.step] at hst
    split at hst
    · cases hst
    · obtain rfl := Option.some.inj hst; exact hi.take [] rfl hi.place (by simp)
  | post m => obtain rfl := Option.some.inj hst; exact hi.take [] rfl hi.place (by simp)
  | usb accepted => obtain rfl := Option.some.inj hst; exact hi.usb accepted

end LedgerInv

/-! ### Runs -/

/-- The ledger before the first step. -/
def UsbLedger.empty : UsbLedger := ⟨⟨[], []⟩, []⟩

theorem LedgerInv.of_init (us : ℕ) (b : Batch) : LedgerInv (.init us b) .empty where
  packs := .reset b
  place := rfl
  account := rfl
  alone := NoCalib.nil.alone
  out := fun _ hx => absurd hx List.not_mem_nil

/-- **The flushed batches hold one record for each item, in order.**  In every run, the items that
`usb_tx_task` has taken are those of the records it has flushed, followed by those of the batch it
is building and the one it has in hand; at the head of its loop, nothing follows.  Every flushed
batch holds its records and nothing else, a calibration record has its batch for itself, and no
item is refused twice. -/
theorem lossless {us : ℕ} {b : Batch} {ls : List UsbStep} {s : UsbState} {g : UsbLedger}
    (hrun : (usbSystem.withAux usbLedger).Run (.init us b, .empty) ls (s, g)) :
    (g.record.out.flatMap Prod.snd ++ g.record.cur).map itemOf ++ s.pc.inHand = g.taken ∧
      (s.pc = .top → (g.record.out.flatMap Prod.snd).map itemOf = g.taken) ∧
      (∀ x ∈ g.record.out, x.1.Packs x.2 ∧ CalibAlone x.2) ∧
      ∀ i next, s.pc = .add i false next → (s.b.add (i.record s.us)).2 = true := by
  have hi : LedgerInv s g := by
    refine hrun.invariant (I := fun p => LedgerInv p.1 p.2) (.of_init us b) ?_
    rintro ⟨s, g⟩ l ⟨s', g'⟩ hi ⟨hst, rfl⟩
    exact hi.step hst
  refine ⟨hi.account, fun hpc => ?_, hi.out, fun i next hpc => ?_⟩
  · have hnil : g.record.cur = [] := by
      have h := hi.place
      rw [hpc] at h
      exact h
    have h := hi.account
    rw [hpc, hnil] at h
    simpa [UsbPc.inHand] using h
  · have hplace := hi.place
    rw [hpc] at hplace
    have hpacks := hi.packs
    rw [hplace.second_try] at hpacks
    exact Packs.fits hpacks _

/-- A message of the bus with eight data bytes. -/
def longMessage (identifier : UInt32) : TwaiMessage :=
  ⟨identifier, false, false, 8, .replicate frameMaxDlc 0x55⟩

/-- Six frames, of which a batch holds five, and an error come in while a calibration becomes due;
the endpoint is busy at first. -/
def fullBatch : Option (UsbState × UsbLedger) :=
  System.exec UsbState.step (fun _ _ => True) usbLedger
    (.init 0 ⟨fun _ => 0, 0, 0, ⟨true, 0⟩⟩, .empty)
    ((List.replicate 6 [.receive (longMessage 0x100), .push true]).flatten ++
      [.post 0x02, .clock (tsCalibPeriodMs * 1000)] ++ List.replicate 15 (.usb false) ++
      List.replicate 12 (.usb true))

theorem lossless_fullBatch :
    ∃ p, fullBatch = some p ∧ p.2.record.out.map (·.2.length) = [5, 1, 1, 1] ∧
      (p.2.record.out.flatMap Prod.snd).map itemOf = p.2.taken ∧
      ∀ x ∈ p.2.record.out, x.1.Packs x.2 ∧ CalibAlone x.2 := by
  have hend : fullBatch.map (fun p => (p.2.record.out.map (·.2.length), p.1.pc matches .top)) =
      some ([5, 1, 1, 1], true) := by decide +kernel
  obtain ⟨⟨s, g⟩, h, hend⟩ := Option.map_eq_some_iff.1 hend
  obtain ⟨hout, htop⟩ := Prod.mk.inj hend
  have hpc : s.pc = .top := by
    cases hs : s.pc with
    | top => rfl
    | add | drain | calib | calibDone | events | flush => simp [hs] at htop
  obtain ⟨-, hall, hpacks, -⟩ := lossless (System.Run.of_exec h).of_guard_withAux
  exact ⟨(s, g), h, hout, hall hpc, hpacks⟩

end Bridge

end Espcan32

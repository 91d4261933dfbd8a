import Espcan32.Adapter.Basic

/-!
# From the bus to the host

The frames of the bus pass from `twai_rx_task` through `rx_ring` and the batches of `usb_tx_task` to
the EP2-IN transfers.  A transfer carries the bytes of the batch that is being flushed; after a reset
it may be made again.

* `RxLink` : what the transfers carry, and what is in `rx_ring`.
* `RxInv.step` : every step keeps it.
* `hostStream` : what the host makes of the transfers.
* `bus_to_host` : **the host gets every frame that `rx_ring` took, in order**.
-/

namespace Espcan32

namespace Adapter

open Pcan Bridge Usb

/-! ### What the host makes of a transfer -/

/-- A frame of the host but for its tick. -/
def untimed (f : HostFrame) : HostFrame := { f with ts16 := 0 }

/-- The frames that the host decodes from the bytes of a transfer, but for their ticks. -/
def hostFrames (bytes : List UInt8) : Option (List HostFrame) :=
  (hostDecodeBatch (fun i => bytes.getD i 0) bytes.length).map fun mc => mc.frames.map untimed

/-- The frames among the records. -/
def recFrames (recs : List Rec) : List Frame := recs.filterMap Rec.frame?

theorem reconstruct_untimed (first : Bool) (t : TickRef) (recs : List Rec) :
    (reconstruct first t recs).map untimed = (recFrames recs).map fun f => f.hostFrame 0 := by
  induction recs generalizing first t with
  | nil => rfl
  | cons r recs ih =>
    cases r with
    | frame f =>
      rw [reconstruct, List.map_cons, ih]
      rfl
    | error m t' =>
      rw [reconstruct, ih]
      rfl
    | calib t' =>
      rw [reconstruct, ih]
      rfl

theorem getD_batchBytes {b : Batch} {i : ℕ} (hi : i < b.len) : (batchBytes b).getD i 0 = b.buf i := by
  rw [batchBytes, List.getD_eq_getElem?_getD, Mem.getElem?_read, if_pos hi, Nat.zero_add]
  rfl

/-- A batch is known by its bytes. -/
theorem packs_bytes {b : Batch} {recs : List Rec} (h : b.Packs recs) :
    ({ b with buf := fun i => (batchBytes b).getD i 0 } : Batch).Packs recs := by
  have hlen := h.len
  have h2 : msgHeaderLen = 2 := rfl
  refine { h with holds := ?_, type := ?_, count := ?_ }
  · have hholds := h.holds
    rw [Mem.Holds] at hholds ⊢
    refine Eq.trans (Mem.read_congr fun i hi => ?_) hholds
    exact getD_batchBytes (by omega)
  · exact (getD_batchBytes (by omega)).trans h.type
  · exact (getD_batchBytes (by omega)).trans h.count

/-- The host decodes the frames of a flushed batch. -/
theorem hostFrames_batchBytes {b : Batch} {recs : List Rec} (h : b.Packs recs) (hne : recs ≠ []) :
    hostFrames (batchBytes b) = some ((recFrames recs).map fun f => f.hostFrame 0) := by
  obtain ⟨mc, hmc, -, hframes, -⟩ := hostDecodeBatch_packs (packs_bytes h) hne
  have hlen : (batchBytes b).length = b.len := Mem.length_read ..
  rw [hostFrames, hlen, hmc, Option.map_some, hframes, reconstruct_untimed]

/-! ### `usb_tx_task` and `rx_ring` -/

/-- The frame of an item. -/
def itemFrame : Item → Option Frame
  | .frame f => some f
  | .error _ | .calib => none

@[simp] theorem itemFrame_itemOf (r : Rec) : itemFrame (itemOf r) = r.frame? := by
  cases r <;> rfl

/-- What `usb_tx_task` takes out of `rx_ring`. -/
theorem usbTxTask_takes (u : UsbState) (accepted : Bool) :
    u.rxRing = (takes u (.usb accepted)).filterMap itemFrame ++ (u.usbTxTask accepted).rxRing := by
  unfold takes UsbState.usbTxTask
  cases u.pc with
  | top =>
    dsimp only
    cases hring : u.rxRing with
    | nil => simp
    | cons f ring => rfl
  | drain n =>
    dsimp only
    split
    · cases hring : u.rxRing with
      | nil => simp
      | cons f ring => rfl
    · rfl
  | add i retry next =>
    dsimp only
    repeat' split
    all_goals rfl
  | calib =>
    dsimp only
    split <;> rfl
  | calibDone => rfl
  | events =>
    dsimp only
    cases u.evtQueue <;> rfl
  | flush next =>
    dsimp only
    repeat' split
    all_goals rfl

/-- What a step takes out of `rx_ring`, and what it puts into it. -/
theorem usbStep_takes {u u' : UsbState} {l : UsbStep} (hst : u.step l = some u') :
    u.rxRing ++ hearsFrame u l = (takes u l).filterMap itemFrame ++ u'.rxRing := by
  cases l with
  | usb accepted =>
    obtain rfl := Option.some.inj hst
    exact (List.append_nil _).trans (usbTxTask_takes u accepted)
  | push lock =>
    rw [UsbState.step] at hst
    split at hst
    · cases hst
    · rename_i f hheld
      obtain rfl := Option.some.inj hst
      simp only [hearsFrame, takes, hheld, List.filterMap_nil, List.nil_append]
      split
      · rfl
      · exact List.append_nil _
  | receive m =>
    rw [UsbState.step] at hst
    split at hst
    · obtain rfl := Option.some.inj hst
      exact List.append_nil _
    · cases hst
  | clock d | post errMask =>
    obtain rfl := Option.some.inj hst
    exact List.append_nil _

/-- Only `usb_tx_task` touches its batch. -/
theorem usbStep_batch {u u' : UsbState} {l : UsbStep} (hst : u.step l = some u')
    (hl : ∀ accepted, l ≠ .usb accepted) (g : UsbLedger) :
    u'.b = u.b ∧ u'.pc = u.pc ∧ (usbLedger u l g).record = g.record := by
  cases l with
  | usb accepted => exact absurd rfl (hl accepted)
  | receive m | push lock =>
    rw [UsbState.step] at hst
    split at hst <;> cases hst
    exact ⟨rfl, rfl, rfl⟩
  | clock d | post errMask =>
    obtain rfl := Option.some.inj hst
    exact ⟨rfl, rfl, rfl⟩

/-- Without a flush, no batch is flushed. -/
theorem usbRecord_out (u : UsbState) (r : UsbRecord) : (usbRecord u (.usb false) r).out = r.out := by
  unfold usbRecord
  cases u.pc with
  | add i retry next =>
    dsimp only
    split <;> rfl
  | top | drain | calib | calibDone | events | flush => rfl

/-- No empty batch is flushed. -/
theorem usbRecord_nonempty {u : UsbState} {r : UsbRecord} (hp : u.b.Packs r.cur)
    (h : ∀ x ∈ r.out, x.2 ≠ []) (l : UsbStep) : ∀ x ∈ (usbRecord u l r).out, x.2 ≠ [] := by
  unfold usbRecord
  split
  · split <;> exact h
  · split
    · exact h
    · rename_i hcnt
      intro x hx
      rcases List.mem_append.1 hx with hx | hx
      · exact h x hx
      · rw [List.mem_singleton.1 hx]
        exact fun hnil => hcnt (hp.recCnt_eq_zero_iff.2 hnil)
  · exact h

/-! ### The glue and the batches -/

/-- Only `usb_glue_send_msg_batch()` and its caller change what is presented. -/
theorem glueStep_batch {g g' : GlueState} {l : GlueStep} (hst : g.step l = some g')
    (hpresent : ∀ buf, l ≠ .present buf) (hsend : l ≠ .send) :
    g'.batch = g.batch ∧ g'.batchNo = g.batchNo := by
  cases l with
  | present buf => exact absurd rfl (hpresent buf)
  | send => exact absurd rfl hsend
  | go ok =>
    obtain rfl := Option.some.inj hst
    unfold GlueState.go
    repeat' split
    all_goals exact ⟨rfl, rfl⟩
  | service =>
    rw [GlueState.step, GlueState.service] at hst
    split at hst <;> cases hst
    all_goals exact ⟨rfl, rfl⟩
  | defer kept =>
    rw [GlueState.step, GlueState.defer] at hst
    split at hst
    · cases hst
    all_goals
      obtain rfl := Option.some.inj hst
      cases kept <;> exact ⟨rfl, rfl⟩
  | takeStats =>
    obtain rfl := Option.some.inj hst
    exact ⟨rfl, rfl⟩
  | wire success =>
    rw [GlueState.step] at hst
    split at hst <;> cases hst
    exact ⟨rfl, rfl⟩
  | run | completeCmd | completeMsg | completeIn =>
    rw [GlueState.step] at hst
    split at hst
    · obtain ⟨-, rfl⟩ := GlueState.callback_eq hst
      exact ⟨rfl, rfl⟩
    · cases hst
  | reset | deinit | openItf =>
    obtain ⟨-, rfl⟩ := GlueState.callback_eq hst
    exact ⟨rfl, rfl⟩

/-- What the record says about the transfers that went through, and the presentation. -/
def SameTransfers (r r' : InRecord) : Prop :=
  r'.wire = r.wire ∧ r'.since = r.since ∧ r'.presented = r.presented

/-- Only a transfer, or a presentation, changes that. -/
theorem inRecord_same (g : GlueState) {l : GlueStep} (r : InRecord) (hsend : l ≠ .send)
    (hwire : l ≠ .wire true) : SameTransfers r (inRecord g l r) := by
  cases l with
  | send => exact absurd rfl hsend
  | wire success =>
    cases success with
    | true => exact absurd rfl hwire
    | false => exact ⟨rfl, rfl, rfl⟩
  | present | service | defer | takeStats | run | completeCmd | completeMsg | completeIn | reset
  | deinit | openItf | go => exact ⟨rfl, rfl, rfl⟩

/-! ### The link -/

/-- The batches on both sides of `usb_glue_send_msg_batch()`, and the transfers. -/
structure RxLink (d : AdapterState) (r : AdapterRecord) : Prop where
  batches : r.ledger.record.out.length = d.glue.batchNo
  /-- The batch that is presented is the one that is being flushed. -/
  presented : ∀ buf, d.glue.batch = some buf → Flushing d.usb ∧ buf = batchBytes d.usb.b
  /-- A transfer of its number carried its bytes. -/
  now : ∀ t ∈ r.inRec.wire, t.batch = d.glue.batchNo → d.glue.batch = some t.bytes
  /-- A transfer with an earlier number carried the bytes of the batch flushed under it. -/
  past : ∀ t ∈ r.inRec.wire, ∀ x, r.ledger.record.out[t.batch]? = some x → t.bytes = batchBytes x.1
  since : r.inRec.presented = true →
    ∀ t ∈ r.inRec.wire.drop r.inRec.since, t.batch = d.glue.batchNo
  through : ∀ k < r.ledger.record.out.length, k ∈ r.orphaned ∨ ∃ t ∈ r.inRec.wire, t.batch = k

namespace RxLink

variable {d d' : AdapterState} {r r' : AdapterRecord}

theorem init (dev : DevState) (us : ℕ) (b : Batch) : RxLink (.init dev us b) .none where
  batches := rfl
  presented := by intro buf hb; cases hb
  now := by intro t ht; cases ht
  past := by intro t ht; cases ht
  since := by intro hp; cases hp
  through := by intro k hk; cases hk

/-- A step that leaves the batch and the transfers alone. -/
theorem move (h : RxLink d r)
    (hglue : d'.glue.batch = d.glue.batch ∧ d'.glue.batchNo = d.glue.batchNo)
    (husb : d'.usb.b = d.usb.b ∧ d'.usb.pc = d.usb.pc)
    (hledger : r'.ledger.record = r.ledger.record) (hin : SameTransfers r.inRec r'.inRec)
    (horphaned : r'.orphaned = r.orphaned) : RxLink d' r' := by
  obtain ⟨hbatch, hno⟩ := hglue
  obtain ⟨hb, hpc⟩ := husb
  obtain ⟨hwire, hsince, hpres⟩ := hin
  have hflush : Flushing d'.usb ↔ Flushing d.usb := by rw [Flushing, Flushing, hb, hpc]
  refine ⟨?_, ?_, ?_, ?_, ?_, ?_⟩
  · rw [hledger, hno]; exact h.batches
  · rw [hbatch, hflush, hb]; exact h.presented
  · rw [hwire, hno, hbatch]; exact h.now
  · rw [hwire, hledger]; exact h.past
  · rw [hpres, hwire, hsince, hno]; exact h.since
  · rw [hledger, horphaned, hwire]; exact h.through

/-- While nothing is presented, no transfer has the number of the next batch. -/
theorem fresh (h : RxLink d r) (hnone : d.glue.batch = none) {t : Sent} (ht : t ∈ r.inRec.wire) :
    t.batch ≠ d.glue.batchNo := by
  intro heq
  rw [h.now t ht heq] at hnone
  cases hnone

/-- A transfer goes through. -/
theorem wire (h : RxLink d r) (hin : InInv d.glue r.inRec) {t : InTransfer}
    (hf : d.glue.inFlight = some t)
    (hglue : d'.glue.batch = d.glue.batch ∧ d'.glue.batchNo = d.glue.batchNo)
    (husb : d'.usb = d.usb) (hledger : r'.ledger = r.ledger)
    (hrec : r'.inRec = { r.inRec with wire := r.inRec.wire ++ [⟨r.inRec.session, t.batch, t.bytes⟩] })
    (horphaned : r'.orphaned = r.orphaned) : RxLink d' r' := by
  obtain ⟨hbatch, hno⟩ := hglue
  obtain ⟨hbytes, htno, hst, -⟩ := hin.flight t hf
  have hcopied : d.glue.batch = some d.glue.msgIn := by
    refine (hin.copied fun hidle => ?_).1
    rcases hst with hst | ⟨hst, -⟩ <;> rw [hidle] at hst <;> cases hst
  refine ⟨?_, ?_, fun u hu heq => ?_, fun u hu x hx => ?_, fun hpres u hu => ?_, fun k hk => ?_⟩
  · rw [hledger, hno]; exact h.batches
  · rw [hbatch, husb]; exact h.presented
  · rw [hrec] at hu
    rw [hno] at heq
    rw [hbatch]
    rcases List.mem_append.1 hu with hu | hu
    · exact h.now u hu heq
    · rw [List.mem_singleton.1 hu, hcopied, hbytes]
  · rw [hrec] at hu
    rw [hledger] at hx
    rcases List.mem_append.1 hu with hu | hu
    · exact h.past u hu x hx
    · -- this batch has not been flushed
      rw [List.mem_singleton.1 hu] at hx
      have hlt := (List.getElem?_eq_some_iff.1 hx).1
      rw [h.batches] at hlt
      exact absurd htno (Nat.ne_of_lt hlt)
  · rw [hrec] at hu hpres
    rw [hno]
    dsimp only at hu
    rw [List.drop_append_of_le_length hin.since] at hu
    rcases List.mem_append.1 hu with hu | hu
    · exact h.since hpres u hu
    · rw [List.mem_singleton.1 hu]; exact htno
  · rw [hledger] at hk
    rw [horphaned, hrec]
    exact (h.through k hk).imp_right fun ⟨u, hu, heq⟩ => ⟨u, List.mem_append_left _ hu, heq⟩

/-- `usb_tx_task` moves elsewhere: nothing is presented. -/
theorem usb (h : RxLink d r) (hflush : ¬ Flushing d.usb) (hglue : d'.glue = d.glue)
    (hout : r'.ledger.record.out = r.ledger.record.out) (hin : r'.inRec = r.inRec)
    (horphaned : r'.orphaned = r.orphaned) : RxLink d' r' := by
  have hnone : d.glue.batch = none := by
    cases hb : d.glue.batch with
    | none => rfl
    | some buf => exact absurd (h.presented buf hb).1 hflush
  refine ⟨?_, ?_, ?_, ?_, ?_, ?_⟩
  · rw [hout, hglue]; exact h.batches
  · rw [hglue, hnone]; intro buf hb; cases hb
  · rw [hin, hglue]; exact h.now
  · rw [hin, hout]; exact h.past
  · rw [hin, hglue]; exact h.since
  · rw [hout, horphaned, hin]; exact h.through

/-- `usb_tx_task` has a new batch to present. -/
theorem present (h : RxLink d r) (hflush : Flushing d.usb)
    (hst : d.glue.step (.present (batchBytes d.usb.b)) = some d'.glue) (husb : d'.usb = d.usb)
    (hledger : r'.ledger = r.ledger) (hin : r'.inRec = r.inRec)
    (horphaned : r'.orphaned = r.orphaned) : RxLink d' r' := by
  rw [GlueState.step] at hst
  split at hst
  · rename_i hidle
    obtain hg := Option.some.inj hst
    have hfresh (t : Sent) (ht : t ∈ r.inRec.wire) : t.batch ≠ d.glue.batchNo := h.fresh hidle.2 ht
    refine ⟨?_, fun buf hb => ?_, fun t ht heq => ?_, ?_, ?_, ?_⟩
    · rw [hledger, ← hg]; exact h.batches
    · rw [← hg] at hb
      obtain rfl := Option.some.inj hb
      rw [husb]
      exact ⟨hflush, rfl⟩
    · rw [hin] at ht
      rw [← hg] at heq
      exact absurd heq (hfresh t ht)
    · rw [hin, hledger]; exact h.past
    · rw [hin, ← hg]; exact h.since
    · rw [hledger, horphaned, hin]; exact h.through
  · cases hst

/-- The record of a presentation: what was presented before stays so, and what is presented for the
first time has no transfer behind it. -/
theorem present_since {r : InRecord} {no : ℕ}
    (h : r.presented = true → ∀ t ∈ r.wire.drop r.since, t.batch = no) :
    ∀ t ∈ r.present.wire.drop r.present.since, t.batch = no := by
  unfold InRecord.present
  split
  · exact h ‹_›
  · dsimp only
    rw [List.drop_length]
    intro t ht
    cases ht

/-- The call of `usb_glue_send_msg_batch()` does not return the length. -/
theorem keep (h : RxLink d r) (hst : d.glue.step .send = some d'.glue) (hrel : d.released = false)
    (husb : d'.usb = d.usb) (hledger : r'.ledger = r.ledger)
    (hin : r'.inRec = inRecord d.glue .send r.inRec) (horphaned : r'.orphaned = r.orphaned) :
    RxLink d' r' := by
  obtain ⟨buf, -, hbatch, hcase⟩ := GlueState.send_cases hst
  have hfin : (d.glue.sendMsgBatch buf).2.1 = false := by
    rw [AdapterState.released, hbatch] at hrel
    exact hrel
  have hin : r'.inRec = r.inRec.present := by
    rw [hin, inRecord, hbatch]
    dsimp only
    rw [hfin, Bool.not_false, ← (InInv.present_since r.inRec).2.2.1]
  obtain ⟨hwire, -⟩ := InInv.present_since r.inRec
  have hglue : d'.glue.batch = d.glue.batch ∧ d'.glue.batchNo = d.glue.batchNo := by
    rcases hcase with ⟨-, hg⟩ | ⟨hfin', -⟩ | ⟨-, -, -, -, hg⟩ | ⟨-, -, -, -, hg⟩
    · rw [hg]; exact ⟨rfl, rfl⟩
    · rw [hfin] at hfin'; cases hfin'
    · rw [hg]; exact ⟨rfl, rfl⟩
    · rw [hg]; exact ⟨rfl, rfl⟩
  obtain ⟨hb, hno⟩ := hglue
  refine ⟨?_, ?_, ?_, ?_, fun _ => ?_, ?_⟩
  · rw [hledger, hno]; exact h.batches
  · rw [hb, husb]; exact h.presented
  · rw [hin, hwire, hno, hb]; exact h.now
  · rw [hin, hwire, hledger]; exact h.past
  · rw [hin, hno]; exact present_since h.since
  · rw [hledger, horphaned, hin, hwire]; exact h.through

/-- The call returns the length: the batch is flushed. -/
theorem release (h : RxLink d r) (hi : InInv d.glue r.inRec)
    (hst : d.glue.step .send = some d'.glue) (hrel : d.released = true)
    (hledger : r'.ledger = usbLedger d.usb (.usb true) r.ledger)
    (hin : r'.inRec = inRecord d.glue .send r.inRec)
    (horphaned : r'.orphaned = r.orphaned ++ if r.inRec.deinited then [d.glue.batchNo] else []) :
    RxLink d' r' := by
  obtain ⟨buf, -, hbatch, hcase⟩ := GlueState.send_cases hst
  have hfin : (d.glue.sendMsgBatch buf).2.1 = true := by
    rw [AdapterState.released, hbatch] at hrel
    exact hrel
  have hg : d'.glue.batch = none ∧ d'.glue.batchNo = d.glue.batchNo + 1 := by
    rcases hcase with ⟨hfin', -⟩ | ⟨-, -, hg⟩ | ⟨hfin', -⟩ | ⟨hfin', -⟩
    · rw [hfin] at hfin'; cases hfin'
    · rw [hg]; exact ⟨rfl, rfl⟩
    · rw [hfin] at hfin'; cases hfin'
    · rw [hfin] at hfin'; cases hfin'
  obtain ⟨hb, hno⟩ := hg
  obtain ⟨⟨⟨next, hpc⟩, hcnt⟩, hbuf⟩ := h.presented buf hbatch
  obtain ⟨-, hrecord⟩ := usbTxTask_flushed r.ledger.record hpc hcnt
  have hout : r'.ledger.record.out =
      r.ledger.record.out ++ [(d.usb.b, r.ledger.record.cur)] := by
    rw [hledger, usbLedger, hrecord]
  obtain ⟨hpres, hthrough⟩ := hi.released hbatch hfin
  have hwire : r'.inRec.wire = r.inRec.wire ∧ r'.inRec.presented = false := by
    rw [hin, inRecord, hbatch]
    exact ⟨(InInv.present_since r.inRec).1, by dsimp only; rw [hfin]; rfl⟩
  refine ⟨?_, ?_, fun t ht heq => ?_, fun t ht x hx => ?_, ?_, fun k hk => ?_⟩
  · rw [hout, hno, List.length_append, h.batches]; rfl
  · rw [hb]; intro buf hb; cases hb
  · -- the next number has not been used
    rw [hwire.1] at ht
    have hle := (hi.le t ht).2
    omega
  · rw [hwire.1] at ht
    rw [hout] at hx
    rcases getElem?_snoc hx with hx | ⟨heq, rfl⟩
    · exact h.past t ht x hx
    · have hnow := h.now t ht (heq.trans h.batches)
      rw [hbatch] at hnow
      exact (Option.some.inj hnow).symm.trans hbuf
  · rw [hwire.2]; intro hp; cases hp
  · rw [hwire.1, horphaned]
    rw [hout, List.length_append, List.length_singleton, Nat.lt_succ_iff_lt_or_eq] at hk
    rcases hk with hk | hk
    · exact (h.through k hk).imp_left (List.mem_append_left _)
    · -- the batch that has just been flushed
      rcases hthrough with ⟨t, ht, -⟩ | hdein
      · exact .inr ⟨t, List.mem_of_mem_drop ht, by rw [h.since hpres t ht, hk, h.batches]⟩
      · rw [if_pos hdein, hk, h.batches]
        exact .inl (List.mem_append_right _ (List.mem_singleton.2 rfl))

/-- The glue moves without a call of `usb_glue_send_msg_batch()`, and nothing goes through. -/
theorem glue_move (h : RxLink d r) {x : GlueStep} (hst : d.glue.step x = some d'.glue)
    (hpresent : ∀ buf, x ≠ .present buf) (hsend : x ≠ .send) (hwire : x ≠ .wire true)
    (husb : d.usb = d'.usb) (hledger : r'.ledger = r.ledger)
    (hin : r'.inRec = inRecord d.glue x r.inRec) (horphaned : r'.orphaned = r.orphaned) :
    RxLink d' r' :=
  h.move (glueStep_batch hst hpresent hsend) ⟨by rw [husb], by rw [husb]⟩ (by rw [hledger])
    (hin ▸ inRecord_same d.glue r.inRec hsend hwire) horphaned

/-- `twai_rx_task`, the clock or `ctrl_task` moves. -/
theorem usb_move (h : RxLink d r) {x : UsbStep} (hst : d.usb.step x = some d'.usb)
    (hx : ∀ accepted, x ≠ .usb accepted) (hglue : d.glue = d'.glue)
    (hledger : r'.ledger = usbLedger d.usb x r.ledger) (hin : r'.inRec = r.inRec)
    (horphaned : r'.orphaned = r.orphaned) : RxLink d' r' := by
  obtain ⟨hb, hpc, hrec⟩ := usbStep_batch hst hx r.ledger
  exact h.move ⟨by rw [hglue], by rw [hglue]⟩ ⟨hb, hpc⟩ (hledger ▸ hrec)
    (hin ▸ ⟨rfl, rfl, rfl⟩) horphaned

theorem step (h : RxLink d r) (hi : InInv d.glue r.inRec) {l : AdapterStep}
    (hst : d.step l = some d') : RxLink d' (adapterRecord d l r) := by
  obtain ⟨ha, hglue, -, husb⟩ := AdapterState.step_parts hst
  have hquiet (hl : l ≠ .send) : (adapterRecord d l r).orphaned = r.orphaned := by
    cases l with
    | send => exact absurd rfl hl
    | glue | can | push | service | defer | present | usb | receive | pushRx | clock | post =>
      exact List.append_nil _
  cases l with
  | glue x =>
    by_cases hx : x = .wire true
    · subst hx
      have hu : d.usb = d'.usb := Option.some.inj husb
      have hwire : d.glue.step (.wire true) = some d'.glue := hglue
      have hg := glueStep_batch hwire (by simp) (by simp)
      rw [GlueState.step] at hwire
      split at hwire
      · rename_i batch bytes hf
        refine h.wire hi hf hg hu.symm rfl ?_ (hquiet (by simp))
        simp only [adapterRecord, AdapterState.glueStep, System.keep, inRecord, hf]
      · cases hwire
    · exact h.glue_move hglue (by rintro buf rfl; exact ha) (by rintro rfl; exact ha) hx
        (Option.some.inj husb) rfl rfl (hquiet (by simp))
  | push lock =>
    exact h.glue_move (x := .go _) hglue (by simp) (by simp) (by simp)
      (Option.some.inj husb) rfl rfl (hquiet (by simp))
  | service =>
    exact h.glue_move (x := .service) hglue (by simp) (by simp) (by simp)
      (Option.some.inj husb) rfl rfl (hquiet (by simp))
  | defer kept =>
    exact h.glue_move (x := .defer kept) hglue (by simp) (by simp) (by simp)
      (Option.some.inj husb) rfl rfl (hquiet (by simp))
  | can x =>
    have hg : d.glue = d'.glue := Option.some.inj hglue
    have hu : d.usb = d'.usb := Option.some.inj husb
    exact h.move ⟨by rw [hg], by rw [hg]⟩ ⟨by rw [hu], by rw [hu]⟩ rfl ⟨rfl, rfl, rfl⟩
      (hquiet (by simp))
  | receive m =>
    exact h.usb_move (x := .receive m) husb (by simp) (Option.some.inj hglue) rfl rfl
      (hquiet (by simp))
  | pushRx lock =>
    exact h.usb_move (x := .push lock) husb (by simp) (Option.some.inj hglue) rfl rfl
      (hquiet (by simp))
  | clock k =>
    exact h.usb_move (x := .clock k) husb (by simp) (Option.some.inj hglue) rfl rfl
      (hquiet (by simp))
  | post errMask =>
    exact h.usb_move (x := .post errMask) husb (by simp) (Option.some.inj hglue) rfl rfl
      (hquiet (by simp))
  | usb =>
    exact h.usb ha.2 (Option.some.inj hglue).symm (usbRecord_out d.usb r.ledger.record) rfl
      (hquiet (by simp))
  | present =>
    exact h.present ha hglue (Option.some.inj husb).symm rfl rfl (hquiet (by simp))
  | send =>
    cases hrel : d.released with
    | true =>
      refine h.release hi hglue hrel ?_ rfl ?_
      · simp only [adapterRecord, AdapterState.usbStep, hrel, if_true, System.keep]
      · simp only [adapterRecord, orphans, hrel, true_and]
    | false =>
      simp only [AdapterState.usbStep, hrel] at husb
      refine h.keep hglue hrel (Option.some.inj husb).symm ?_ rfl ?_
      · simp only [adapterRecord, AdapterState.usbStep, hrel]
        rfl
      · simp only [adapterRecord, orphans, hrel]
        exact List.append_nil _

end RxLink

/-! ### Runs -/

/-- What holds between steps: the invariants of the parts, the link, and what is in `rx_ring`. -/
structure RxInv (d : AdapterState) (r : AdapterRecord) : Prop where
  glue : InInv d.glue r.inRec
  usb : LedgerInv d.usb r.ledger
  link : RxLink d r
  heard : r.ledger.taken.filterMap itemFrame ++ d.usb.rxRing = r.heard
  nonempty : ∀ x ∈ r.ledger.record.out, x.2 ≠ []

namespace RxInv

variable {d d' : AdapterState} {r : AdapterRecord}

theorem init (dev : DevState) (us : ℕ) (b : Batch) : RxInv (.init dev us b) .none where
  glue := .init
  usb := .of_init us b
  link := .init dev us b
  heard := rfl
  nonempty := by intro x hx; cases hx

theorem step (h : RxInv d r) {l : AdapterStep} (hst : d.step l = some d') :
    RxInv d' (adapterRecord d l r) := by
  obtain ⟨-, hglue, -, husb⟩ := AdapterState.step_parts hst
  refine ⟨System.stay_keeps (I := InInv) hglue h.glue fun x g' _ hst => h.glue.step hst,
    System.stay_keeps (I := LedgerInv) husb h.usb fun x u' _ hst => h.usb.step hst,
    h.link.step h.glue hst, ?_, ?_⟩
  all_goals
    simp only [adapterRecord]
    cases hl : d.usbStep l <;> rw [hl] at husb
  · rw [← Option.some.inj husb]
    exact h.heard.trans (List.append_nil _).symm
  · rename_i x
    have hst : d.usb.step x = some d'.usb := husb
    have htakes := usbStep_takes hst
    simp only [System.keep, usbLedger, Option.elim_some, List.filterMap_append]
    rw [← h.heard, List.append_assoc, List.append_assoc, htakes]
  · exact h.nonempty
  · exact usbRecord_nonempty h.usb.packs h.nonempty _

end RxInv

/-! ### The frames that the host gets -/

/-- The frames that the host decodes from the first transfers of the first `n` batches. -/
def hostStream (wire : List Sent) (n : ℕ) : List HostFrame :=
  (List.range n).flatMap fun k =>
    ((wire.find? fun t => t.batch = k).bind fun t => hostFrames t.bytes).getD []

/-- Reading off a list by index. -/
theorem range_flatMap {α β : Type*} (xs : List α) (g : ℕ → List β) (f : α → List β)
    (h : ∀ k x, xs[k]? = some x → g k = f x) : (List.range xs.length).flatMap g = xs.flatMap f := by
  induction xs using List.reverseRecOn with
  | nil => rfl
  | append_singleton xs x ih =>
    rw [List.length_append, List.length_singleton, List.range_succ, List.flatMap_append,
      List.flatMap_append, ih fun k y hk => h k y ?_]
    · rw [List.flatMap_singleton, List.flatMap_singleton, h xs.length x (by simp)]
    · rw [List.getElem?_append_left (List.getElem?_eq_some_iff.1 hk).1, hk]

/-- The frames that `rx_ring` took and that have not been flushed yet. -/
def waiting (d : AdapterState) (r : AdapterRecord) : List Frame :=
  recFrames r.ledger.record.cur ++ (d.usb.pc.inHand.filterMap itemFrame ++ d.usb.rxRing)

/-- What becomes of the frames of the bus. -/
structure Reported (d : AdapterState) (r : AdapterRecord) : Prop where
  /-- The frames of the flushed batches, and those waiting, are in order those `rx_ring` took. -/
  conserved : r.ledger.record.out.flatMap (fun x => recFrames x.2) ++ waiting d r = r.heard
  /-- The host decodes a transfer to the frames of the batch that was flushed under its number. -/
  decoded : ∀ t ∈ r.inRec.wire, ∀ x, r.ledger.record.out[t.batch]? = some x →
    hostFrames t.bytes = some ((recFrames x.2).map fun f => f.hostFrame 0)
  /-- The transfers come in the order of the batches, -/
  order : r.inRec.wire.Pairwise fun t u => t.batch ≤ u.batch
  /-- and no batch is left out but those released since the driver had gone away. -/
  through : ∀ k < r.ledger.record.out.length,
    k ∈ r.orphaned ∨ ∃ t ∈ r.inRec.wire, t.batch = k
  /-- As long as it does not go away, the host gets the frames that `rx_ring` took. -/
  stream : r.orphaned = [] →
    hostStream r.inRec.wire r.ledger.record.out.length ++
      (waiting d r).map (fun f => f.hostFrame 0) = r.heard.map fun f => f.hostFrame 0

theorem RxInv.reported {d : AdapterState} {r : AdapterRecord} (h : RxInv d r) : Reported d r := by
  have hdecoded : ∀ t ∈ r.inRec.wire, ∀ x, r.ledger.record.out[t.batch]? = some x →
      hostFrames t.bytes = some ((recFrames x.2).map fun f => f.hostFrame 0) := by
    intro t ht x hx
    have hmem := List.mem_of_getElem? hx
    rw [h.link.past t ht x hx]
    exact hostFrames_batchBytes (h.usb.out x hmem).1 (h.nonempty x hmem)
  have hconserved : r.ledger.record.out.flatMap (fun x => recFrames x.2) ++ waiting d r =
      r.heard := by
    rw [← h.heard, ← h.usb.account]
    simp only [waiting, recFrames, List.filterMap_append, List.map_append, List.filterMap_map,
      List.append_assoc, Function.comp_def, itemFrame_itemOf, List.filterMap_flatMap,
      List.map_flatMap]
  refine ⟨hconserved, hdecoded, h.glue.order, h.link.through, fun hnone => ?_⟩
  have hstream : hostStream r.inRec.wire r.ledger.record.out.length =
      r.ledger.record.out.flatMap fun x => (recFrames x.2).map fun f => f.hostFrame 0 := by
    refine range_flatMap _ _ _ fun k x hx => ?_
    have hk := (List.getElem?_eq_some_iff.1 hx).1
    obtain ⟨t, ht, rfl⟩ := (h.link.through k hk).resolve_left (by rw [hnone]; exact List.not_mem_nil)
    -- the first transfer with the number
    cases hfind : r.inRec.wire.find? fun u => u.batch = t.batch with
    | none =>
      exact absurd (List.find?_eq_none.1 hfind t ht) (by simp)
    | some u =>
      have hu : u.batch = t.batch := by simpa using List.find?_some hfind
      rw [Option.bind_some, hdecoded u (List.mem_of_find?_eq_some hfind) x (by rw [hu]; exact hx)]
      rfl
  rw [hstream, ← hconserved, List.map_append, List.map_flatMap]

/-- **From the bus to the host.**  In every run of the adapter, the frames that `rx_ring` took are, in
order, those of the flushed batches and those waiting; the host decodes every EP2-IN transfer to the
frames of the batch that was flushed under its number, but for the ticks; and each flushed batch has
gone through, unless the driver had gone away.  So what the host makes of the first transfer of each
batch, followed by what is waiting, are the frames of the bus. -/
theorem bus_to_host {dev : DevState} {us : ℕ} {b : Batch} {ls : List AdapterStep} {d : AdapterState}
    {r : AdapterRecord}
    (hrun : (adapterSystem.withAux adapterRecord).Run (.init dev us b, .none) ls (d, r)) :
    Reported d r := by
  have h : RxInv d r := by
    refine hrun.invariant (I := fun p => RxInv p.1 p.2) (.init dev us b) ?_
    rintro ⟨d, r⟩ l ⟨d', r'⟩ h ⟨hst, rfl⟩
    exact h.step hst
  exact h.reported

/-- Two frames share a batch; its transfer goes through, but the bus is reset before its completion
is handled, and it is made again. -/
def madeAgain : Option (AdapterState × AdapterRecord) :=
  System.exec AdapterState.step (fun _ _ => True) adapterRecord
    (.init ⟨500000, false, true, true⟩ 0 ⟨fun _ => 0, 0, 0, ⟨true, 0⟩⟩, .none)
    ([.glue .openItf, .glue (.go true), .glue (.go true), .glue (.go true), .can .rx,
        .receive (shortMessage 0x100), .pushRx true, .can .rx, .receive (shortMessage 0x101),
        .pushRx true] ++ List.replicate 7 .usb ++
      [.present, .send, .defer true, .glue (.run .msgIn 2 false), .glue (.go true),
        .glue (.go true), .glue (.go true), .glue (.wire true), .glue .reset, .glue (.go true),
        .glue .openItf, .glue (.go true), .glue (.go true), .glue (.go true), .send, .defer true,
        .glue (.run .msgIn 4 false), .glue (.go true), .glue (.go true), .glue (.go true),
        .glue (.wire true), .glue .completeIn, .glue (.go true), .send])

theorem bus_to_host_madeAgain :
    ∃ p, madeAgain = some p ∧ p.2.inRec.wire.map (·.batch) = [0, 0] ∧
      (hostStream p.2.inRec.wire 1).map (·.id) = [0x100, 0x101] ∧ Reported p.1 p.2 := by
  have hend : madeAgain.map (fun p => (p.2.inRec.wire.map (·.batch),
      (hostStream p.2.inRec.wire 1).map (·.id))) = some ([0, 0], [0x100, 0x101]) := by
    decide +kernel
  obtain ⟨⟨d, r⟩, h, hend⟩ := Option.map_eq_some_iff.1 hend
  obtain ⟨hwire, hstream⟩ := Prod.mk.inj hend
  exact ⟨(d, r), h, hwire, hstream, bus_to_host (System.Run.of_exec h).of_guard_withAux⟩

end Adapter

end Espcan32

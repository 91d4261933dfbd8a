import Espcan32.IsoTp.Pci
import Espcan32.IsoTp.Sides
import Mathlib.Data.List.ModifyLast

/-!
# What the send side puts on the bus

`TxEvent` lists what happens to a transfer: it starts, it is granted a block, a ConsecutiveFrame
goes out, it is given up.  `sendRecord` keeps these events together with the frames that
`can_tx` took, FlowControl aside, and `segments` splits the events at the starts.

* `TxInv.step` : what every call keeps of the send side and the record.
* `send_segments` : **the frames on the bus are transfers one after the other**: each segment is
  one SingleFrame or a FirstFrame and numbered ConsecutiveFrames that carry a prefix of one
  accepted payload, all of it unless the transfer was given up; every ConsecutiveFrame keeps to
  the block size and the separation time of the grant it is sent under; and a refused
  `isotp_send()` changes nothing.
* `ignoredCts_exceeds` : a CTS that arrives while no flow control is awaited is ignored, so more
  frames than its block size can follow it.
-/

namespace Espcan32

namespace IsoTp

/-- What happens to a transfer. -/
inductive TxEvent where
  /-- `isotp_send()` took the payload, and `can_tx` its first frame. -/
  | start (payload : List UInt8) (f : CanFrame)
  /-- A CTS frame that was awaited: its block size and STmin. -/
  | cts (bs stmin : UInt8)
  /-- A ConsecutiveFrame that `can_tx` took, at a poll with this clock reading. -/
  | cf (now : UInt32) (f : CanFrame)
  /-- The transfer is abandoned: N_Bs expired, a WAIT too many, an overflow, or `can_tx` failed. -/
  | giveUp
  deriving DecidableEq, Repr

/-- The events of a run and the frames that `can_tx` took, without FlowControl. -/
structure SendRecord where
  log : List TxEvent
  frames : List CanFrame

/-- A transfer: its payload, its frames, and whether it was given up. -/
structure Segment where
  payload : List UInt8
  frames : List CanFrame
  gaveUp : Bool
  deriving DecidableEq, Repr

namespace Link

/-- The frame that `can_tx` takes in a call, unless it is FlowControl. -/
def sent (l : Link) (c : Call) : Option CanFrame :=
  (l.handed c).filter fun f => c.canTx && pciType (f.data.getD 0 0) != 3

/-- The event of a call. -/
def txEvent (l : Link) : Call → Option TxEvent
  | .send e data =>
    if (l.isotpSend e data).2.1 = .ok ∨ (l.isotpSend e data).2.1 = .inprogress then
      (l.isotpSend e data).2.2.map (.start data)
    else none
  | .frame _ id data =>
    if l.IsFc data id ∧ l.tx.phase = .waitFc then
      match ctsOf data with
      | some (bs, st) => some (.cts bs st)
      | none => if l.fcGivesUp data then some .giveUp else none
    else none
  | .poll e =>
    match l.tx.phase with
    | .waitFc => if l.cfg.nBsMs ≤ elapsed e.now l.tx.timer then some .giveUp else none
    | .send => (l.isotpPoll e).2.map fun f => if e.canTx then .cf e.now f else .giveUp
    | _ => none
  | .receive _ => none

end Link

/-- The record after a call. -/
def sendRecord (l : Link) (c : Call) (r : SendRecord) : SendRecord where
  log := r.log ++ (l.txEvent c).toList
  frames := r.frames ++ (l.sent c).toList

/-- The segments after one more event. -/
def addEvent (segs : List Segment) : TxEvent → List Segment
  | .start m f => segs ++ [⟨m, [f], false⟩]
  | .cts _ _ => segs
  | .cf _ f => segs.modifyLast fun s => { s with frames := s.frames ++ [f] }
  | .giveUp => segs.modifyLast fun s => { s with gaveUp := true }

/-- The transfers of a list of events, one for each start. -/
def segments (log : List TxEvent) : List Segment := log.foldl addEvent []

/-- The frames of the transfer `s` carry the bytes `p`: a SingleFrame all of the payload, a
FirstFrame with the payload's length and numbered ConsecutiveFrames the bytes they hold. -/
def Segment.Carries (l : Link) (s : Segment) (p : List UInt8) : Prop :=
  (∃ f, s.frames = [f] ∧ l.IsSf f s.payload ∧ p = s.payload) ∨
    ∃ ff six cfs ps, s.frames = ff :: cfs ∧ l.IsFf ff s.payload.length six ∧
      l.IsCfs 1 cfs ps ∧ p = six ++ ps.flatten

/-- A ConsecutiveFrame sent at `now` after the events `pre` keeps to its grant: nothing but
ConsecutiveFrames came after the last CTS, fewer than its block size, and the last of them at
least the separation time ago. -/
def Granted (pre : List TxEvent) (now : UInt32) : Prop :=
  ∃ pre' bs st, ∃ ys : List (UInt32 × CanFrame),
    pre = pre' ++ .cts bs st :: ys.map (fun y => .cf y.1 y.2) ∧
      (bs ≠ 0 → ys.length < bs.toNat) ∧
      ∀ y, ys.getLast? = some y → stminToMs st ≤ elapsed now y.1

/-- Every ConsecutiveFrame keeps to its grant. -/
def Paced (log : List TxEvent) : Prop :=
  ∀ pre now f post, log = pre ++ .cf now f :: post → Granted pre now

theorem Paced.concat {log : List TxEvent} {ev : TxEvent} (h : Paced log)
    (hev : ∀ now f, ev = .cf now f → Granted log now) : Paced (log ++ [ev]) := by
  intro pre now f post hp
  rcases List.eq_nil_or_concat post with rfl | ⟨post, ev', rfl⟩
  · obtain ⟨rfl, he⟩ := List.append_inj' hp rfl
    exact hev now f (by simpa using he)
  · rw [List.concat_eq_append, ← List.cons_append, ← List.append_assoc] at hp
    exact h pre now f post (List.append_inj' hp rfl).1

theorem segments_concat (log : List TxEvent) (ev : TxEvent) :
    segments (log ++ [ev]) = addEvent (segments log) ev := by
  simp [segments]

/-! ### The invariant of the send side -/

/-- A transfer that is past: its frames carry a prefix of the payload, all of it unless it was
given up. -/
def Segment.Over (l₀ : Link) (s : Segment) : Prop :=
  ∃ p, s.Carries l₀ p ∧ p <+: s.payload ∧ (s.gaveUp = false → p = s.payload)

/-- The send side in the middle of the payload `m`, after the FirstFrame and `i`
ConsecutiveFrames. -/
structure TxAt (t : TxSide) (m : List UInt8) (i : ℕ) : Prop where
  len : t.len = m.length
  buf : t.buf.read 0 m.length = m
  off : t.off = ffFirstData + cfMaxData * i
  sn : t.sn = (1 + i) % 16
  lt : t.off < m.length
  le : m.length ≤ isotpMaxMsg

/-- The send side in the middle of the payload `m`, after the frames `ff :: cfs` that carry
`m.take off`. -/
structure Sending (l₀ : Link) (t : TxSide) (m : List UInt8) (ff : CanFrame) (cfs : List CanFrame)
    (ps : List (List UInt8)) : Prop extends TxAt t m ps.length where
  ff : l₀.IsFf ff m.length (m.take ffFirstData)
  cfs : l₀.IsCfs 1 cfs ps
  bytes : m.take ffFirstData ++ ps.flatten = m.take t.off

/-- What holds of the send side and the record between calls; `l₀` has the addresses and the
configuration. -/
structure TxInv (l₀ l : Link) (r : SendRecord) : Prop where
  config : l₀.SameConfig l
  frames : r.frames = (segments r.log).flatMap Segment.frames
  paced : Paced r.log
  phase : l.tx.phase ≠ .recv
  /-- Without a transfer under way, all of them are over. -/
  idle : l.tx.phase = .idle → ∀ s ∈ segments r.log, s.Over l₀
  /-- With one under way, it is the last. -/
  active : l.tx.phase ≠ .idle → ∃ past m ff cfs ps,
    segments r.log = past ++ [⟨m, ff :: cfs, false⟩] ∧ (∀ s ∈ past, s.Over l₀) ∧
      Sending l₀ l.tx m ff cfs ps
  /-- A granted block: what the link keeps of the grant and of the frames sent under it. -/
  grant : l.tx.phase = .send → ∃ pre bs, ∃ ys : List (UInt32 × CanFrame),
    r.log = pre ++ .cts bs l.tx.stmin :: ys.map (fun y => .cf y.1 y.2) ∧
      (∀ y, ys.getLast? = some y → l.tx.stTimer = y.1) ∧
      (bs ≠ 0 → 0 < l.tx.bsLeft ∧ l.tx.bsLeft + ys.length = bs.toNat) ∧ (bs = 0 → l.tx.bsLeft = 0)

namespace TxAt

variable {l : Link} {m : List UInt8} {i : ℕ}

theorem nextCf_eq (h : TxAt l.tx m i) : l.nextCf = (m.drop l.tx.off).take cfMaxData := by
  have hd := Mem.drop_read l.tx.buf 0 m.length l.tx.off
  rw [h.buf, Nat.zero_add] at hd
  rw [Link.nextCf, h.len, hd, Mem.take_read, Nat.min_comm]

/-- After a ConsecutiveFrame that is not the last one. -/
theorem next (h : TxAt l.tx m i) (hl : l.tx.off + cfMaxData < l.tx.len) (now : UInt32) :
    TxAt (l.txAfterCf now) m (i + 1) where
  len := h.len
  buf := h.buf
  off := by simp only [Link.txAfterCf, h.off, cfMaxData]; omega
  sn := by simp only [Link.txAfterCf, h.sn]; omega
  lt := by rw [← h.len]; exact hl
  le := h.le

/-- The send side may change what a transfer does not depend on. -/
theorem congr {t t' : TxSide} (h : TxAt t m i) (hl : t'.len = t.len) (hb : t'.buf = t.buf)
    (ho : t'.off = t.off) (hs : t'.sn = t.sn) : TxAt t' m i :=
  ⟨hl.trans h.len, hb ▸ h.buf, ho.trans h.off, hs.trans h.sn, ho ▸ h.lt, h.le⟩

/-- A FirstFrame begins a transfer. -/
theorem started (hs : sfMaxData < m.length) (hle : m.length ≤ isotpMaxMsg) (now : UInt32) :
    TxAt (l.txStarted m now) m 0 where
  len := rfl
  buf := Mem.read_copy _ 0 m
  off := rfl
  sn := rfl
  lt := lt_of_le_of_lt (by simp [Link.txStarted]) hs
  le := hle

end TxAt

namespace Sending

variable {l₀ l : Link} {m : List UInt8} {ff : CanFrame} {cfs : List CanFrame}
  {ps : List (List UInt8)}

theorem carries (h : Sending l₀ l.tx m ff cfs ps) (g : Bool) :
    (⟨m, ff :: cfs, g⟩ : Segment).Carries l₀ (m.take l.tx.off) :=
  .inr ⟨ff, m.take ffFirstData, cfs, ps, rfl, h.ff, h.cfs, h.bytes.symm⟩

/-- Giving up leaves a transfer that is over. -/
theorem over_of_giveUp (h : Sending l₀ l.tx m ff cfs ps) :
    (⟨m, ff :: cfs, true⟩ : Segment).Over l₀ :=
  ⟨_, h.carries true, List.take_prefix _ _, by simp⟩

/-- The frame of the next poll is the next ConsecutiveFrame. -/
theorem isCf (h : Sending l₀ l.tx m ff cfs ps) (hc : l₀.SameConfig l) :
    l₀.IsCf (l.txFrame (pciByte 2 l.tx.sn :: l.nextCf)) ((1 + ps.length) % 16) l.nextCf := by
  rw [hc.txFrame, ← h.sn]
  exact Link.isCf (by rw [h.sn]; omega)

theorem bytes_concat (h : Sending l₀ l.tx m ff cfs ps) :
    m.take ffFirstData ++ (ps ++ [l.nextCf]).flatten = m.take (l.tx.off + cfMaxData) := by
  rw [List.flatten_append, ← List.append_assoc, h.bytes, h.toTxAt.nextCf_eq, List.take_add]
  simp

/-- The last ConsecutiveFrame completes the payload. -/
theorem over_of_last (h : Sending l₀ l.tx m ff cfs ps) (hc : l₀.SameConfig l)
    (hl : l.tx.len ≤ l.tx.off + cfMaxData) :
    (⟨m, ff :: cfs ++ [l.txFrame (pciByte 2 l.tx.sn :: l.nextCf)], false⟩ : Segment).Over l₀ := by
  refine ⟨m, .inr ⟨ff, m.take ffFirstData, _, ps ++ [l.nextCf], rfl, h.ff,
    h.cfs.concat (h.isCf hc), ?_⟩, List.prefix_refl m, fun _ => rfl⟩
  rw [h.bytes_concat, List.take_of_length_le (by rw [← h.len]; exact hl)]

/-- After a ConsecutiveFrame that is not the last one. -/
theorem next (h : Sending l₀ l.tx m ff cfs ps) (hc : l₀.SameConfig l)
    (hl : l.tx.off + cfMaxData < l.tx.len) (now : UInt32) :
    Sending l₀ (l.txAfterCf now) m ff (cfs ++ [l.txFrame (pciByte 2 l.tx.sn :: l.nextCf)])
      (ps ++ [l.nextCf]) where
  toTxAt := by
    rw [List.length_append, List.length_singleton]
    exact h.toTxAt.next hl now
  ff := h.ff
  cfs := h.cfs.concat (h.isCf hc)
  bytes := h.bytes_concat

/-- The send side may change what a transfer does not depend on. -/
theorem congr {t' : TxSide} (h : Sending l₀ l.tx m ff cfs ps) (hl : t'.len = l.tx.len)
    (hb : t'.buf = l.tx.buf) (ho : t'.off = l.tx.off) (hs : t'.sn = l.tx.sn) :
    Sending l₀ t' m ff cfs ps :=
  ⟨h.toTxAt.congr hl hb ho hs, h.ff, h.cfs, ho ▸ h.bytes⟩

/-- A FirstFrame begins a transfer. -/
theorem started (hc : l₀.SameConfig l) (hs : sfMaxData < m.length) (hle : m.length ≤ isotpMaxMsg)
    (now : UInt32) :
    Sending l₀ (l.txStarted m now) m (l.txFrame (pciByte 1 (m.length >>> 8) ::
      UInt8.ofNat (m.length &&& 0xFF) :: m.take ffFirstData)) [] [] where
  toTxAt := .started hs hle now
  ff := by
    rw [hc.txFrame]
    refine Link.isFf hle ?_
    simp only [sfMaxData] at hs
    simp only [List.length_take, ffFirstData]
    omega
  cfs := trivial
  bytes := by simp [Link.txStarted]

end Sending

namespace TxInv

variable {l₀ l l' : Link} {r : SendRecord}

/-- A transfer under way that ends, in whatever way, leaves only transfers that are over. -/
theorem over_of_concat {past : List Segment} {s : Segment} (ho : ∀ s ∈ past, s.Over l₀)
    (hs : s.Over l₀) : ∀ s' ∈ past ++ [s], s'.Over l₀ := by
  intro s' hm
  rcases List.mem_append.1 hm with hm | hm
  · exact ho s' hm
  · rwa [List.mem_singleton.1 hm]

/-- A call that only counts a WAIT, restarts N_Bs, or leaves the send side alone. -/
theorem wait (hi : TxInv l₀ l r) (hc : l₀.SameConfig l') (w : ℕ) (now : UInt32)
    (ht : l'.tx = { l.tx with wft := w, timer := now }) : TxInv l₀ l' r where
  config := hc
  frames := hi.frames
  paced := hi.paced
  phase := by rw [ht]; exact hi.phase
  idle hp := hi.idle (by rw [ht] at hp; exact hp)
  active hp := by
    obtain ⟨past, m, ff, cfs, ps, hs, ho, hsend⟩ := hi.active (by rw [ht] at hp; exact hp)
    exact ⟨past, m, ff, cfs, ps, hs, ho, hsend.congr (by rw [ht]) (by rw [ht]) (by rw [ht])
      (by rw [ht])⟩
  grant hp := by
    rw [ht] at hp ⊢
    exact hi.grant hp

theorem of_tx_eq (hi : TxInv l₀ l r) (hc : l₀.SameConfig l') (ht : l'.tx = l.tx) :
    TxInv l₀ l' r :=
  hi.wait hc l.tx.wft l.tx.timer ht

/-- The transfer under way is given up. -/
theorem giveUp (hi : TxInv l₀ l r) (hc : l₀.SameConfig l') (hp : l.tx.phase ≠ .idle)
    (hp' : l'.tx.phase = .idle) : TxInv l₀ l' ⟨r.log ++ [.giveUp], r.frames⟩ := by
  obtain ⟨past, m, ff, cfs, ps, hs, ho, hsend⟩ := hi.active hp
  have hseg : segments (r.log ++ [.giveUp]) = past ++ [⟨m, ff :: cfs, true⟩] := by
    rw [segments_concat, hs, addEvent, List.modifyLast_concat]
  refine ⟨hc, ?_, hi.paced.concat (by simp), by simp [hp'], fun _ => ?_, fun h => absurd hp' h,
    fun h => by rw [hp'] at h; cases h⟩
  · rw [hseg, hi.frames, hs]; simp
  · rw [hseg]; exact over_of_concat ho hsend.over_of_giveUp

/-- A transfer whose first frame `can_tx` refuses does not start. -/
theorem failed (hi : TxInv l₀ l r) (hc : l₀.SameConfig l') (hp : l.tx.phase = .idle)
    (hp' : l'.tx.phase = .idle) : TxInv l₀ l' r :=
  ⟨hc, hi.frames, hi.paced, by simp [hp'], fun _ => hi.idle hp, fun h => absurd hp' h,
    fun h => by rw [hp'] at h; cases h⟩

/-- A SingleFrame goes out. -/
theorem single (hi : TxInv l₀ l r) (hc : l₀.SameConfig l') (hp : l.tx.phase = .idle)
    (hp' : l'.tx.phase = .idle) {m : List UInt8} (hm : m.length ≤ sfMaxData) :
    TxInv l₀ l' ⟨r.log ++ [.start m (l.txFrame (pciByte 0 m.length :: m))],
      r.frames ++ [l.txFrame (pciByte 0 m.length :: m)]⟩ := by
  have hseg := segments_concat r.log (.start m (l.txFrame (pciByte 0 m.length :: m)))
  refine ⟨hc, ?_, hi.paced.concat (by simp), by simp [hp'], fun _ => ?_, fun h => absurd hp' h,
    fun h => by rw [hp'] at h; cases h⟩
  · rw [hseg, hi.frames]; simp [addEvent]
  · rw [hseg]
    refine over_of_concat (hi.idle hp) ⟨m, .inl ⟨_, rfl, ?_, rfl⟩, List.prefix_refl m, fun _ => rfl⟩
    rw [hi.config.txFrame]
    exact Link.isSf hm

/-- A FirstFrame goes out. -/
theorem first (hi : TxInv l₀ l r) (hc : l₀.SameConfig l') (hp : l.tx.phase = .idle)
    {m : List UInt8} (hs : sfMaxData < m.length) (hle : m.length ≤ isotpMaxMsg) {now : UInt32}
    (ht : l'.tx = l.txStarted m now) {f : CanFrame} (hf : f = l.txFrame (pciByte 1 (m.length >>> 8) ::
      UInt8.ofNat (m.length &&& 0xFF) :: m.take ffFirstData)) :
    TxInv l₀ l' ⟨r.log ++ [.start m f], r.frames ++ [f]⟩ := by
  have hseg := segments_concat r.log (.start m f)
  have hph : l'.tx.phase = .waitFc := by rw [ht]; rfl
  refine ⟨hc, ?_, hi.paced.concat (by simp), by simp [hph], fun h => by simp [hph] at h,
    fun _ => ⟨segments r.log, m, f, [], [], hseg, hi.idle hp, ?_⟩, fun h => by simp [hph] at h⟩
  · rw [hseg, hi.frames]; simp [addEvent]
  · rw [ht, hf]; exact Sending.started hi.config hs hle now

/-- A CTS that was awaited. -/
theorem cts (hi : TxInv l₀ l r) (hc : l₀.SameConfig l') (hp : l.tx.phase = .waitFc)
    {bs st : UInt8} {now : UInt32} (ht : l'.tx = { l.tx with
      bsLeft := bs.toNat, stmin := st, wft := 0, phase := .send, stTimer := now }) :
    TxInv l₀ l' ⟨r.log ++ [.cts bs st], r.frames⟩ := by
  have hseg : segments (r.log ++ [.cts bs st]) = segments r.log := segments_concat _ _
  obtain ⟨past, m, ff, cfs, ps, hs, ho, hsend⟩ := hi.active (by simp [hp])
  refine ⟨hc, by rw [hseg]; exact hi.frames, hi.paced.concat (by simp), by simp [ht],
    fun h => by simp [ht] at h, fun _ => ⟨past, m, ff, cfs, ps, hseg.trans hs, ho,
    hsend.congr (by rw [ht]) (by rw [ht]) (by rw [ht]) (by rw [ht])⟩, fun _ => ?_⟩
  refine ⟨r.log, bs, [], by simp [ht], by simp, fun hb => ?_, fun hb => by simp [ht, hb]⟩
  have h0 : bs.toNat ≠ 0 := fun h => hb (UInt8.toNat_inj.1 h)
  simp only [ht, List.length_nil, Nat.add_zero, and_true]
  omega

/-- What the link keeps of its grant lets a ConsecutiveFrame go out. -/
theorem granted (hi : TxInv l₀ l r) (hp : l.tx.phase = .send) {now : UInt32}
    (hd : stminToMs l.tx.stmin ≤ elapsed now l.tx.stTimer) : Granted r.log now := by
  obtain ⟨pre, bs, ys, hlog, hlast, hbs, -⟩ := hi.grant hp
  refine ⟨pre, bs, _, ys, hlog, fun h => ?_, fun y hy => ?_⟩
  · have := hbs h; omega
  · rw [← hlast y hy]; exact hd

/-- The last ConsecutiveFrame goes out. -/
theorem last (hi : TxInv l₀ l r) (hc : l₀.SameConfig l') (hp : l.tx.phase = .send)
    (hp' : l'.tx.phase = .idle) {now : UInt32}
    (hd : stminToMs l.tx.stmin ≤ elapsed now l.tx.stTimer)
    (hl : l.tx.len ≤ l.tx.off + cfMaxData) {f : CanFrame}
    (hf : f = l.txFrame (pciByte 2 l.tx.sn :: l.nextCf)) :
    TxInv l₀ l' ⟨r.log ++ [.cf now f], r.frames ++ [f]⟩ := by
  obtain ⟨past, m, ff, cfs, ps, hs, ho, hsend⟩ := hi.active (by simp [hp])
  have hseg : segments (r.log ++ [.cf now f]) = past ++ [⟨m, ff :: cfs ++ [f], false⟩] := by
    rw [segments_concat, hs, addEvent, List.modifyLast_concat]
  refine ⟨hc, ?_, hi.paced.concat ?_, by simp [hp'], fun _ => ?_, fun h => absurd hp' h,
    fun h => by rw [hp'] at h; cases h⟩
  · rw [hseg, hi.frames, hs]; simp
  · rintro now' f' h
    obtain ⟨rfl, -⟩ := TxEvent.cf.inj h
    exact hi.granted hp hd
  · rw [hseg, hf]; exact over_of_concat ho (hsend.over_of_last hi.config hl)

/-- A ConsecutiveFrame goes out and more are to follow. -/
theorem more (hi : TxInv l₀ l r) (hc : l₀.SameConfig l') (hp : l.tx.phase = .send)
    {now : UInt32} (hd : stminToMs l.tx.stmin ≤ elapsed now l.tx.stTimer)
    (hl : l.tx.off + cfMaxData < l.tx.len) (ht : l'.tx = l.txAfterCf now) {f : CanFrame}
    (hf : f = l.txFrame (pciByte 2 l.tx.sn :: l.nextCf)) :
    TxInv l₀ l' ⟨r.log ++ [.cf now f], r.frames ++ [f]⟩ := by
  obtain ⟨past, m, ff, cfs, ps, hs, ho, hsend⟩ := hi.active (by simp [hp])
  have hseg : segments (r.log ++ [.cf now f]) = past ++ [⟨m, ff :: (cfs ++ [f]), false⟩] := by
    rw [segments_concat, hs, addEvent, List.modifyLast_concat, List.cons_append]
  have hph : l'.tx.phase = if l.tx.bsLeft = 1 then .waitFc else .send := by rw [ht]; rfl
  refine ⟨hc, ?_, hi.paced.concat ?_, ?_, fun h => ?_, fun _ => ⟨past, m, ff, cfs ++ [f],
    ps ++ [l.nextCf], hseg, ho, ?_⟩, fun h => ?_⟩
  · rw [hseg, hi.frames, hs]; simp
  · rintro now' f' h
    obtain ⟨rfl, -⟩ := TxEvent.cf.inj h
    exact hi.granted hp hd
  · rw [hph]; split <;> decide
  · rw [hph] at h; split at h <;> cases h
  · rw [ht, hf]; exact hsend.next hi.config hl now
  · -- the block goes on: one more frame under the same grant
    have hb : l.tx.bsLeft ≠ 1 := fun hb => by rw [hph, if_pos hb] at h; cases h
    obtain ⟨pre, bs, ys, hlog, -, hbs, hbs0⟩ := hi.grant hp
    refine ⟨pre, bs, ys ++ [(now, f)], ?_, ?_, fun h => ?_, fun h => ?_⟩
    · rw [ht, hlog]; simp [Link.txAfterCf]
    · rw [ht]; simp [Link.txAfterCf]
    · have := hbs h
      simp only [ht, Link.txAfterCf, List.length_append, List.length_singleton]
      omega
    · have := hbs0 h
      simp only [ht, Link.txAfterCf]
      omega

/-! ### The step -/

/-- A call without an event that sends nothing. -/
theorem of_quiet {c : Call} (hev : l.txEvent c = none) (hf : l.sent c = none)
    (h : TxInv l₀ l' r) : TxInv l₀ l' (sendRecord l c r) := by
  rw [sendRecord, hev, hf, Option.toList_none, Option.toList_none, List.append_nil,
    List.append_nil]
  exact h

/-- A call with an event that sends nothing. -/
theorem of_event {c : Call} {ev : TxEvent} (hev : l.txEvent c = some ev) (hf : l.sent c = none)
    (h : TxInv l₀ l' ⟨r.log ++ [ev], r.frames⟩) : TxInv l₀ l' (sendRecord l c r) := by
  rw [sendRecord, hev, hf, Option.toList_none, List.append_nil]
  exact h

/-- A call with an event that sends a frame. -/
theorem of_sent {c : Call} {ev : TxEvent} {f : CanFrame} (hev : l.txEvent c = some ev)
    (hf : l.sent c = some f) (h : TxInv l₀ l' ⟨r.log ++ [ev], r.frames ++ [f]⟩) :
    TxInv l₀ l' (sendRecord l c r) := by
  rw [sendRecord, hev, hf]
  exact h

theorem sent_of_pci {c : Call} {b0 : UInt8} {p : List UInt8}
    (hf : l.handed c = some (l.txFrame (b0 :: p))) (hb : pciType b0 ≠ 3) :
    l.sent c = if c.canTx then some (l.txFrame (b0 :: p)) else none := by
  rw [Link.sent, hf, Option.filter_some, Link.txFrame_head]
  simp [hb]

theorem step_send (hi : TxInv l₀ l r) (e : Env) (m : List UInt8) :
    TxInv l₀ (l.step (.send e m)) (sendRecord l (.send e m) r) := by
  have hc := hi.config.trans (l.step_sameConfig (.send e m))
  rcases l.isotpSend_cases e m with ⟨-, hret, hl, hf⟩ | ⟨hp, -, hm, hret, hp', hf⟩ |
    ⟨hp, hs, hle, hret, htx, hf⟩
  · refine of_quiet ?_ (by simp [Link.sent, Link.handed, hf]) (hi.of_tx_eq hc (congrArg Link.tx hl))
    rcases hret with hret | hret <;> simp [Link.txEvent, hret]
  · have hsent := sent_of_pci (c := .send e m) hf (by rw [pciType_pciByte _ (by omega)]; decide)
    cases he : e.canTx with
    | true =>
      exact of_sent (by simp [Link.txEvent, hret, he, hf]) (by simp [hsent, Call.canTx, he])
        (hi.single hc hp hp' hm)
    | false =>
      exact of_quiet (by simp [Link.txEvent, hret, he]) (by simp [hsent, Call.canTx, he])
        (hi.failed hc hp hp')
  · have hsent := sent_of_pci (c := .send e m) hf (by rw [pciType_pciByte _ (by omega)]; decide)
    rcases htx with ⟨he, htx⟩ | ⟨he, hp'⟩
    · exact of_sent (by simp [Link.txEvent, hret, he, hf]) (by simp [hsent, Call.canTx, he])
        (hi.first hc hp hs hle htx rfl)
    · exact of_quiet (by simp [Link.txEvent, hret, he]) (by simp [hsent, Call.canTx, he])
        (hi.failed hc hp hp')

theorem step_frame (hi : TxInv l₀ l r) (e : Env) (id : UInt32) (data : List UInt8) :
    TxInv l₀ (l.step (.frame e id data)) (sendRecord l (.frame e id data) r) := by
  have hc := hi.config.trans (l.step_sameConfig (.frame e id data))
  have hsent : l.sent (.frame e id data) = none := by
    rcases l.isotpOnCanFrame_frame e data id with hf | ⟨fs, hf⟩
    · simp [Link.sent, Link.handed, hf]
    · rw [Link.sent, Link.handed, hf, Option.filter_some, Link.sendFc, Link.txFrame_head,
        pciType_pciByte _ (by omega)]
      simp
  by_cases hfc : l.IsFc data id
  swap
  · exact of_quiet (by simp [Link.txEvent, hfc]) hsent
      (hi.of_tx_eq hc (l.isotpOnCanFrame_tx e data hfc))
  have hst : (l.step (.frame e id data)).tx = (l.handleFc e data).tx := by
    rw [Link.step, l.isotpOnCanFrame_fc e data hfc]
  rcases l.handleFc_cases e data with ⟨hp, hl⟩ | ⟨hp, bs, st, hcts, ht⟩ | ⟨hp, hcts, hg, ht⟩ |
    ⟨hp, hcts, hg, w, ht⟩
  · exact of_quiet (by simp [Link.txEvent, hp]) hsent (hi.of_tx_eq hc (by rw [hst, hl]))
  · have hev : l.txEvent (.frame e id data) = some (.cts bs st) := by
      simp [Link.txEvent, hfc, hp, hcts]
    exact of_event hev hsent (hi.cts hc hp (by rw [hst, ht]))
  · exact of_event (by simp [Link.txEvent, hfc, hp, hcts, hg]) hsent
      (hi.giveUp hc (by simp [hp]) (by rw [hst, ht]))
  · exact of_quiet (by simp [Link.txEvent, hfc, hp, hcts, hg]) hsent
      (hi.wait hc w e.now (by rw [hst, ht]))

theorem step_poll (hi : TxInv l₀ l r) (e : Env) :
    TxInv l₀ (l.step (.poll e)) (sendRecord l (.poll e) r) := by
  have hc := hi.config.trans (l.step_sameConfig (.poll e))
  have hrange : l.tx.phase = .send → l.tx.off < l.tx.len ∧ l.tx.len ≤ isotpMaxMsg := by
    intro hp
    obtain ⟨_, _, _, _, _, _, _, hsend⟩ := hi.active (by simp [hp])
    exact ⟨hsend.len ▸ hsend.lt, hsend.len ▸ hsend.le⟩
  rcases l.isotpPoll_cases e hrange with ⟨ht, hf, hw, hs⟩ | ⟨hp, hd, hp', hf⟩ |
    ⟨hp, hd, hf, hcase⟩
  · refine of_quiet ?_ (by simp [Link.sent, Link.handed, hf]) (hi.of_tx_eq hc ht)
    rcases hp : l.tx.phase with _ | _ | _ | _
    · simp [Link.txEvent, hp]
    · simp [Link.txEvent, hp, hf]
    · rw [Link.txEvent, hp]; dsimp only; rw [if_neg fun h => hw ⟨hp, h⟩]
    · simp [Link.txEvent, hp]
  · exact of_event (by simp [Link.txEvent, hp, hd]) (by simp [Link.sent, Link.handed, hf])
      (hi.giveUp hc (by simp [hp]) hp')
  · have hsent := sent_of_pci (c := .poll e) hf (by rw [pciType_pciByte _ (by omega)]; decide)
    rcases hcase with ⟨he, hp'⟩ | ⟨he, hl, hp'⟩ | ⟨he, hl, ht⟩
    · exact of_event (by simp [Link.txEvent, hp, hf, he]) (by simp [hsent, Call.canTx, he])
        (hi.giveUp hc (by simp [hp]) hp')
    · exact of_sent (by simp [Link.txEvent, hp, hf, he]) (by simp [hsent, Call.canTx, he])
        (hi.last hc hp hp' hd hl rfl)
    · exact of_sent (by simp [Link.txEvent, hp, hf, he]) (by simp [hsent, Call.canTx, he])
        (hi.more hc hp hd hl ht rfl)

theorem step (hi : TxInv l₀ l r) (c : Call) : TxInv l₀ (l.step c) (sendRecord l c r) := by
  cases c with
  | send e m => exact hi.step_send e m
  | frame e id data => exact hi.step_frame e id data
  | poll e => exact hi.step_poll e
  | receive outCap =>
    exact of_quiet rfl rfl
      (hi.of_tx_eq (hi.config.trans (l.step_sameConfig _)) (l.isotpReceive_tx outCap))

end TxInv

/-! ### Runs -/

/-- `isotp_send()` refuses with `ISOTP_NOSPACE` or `ISOTP_LENGTH` before it touches anything. -/
theorem Link.isotpSend_refused {l : Link} {e : Env} {m : List UInt8}
    (h : (l.isotpSend e m).2.1 = .nospace ∨ (l.isotpSend e m).2.1 = .length) :
    (l.isotpSend e m).1 = l ∧ (l.isotpSend e m).2.2 = none := by
  rcases l.isotpSend_cases e m with ⟨-, -, hl, hf⟩ | ⟨-, -, -, hret, -⟩ | ⟨-, -, -, hret, -⟩
  · exact ⟨hl, hf⟩
  · rw [hret] at h; split at h <;> simp at h
  · rw [hret] at h; split at h <;> simp at h

theorem TxInv.of_init (txId rxId funcId : UInt32) (cfg : Option Cfg) :
    TxInv (isotpInit txId rxId funcId cfg) (isotpInit txId rxId funcId cfg) ⟨[], []⟩ where
  config := .refl _
  frames := rfl
  paced := by intro pre now f post h; simp at h
  phase := by simp [isotpInit]
  idle := by simp [segments]
  active h := by simp [isotpInit] at h
  grant h := by simp [isotpInit] at h

/-- **The frames on the bus are transfers one after the other.**  In every run of a link from
`isotp_init()`: the frames that `can_tx` took, FlowControl aside, are those of the segments, in
order; each segment carries a prefix of one accepted payload, and all of it when the transfer is
over and was not given up; every ConsecutiveFrame keeps to the CTS it is sent under, the last one
that arrived while the link awaited flow control; and a refused `isotp_send()` leaves the link
and the record as they are. -/
theorem send_segments {txId rxId funcId : UInt32} {cfg : Option Cfg} {calls : List Call}
    {l : Link} {r : SendRecord}
    (hrun : (linkSystem.withAux sendRecord).Run (isotpInit txId rxId funcId cfg, ⟨[], []⟩)
      calls (l, r)) :
    r.frames = (segments r.log).flatMap Segment.frames ∧
      (∀ s ∈ segments r.log,
        ∃ p, s.Carries (isotpInit txId rxId funcId cfg) p ∧ p <+: s.payload) ∧
      (∀ pre s post, segments r.log = pre ++ s :: post → post ≠ [] ∨ l.tx.phase = .idle →
        s.gaveUp = false → s.Carries (isotpInit txId rxId funcId cfg) s.payload) ∧
      Paced r.log ∧
      ∀ e m, (l.isotpSend e m).2.1 = .nospace ∨ (l.isotpSend e m).2.1 = .length →
        (l.step (.send e m), sendRecord l (.send e m) r) = (l, r) := by
  have hi : TxInv (isotpInit txId rxId funcId cfg) l r := by
    refine hrun.invariant (I := fun s => TxInv _ s.1 s.2) (.of_init txId rxId funcId cfg) ?_
    rintro ⟨l, r⟩ c ⟨l', r'⟩ hi ⟨hst, rfl⟩
    obtain rfl : l.step c = l' := Option.some.inj hst
    exact hi.step c
  refine ⟨hi.frames, fun s hs => ?_, fun pre s post hseg hover hg => ?_, hi.paced, fun e m h => ?_⟩
  · by_cases hp : l.tx.phase = .idle
    · obtain ⟨p, hc, hpre, -⟩ := hi.idle hp s hs
      exact ⟨p, hc, hpre⟩
    · obtain ⟨past, m, ff, cfs, ps, hseg, ho, hsend⟩ := hi.active hp
      rw [hseg] at hs
      rcases List.mem_append.1 hs with hs | hs
      · obtain ⟨p, hc, hpre, -⟩ := ho s hs
        exact ⟨p, hc, hpre⟩
      · rw [List.mem_singleton.1 hs]
        exact ⟨_, hsend.carries false, List.take_prefix _ _⟩
  · have hs : s.Over (isotpInit txId rxId funcId cfg) := by
      by_cases hp : l.tx.phase = .idle
      · exact hi.idle hp s (by rw [hseg]; simp)
      · -- a transfer under way is the last segment, so `s` comes before it
        obtain ⟨past, m, ff, cfs, ps, hseg', ho, -⟩ := hi.active hp
        rcases List.eq_nil_or_concat post with rfl | ⟨post, s', rfl⟩
        · exact absurd rfl (hover.resolve_right hp)
        · rw [hseg', List.concat_eq_append, ← List.cons_append, ← List.append_assoc] at hseg
          exact ho s (by rw [(List.append_inj' hseg rfl).1]; simp)
    obtain ⟨p, hc, -, hw⟩ := hs
    exact hw hg ▸ hc
  -- a call that is refused is no event
  · obtain ⟨hl, hf⟩ := Link.isotpSend_refused h
    have hev : l.txEvent (.send e m) = none := by
      rcases h with h | h <;> simp [Link.txEvent, h]
    simp [sendRecord, hev, Link.sent, Link.handed, hf, Link.step, hl]

/-- Ten bytes: a FirstFrame, a CTS for one frame, and the ConsecutiveFrame after its STmin. -/
theorem send_segments_tenBytes :
    (⟨[1, 2, 3, 4, 5, 6, 7, 8, 9, 10], [⟨0x7E8, [0x10, 10, 1, 2, 3, 4, 5, 6]⟩,
      ⟨0x7E8, [0x21, 7, 8, 9, 10, 0xCC, 0xCC, 0xCC]⟩], false⟩ : Segment).Carries testLink
        [1, 2, 3, 4, 5, 6, 7, 8, 9, 10] :=
  (send_segments (System.Run.foldl Link.step sendRecord (testLink, ⟨[], []⟩)
    [.send ⟨0, true⟩ [1, 2, 3, 4, 5, 6, 7, 8, 9, 10], .frame ⟨1, true⟩ 0x7E0 [0x30, 1, 5],
      .poll ⟨6, true⟩])).2.2.1 [] _ [] (by decide +kernel) (.inr (by decide +kernel)) rfl

/-- The CTS frames on the physical address, awaited or not, and the ConsecutiveFrames sent. -/
def busRecord (l : Link) (c : Call) (log : List TxEvent) : List TxEvent :=
  match c with
  | .frame _ id data =>
    log ++ (if l.IsFc data id then (Link.ctsOf data).map fun g => TxEvent.cts g.1 g.2 else none).toList
  | .poll e => log ++ (l.txEvent (.poll e)).toList
  | _ => log

/-- A CTS with block size 1 that arrives while a transfer is being sent is ignored, so that two
ConsecutiveFrames follow it. -/
theorem ignoredCts_exceeds : ¬∀ (calls : List Call) (l : Link) (log : List TxEvent),
    (linkSystem.withAux busRecord).Run (testLink, []) calls (l, log) →
      ∀ pre bs st cfs post, log = pre ++ .cts bs st :: (cfs ++ post) → bs ≠ 0 →
        (∀ ev ∈ cfs, ∃ now f, ev = TxEvent.cf now f) → cfs.length ≤ bs.toNat := by
  intro hall
  have h := hall [.send ⟨0, true⟩ (List.replicate 30 0xAA), .frame ⟨1, true⟩ 0x7E0 [0x30, 0, 0],
    .frame ⟨2, true⟩ 0x7E0 [0x30, 1, 0], .poll ⟨3, true⟩, .poll ⟨4, true⟩] _ _
    (System.Run.foldl Link.step busRecord _ _) [.cts 0 0] 1 0
    [.cf 3 ⟨0x7E8, 0x21 :: List.replicate 7 0xAA⟩, .cf 4 ⟨0x7E8, 0x22 :: List.replicate 7 0xAA⟩]
    [] (by decide +kernel) (by decide) (by simp)
  exact absurd h (by decide)

end IsoTp

end Espcan32

import Espcan32.IsoTp.Receive

/-!
# Broadcasts do not interfere with the physical conversation

The functional address `func_id` is a broadcast that every node on the bus can write.  A program
that collects with `isotp_receive()` after every frame, as the bench task does, may have all
broadcasts deleted from its input: the frames the link transmits, the results of `isotp_send()`
and the physical messages it delivers stay the same.

The two runs have the same send side and configuration throughout.  Their receive sides are
`RxSync` between inputs: equal in what a reception under way or a complete message depends on.
After a broadcast that was accepted they are `RxPending` until it is collected.

* `functional_noninterference` : **deleting the broadcasts changes no output.**
-/

namespace Espcan32

namespace IsoTp

/-! ### Inputs and outputs -/

/-- A call other than a frame.  Messages are collected into a buffer of `ISOTP_MAX_MSG` bytes. -/
inductive Drive where
  | send (e : Env) (data : List UInt8)
  | poll (e : Env)
  | receive

/-- The call a drive stands for. -/
def Drive.call : Drive → Call
  | .send e data => .send e data
  | .poll e => .poll e
  | .receive => .receive isotpMaxMsg

/-- An input to the link: a frame, with the calls made before `isotp_receive()` is called for it,
or a call between frames. -/
inductive Input where
  | frame (e : Env) (id : UInt32) (data : List UInt8) (mid : List Drive)
  | drive (d : Drive)

/-- The calls an input stands for. -/
def Input.calls : Input → List Call
  | .frame e id data mid => .frame e id data :: (mid.map Drive.call ++ [.receive isotpMaxMsg])
  | .drive d => [d.call]

/-- Delete a frame on `id₀` and its `isotp_receive()`, but not the calls in between. -/
def Input.dropId (id₀ : UInt32) : Input → List Input
  | .frame e id data mid => if id = id₀ then mid.map .drive else [.frame e id data mid]
  | .drive d => [.drive d]

/-- What a link shows: a frame handed to `can_tx` and whether it was taken, the result of an
`isotp_send()`, a message delivered with `out_functional` false. -/
inductive Output where
  | frame (f : CanFrame) (taken : Bool)
  | sendResult (r : Ret)
  | pdu (p : List UInt8)
  deriving DecidableEq, Repr

namespace Link

/-- The outputs of a call. -/
def observe (l : Link) (c : Call) : List Output :=
  ((l.handed c).map fun f => Output.frame f c.canTx).toList ++
    match c with
    | .send e data => [.sendResult (l.isotpSend e data).2.1]
    | .receive outCap =>
      if (l.isotpReceive outCap).2.ret = .ok ∧ (l.isotpReceive outCap).2.functional = false then
        [.pdu (l.isotpReceive outCap).2.out]
      else []
    | _ => []

/-- The outputs of a list of calls. -/
def outputs : Link → List Call → List Output
  | _, [] => []
  | l, c :: cs => l.observe c ++ (l.step c).outputs cs

theorem outputs_append (l : Link) (cs ds : List Call) :
    l.outputs (cs ++ ds) = l.outputs cs ++ (cs.foldl step l).outputs ds := by
  induction cs generalizing l with
  | nil => rfl
  | cons c cs ih => simp [outputs, ih]

/-! ### The send side does not look at the receive side -/

/-- The link with another receive side. -/
def withRx (l : Link) (r : RxSide) : Link := { l with rx := r }

variable (l : Link) (r r' : RxSide) (e : Env) (data : List UInt8)

@[simp] theorem withRx_rx : (l.withRx r).rx = r := rfl

@[simp] theorem withRx_tx : (l.withRx r).tx = l.tx := rfl

@[simp] theorem withRx_cfg : (l.withRx r).cfg = l.cfg := rfl

@[simp] theorem withRx_self : l.withRx l.rx = l := rfl

@[simp] theorem withRx_withRx : (l.withRx r).withRx r' = l.withRx r' := rfl

theorem withRx_eq_of {l' : Link} (h : ∃ rx, l' = { l with rx := rx }) :
    l' = l.withRx l'.rx := by
  obtain ⟨rx, rfl⟩ := h; rfl

theorem isotpSend_withRx : (l.withRx r).isotpSend e data =
    ((l.isotpSend e data).1.withRx r, (l.isotpSend e data).2) := by
  unfold withRx isotpSend
  dsimp only
  split_ifs <;> rfl

theorem handleFc_withRx : (l.withRx r).handleFc e data = (l.handleFc e data).withRx r := by
  unfold withRx handleFc
  dsimp only
  split
  · rfl
  · split
    · rfl
    · split <;> rfl
    · rfl

theorem cfSent_withRx (f : CanFrame) (off : ℕ) : (l.withRx r).cfSent e f off =
    ((l.cfSent e f off).1.withRx r, (l.cfSent e f off).2) := by
  unfold withRx cfSent
  dsimp only
  split_ifs <;> rfl

theorem pollTx_withRx :
    (l.withRx r).pollTx e = ((l.pollTx e).1.withRx r, (l.pollTx e).2) := by
  unfold withRx pollTx
  dsimp only
  by_cases hw : l.tx.phase = .waitFc
  · simp only [if_pos hw]
    split_ifs <;> rfl
  simp only [if_neg hw]
  by_cases hs : l.tx.phase = .send
  swap
  · simp only [if_neg hs]
  simp only [if_pos hs]
  by_cases hd : stminToMs l.tx.stmin ≤ elapsed e.now l.tx.stTimer
  swap
  · simp only [if_neg hd]
  simp only [if_pos hd]
  cases e.canTx with
  | false => rfl
  | true => exact cfSent_withRx l r e _ _

end Link

/-! ### The relation between the two receive sides -/

/-- Equal in what a reception under way, or a message that is complete, depends on. -/
structure RxSync (r r' : RxSide) : Prop where
  phase : r'.phase = .recv ↔ r.phase = .recv
  complete : r'.complete = r.complete
  recv : r.phase = .recv → r.complete = false ∧ r'.len = r.len ∧ r'.off = r.off ∧ r'.sn = r.sn ∧
    r'.blockCf = r.blockCf ∧ r'.timer = r.timer ∧ r'.functional = r.functional ∧
    r.off < r.len ∧ r.len ≤ isotpMaxMsg ∧ r'.buf.read 0 r.off = r.buf.read 0 r.off
  done : r.complete = true → r'.len = r.len ∧ r'.functional = r.functional ∧
    r.len ≤ isotpMaxMsg ∧ r'.buf.read 0 r.len = r.buf.read 0 r.len

/-- The first run holds a broadcast that is not collected yet; the second never saw it. -/
structure RxPending (r r' : RxSide) : Prop where
  phase : r.phase ≠ .recv
  phase' : r'.phase ≠ .recv
  complete : r.complete = true
  functional : r.functional = true
  len : r.len ≤ isotpMaxMsg
  complete' : r'.complete = false

/-- The two receive sides at any point of the runs. -/
def RxRel (r r' : RxSide) : Prop := RxSync r r' ∨ RxPending r r'

/-- The two receive sides between inputs: no message waits. -/
def RxClear (r r' : RxSide) : Prop := RxSync r r' ∧ r.complete = false

/-- One call in both runs: the second link moves as the first one does but for the receive side,
the receive sides stay related, and the outputs agree. -/
def Agree (l : Link) (r' : RxSide) (c : Call) (R : RxSide → RxSide → Prop) : Prop :=
  ∃ r'', (l.withRx r').step c = (l.step c).withRx r'' ∧ R (l.step c).rx r'' ∧
    (l.withRx r').observe c = l.observe c

theorem RxSync.of_idle {r r' : RxSide} (h : r.phase ≠ .recv) (h' : r'.phase ≠ .recv)
    (hc : r.complete = false) (hc' : r'.complete = false) : RxSync r r' where
  phase := iff_of_false h' h
  complete := hc'.trans hc.symm
  recv hr := absurd hr h
  done hd := by rw [hc] at hd; cases hd

namespace RxSync

variable {r r' : RxSide}

/-- Two receive sides without a message, the phases being equal, after a reception is given up in
both or in none. -/
theorem pollRx {l : Link} (h : RxSync l.rx r') (e : Env) :
    RxSync (l.pollRx e).rx ((l.withRx r').pollRx e).rx := by
  by_cases hr : l.rx.phase = .recv
  swap
  · have hr' : r'.phase ≠ .recv := fun hr' => hr (h.phase.1 hr')
    rw [Link.pollRx, if_neg fun h => hr h.1, Link.pollRx, if_neg fun h => hr' h.1]
    exact h
  obtain ⟨hc, -, -, -, -, ht, -, -⟩ := h.recv hr
  have hr' : r'.phase = .recv := h.phase.2 hr
  by_cases hd : l.cfg.nCrMs ≤ elapsed e.now l.rx.timer
  · have hd' : (l.withRx r').cfg.nCrMs ≤ elapsed e.now (l.withRx r').rx.timer := by
      rw [Link.withRx_rx, ht]; exact hd
    rw [Link.pollRx, if_pos ⟨hr, hd⟩, Link.pollRx, if_pos ⟨hr', hd'⟩]
    exact of_idle (by simp [Link.rxReset]) (by simp [Link.rxReset]) hc (h.complete.trans hc)
  · have hd' : ¬(l.withRx r').cfg.nCrMs ≤ elapsed e.now (l.withRx r').rx.timer := by
      rw [Link.withRx_rx, ht]; exact hd
    rw [Link.pollRx, if_neg fun h => hd h.2, Link.pollRx, if_neg fun h => hd' h.2]
    exact h

end RxSync

theorem RxPending.pollRx {l : Link} {r' : RxSide} (h : RxPending l.rx r') (e : Env) :
    RxPending (l.pollRx e).rx ((l.withRx r').pollRx e).rx := by
  have hr' : (l.withRx r').rx.phase ≠ .recv := h.phase'
  rw [Link.pollRx, if_neg fun hc => h.phase hc.1, Link.pollRx, if_neg fun hc => hr' hc.1]
  exact h

/-! ### Calls other than frames -/

theorem agree_send {l : Link} {r' : RxSide} (e : Env) (data : List UInt8)
    {R : RxSide → RxSide → Prop} (h : R l.rx r') : Agree l r' (.send e data) R := by
  have hw := l.isotpSend_withRx r' e data
  refine ⟨r', by rw [Link.step, hw]; rfl, by rw [Link.step, Link.isotpSend_rx]; exact h, ?_⟩
  simp only [Link.observe, Link.handed, hw]

/-- A poll keeps every relation that the N_Cr timeout keeps. -/
theorem agree_poll {l : Link} {r' : RxSide} (e : Env) {R : RxSide → RxSide → Prop} (h : R l.rx r')
    (hrx : R (l.pollRx e).rx ((l.withRx r').pollRx e).rx) : Agree l r' (.poll e) R := by
  have hw := l.pollTx_withRx r' e
  have hp := (l.withRx r').isotpPoll_eq e
  rw [hw] at hp
  refine ⟨if (l.pollTx e).2.2 then r' else ((l.withRx r').pollRx e).rx, ?_, ?_, ?_⟩
  · rw [Link.step, hp, Link.step, Link.isotpPoll_eq]; rfl
  · rw [Link.step, Link.isotpPoll_eq]
    dsimp only
    split
    · exact h
    · exact hrx
  · simp only [Link.observe, Link.handed, Link.isotpPoll_frame, hw]

/-- Collecting leaves no message, and delivers the same physical one. -/
theorem agree_receive {l : Link} {r' : RxSide} (h : RxRel l.rx r') :
    Agree l r' (.receive isotpMaxMsg) RxClear := by
  rcases h with h | h
  · by_cases hc : l.rx.complete = false
    · have hc' : (l.withRx r').rx.complete = false := h.complete.trans hc
      have hst : l.isotpReceive isotpMaxMsg = (l, ⟨.noData, [], false⟩) := if_pos hc
      have hst' : (l.withRx r').isotpReceive isotpMaxMsg = (l.withRx r', ⟨.noData, [], false⟩) :=
        if_pos hc'
      refine ⟨r', ?_, ?_, ?_⟩
      · rw [Link.step, Link.step, hst, hst']
      · rw [Link.step, hst]; exact ⟨h, hc⟩
      · simp only [Link.observe, Link.handed, hst, hst']
    · -- the same message is delivered in both runs
      have hc' : ¬(l.withRx r').rx.complete = false := by
        rw [Link.withRx_rx, h.complete]; exact hc
      obtain ⟨hlen, hfn, hle, hbuf⟩ := h.done (by simpa using hc)
      have hcap : ¬isotpMaxMsg < l.rx.len := Nat.not_lt.2 hle
      have hcap' : ¬isotpMaxMsg < (l.withRx r').rx.len := by rw [Link.withRx_rx, hlen]; exact hcap
      have hp : l.rx.phase ≠ .recv := fun hp => hc (h.recv hp).1
      have hst : l.isotpReceive isotpMaxMsg = ({ l with rx := { l.rx with complete := false } },
          ⟨.ok, l.rx.buf.read 0 l.rx.len, l.rx.functional⟩) := by
        rw [Link.isotpReceive, if_neg hc, if_neg hcap]
      have hst' : (l.withRx r').isotpReceive isotpMaxMsg = (l.withRx { r' with complete := false },
          ⟨.ok, l.rx.buf.read 0 l.rx.len, l.rx.functional⟩) := by
        rw [Link.isotpReceive, if_neg hc', if_neg hcap', ← hbuf, ← hfn, ← hlen]; rfl
      refine ⟨{ r' with complete := false }, ?_, ?_, ?_⟩
      · rw [Link.step, Link.step, hst, hst']; rfl
      · rw [Link.step, hst]; exact ⟨.of_idle hp (fun hp' => hp (h.phase.1 hp')) rfl rfl, rfl⟩
      · simp only [Link.observe, Link.handed, hst, hst']
  · -- the broadcast is collected in the first run only
    have hc : ¬l.rx.complete = false := by rw [h.complete]; decide
    have hc' : (l.withRx r').rx.complete = false := h.complete'
    have hst : l.isotpReceive isotpMaxMsg = ({ l with rx := { l.rx with complete := false } },
        ⟨.ok, l.rx.buf.read 0 l.rx.len, true⟩) := by
      rw [Link.isotpReceive, if_neg hc, if_neg (Nat.not_lt.2 h.len), h.functional]
    have hst' : (l.withRx r').isotpReceive isotpMaxMsg = (l.withRx r', ⟨.noData, [], false⟩) :=
      if_pos hc'
    refine ⟨r', ?_, ?_, ?_⟩
    · rw [Link.step, Link.step, hst, hst']; rfl
    · rw [Link.step, hst]; exact ⟨.of_idle h.phase h.phase' rfl h.complete', rfl⟩
    · simp only [Link.observe, Link.handed, hst, hst']; rfl

/-- A call other than a frame. -/
theorem agree_drive {l : Link} {r' : RxSide} (h : RxRel l.rx r') (d : Drive) :
    Agree l r' d.call RxRel := by
  cases d with
  | send e data => exact agree_send e data h
  | poll e => exact agree_poll e h (h.imp (fun h => h.pollRx e) fun h => h.pollRx e)
  | receive =>
    obtain ⟨r'', hst, ⟨hs, -⟩, hobs⟩ := agree_receive h
    exact ⟨r'', hst, .inl hs, hobs⟩

theorem pollRx_complete (l : Link) (e : Env) : (l.pollRx e).rx.complete = l.rx.complete := by
  unfold Link.pollRx; split <;> rfl

/-- A call between inputs. -/
theorem agree_drive_clear {l : Link} {r' : RxSide} (h : RxClear l.rx r') (d : Drive) :
    Agree l r' d.call RxClear := by
  cases d with
  | send e data => exact agree_send e data h
  | poll e => exact agree_poll e h ⟨h.1.pollRx e, (pollRx_complete l e).trans h.2⟩
  | receive => exact agree_receive (.inl h.1)

/-! ### Frames -/

/-- A frame that the receive sides take in the same way. -/
theorem agree_frame_of {l : Link} {r' : RxSide} {e : Env} {id : UInt32} {data : List UInt8}
    {q q' : RxSide} {f : Option CanFrame} (h : l.isotpOnCanFrame e id data = (l.withRx q, f))
    (h' : (l.withRx r').isotpOnCanFrame e id data = (l.withRx q', f)) (hq : RxSync q q') :
    Agree l r' (.frame e id data) RxSync :=
  ⟨q', by rw [Link.step, Link.step, h, h']; rfl, by rw [Link.step, h]; exact hq,
    by simp only [Link.observe, Link.handed, h, h']⟩

theorem handleSf_sync {l : Link} {r' : RxSide} (h : RxSync l.rx r') (data : List UInt8) :
    ∃ q q', l.handleSf data false = l.withRx q ∧ (l.withRx r').handleSf data false = l.withRx q' ∧
      RxSync q q' := by
  have hl := Link.withRx_eq_of l (l.handleSf_eq data false)
  have hl' := Link.withRx_eq_of _ ((l.withRx r').handleSf_eq data false)
  refine ⟨_, _, hl, hl', ?_⟩
  have hacc : (l.withRx r').acceptsSf data false = l.acceptsSf data false := by
    simp [Link.acceptsSf]
  rw [Link.handleSf_rx, Link.handleSf_rx, hacc]
  cases hp : l.acceptsSf data false with
  | none => exact h
  | some p =>
    have hle : p.length ≤ isotpMaxMsg := (l.length_acceptsSf data hp).2.trans (by decide)
    refine ⟨.rfl, rfl, fun hp => ?_, fun _ => ⟨rfl, rfl, hle, by simp⟩⟩
    cases hp

theorem handleFf_sync {l : Link} {r' : RxSide} (h : RxSync l.rx r') (hc : l.rx.complete = false)
    (e : Env) (data : List UInt8) : ∃ q q' f, l.handleFf e data = (l.withRx q, f) ∧
      (l.withRx r').handleFf e data = (l.withRx q', f) ∧ RxSync q q' := by
  by_cases hf : data.length = isotpCanDl ∧ sfMaxData < Link.ffDl data
  swap
  · exact ⟨l.rx, r', none, l.handleFf_ignores e data hf, (l.withRx r').handleFf_ignores e data hf, h⟩
  have hl : (data.drop 2).length = ffFirstData := by rw [List.length_drop, hf.1]; rfl
  have h6 : (data.drop 2).take ffFirstData = data.drop 2 := List.take_of_length_le hl.le
  refine ⟨l.rxAfterFf data e.now, (l.withRx r').rxAfterFf data e.now, some (l.sendFc .cts),
    l.handleFf_accepts e data hf.1 hf.2, (l.withRx r').handleFf_accepts e data hf.1 hf.2, .rfl,
    h.complete, fun _ => ⟨hc, rfl, rfl, rfl, rfl, rfl, rfl, ?_, Link.ffDl_le data, ?_⟩, fun hd => ?_⟩
  · exact lt_of_le_of_lt (by simp [Link.rxAfterFf]) hf.2
  · dsimp only [Link.rxAfterFf]
    rw [h6, ← hl, Mem.read_copy, Mem.read_copy]
  · exact absurd (hc.symm.trans hd) (by decide)

/-- A ConsecutiveFrame brings the same bytes to both receptions. -/
theorem rxAfterCf_sync {l : Link} {r' : RxSide} (h : RxSync l.rx r') (hr : l.rx.phase = .recv)
    {p : List UInt8} (hple : p.length ≤ l.rx.len - l.rx.off) (now : UInt32) :
    RxSync (l.rxAfterCf p now) ((l.withRx r').rxAfterCf p now) := by
  obtain ⟨hc, hlen, hoff, hsn, hbc, -, hfn, hlt, hle, hbuf⟩ := h.recv hr
  have hread : (r'.buf.copy r'.off p).read 0 (l.rx.off + p.length) =
      (l.rx.buf.copy l.rx.off p).read 0 (l.rx.off + p.length) := by
    rw [hoff, Mem.read_copy_append, Mem.read_copy_append, hbuf]
  have hbd : (l.withRx r').BlockDone ↔ l.BlockDone := by simp [Link.BlockDone, hbc]
  simp only [Link.rxAfterCf, Link.withRx_rx, hlen, hoff, hbd] at hread ⊢
  by_cases hfull : l.rx.len ≤ l.rx.off + p.length
  · rw [if_pos hfull, if_pos hfull]
    have he : l.rx.len = l.rx.off + p.length := by omega
    refine ⟨.rfl, rfl, fun hp => ?_, fun _ => ⟨rfl, hfn, hle, ?_⟩⟩
    · cases hp
    · dsimp only; rw [he]; exact hread
  · rw [if_neg hfull, if_neg hfull]
    have hmore : l.rx.off + p.length < l.rx.len := Nat.not_le.1 hfull
    have hno {P : Prop} (hd : l.rx.complete = true) : P := absurd (hc.symm.trans hd) (by decide)
    by_cases hb : l.BlockDone
    · rw [if_pos hb, if_pos hb]
      exact ⟨h.phase, h.complete, fun _ => ⟨hc, rfl, rfl, by simp [hsn], rfl, rfl, hfn, hmore,
        hle, hread⟩, hno⟩
    · rw [if_neg hb, if_neg hb]
      exact ⟨h.phase, h.complete, fun _ => ⟨hc, rfl, rfl, by simp [hsn], by simp [hbc],
        rfl, hfn, hmore, hle, hread⟩, hno⟩

theorem handleCf_sync {l : Link} {r' : RxSide} (h : RxSync l.rx r') (hc : l.rx.complete = false)
    (e : Env) (data : List UInt8) : ∃ q q' f, l.handleCf e data = (l.withRx q, f) ∧
      (l.withRx r').handleCf e data = (l.withRx q', f) ∧ RxSync q q' := by
  by_cases hr : l.rx.phase = .recv
  swap
  · have hr' : (l.withRx r').rx.phase ≠ .recv := fun hr' => hr (h.phase.1 hr')
    exact ⟨l.rx, r', none, if_pos hr, if_pos hr', h⟩
  obtain ⟨-, hlen, hoff, hsn, hbc, -, -, hlt, hle, hbuf⟩ := h.recv hr
  have hlt' : (l.withRx r').rx.off < (l.withRx r').rx.len := by simpa [hoff, hlen] using hlt
  have hle' : (l.withRx r').rx.len ≤ isotpMaxMsg := by simpa [hlen] using hle
  have hacc : (l.withRx r').acceptsCf data = l.acceptsCf data := by
    simp [Link.acceptsCf, h.phase, hlen, hoff, hsn]
  have hbd : (l.withRx r').BlockDone ↔ l.BlockDone := by simp [Link.BlockDone, hbc]
  cases hp : l.acceptsCf data with
  | none =>
    have hr' : (l.withRx r').rx.phase = .recv := h.phase.2 hr
    obtain ⟨hf, ⟨hn, -⟩ | ⟨-, ha, hco⟩⟩ := l.handleCf_none e data hle (fun _ => hlt) hp
    · exact absurd hr hn
    obtain ⟨hf', ⟨hn, -⟩ | ⟨-, ha', hco'⟩⟩ :=
      (l.withRx r').handleCf_none e data hle' (fun _ => hlt') (hacc.trans hp)
    · exact absurd hr' hn
    refine ⟨_, _, none, Prod.ext (Link.withRx_eq_of l (l.handleCf_eq e data)) hf,
      Prod.ext (Link.withRx_eq_of _ ((l.withRx r').handleCf_eq e data)) hf', ?_⟩
    exact .of_idle (by simp [ha.1]) (by simp [ha'.1]) (hco.trans hc)
      (hco'.trans (h.complete.trans hc))
  | some p =>
    have hf : (l.withRx r').fcAfterCf p = l.fcAfterCf p := by
      unfold Link.fcAfterCf
      simp only [Link.withRx_rx, hlen, hoff, hbd]
      rfl
    exact ⟨l.rxAfterCf p e.now, (l.withRx r').rxAfterCf p e.now, l.fcAfterCf p,
      l.handleCf_some e data hle hlt hp,
      hf ▸ (l.withRx r').handleCf_some e data hle' hlt' (hacc.trans hp),
      rxAfterCf_sync h hr (l.length_acceptsCf data hp) e.now⟩

/-- A frame that is not a broadcast. -/
theorem agree_frame {l : Link} {r' : RxSide} (h : RxClear l.rx r') (e : Env) {id : UInt32}
    (data : List UInt8) (ha : l.addressed id ≠ some true) :
    Agree l r' (.frame e id data) RxSync := by
  have hign (hi : (data.length < 1 ∨ isotpCanDl < data.length) ∨ l.addressed id = none) :
      Agree l r' (.frame e id data) RxSync :=
    agree_frame_of (l.isotpOnCanFrame_ignores e data hi)
      ((l.withRx r').isotpOnCanFrame_ignores e data hi) h.1
  by_cases hd : data.length < 1 ∨ isotpCanDl < data.length
  · exact hign (.inl hd)
  cases hf : l.addressed id with
  | none => exact hign (.inr hf)
  | some functional =>
    -- the frame is on the physical address
    obtain rfl : functional = false := by
      cases functional with
      | false => rfl
      | true => exact absurd hf ha
    have hon := l.isotpOnCanFrame_physical e data hd hf
    have hon' := (l.withRx r').isotpOnCanFrame_physical e data hd hf
    rcases ht : pciType (data.getD 0 0) with _ | _ | _ | _ | n <;> rw [ht] at hon hon'
    · obtain ⟨q, q', hq, hq', hs⟩ := handleSf_sync h.1 data
      rw [hq] at hon
      rw [hq'] at hon'
      exact agree_frame_of hon hon' hs
    · obtain ⟨q, q', f, hq, hq', hs⟩ := handleFf_sync h.1 h.2 e data
      exact agree_frame_of (hon.trans hq) (hon'.trans hq') hs
    · obtain ⟨q, q', f, hq, hq', hs⟩ := handleCf_sync h.1 h.2 e data
      exact agree_frame_of (hon.trans hq) (hon'.trans hq') hs
    · replace hon : l.isotpOnCanFrame e id data = (l.handleFc e data, none) := hon
      replace hon' : (l.withRx r').isotpOnCanFrame e id data =
        ((l.withRx r').handleFc e data, none) := hon'
      refine ⟨r', ?_, ?_, ?_⟩
      · rw [Link.step, hon', l.handleFc_withRx, Link.step, hon]
      · rw [Link.step, hon, Link.handleFc_rx]; exact h.1
      · simp only [Link.observe, Link.handed, hon, hon']
    · exact agree_frame_of hon hon' h.1

/-- A broadcast, or a frame on the functional address of a link that has none: nothing shows, and
the send side does not move. -/
theorem broadcast {l : Link} {r' : RxSide} (h : RxClear l.rx r') (e : Env) {id : UInt32}
    (data : List UInt8) (ha : l.addressed id ≠ some false) :
    ∃ q, l.step (.frame e id data) = l.withRx q ∧ RxRel q r' ∧ l.observe (.frame e id data) = [] := by
  have hign (hi : l.isotpOnCanFrame e id data = (l, none)) : ∃ q,
      l.step (.frame e id data) = l.withRx q ∧ RxRel q r' ∧ l.observe (.frame e id data) = [] :=
    ⟨l.rx, by rw [Link.step, hi]; rfl, .inl h.1, by simp [Link.observe, Link.handed, hi]⟩
  by_cases hd : data.length < 1 ∨ isotpCanDl < data.length
  · exact hign (l.isotpOnCanFrame_ignores e data (.inl hd))
  cases hf : l.addressed id with
  | none => exact hign (l.isotpOnCanFrame_ignores e data (.inr hf))
  | some functional =>
    obtain rfl : functional = true := by
      cases functional with
      | true => rfl
      | false => exact absurd hf ha
    have hon := l.isotpOnCanFrame_functional e data hd hf
    by_cases ht : pciType (data.getD 0 0) = 0
    swap
    · exact hign (by rw [hon, if_neg ht])
    rw [if_pos ht] at hon
    have hsf := l.handleSf_rx data true
    cases hp : l.acceptsSf data true with
    | none =>
      rw [hp] at hsf
      refine hign ?_
      rw [hon, Link.withRx_eq_of l (l.handleSf_eq data true), hsf]
      rfl
    | some p =>
      -- accepted: no reception was under way and no message waited
      have hidle : l.rx.phase ≠ .recv := by
        intro hr
        unfold Link.acceptsSf at hp
        split_ifs at hp with hc
        exact hc.2.2.2 ⟨rfl, .inl hr⟩
      rw [hp] at hsf
      refine ⟨(l.handleSf data true).rx, ?_, ?_, by simp [Link.observe, Link.handed, hon]⟩
      · rw [Link.step, hon]
        exact Link.withRx_eq_of l (l.handleSf_eq data true)
      · rw [hsf]
        exact .inr ⟨by simp, fun hr' => hidle (h.1.phase.1 hr'), rfl, rfl,
          (l.length_acceptsSf data hp).2.trans (by decide), h.1.complete.trans h.2⟩

/-! ### Runs -/

/-- Calls between two frames keep the runs related and show the same. -/
theorem outputs_drives {l : Link} {r' : RxSide} {R : RxSide → RxSide → Prop}
    (hR : ∀ (l : Link) r' (d : Drive), R l.rx r' → Agree l r' d.call R) (h : R l.rx r')
    (ds : List Drive) :
    (l.withRx r').outputs (ds.map Drive.call) = l.outputs (ds.map Drive.call) ∧
      ∃ r'', (ds.map Drive.call).foldl Link.step (l.withRx r') =
          ((ds.map Drive.call).foldl Link.step l).withRx r'' ∧
        R ((ds.map Drive.call).foldl Link.step l).rx r'' := by
  induction ds generalizing l r' with
  | nil => exact ⟨rfl, r', rfl, h⟩
  | cons d ds ih =>
    obtain ⟨r'', hst, hR', hobs⟩ := hR l r' d h
    obtain ⟨hout, hrun⟩ := ih hR'
    refine ⟨?_, ?_⟩
    · simp only [List.map_cons, Link.outputs, hst, hobs, hout]
    · simpa only [List.map_cons, List.foldl_cons, hst] using hrun

/-- The calls after a frame, and the `isotp_receive()` for it. -/
theorem outputs_collect {l : Link} {r' : RxSide} (h : RxRel l.rx r') (mid : List Drive) :
    (l.withRx r').outputs (mid.map Drive.call ++ [Call.receive isotpMaxMsg]) =
        l.outputs (mid.map Drive.call ++ [Call.receive isotpMaxMsg]) ∧
      ∃ r'', (mid.map Drive.call ++ [Call.receive isotpMaxMsg]).foldl Link.step (l.withRx r') =
          ((mid.map Drive.call ++ [Call.receive isotpMaxMsg]).foldl Link.step l).withRx r'' ∧
        RxClear ((mid.map Drive.call ++ [Call.receive isotpMaxMsg]).foldl Link.step l).rx r'' := by
  obtain ⟨hout, r₁, hrun, hrel⟩ := outputs_drives (fun _ _ d hd => agree_drive hd d) h mid
  obtain ⟨r₂, hst, hclear, hobs⟩ := agree_receive hrel
  refine ⟨?_, r₂, ?_, ?_⟩
  · simp only [Link.outputs_append, hout, hrun, Link.outputs, hobs]
  · simpa only [List.foldl_append, hrun, List.foldl_cons, List.foldl_nil] using hst
  · simpa only [List.foldl_append, List.foldl_cons, List.foldl_nil] using hclear

/-- A call in a second run where no message waits, and none comes to. -/
theorem agree_drive_uncollected {l : Link} {r' : RxSide} (d : Drive)
    (h : RxRel l.rx r' ∧ r'.complete = false) :
    Agree l r' d.call fun q q' => RxRel q q' ∧ q'.complete = false := by
  cases d with
  | send e data => exact agree_send e data h
  | poll e =>
    refine agree_poll e h ⟨h.1.imp (fun h => h.pollRx e) fun h => h.pollRx e, ?_⟩
    rw [pollRx_complete]
    exact h.2
  | receive =>
    obtain ⟨r'', hst, hclear, hobs⟩ := agree_receive h.1
    exact ⟨r'', hst, ⟨.inl hclear.1, hclear.1.complete.trans hclear.2⟩, hobs⟩

/-- The calls after a broadcast, which in the second run come without an `isotp_receive()`: there
is nothing to collect. -/
theorem outputs_uncollected {l : Link} {r' : RxSide} (h : RxRel l.rx r')
    (hc : r'.complete = false) (mid : List Drive) :
    (l.withRx r').outputs (mid.map Drive.call) =
        l.outputs (mid.map Drive.call ++ [Call.receive isotpMaxMsg]) ∧
      ∃ r'', (mid.map Drive.call).foldl Link.step (l.withRx r') =
          ((mid.map Drive.call ++ [Call.receive isotpMaxMsg]).foldl Link.step l).withRx r'' ∧
        RxClear ((mid.map Drive.call ++ [Call.receive isotpMaxMsg]).foldl Link.step l).rx r'' := by
  obtain ⟨hout, r₁, hrun, hrel, hc₁⟩ :=
    outputs_drives (fun _ _ d hd => agree_drive_uncollected d hd) ⟨h, hc⟩ mid
  obtain ⟨r₂, hst, hclear, hobs⟩ := agree_receive hrel
  rw [Link.outputs_append, List.foldl_append, hout, hrun]
  generalize (mid.map Drive.call).foldl Link.step l = l₁ at hst hclear hobs ⊢
  have hnop : (l₁.withRx r₁).isotpReceive isotpMaxMsg = (l₁.withRx r₁, ⟨.noData, [], false⟩) :=
    if_pos hc₁
  have hnil : (l₁.withRx r₁).observe (.receive isotpMaxMsg) = [] := by
    simp only [Link.observe, Link.handed, hnop]; rfl
  refine ⟨?_, r₂, ?_, hclear⟩
  · simp only [Link.outputs, ← hobs, hnil, List.append_nil]
  · rw [List.foldl_cons, List.foldl_nil, ← hst, Link.step, hnop]

/-- The calls of a frame whose `isotp_on_can_frame()` left the runs related. -/
theorem outputs_frame {l : Link} {r' : RxSide} {e : Env} {id : UInt32} {data : List UInt8}
    (h : Agree l r' (.frame e id data) RxSync) (mid : List Drive) :
    (l.withRx r').outputs (Input.frame e id data mid).calls =
        l.outputs (Input.frame e id data mid).calls ∧
      ∃ r'', (Input.frame e id data mid).calls.foldl Link.step (l.withRx r') =
          ((Input.frame e id data mid).calls.foldl Link.step l).withRx r'' ∧
        RxClear ((Input.frame e id data mid).calls.foldl Link.step l).rx r'' := by
  obtain ⟨r₁, hst, hs, hobs⟩ := h
  obtain ⟨hout, hrun⟩ := outputs_collect (.inl hs) mid
  refine ⟨?_, ?_⟩
  · simp only [Input.calls, Link.outputs, hst, hobs, hout]
  · simpa only [Input.calls, List.foldl_cons, hst] using hrun

/-- One input, and what is left of it when the broadcasts are deleted. -/
theorem outputs_input {l : Link} {r' : RxSide} (h : RxClear l.rx r')
    (hne : l.funcId ≠ l.rxId) (i : Input) :
    (l.withRx r').outputs ((i.dropId l.funcId).flatMap Input.calls) = l.outputs i.calls ∧
      ∃ r'', ((i.dropId l.funcId).flatMap Input.calls).foldl Link.step (l.withRx r') =
          (i.calls.foldl Link.step l).withRx r'' ∧
        RxClear (i.calls.foldl Link.step l).rx r'' := by
  cases i with
  | drive d =>
    obtain ⟨r'', hst, hclear, hobs⟩ := agree_drive_clear h d
    refine ⟨?_, r'', by simpa [Input.dropId, Input.calls] using hst,
      by simpa [Input.calls] using hclear⟩
    simp only [Input.dropId, List.flatMap_singleton, Input.calls, Link.outputs, hobs]
  | frame e id data mid =>
    by_cases hid : id = l.funcId
    · have ha : l.addressed id ≠ some false := by
        unfold Link.addressed
        rw [if_neg (by rw [hid]; exact hne)]
        split_ifs <;> simp
      obtain ⟨q, hq, hrel, hobs⟩ := broadcast h e data ha
      have hmid : (mid.map Input.drive).flatMap Input.calls = mid.map Drive.call := by
        rw [List.flatMap_map, List.map_eq_flatMap]; rfl
      -- without the broadcast the calls between it and `isotp_receive()` do the same
      obtain ⟨hout, r'', hrun, hclear⟩ := outputs_uncollected (l := l.withRx q) hrel
        (h.1.complete.trans h.2) mid
      simp only [Link.withRx_withRx] at hout hrun
      refine ⟨?_, r'', ?_, ?_⟩
      · simp only [Input.dropId, if_pos hid, hmid, Input.calls, Link.outputs, hobs, hq, hout,
          List.nil_append]
      · simpa only [Input.dropId, if_pos hid, hmid, Input.calls, List.foldl_cons, hq] using hrun
      · simpa only [Input.calls, List.foldl_cons, hq] using hclear
    · have ha : l.addressed id ≠ some true := by
        unfold Link.addressed
        split_ifs with h₁ h₂
        · simp
        · exact absurd h₂.2 hid
        · simp
      simpa [Input.dropId, hid] using outputs_frame (agree_frame h e data ha) mid

/-- The configuration is that of the start throughout a run. -/
theorem run_sameConfig (l : Link) (cs : List Call) : l.SameConfig (cs.foldl Link.step l) := by
  induction cs generalizing l with
  | nil => exact .refl l
  | cons c cs ih => exact (l.step_sameConfig c).trans (ih (l.step c))

theorem outputs_dropId {l : Link} {r' : RxSide} (h : RxClear l.rx r') (hne : l.funcId ≠ l.rxId)
    (inputs : List Input) :
    (l.withRx r').outputs ((inputs.flatMap (Input.dropId l.funcId)).flatMap Input.calls) =
      l.outputs (inputs.flatMap Input.calls) := by
  induction inputs generalizing l r' with
  | nil => rfl
  | cons i is ih =>
    obtain ⟨hout, r'', hrun, hclear⟩ := outputs_input h hne i
    have hc := run_sameConfig l i.calls
    have hrest := ih hclear (by rw [hc.funcId, hc.rxId]; exact hne)
    rw [hc.funcId] at hrest
    simp only [List.flatMap_cons, List.flatMap_append, Link.outputs_append, hout, hrun, hrest]

/-- **Deleting the broadcasts changes no output.**  For every link from `isotp_init()` whose
functional address is not its physical one, and every sequence of inputs, the link shows the same
when all frames on the functional address are deleted: the same frames handed to `can_tx`, the
same results of `isotp_send()`, the same physical messages, in the same order. -/
theorem functional_noninterference {txId rxId funcId : UInt32} {cfg : Option Cfg}
    (hne : funcId ≠ rxId) (inputs : List Input) :
    (isotpInit txId rxId funcId cfg).outputs
        ((inputs.flatMap (Input.dropId funcId)).flatMap Input.calls) =
      (isotpInit txId rxId funcId cfg).outputs (inputs.flatMap Input.calls) :=
  outputs_dropId (l := isotpInit txId rxId funcId cfg)
    ⟨.of_idle (by simp [isotpInit]) (by simp) rfl rfl, rfl⟩ hne inputs

/-- A broadcast between the two frames of a message. -/
theorem functional_noninterference_tenBytes :
    testLink.outputs (([.frame ⟨0, true⟩ 0x7E0 [0x10, 10, 1, 2, 3, 4, 5, 6] [.poll ⟨1, true⟩],
        .frame ⟨2, true⟩ 0x7DF [0x02, 0x3E, 0x80] [],
        .frame ⟨3, true⟩ 0x7E0 [0x21, 7, 8, 9, 10] []].flatMap (Input.dropId 0x7DF)).flatMap
          Input.calls) =
      testLink.outputs ([.frame ⟨0, true⟩ 0x7E0 [0x10, 10, 1, 2, 3, 4, 5, 6] [.poll ⟨1, true⟩],
        .frame ⟨2, true⟩ 0x7DF [0x02, 0x3E, 0x80] [],
        .frame ⟨3, true⟩ 0x7E0 [0x21, 7, 8, 9, 10] []].flatMap Input.calls) :=
  functional_noninterference (by decide) _

end IsoTp

end Espcan32

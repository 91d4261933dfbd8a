import Espcan32.IsoTp.Receive
import Espcan32.IsoTp.Send

/-!
# Two links through lossless channels

Link `a` sends one message to link `b`.  Each direction has a first-in first-out channel that
loses nothing, `can_tx` always succeeds, and the steps are polls of either link and deliveries
from either channel, in any order and with any clock readings at which no timer expires.

Between steps the pair is at one of seven stages (`Stage`), which count the ConsecutiveFrames
`b` has received (`j`) and those in flight (`k`); `a` has sent `j + k`.

* `PairInv.step` : every step leads from stage to stage, and uses up work if it delivers or sends.
* `pair_delivers` : **`b` completes the message, once, and nothing else**; no reachable state is a
  deadlock, and the transfer ends.
-/

namespace Espcan32

namespace IsoTp

/-! ### The system -/

/-- Two links, the frames in flight in each direction, and the messages `b` has completed. -/
structure Pair where
  a : Link
  b : Link
  ab : List CanFrame
  ba : List CanFrame
  done : List (List UInt8)

/-- A poll of one link, or the delivery of the oldest frame in flight to one, with the clock
reading of the call. -/
inductive PairStep where
  | pollA (now : UInt32)
  | pollB (now : UInt32)
  | deliverA (now : UInt32)
  | deliverB (now : UInt32)

/-- The link with nothing waiting to be collected. -/
def Link.collected (l : Link) : Link := { l with rx := { l.rx with complete := false } }

/-- The message a frame completes: what `rx_complete`, cleared before the frame, announces after
it. -/
def Link.completes (l : Link) (e : Env) (f : CanFrame) : Option (List UInt8) :=
  let r := l.collected.isotpOnCanFrame e f.id f.data
  if r.1.rx.complete then some (r.1.rx.buf.read 0 r.1.rx.len) else none

namespace Pair

/-- One step; a delivery needs a frame in flight. -/
def step (p : Pair) : PairStep → Option Pair
  | .pollA now =>
    let r := p.a.isotpPoll ⟨now, true⟩
    some { p with a := r.1, ab := p.ab ++ r.2.toList }
  | .pollB now =>
    let r := p.b.isotpPoll ⟨now, true⟩
    some { p with b := r.1, ba := p.ba ++ r.2.toList }
  | .deliverA now =>
    match p.ba with
    | [] => none
    | f :: ba =>
      let r := p.a.isotpOnCanFrame ⟨now, true⟩ f.id f.data
      some { p with a := r.1, ba := ba, ab := p.ab ++ r.2.toList }
  | .deliverB now =>
    match p.ab with
    | [] => none
    | f :: ab =>
      let r := p.b.isotpOnCanFrame ⟨now, true⟩ f.id f.data
      some { p with
        b := r.1, ab := ab, ba := p.ba ++ r.2.toList
        done := p.done ++ (p.b.completes ⟨now, true⟩ f).toList }

/-- Neither N_Bs of `a` nor N_Cr of `b` expires at the step. -/
def NoTimeout (p : Pair) : PairStep → Prop
  | .pollA now => ¬(p.a.tx.phase = .waitFc ∧ p.a.cfg.nBsMs ≤ elapsed now p.a.tx.timer)
  | .pollB now => ¬(p.b.rx.phase = .recv ∧ p.b.cfg.nCrMs ≤ elapsed now p.b.rx.timer)
  | _ => True

instance (p : Pair) (s : PairStep) : Decidable (p.NoTimeout s) :=
  match s with
  | .pollA _ | .pollB _ => inferInstanceAs (Decidable (¬_))
  | .deliverA _ | .deliverB _ => inferInstanceAs (Decidable True)

/-- The step delivers a frame or sends one. -/
def Works (p : Pair) : PairStep → Prop
  | .pollA now => (p.a.isotpPoll ⟨now, true⟩).2 ≠ none
  | .pollB _ => False
  | _ => True

instance (p : Pair) (s : PairStep) : Decidable (p.Works s) :=
  match s with
  | .pollA now => inferInstanceAs (Decidable ((p.a.isotpPoll ⟨now, true⟩).2 ≠ none))
  | .pollB _ => inferInstanceAs (Decidable False)
  | .deliverA _ | .deliverB _ => inferInstanceAs (Decidable True)

/-- Count the steps that deliver or send. -/
def countWork (p : Pair) (s : PairStep) (n : ℕ) : ℕ := if p.Works s then n + 1 else n

/-- The pair once `isotp_send()` of `m` on `a` is accepted. -/
def start (a b : Link) (m : List UInt8) (e : Env) : Pair :=
  ⟨(a.isotpSend e m).1, b, (a.isotpSend e m).2.2.toList, [], []⟩

end Pair

/-- The pair as a system. -/
def pairSystem : System Pair PairStep := .ofFun Pair.step

/-- The links are wired to each other. -/
structure Connected (a b : Link) : Prop where
  ab : a.txId = b.rxId
  ba : b.txId = a.rxId

/-- Nothing is sent, received or waiting to be collected. -/
structure Link.Idle (l : Link) : Prop where
  tx : l.tx.phase = .idle
  rx : l.rx.phase = .idle
  complete : l.rx.complete = false

/-- Steps left in which a frame is delivered or sent: three for each ConsecutiveFrame not sent
yet, two for each frame in flight to `b`, one for each in flight to `a`. -/
def Pair.work (p : Pair) : ℕ :=
  3 * (if p.a.tx.phase = .idle then 0 else (p.a.tx.len - p.a.tx.off + 6) / 7) +
    2 * p.ab.length + p.ba.length

/-! ### What arrives -/

/-- The payload of ConsecutiveFrame `i` of the message `m`. -/
def chunk (m : List UInt8) (i : ℕ) : List UInt8 :=
  (m.drop (ffFirstData + cfMaxData * i)).take cfMaxData

/-- ConsecutiveFrame `i` of the message `m`. -/
def Link.cfFrame (l : Link) (m : List UInt8) (i : ℕ) : CanFrame :=
  l.txFrame (pciByte 2 ((1 + i) % 16) :: chunk m i)

/-- The receive side in the middle of the message `m`, after `j` ConsecutiveFrames. -/
structure RxAt (r : RxSide) (m : List UInt8) (j : ℕ) : Prop where
  phase : r.phase = .recv
  len : r.len = m.length
  off : r.off = ffFirstData + cfMaxData * j
  sn : r.sn = (1 + j) % 16
  buf : r.buf.read 0 r.off = m.take r.off
  lt : r.off < m.length
  le : m.length ≤ isotpMaxMsg

theorem addressed_of_rxId {l : Link} {id : UInt32} (h : id = l.rxId) :
    l.addressed id = some false := by
  rw [Link.addressed, if_pos h]

/-- A frame of one link has one to eight bytes, the first of which is its N_PCI byte. -/
theorem Link.txFrame_dlc (l : Link) (b0 : UInt8) {p : List UInt8} (hp : p.length ≤ 7) :
    ¬((l.txFrame (b0 :: p)).data.length < 1 ∨ isotpCanDl < (l.txFrame (b0 :: p)).data.length) := by
  obtain ⟨k, hk, hle⟩ := l.txFrame_data (b0 :: p)
  rw [hk, List.length_append, List.length_replicate]
  simp only [List.length_cons, isotpCanDl] at hle ⊢
  omega

theorem Link.drop_txFrame (l : Link) (b0 : UInt8) (p : List UInt8) :
    ((l.txFrame (b0 :: p)).data.drop 1).take p.length = p := by
  obtain ⟨k, hk, -⟩ := l.txFrame_data (b0 :: p)
  rw [hk]
  simp

theorem length_chunk (m : List UInt8) (i : ℕ) :
    (chunk m i).length = min 7 (m.length - (6 + 7 * i)) := by
  simp [chunk]

/-- A SingleFrame arrives. -/
theorem receive_sf {a b : Link} (hab : a.txId = b.rxId) (e : Env) {m : List UInt8}
    (h0 : 0 < m.length) (h7 : m.length ≤ sfMaxData) :
    ∃ rx, b.isotpOnCanFrame e a.txId (a.txFrame (pciByte 0 m.length :: m)).data =
        ({ b with rx := rx }, none) ∧
      rx.phase = .idle ∧ rx.complete = true ∧ rx.buf.read 0 rx.len = m := by
  have hlow : pciLow (pciByte 0 m.length) = m.length := by
    simp only [sfMaxData] at h7
    rw [pciLow_pciByte _ (by omega)]; omega
  have hon := b.isotpOnCanFrame_sf e _ (a.txFrame_dlc (pciByte 0 m.length) h7)
    (addressed_of_rxId hab) (by rw [Link.txFrame_head, pciType_pciByte _ (by omega)])
  have hlen : m.length ≤ (a.txFrame (pciByte 0 m.length :: m)).data.length - 1 := by
    obtain ⟨k, hk, -⟩ := a.txFrame_data (pciByte 0 m.length :: m)
    rw [hk, List.length_append, List.length_cons]; omega
  have hacc : b.acceptsSf (a.txFrame (pciByte 0 m.length :: m)).data false = some m := by
    rw [Link.acceptsSf, Link.txFrame_head, hlow, if_pos ⟨h0, h7, hlen, by simp⟩,
      Link.drop_txFrame]
  obtain ⟨rx, hrx⟩ := b.handleSf_eq (a.txFrame (pciByte 0 m.length :: m)).data false
  have hspec := b.handleSf_rx (a.txFrame (pciByte 0 m.length :: m)).data false
  rw [hacc, hrx] at hspec
  refine ⟨rx, hon.trans (by rw [← hrx]), ?_⟩
  dsimp only at hspec
  rw [hspec]
  exact ⟨rfl, rfl, Mem.read_copy _ 0 m⟩

/-- The FirstFrame of `m`. -/
def Link.ffFrame (l : Link) (m : List UInt8) : CanFrame :=
  l.txFrame (pciByte 1 (m.length >>> 8) :: UInt8.ofNat (m.length &&& 0xFF) :: m.take ffFirstData)

/-- A FirstFrame arrives. -/
theorem receive_ff {a b : Link} (hab : a.txId = b.rxId) (e : Env) {m : List UInt8}
    (h7 : sfMaxData < m.length) (hle : m.length ≤ isotpMaxMsg) :
    b.isotpOnCanFrame e a.txId (a.ffFrame m).data =
        ({ b with rx := b.rxAfterFf (a.ffFrame m).data e.now }, some (b.sendFc .cts)) ∧
      RxAt (b.rxAfterFf (a.ffFrame m).data e.now) m 0 := by
  have h6 : (m.take ffFirstData).length = ffFirstData := by
    simp only [sfMaxData] at h7
    simp only [List.length_take, ffFirstData]; omega
  have hdl : Link.ffDl (a.ffFrame m).data = m.length := Link.ffDl_txFrame hle
  have hdata : (a.ffFrame m).data =
      pciByte 1 (m.length >>> 8) :: UInt8.ofNat (m.length &&& 0xFF) :: m.take ffFirstData := by
    obtain ⟨k, hk, hkle⟩ := a.txFrame_data
      (pciByte 1 (m.length >>> 8) :: UInt8.ofNat (m.length &&& 0xFF) :: m.take ffFirstData)
    have hff : ffFirstData = 6 := rfl
    have hdl : isotpCanDl = 8 := rfl
    rw [List.length_cons, List.length_cons, h6] at hkle
    obtain rfl : k = 0 := by omega
    rw [Link.ffFrame, hk, List.replicate_zero, List.append_nil]
  have hdlc : (a.ffFrame m).data.length = isotpCanDl := by
    rw [hdata, List.length_cons, List.length_cons, h6]; rfl
  have hon := b.isotpOnCanFrame_ff e (a.ffFrame m).data (by rw [hdlc]; decide)
    (addressed_of_rxId hab) (by rw [hdata]; exact pciType_pciByte _ (by omega))
  refine ⟨hon.trans (b.handleFf_accepts e _ hdlc (by rw [hdl]; exact h7)), ?_⟩
  exact {
    phase := rfl
    len := hdl
    off := rfl
    sn := rfl
    buf := by
      have htake : ((a.ffFrame m).data.drop 2).take ffFirstData = m.take ffFirstData := by
        rw [hdata, List.drop_succ_cons, List.drop_succ_cons, List.drop_zero, List.take_take,
          Nat.min_self]
      have hread := Mem.read_copy b.rx.buf 0 (m.take ffFirstData)
      rw [h6] at hread
      rw [Link.rxAfterFf, htake]
      exact hread
    lt := lt_of_le_of_lt (by simp [Link.rxAfterFf]) h7
    le := hle }

/-- The bytes of a ConsecutiveFrame extend those received before it. -/
theorem take_append_chunk (m : List UInt8) (i : ℕ) :
    m.take (6 + 7 * i) ++ chunk m i = m.take (6 + 7 * i + 7) := (List.take_add).symm

/-- A ConsecutiveFrame arrives that is the next one. -/
theorem receive_cf {a b : Link} (hab : a.txId = b.rxId) (e : Env) {m : List UInt8} {j : ℕ}
    (h : RxAt b.rx m j) :
    b.isotpOnCanFrame e a.txId (a.cfFrame m j).data =
      ({ b with rx := b.rxAfterCf (chunk m j) e.now }, b.fcAfterCf (chunk m j)) := by
  have hc := length_chunk m j
  have hoff : b.rx.off = 6 + 7 * j := h.off
  have hon := b.isotpOnCanFrame_cf e (a.cfFrame m j).data (a.txFrame_dlc _ (by omega))
    (addressed_of_rxId hab) (by rw [Link.cfFrame, Link.txFrame_head, pciType_pciByte _ (by omega)])
  have hacc : b.acceptsCf (a.cfFrame m j).data = some (chunk m j) := by
    have hmin : min (b.rx.len - b.rx.off) cfMaxData = (chunk m j).length := by
      rw [hc, h.len, hoff, Nat.min_comm]; rfl
    rw [Link.acceptsCf, hmin, Link.cfFrame, Link.drop_txFrame, Link.txFrame_head, if_pos]
    refine ⟨h.phase, by rw [pciLow_pciByte _ (by omega), h.sn]; omega, ?_⟩
    obtain ⟨k, hk, -⟩ := a.txFrame_data (pciByte 2 ((1 + j) % 16) :: chunk m j)
    rw [hk, List.length_append, List.length_cons, h.len, hoff]
    simp only [cfMaxData]
    omega
  exact hon.trans (b.handleCf_some e _ (h.len.le.trans h.le) (h.len ▸ h.lt) hacc)

/-- A ConsecutiveFrame that is not the last one. -/
theorem RxAt.next {b : Link} {m : List UInt8} {j : ℕ} (h : RxAt b.rx m j)
    (hm : 6 + 7 * (j + 1) < m.length) (now : UInt32) :
    RxAt (b.rxAfterCf (chunk m j) now) m (j + 1) := by
  have hc : (chunk m j).length = 7 := by rw [length_chunk]; omega
  have hoff : b.rx.off = 6 + 7 * j := h.off
  have hbuf : (b.rx.buf.copy b.rx.off (chunk m j)).read 0 (b.rx.off + 7) =
      m.take (b.rx.off + 7) := by
    have hread := Mem.read_copy_append b.rx.buf b.rx.off (chunk m j)
    rw [hc, h.buf] at hread
    rw [hread, hoff, take_append_chunk]
  have hmore : ¬b.rx.len ≤ b.rx.off + 7 := by rw [h.len, hoff]; omega
  simp only [Link.rxAfterCf, hc, if_neg hmore]
  split
  all_goals exact ⟨h.phase, h.len, by dsimp only; rw [hoff]; simp; omega,
    by dsimp only; rw [h.sn]; omega, hbuf, by dsimp only; rw [hoff]; omega, h.le⟩

theorem RxAt.blockCf_next {b : Link} {m : List UInt8} {j : ℕ} (h : RxAt b.rx m j)
    (hm : 6 + 7 * (j + 1) < m.length) (now : UInt32) :
    (b.rxAfterCf (chunk m j) now).blockCf =
        (if b.BlockDone then 0 else (b.rx.blockCf + 1) % 256) ∧
      b.fcAfterCf (chunk m j) = (if b.BlockDone then some (b.sendFc .cts) else none) ∧
      (b.rxAfterCf (chunk m j) now).complete = b.rx.complete := by
  have hc : (chunk m j).length = 7 := by rw [length_chunk]; omega
  have hoff : b.rx.off = 6 + 7 * j := h.off
  have hmore : ¬b.rx.len ≤ b.rx.off + 7 := by rw [h.len, hoff]; omega
  by_cases hb : b.BlockDone
  · simp only [Link.rxAfterCf, Link.fcAfterCf, hc, if_neg hmore, if_pos hb, true_and]
  · simp only [Link.rxAfterCf, Link.fcAfterCf, hc, if_neg hmore, if_neg hb, true_and]

/-- The last ConsecutiveFrame completes the message. -/
theorem RxAt.last {b : Link} {m : List UInt8} {j : ℕ} (h : RxAt b.rx m j)
    (hm : m.length ≤ 6 + 7 * (j + 1)) (now : UInt32) :
    b.fcAfterCf (chunk m j) = none ∧ (b.rxAfterCf (chunk m j) now).complete = true ∧
      (b.rxAfterCf (chunk m j) now).buf.read 0 (b.rxAfterCf (chunk m j) now).len = m := by
  have hoff : b.rx.off = 6 + 7 * j := h.off
  have hc := length_chunk m j
  have hlt : 6 + 7 * j < m.length := hoff ▸ h.lt
  have hread := Mem.read_copy_append b.rx.buf b.rx.off (chunk m j)
  rw [h.buf, hoff, take_append_chunk, List.take_of_length_le (by omega)] at hread
  have hfull : b.rx.len ≤ b.rx.off + (chunk m j).length := by rw [h.len, hoff, hc]; omega
  have hlen : 6 + 7 * j + (chunk m j).length = m.length := by omega
  rw [hlen, ← hoff, ← h.len] at hread
  have hrx : b.rxAfterCf (chunk m j) now = { b.rx with
      buf := b.rx.buf.copy b.rx.off (chunk m j), off := b.rx.off + (chunk m j).length
      sn := (b.rx.sn + 1) % 16, blockCf := (b.rx.blockCf + 1) % 256, timer := now
      result := .ok, complete := true, phase := .idle } := if_pos hfull
  rw [hrx]
  exact ⟨if_pos hfull, rfl, hread⟩

/-- A grant arrives that is awaited. -/
theorem receive_cts {a b : Link} (hba : b.txId = a.rxId) (e : Env) (hp : a.tx.phase = .waitFc) :
    (a.isotpOnCanFrame e b.txId (b.sendFc .cts).data).2 = none ∧
      (a.isotpOnCanFrame e b.txId (b.sendFc .cts).data).1.tx = { a.tx with
        bsLeft := b.cfg.bs.toNat, stmin := b.cfg.stmin, wft := 0, phase := .send
        stTimer := e.now } := by
  have hd := b.txFrame_dlc (pciByte 3 Fs.cts.code) (p := [b.cfg.bs, b.cfg.stmin]) (by simp)
  obtain ⟨k, hk, -⟩ := b.txFrame_data [pciByte 3 Fs.cts.code, b.cfg.bs, b.cfg.stmin]
  have hcts : Link.ctsOf (b.sendFc .cts).data = some (b.cfg.bs, b.cfg.stmin) := by
    rw [Link.sendFc, hk, Link.ctsOf, if_pos (by rw [List.cons_append, List.getD_cons_zero]; decide)]
    simp
  have hfc : a.IsFc (b.sendFc .cts).data b.txId :=
    ⟨by rw [Link.sendFc]; omega, addressed_of_rxId hba,
      by rw [Link.sendFc, Link.txFrame_head, pciType_pciByte _ (by omega)]⟩
  rw [a.isotpOnCanFrame_fc e _ hfc]
  refine ⟨rfl, ?_⟩
  rcases a.handleFc_cases e (b.sendFc .cts).data with ⟨hn, -⟩ | ⟨-, bs, st, hc, ht⟩ | ⟨-, hc, -⟩ |
    ⟨-, hc, -⟩
  · exact absurd hp hn
  · rw [hcts] at hc
    obtain ⟨rfl, rfl⟩ := Prod.mk.inj (Option.some.inj hc)
    exact ht
  · rw [hcts] at hc; cases hc
  · rw [hcts] at hc; cases hc

/-! ### What it completes -/

theorem completes_sf {a b : Link} (hab : a.txId = b.rxId) (e : Env) {m : List UInt8}
    (h0 : 0 < m.length) (h7 : m.length ≤ sfMaxData) :
    b.completes e (a.txFrame (pciByte 0 m.length :: m)) = some m := by
  obtain ⟨rx, hr, -, hc, hm⟩ :=
    receive_sf (b := b.collected) hab e h0 h7
  have hid : (a.txFrame (pciByte 0 m.length :: m)).id = a.txId := rfl
  rw [Link.completes, hid, hr]
  dsimp only
  rw [if_pos hc, hm]

theorem completes_ff {a b : Link} (hab : a.txId = b.rxId) (e : Env) {m : List UInt8}
    (h7 : sfMaxData < m.length) (hle : m.length ≤ isotpMaxMsg) :
    b.completes e (a.ffFrame m) = none := by
  obtain ⟨hr, -⟩ := receive_ff (b := b.collected) hab e h7 hle
  have hid : (a.ffFrame m).id = a.txId := rfl
  rw [Link.completes, hid, hr]
  exact if_neg Bool.false_ne_true

/-- A ConsecutiveFrame completes the message if it is the last one, and nothing otherwise. -/
theorem completes_cf {a b : Link} (hab : a.txId = b.rxId) (e : Env) {m : List UInt8} {j : ℕ}
    (h : RxAt b.rx m j) :
    b.completes e (a.cfFrame m j) = if m.length ≤ 6 + 7 * (j + 1) then some m else none := by
  have h' : RxAt b.collected.rx m j :=
    ⟨h.phase, h.len, h.off, h.sn, h.buf, h.lt, h.le⟩
  have hr := receive_cf (b := b.collected) hab e h'
  have hid : (a.cfFrame m j).id = a.txId := rfl
  rw [Link.completes, hid, hr]
  dsimp only
  by_cases hm : m.length ≤ 6 + 7 * (j + 1)
  · obtain ⟨-, hc, hout⟩ := h'.last hm e.now
    rw [if_pos hm, if_pos hc, hout]
  · obtain ⟨-, -, hc⟩ := h'.blockCf_next (Nat.lt_of_not_le hm) e.now
    rw [if_neg hm, hc]
    exact if_neg Bool.false_ne_true

/-! ### The stages of a transfer -/

/-- ConsecutiveFrames `j` to `j + k - 1`. -/
def Link.flight (l : Link) (m : List UInt8) (j k : ℕ) : List CanFrame :=
  (List.range' j k).map (l.cfFrame m)

theorem Link.flight_succ (l : Link) (m : List UInt8) (j k : ℕ) :
    l.flight m j (k + 1) = l.cfFrame m j :: l.flight m (j + 1) k := by
  simp [flight, List.range'_succ]

theorem Link.flight_concat (l : Link) (m : List UInt8) (j k : ℕ) :
    l.flight m j (k + 1) = l.flight m j k ++ [l.cfFrame m (j + k)] := by
  simp [flight, List.range'_concat]

@[simp] theorem Link.length_flight (l : Link) (m : List UInt8) (j k : ℕ) :
    (l.flight m j k).length = k := by
  simp [flight]

/-- The stages of the transfer of `m`, by the sides that take part in it, the frames in flight and
the messages completed; `a₀` and `b₀` have the addresses and configurations. -/
inductive Stage (a₀ b₀ : Link) (m : List UInt8) (t : TxSide) (r : RxSide)
    (ab ba : List CanFrame) (done : List (List UInt8)) : Prop where
  /-- The SingleFrame is in flight. -/
  | single (h0 : 0 < m.length) (h7 : m.length ≤ sfMaxData) (hp : t.phase = .idle)
      (hab : ab = [a₀.txFrame (pciByte 0 m.length :: m)]) (hba : ba = []) (hd : done = [])
  /-- The FirstFrame is in flight. -/
  | first (h7 : sfMaxData < m.length) (hle : m.length ≤ isotpMaxMsg) (hp : t.phase = .waitFc)
      (ht : TxAt t m 0) (hab : ab = [a₀.ffFrame m]) (hba : ba = []) (hd : done = [])
  /-- A grant is in flight. -/
  | granted (j : ℕ) (hp : t.phase = .waitFc) (ht : TxAt t m j) (hr : RxAt r m j)
      (hbs : b₀.cfg.bs ≠ 0 → r.blockCf = 0) (hab : ab = [])
      (hba : ba = [b₀.sendFc .cts]) (hd : done = [])
  /-- `a` is sending under a grant. -/
  | sending (j k : ℕ) (hp : t.phase = .send) (ht : TxAt t m (j + k))
      (hst : t.stmin = b₀.cfg.stmin) (hr : RxAt r m j)
      (hbs : b₀.cfg.bs ≠ 0 →
        0 < t.bsLeft ∧ r.blockCf + k + t.bsLeft = b₀.cfg.bs.toNat)
      (hbs0 : b₀.cfg.bs = 0 → t.bsLeft = 0) (hab : ab = a₀.flight m j k) (hba : ba = [])
      (hd : done = [])
  /-- `a` has used up its grant, and the last frames of the block are in flight. -/
  | blocked (j k : ℕ) (hp : t.phase = .waitFc) (ht : TxAt t m (j + k))
      (hr : RxAt r m j) (hbs : b₀.cfg.bs ≠ 0) (hk : 0 < k)
      (hblock : r.blockCf + k = b₀.cfg.bs.toNat) (hab : ab = a₀.flight m j k)
      (hba : ba = []) (hd : done = [])
  /-- `a` has sent everything, and the last frames are in flight. -/
  | sent (j k : ℕ) (hp : t.phase = .idle) (hr : RxAt r m j) (hk : 0 < k)
      (hlt : 6 + 7 * (j + k) < m.length + 7) (hle : m.length ≤ 6 + 7 * (j + k))
      (hbs : b₀.cfg.bs ≠ 0 → r.blockCf + k ≤ b₀.cfg.bs.toNat)
      (hab : ab = a₀.flight m j k) (hba : ba = []) (hd : done = [])
  /-- `b` has completed the message. -/
  | finished (hp : t.phase = .idle) (hab : ab = []) (hba : ba = []) (hd : done = [m])

/-- What holds of the pair between steps. -/
structure PairInv (a₀ b₀ : Link) (m : List UInt8) (p : Pair) : Prop where
  configA : a₀.SameConfig p.a
  configB : b₀.SameConfig p.b
  txB : p.b.tx.phase = .idle
  stage : Stage a₀ b₀ m p.a.tx p.b.rx p.ab p.ba p.done

/-! ### Progress -/

section Work

variable {p : Pair}

theorem Pair.work_idle (hp : p.a.tx.phase = .idle) :
    p.work = 2 * p.ab.length + p.ba.length := by
  rw [work, if_pos hp, Nat.mul_zero, Nat.zero_add]

theorem Pair.work_active {m : List UInt8} {i : ℕ} (hp : p.a.tx.phase ≠ .idle)
    (ht : TxAt p.a.tx m i) :
    p.work = 3 * ((m.length - 7 * i) / 7) + 2 * p.ab.length + p.ba.length := by
  have hoff : p.a.tx.off = 6 + 7 * i := ht.off
  have hlt := ht.lt
  rw [work, if_neg hp, ht.len]
  omega

end Work

/-! ### The steps -/

namespace PairInv

variable {a₀ b₀ : Link} {m : List UInt8} {p p' : Pair}

/-- A poll of `b` does nothing: it sends nothing of its own and N_Cr has not expired. -/
theorem poll_b (hi : PairInv a₀ b₀ m p) {e : Env}
    (ht : ¬(p.b.rx.phase = .recv ∧ p.b.cfg.nCrMs ≤ elapsed e.now p.b.rx.timer)) :
    p.b.isotpPoll e = (p.b, none) := by
  simp [Link.isotpPoll, Link.pollTx, Link.pollRx, hi.txB, if_neg ht]

/-- The ConsecutiveFrame that a poll of `a` sends. -/
theorem cfFrame_of_txAt (hi : PairInv a₀ b₀ m p) {i : ℕ} (ht : TxAt p.a.tx m i) :
    p.a.txFrame (pciByte 2 p.a.tx.sn :: p.a.nextCf) = a₀.cfFrame m i := by
  rw [hi.configA.txFrame, ht.nextCf_eq, ht.sn, ht.off]
  rfl

theorem step_pollB (hi : PairInv a₀ b₀ m p) {now : UInt32} (ht : p.NoTimeout (.pollB now))
    (hst : p.step (.pollB now) = some p') : p' = p := by
  have hb := hi.poll_b (e := ⟨now, true⟩) ht
  simp only [Pair.step, hb, Option.toList_none, List.append_nil] at hst
  exact (Option.some.inj hst).symm

/-- A poll of `a` leaves the pair at its stage, or sends the next ConsecutiveFrame. -/
theorem step_pollA (hi : PairInv a₀ b₀ m p) {now : UInt32} (ht : p.NoTimeout (.pollA now))
    (hst : p.step (.pollA now) = some p') :
    PairInv a₀ b₀ m p' ∧ p'.work + (if p.Works (.pollA now) then 1 else 0) ≤ p.work := by
  obtain rfl := Option.some.inj hst
  have hc := hi.configA.trans (p.a.step_sameConfig (.poll ⟨now, true⟩))
  have hrange : p.a.tx.phase = .send → p.a.tx.off < p.a.tx.len ∧ p.a.tx.len ≤ isotpMaxMsg := by
    intro hp
    cases hi.stage with
    | sending j k _ ht => exact ⟨ht.len ▸ ht.lt, ht.len ▸ ht.le⟩
    | single _ _ hp' | first _ _ hp' | granted _ hp' | blocked _ _ hp' | sent _ _ hp'
    | finished hp' => rw [hp] at hp'; cases hp'
  rcases p.a.isotpPoll_cases ⟨now, true⟩ hrange with ⟨htx, hf, -, -⟩ | ⟨hp, hexp, -, -⟩ |
    ⟨hp, hd, hf, hcase⟩
  · -- nothing is due
    have hw : ¬p.Works (.pollA now) := fun h => h hf
    rw [if_neg hw]
    refine ⟨⟨hc, hi.configB, hi.txB, ?_⟩, ?_⟩
    · dsimp only
      rw [htx, hf, Option.toList_none, List.append_nil]
      exact hi.stage
    · simp [Pair.work, htx, hf]
  · exact absurd ⟨hp, hexp⟩ ht
  · -- a ConsecutiveFrame goes out, so `a` was sending
    have hw : p.Works (.pollA now) := by simp [Pair.Works, hf]
    rw [if_pos hw]
    cases hi.stage with
    | single _ _ hp' | first _ _ hp' | granted _ hp' | blocked _ _ hp' | sent _ _ hp'
    | finished hp' => rw [hp] at hp'; cases hp'
    | sending j k _ ht hst hr hbs hbs0 hab hba hdone =>
      have hoff : p.a.tx.off = 6 + 7 * (j + k) := ht.off
      have hlt := ht.lt
      rw [hi.cfFrame_of_txAt ht] at hf
      -- the frames in flight grow by the next one
      have hab' : p.ab ++ (p.a.isotpPoll ⟨now, true⟩).2.toList = a₀.flight m j (k + 1) := by
        rw [hf, hab, Link.flight_concat]; rfl
      rcases hcase with ⟨he, -⟩ | ⟨-, hl, hp'⟩ | ⟨-, hl, htx⟩
      · cases he
      · -- the last one
        rw [ht.len, hoff] at hl
        refine ⟨⟨hc, hi.configB, hi.txB, ?_⟩, ?_⟩
        · dsimp only
          exact .sent j (k + 1) hp' hr (by omega) (by omega) (by simp only [cfMaxData] at hl; omega)
            (fun h => by have := hbs h; omega) hab' hba hdone
        · rw [Pair.work_idle hp', p.work_active (by simp [hp]) ht, hab', hab]
          simp only [Link.length_flight]
          omega
      · rw [ht.len, hoff] at hl
        have ht' : TxAt (p.a.isotpPoll ⟨now, true⟩).1.tx m (j + (k + 1)) := by
          rw [htx]; exact ht.next (by rw [ht.len, hoff]; exact hl) now
        have hp' : (p.a.isotpPoll ⟨now, true⟩).1.tx.phase =
            if p.a.tx.bsLeft = 1 then .waitFc else .send := by rw [htx]; rfl
        have hbl : (p.a.isotpPoll ⟨now, true⟩).1.tx.bsLeft = p.a.tx.bsLeft - 1 := by rw [htx]; rfl
        refine ⟨⟨hc, hi.configB, hi.txB, ?_⟩, ?_⟩
        · dsimp only
          by_cases h1 : p.a.tx.bsLeft = 1
          · -- the block is used up
            rw [if_pos h1] at hp'
            have h0 : b₀.cfg.bs ≠ 0 := fun h => by rw [hbs0 h] at h1; cases h1
            exact .blocked j (k + 1) hp' ht' hr h0 (by omega) (by have := hbs h0; omega) hab' hba
              hdone
          · rw [if_neg h1] at hp'
            exact .sending j (k + 1) hp' ht' (by rw [htx]; exact hst) hr
              (fun h => by have := hbs h; omega) (fun h => by have := hbs0 h; omega) hab' hba hdone
        · rw [Pair.work_active (by simp only [hp']; split <;> simp) ht',
            p.work_active (by simp [hp]) ht, hab', hab]
          simp only [Link.length_flight, cfMaxData] at hl ⊢
          omega

/-- A delivery to `a` is that of a grant. -/
theorem step_deliverA (hi : PairInv a₀ b₀ m p) (hab : Connected a₀ b₀) {now : UInt32}
    (hst : p.step (.deliverA now) = some p') :
    PairInv a₀ b₀ m p' ∧ p'.work + (if p.Works (.deliverA now) then 1 else 0) ≤ p.work := by
  have hw : p.Works (.deliverA now) := trivial
  rw [if_pos hw]
  cases hi.stage with
  | granted j hp ht hr hbs hab' hba hd =>
    have hc := hi.configA.trans
      (p.a.step_sameConfig (.frame ⟨now, true⟩ b₀.txId (b₀.sendFc .cts).data))
    obtain ⟨hf, htx⟩ := receive_cts (b := b₀) (hab.ba.trans hi.configA.rxId.symm) ⟨now, true⟩ hp
    have hid : (b₀.sendFc .cts).id = b₀.txId := rfl
    rw [Link.step] at hc
    rcases hr' : p.a.isotpOnCanFrame ⟨now, true⟩ b₀.txId (b₀.sendFc .cts).data with ⟨l, f⟩
    rw [hr'] at hc hf htx
    simp only [Pair.step, hba, hid, hr'] at hst
    obtain rfl := Option.some.inj hst
    dsimp only at hc hf htx
    -- the grant moves `a` to the phase of sending, and to no other position
    have ht' : TxAt l.tx m j := ht.congr (by rw [htx]) (by rw [htx]) (by rw [htx]) (by rw [htx])
    have hp' : l.tx.phase = .send := by rw [htx]
    have hbl : l.tx.bsLeft = b₀.cfg.bs.toNat := by rw [htx]
    refine ⟨⟨hc, hi.configB, hi.txB, .sending j 0 hp' ht' (by rw [htx]) hr (fun h => ?_)
      (fun h => by rw [hbl, h]; rfl) (by simp [hab', hf, Link.flight]) rfl hd⟩, ?_⟩
    · have h0 : b₀.cfg.bs.toNat ≠ 0 := fun h' => h (UInt8.toNat_inj.1 h')
      have := hbs h
      dsimp only
      omega
    · rw [Pair.work_active (by simp [hp']) ht', p.work_active (by simp [hp]) ht, hab', hba, hf]
      simp
  | single _ _ _ _ hba | first _ _ _ _ _ hba | sending _ _ _ _ _ _ _ _ _ hba
  | blocked _ _ _ _ _ _ _ _ _ hba | sent _ _ _ _ _ _ _ _ _ hba | finished _ _ hba =>
    simp [Pair.step, hba] at hst

/-- A delivery to `b`, in terms of what `b` does with the frame. -/
theorem deliverB_eq {now : UInt32} (hst : p.step (.deliverB now) = some p') :
    ∃ f ab, p.ab = f :: ab ∧ p' = { p with
      b := (p.b.isotpOnCanFrame ⟨now, true⟩ f.id f.data).1
      ab := ab
      ba := p.ba ++ (p.b.isotpOnCanFrame ⟨now, true⟩ f.id f.data).2.toList
      done := p.done ++ (p.b.completes ⟨now, true⟩ f).toList } := by
  rcases hab : p.ab with _ | ⟨f, ab⟩
  · simp [Pair.step, hab] at hst
  · simp only [Pair.step, hab] at hst
    exact ⟨f, ab, rfl, (Option.some.inj hst).symm⟩

/-- The delivery of a ConsecutiveFrame: the last one completes the message, another one moves `b`
on and, at the end of a block, makes it send a grant. -/
theorem deliverB_cf (hi : PairInv a₀ b₀ m p) (hab : Connected a₀ b₀) {j k : ℕ}
    (hr : RxAt p.b.rx m j) (hf : p.ab = a₀.flight m j (k + 1)) (hba : p.ba = [])
    (hd : p.done = []) {now : UInt32} (hst : p.step (.deliverB now) = some p') :
    a₀.SameConfig p'.a ∧ b₀.SameConfig p'.b ∧ p'.b.tx.phase = .idle ∧ p'.a = p.a ∧
      p'.ab = a₀.flight m (j + 1) k ∧ p'.work + 1 ≤ p.work ∧
      ((m.length ≤ 6 + 7 * (j + 1) ∧ p'.ba = [] ∧ p'.done = [m]) ∨
        (6 + 7 * (j + 1) < m.length ∧ p'.done = [] ∧ RxAt p'.b.rx m (j + 1) ∧
          p'.b.rx.blockCf = (if p.b.BlockDone then 0 else (p.b.rx.blockCf + 1) % 256) ∧
          p'.ba = if p.b.BlockDone then [b₀.sendFc .cts] else [])) := by
  obtain ⟨f, ab, hf', rfl⟩ := deliverB_eq hst
  rw [hf, Link.flight_succ] at hf'
  obtain ⟨rfl, rfl⟩ := List.cons.inj hf'
  have hid : (a₀.cfFrame m j).id = a₀.txId := rfl
  have hab' : a₀.txId = p.b.rxId := hab.ab.trans hi.configB.rxId.symm
  have hcf := receive_cf hab' ⟨now, true⟩ hr
  have hc := completes_cf hab' ⟨now, true⟩ hr
  rw [hid, hcf, hc, hba, hd]
  have hle : (p.b.fcAfterCf (chunk m j)).toList.length ≤ 1 := Option.length_toList_le
  refine ⟨hi.configA, ⟨hi.configB.txId, hi.configB.rxId, hi.configB.funcId, hi.configB.cfg⟩,
    hi.txB, rfl, rfl, ?_, ?_⟩
  · simp only [Pair.work, hf, hba, Link.length_flight, List.nil_append, List.length_nil]
    omega
  -- whether the frame is the last one decides between completion and progress
  by_cases hm : m.length ≤ 6 + 7 * (j + 1)
  · obtain ⟨hfc, -⟩ := hr.last hm now
    exact .inl ⟨hm, by simp [hfc], by simp [hm]⟩
  · obtain ⟨hbl, hfc, -⟩ := hr.blockCf_next (Nat.lt_of_not_le hm) now
    refine .inr ⟨Nat.lt_of_not_le hm, by simp [hm], hr.next (Nat.lt_of_not_le hm) now, hbl, ?_⟩
    rw [hfc, hi.configB.sendFc]
    split <;> rfl

/-- A delivery to `b` moves the pair on to the next stage. -/
theorem step_deliverB (hi : PairInv a₀ b₀ m p) (hab : Connected a₀ b₀) {now : UInt32}
    (hst : p.step (.deliverB now) = some p') :
    PairInv a₀ b₀ m p' ∧ p'.work + (if p.Works (.deliverB now) then 1 else 0) ≤ p.work := by
  have hw : p.Works (.deliverB now) := trivial
  have hab' : a₀.txId = p.b.rxId := hab.ab.trans hi.configB.rxId.symm
  rw [if_pos hw]
  cases hi.stage with
  | single h0 h7 hp hf hba hd =>
    obtain ⟨f, ab, hf', rfl⟩ := deliverB_eq hst
    obtain ⟨rfl, rfl⟩ := List.cons.inj (hf.symm.trans hf')
    have hid : (a₀.txFrame (pciByte 0 m.length :: m)).id = a₀.txId := rfl
    obtain ⟨rx, hr, -⟩ := receive_sf hab' ⟨now, true⟩ h0 h7
    rw [hid, hr, completes_sf hab' ⟨now, true⟩ h0 h7, hba, hd]
    refine ⟨⟨hi.configA, ⟨hi.configB.txId, hi.configB.rxId, hi.configB.funcId, hi.configB.cfg⟩,
      hi.txB, .finished hp rfl rfl rfl⟩, ?_⟩
    simp [Pair.work, hf]; omega
  | first h7 hle hp ht hf hba hd =>
    obtain ⟨f, ab, hf', rfl⟩ := deliverB_eq hst
    obtain ⟨rfl, rfl⟩ := List.cons.inj (hf.symm.trans hf')
    have hid : (a₀.ffFrame m).id = a₀.txId := rfl
    obtain ⟨hr, hrx⟩ := receive_ff hab' ⟨now, true⟩ h7 hle
    rw [hid, hr, completes_ff hab' ⟨now, true⟩ h7 hle, hba, hd, hi.configB.sendFc]
    refine ⟨⟨hi.configA, ⟨hi.configB.txId, hi.configB.rxId, hi.configB.funcId, hi.configB.cfg⟩,
      hi.txB, .granted 0 hp ht hrx (fun _ => rfl) rfl rfl rfl⟩, ?_⟩
    simp [Pair.work, hf]
  | granted _ _ _ _ _ hf => simp [Pair.step, hf] at hst
  | sending j k hp ht hstm hr hbs hbs0 hf hba hd =>
    rcases k with _ | k
    · simp [Pair.step, hf, Link.flight] at hst
    obtain ⟨hcA, hcB, htx, ha, hf', hwork, ⟨hm, -⟩ | ⟨-, hd', hr', hbl, hba'⟩⟩ :=
      hi.deliverB_cf hab hr hf hba hd hst
    · have hlt : 6 + 7 * (j + (k + 1)) < m.length := ht.off ▸ ht.lt
      omega
    -- the block goes on, for `a` has yet to send one of its frames
    have hnb : ¬p.b.BlockDone := by
      rintro ⟨h0, hle⟩
      have := hbs (hi.configB.cfg ▸ h0)
      have hlt := b₀.cfg.bs.toNat_lt
      rw [hi.configB.cfg] at hle
      omega
    rw [if_neg hnb] at hbl hba'
    rw [ha.symm] at hp ht hstm
    have hk : j + (k + 1) = j + 1 + k := by omega
    refine ⟨⟨hcA, hcB, htx, .sending (j + 1) k hp (hk ▸ ht) hstm hr' (fun h => ?_)
      (by rw [ha]; exact hbs0) hf' hba' hd'⟩, hwork⟩
    have := hbs h
    have hlt := b₀.cfg.bs.toNat_lt
    rw [ha]
    omega
  | blocked j k hp ht hr hbs hk hblock hf hba hd =>
    obtain ⟨k, rfl⟩ : ∃ k', k = k' + 1 := ⟨k - 1, by omega⟩
    obtain ⟨hcA, hcB, htx, ha, hf', hwork, ⟨hm, -⟩ | ⟨-, hd', hr', hbl, hba'⟩⟩ :=
      hi.deliverB_cf hab hr hf hba hd hst
    · have hlt : 6 + 7 * (j + (k + 1)) < m.length := ht.off ▸ ht.lt
      omega
    have hlt := b₀.cfg.bs.toNat_lt
    rw [ha.symm] at hp ht
    by_cases h0 : k = 0
    · -- the last frame of the block
      subst h0
      have hb : p.b.BlockDone := by
        rw [Link.BlockDone, hi.configB.cfg]
        exact ⟨hbs, by omega⟩
      rw [if_pos hb] at hbl hba'
      exact ⟨⟨hcA, hcB, htx, .granted (j + 1) hp ht hr' (fun _ => hbl) hf' hba' hd'⟩, hwork⟩
    · have hnb : ¬p.b.BlockDone := by
        rw [Link.BlockDone, hi.configB.cfg]
        omega
      rw [if_neg hnb] at hbl hba'
      have hk : j + (k + 1) = j + 1 + k := by omega
      exact ⟨⟨hcA, hcB, htx, .blocked (j + 1) k hp (hk ▸ ht) hr' hbs (by omega) (by omega) hf'
        hba' hd'⟩, hwork⟩
  | sent j k hp hr hk hlt hle hbs hf hba hd =>
    obtain ⟨k, rfl⟩ : ∃ k', k = k' + 1 := ⟨k - 1, by omega⟩
    obtain ⟨hcA, hcB, htx, ha, hf', hwork, ⟨hm, hba', hd'⟩ | ⟨hm, hd', hr', hbl, hba'⟩⟩ :=
      hi.deliverB_cf hab hr hf hba hd hst
    · -- the last frame of the message
      obtain rfl : k = 0 := by omega
      rw [ha.symm] at hp
      exact ⟨⟨hcA, hcB, htx, .finished hp hf' hba' hd'⟩, hwork⟩
    · have hnb : ¬p.b.BlockDone := by
        rintro ⟨h0, hle'⟩
        have := hbs (hi.configB.cfg ▸ h0)
        have hlt := b₀.cfg.bs.toNat_lt
        rw [hi.configB.cfg] at hle'
        omega
      rw [if_neg hnb] at hbl hba'
      rw [ha.symm] at hp
      refine ⟨⟨hcA, hcB, htx, .sent (j + 1) k hp hr' (by omega) (by omega) (by omega) (fun h => ?_)
        hf' hba' hd'⟩, hwork⟩
      have := hbs h
      omega
  | finished _ hf => simp [Pair.step, hf] at hst

theorem step (hi : PairInv a₀ b₀ m p) (hab : Connected a₀ b₀) {s : PairStep}
    (ht : p.NoTimeout s) (hst : p.step s = some p') :
    PairInv a₀ b₀ m p' ∧ p'.work + (if p.Works s then 1 else 0) ≤ p.work := by
  cases s with
  | pollA now => exact hi.step_pollA ht hst
  | pollB now =>
    obtain rfl := hi.step_pollB ht hst
    have hw : ¬p'.Works (.pollB now) := id
    rw [if_neg hw]
    exact ⟨hi, le_rfl⟩
  | deliverA now => exact hi.step_deliverA hab hst
  | deliverB now => exact hi.step_deliverB hab hst

/-- An accepted message begins a transfer. -/
theorem of_start {a b : Link} (ha : a.Idle) (hb : b.Idle) (h0 : 0 < m.length)
    (hle : m.length ≤ isotpMaxMsg) {e : Env} (he : e.canTx = true) :
    PairInv a b m (.start a b m e) := by
  refine ⟨a.step_sameConfig (.send e m), .refl b, hb.tx, ?_⟩
  rcases a.isotpSend_cases e m with ⟨hno, -⟩ | ⟨-, -, h7, -, hp, hf⟩ | ⟨-, h7, -, -, htx, hf⟩
  · rcases hno with hp | h | h
    · exact absurd ha.tx hp
    · omega
    · omega
  · exact .single h0 h7 hp (by simp [Pair.start, hf]) rfl rfl
  · rcases htx with ⟨-, htx⟩ | ⟨hno, -⟩
    · refine .first h7 hle ?_ ?_ (by simp [Pair.start, hf, Link.ffFrame]) rfl rfl
      · simp only [Pair.start, htx]; rfl
      · simp only [Pair.start, htx]; exact .started h7 hle e.now
    · rw [he] at hno; cases hno

/-- The stage at the end says what `b` has completed, and what is left to do if it has not. -/
theorem no_deadlock (hi : PairInv a₀ b₀ m p) (hd : p.done = []) :
    p.ab ≠ [] ∨ p.ba ≠ [] ∨ (p.a.tx.phase = .send ∧ ∃ i, p.a.tx.off = 6 + 7 * i ∧
      ∀ now, stminToMs b₀.cfg.stmin ≤ elapsed now p.a.tx.stTimer →
        (p.a.isotpPoll ⟨now, true⟩).2 = some (a₀.cfFrame m i)) := by
  cases hi.stage with
  | single _ _ _ hab | first _ _ _ _ hab => exact .inl (by simp [hab])
  | granted _ _ _ _ _ _ hba => exact .inr (.inl (by simp [hba]))
  | sending j k hp ht hst =>
    refine .inr (.inr ⟨hp, j + k, ht.off, fun now hd => ?_⟩)
    rw [p.a.isotpPoll_frame, (p.a.pollTx_cf ⟨now, true⟩ hp (by rw [hst]; exact hd)
      (ht.len ▸ ht.lt) (ht.len ▸ ht.le)).1, hi.cfFrame_of_txAt ht]
  | blocked j k _ _ _ _ hk _ hab | sent j k _ _ hk _ _ _ hab =>
    refine .inl fun h => ?_
    have hlen : (a₀.flight m j k).length = 0 := by rw [← hab, h]; rfl
    rw [Link.length_flight] at hlen
    omega
  | finished _ _ _ hm => rw [hd] at hm; cases hm

end PairInv

/-! ### Runs -/

/-- **The message arrives, once, and nothing else does.**  In every run of two idle links through
lossless channels in which neither N_Bs nor N_Cr expires, after `a` has accepted `m`: `b` has
completed nothing or `m`, once; while it has not, a frame is in flight, or `a` is sending and
every poll after the separation time sends the next ConsecutiveFrame; and no more steps deliver or
send a frame than there was work at the start, so that the transfer cannot go on for ever. -/
theorem pair_delivers {a b : Link} (hab : Connected a b) (ha : a.Idle) (hb : b.Idle)
    {m : List UInt8} (h0 : 0 < m.length) (hle : m.length ≤ isotpMaxMsg) {e : Env}
    (he : e.canTx = true) {steps : List PairStep} {p : Pair} {n : ℕ}
    (hrun : ((pairSystem.guard Pair.NoTimeout).withAux Pair.countWork).Run (.start a b m e, 0)
      steps (p, n)) :
    (p.done = [] ∨ p.done = [m]) ∧
      (p.done = [] → p.ab ≠ [] ∨ p.ba ≠ [] ∨ (p.a.tx.phase = .send ∧
        ∃ i, p.a.tx.off = 6 + 7 * i ∧
          ∀ now, stminToMs b.cfg.stmin ≤ elapsed now p.a.tx.stTimer →
            (p.a.isotpPoll ⟨now, true⟩).2 = some (a.cfFrame m i))) ∧
      n ≤ (Pair.start a b m e).work := by
  have hi : PairInv a b m p ∧ p.work + n ≤ (Pair.start a b m e).work := by
    refine hrun.invariant
      (I := fun s => PairInv a b m s.1 ∧ s.1.work + s.2 ≤ (Pair.start a b m e).work)
      ⟨.of_start ha hb h0 hle he, le_rfl⟩ ?_
    rintro ⟨p, n⟩ s ⟨p', n'⟩ ⟨hi, hw⟩ ⟨⟨ht, hst⟩, rfl⟩
    obtain ⟨hi', hw'⟩ := hi.step hab ht hst
    refine ⟨hi', ?_⟩
    simp only [Pair.countWork] at hw hw' ⊢
    split at hw' <;> simp_all <;> omega
  obtain ⟨hi, hw⟩ := hi
  have hdone : p.done = [] ∨ p.done = [m] := by
    cases hi.stage with
    | finished _ _ _ hd => exact .inr hd
    | single _ _ _ _ _ hd | first _ _ _ _ _ _ hd | granted _ _ _ _ _ _ _ hd
    | sending _ _ _ _ _ _ _ _ _ _ hd | blocked _ _ _ _ _ _ _ _ _ _ hd
    | sent _ _ _ _ _ _ _ _ _ _ hd => exact .inl hd
  exact ⟨hdone, hi.no_deadlock, by omega⟩

/-- The pair after a FirstFrame, the grant and a ConsecutiveFrame, with polls in between. -/
def tenBytesPair : Option (Pair × ℕ) :=
  System.exec Pair.step Pair.NoTimeout Pair.countWork
    (.start (isotpInit 0x7E0 0x7E8 0x7DF none) testLink [1, 2, 3, 4, 5, 6, 7, 8, 9, 10] ⟨0, true⟩, 0)
    [.pollA 1, .deliverB 2, .pollB 3, .deliverA 4, .pollA 5, .deliverB 6]

theorem pair_delivers_tenBytes :
    tenBytesPair.map (·.1.done) = some [[1, 2, 3, 4, 5, 6, 7, 8, 9, 10]] := by
  rcases h : tenBytesPair with _ | ⟨p, n⟩
  · exact absurd h (by decide +kernel)
  · have hn : p.done ≠ [] := by
      have hne : tenBytesPair.map (·.1.done) ≠ some [] := by decide +kernel
      rw [h] at hne
      exact fun hd => hne (congrArg some hd)
    rw [Option.map_some, (pair_delivers (a := isotpInit 0x7E0 0x7E8 0x7DF none) (b := testLink)
      ⟨rfl, rfl⟩ ⟨rfl, rfl, rfl⟩ ⟨rfl, rfl, rfl⟩ (by simp) (by simp) rfl
      (System.Run.of_exec h)).1.resolve_left hn]

end IsoTp

end Espcan32

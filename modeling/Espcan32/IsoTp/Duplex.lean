import Espcan32.IsoTp.Pair

/-!
# Two links that send to each other

Both links of a pair send and receive, as many messages as they like, at the same time.  The frames
in flight to one end are the ConsecutiveFrames of what the other end sends and the grants for what
it receives, in one first-in first-out channel.

The messages on their way in one direction are a `Flight`: the oldest is at a `Stage` of its
transfer, and the others wait behind its frames.  Behind it all but the newest are SingleFrames,
since a FirstFrame is not followed by anything before it is granted.

* `Link.isotpOnCanFrame_withTx` : the receive side does not look at the send side.
* `Flight.push`, `Flight.poll`, `Flight.grant`, `Flight.deliver` : what becomes of a flight when a
  message is taken, when the sender polls, and when a frame arrives at either end.
* `Link.isotpOnCanFrame_grant`, `Link.isotpOnCanFrame_data` : a frame moves one side.
-/

namespace Espcan32

namespace IsoTp

/-! ### The system -/

/-- One end: its link, the frames in flight to it, the messages that `isotp_send()` has taken, and
those that `isotp_receive()` has returned. -/
structure End where
  link : Link
  inbox : List CanFrame
  sent : List (List UInt8)
  got : List (List UInt8)

/-- A call at one end; a delivery is that of the oldest frame in flight to it. -/
inductive EndStep where
  | send (now : UInt32) (m : List UInt8)
  | poll (now : UInt32)
  | deliver (now : UInt32)
  | receive (outCap : ℕ)

/-- The message that a call makes the link take. -/
def Link.takes (l : Link) : Call → Option (List UInt8)
  | .send e m => if (l.isotpSend e m).2.1 = .ok ∨ (l.isotpSend e m).2.1 = .inprogress then some m
      else none
  | _ => none

/-- The message that a call returns. -/
def Link.returns (l : Link) : Call → Option (List UInt8)
  | .receive outCap =>
    if (l.isotpReceive outCap).2.ret = .ok then some (l.isotpReceive outCap).2.out else none
  | _ => none

/-- The message that waits to be collected. -/
def RxSide.waiting (r : RxSide) : List (List UInt8) :=
  if r.complete then [r.buf.read 0 r.len] else []

namespace End

/-- The call of a step; `can_tx` succeeds in it. -/
def call (n : End) : EndStep → Option Call
  | .send now m => some (.send ⟨now, true⟩ m)
  | .poll now => some (.poll ⟨now, true⟩)
  | .deliver now => n.inbox.head?.map fun f => .frame ⟨now, true⟩ f.id f.data
  | .receive outCap => some (.receive outCap)

/-- The end after a call. -/
def after (n : End) (s : EndStep) (c : Call) : End where
  link := n.link.step c
  inbox := match s with
    | .deliver _ => n.inbox.tail
    | _ => n.inbox
  sent := n.sent ++ (n.link.takes c).toList
  got := n.got ++ (n.link.returns c).toList

/-- No timer of the link expires at a poll, and what has been received is collected before the next
frame is fed. -/
def Timely (n : End) : EndStep → Prop
  | .poll now =>
    ¬(n.link.tx.phase = .waitFc ∧ n.link.cfg.nBsMs ≤ elapsed now n.link.tx.timer) ∧
      ¬(n.link.rx.phase = .recv ∧ n.link.cfg.nCrMs ≤ elapsed now n.link.rx.timer)
  | .deliver _ => n.link.rx.complete = false
  | _ => True

instance (n : End) (s : EndStep) : Decidable (n.Timely s) :=
  match s with
  | .poll _ => inferInstanceAs (Decidable (_ ∧ _))
  | .deliver _ => inferInstanceAs (Decidable (_ = _))
  | .send _ _ | .receive _ => inferInstanceAs (Decidable True)

/-- The step delivers a frame or sends a ConsecutiveFrame. -/
def Works (n : End) : EndStep → Prop
  | .poll now => n.link.handed (.poll ⟨now, true⟩) ≠ none
  | .deliver _ => True
  | _ => False

instance (n : End) (s : EndStep) : Decidable (n.Works s) :=
  match s with
  | .poll _ => inferInstanceAs (Decidable (_ ≠ _))
  | .deliver _ => inferInstanceAs (Decidable True)
  | .send _ _ | .receive _ => inferInstanceAs (Decidable False)

end End

/-- Two ends. -/
structure Duplex where
  left : End
  right : End

/-- The end at which a step takes place. -/
inductive Place where
  | left
  | right

namespace Duplex

/-- The two ends change places. -/
def swap (d : Duplex) : Duplex := ⟨d.right, d.left⟩

/-- A step of the left end: what it hands to `can_tx` is in flight to the right one. -/
def stepLeft (d : Duplex) (s : EndStep) : Option Duplex :=
  (d.left.call s).map fun c => ⟨d.left.after s c,
    { d.right with inbox := d.right.inbox ++ (d.left.link.handed c).toList }⟩

/-- A step of either end. -/
def step (d : Duplex) : Place × EndStep → Option Duplex
  | (.left, s) => d.stepLeft s
  | (.right, s) => (d.swap.stepLeft s).map swap

/-- The end of a step. -/
def endAt (d : Duplex) : Place → End
  | .left => d.left
  | .right => d.right

/-- No timer expires, and messages are collected in time. -/
def Timely (d : Duplex) (s : Place × EndStep) : Prop := (d.endAt s.1).Timely s.2

instance (d : Duplex) (s : Place × EndStep) : Decidable (d.Timely s) :=
  inferInstanceAs (Decidable ((d.endAt s.1).Timely s.2))

/-- Count the steps that deliver or send a frame. -/
def countWork (d : Duplex) (s : Place × EndStep) (n : ℕ) : ℕ :=
  if (d.endAt s.1).Works s.2 then n + 1 else n

/-- Two ends between which nothing has been sent. -/
def start (a b : Link) : Duplex := ⟨⟨a, [], [], []⟩, ⟨b, [], [], []⟩⟩

@[simp] theorem swap_left (d : Duplex) : d.swap.left = d.right := rfl

@[simp] theorem swap_right (d : Duplex) : d.swap.right = d.left := rfl

@[simp] theorem swap_swap (d : Duplex) : d.swap.swap = d := rfl

end Duplex

/-- Two ends as a system. -/
def duplexSystem : System Duplex (Place × EndStep) := .ofFun Duplex.step

/-! ### The receive side does not look at the send side -/

namespace Link

/-- The link with another send side. -/
def withTx (l : Link) (t : TxSide) : Link := { l with tx := t }

variable (l : Link) (t : TxSide) (e : Env) (data : List UInt8)

@[simp] theorem withTx_rx : (l.withTx t).rx = l.rx := rfl

@[simp] theorem withTx_tx : (l.withTx t).tx = t := rfl

@[simp] theorem withTx_self : l.withTx l.tx = l := rfl

theorem SameConfig.withTx {l₀ : Link} (h : SameConfig l₀ l) : SameConfig l₀ (l.withTx t) :=
  ⟨h.txId, h.rxId, h.funcId, h.cfg⟩

theorem handleSf_withTx (functional : Bool) :
    (l.withTx t).handleSf data functional = (l.handleSf data functional).withTx t := by
  unfold withTx handleSf
  extract_lets len
  split_ifs <;> rfl

theorem handleFf_withTx :
    (l.withTx t).handleFf e data = ((l.handleFf e data).1.withTx t, (l.handleFf e data).2) := by
  unfold withTx handleFf
  split_ifs <;> rfl

theorem handleCf_withTx :
    (l.withTx t).handleCf e data = ((l.handleCf e data).1.withTx t, (l.handleCf e data).2) := by
  unfold withTx handleCf
  dsimp only
  split_ifs <;> rfl

/-- A frame that is no FlowControl goes to the receive side. -/
theorem isotpOnCanFrame_withTx (id : UInt32) (hfc : pciType (data.getD 0 0) ≠ 3) :
    (l.withTx t).isotpOnCanFrame e id data =
      ((l.isotpOnCanFrame e id data).1.withTx t, (l.isotpOnCanFrame e id data).2) := by
  have haddr : (l.withTx t).addressed id = l.addressed id := rfl
  unfold isotpOnCanFrame
  rw [haddr]
  split
  · rfl
  split
  · rfl
  split
  · rw [handleSf_withTx]
  · rw [handleFf_withTx]
    split <;> rfl
  · rw [handleCf_withTx]
    split <;> rfl
  · rename_i h3
    exact absurd h3 hfc
  · rfl

end Link

/-! ### Messages on their way -/

/-- The frame is FlowControl. -/
def CanFrame.IsGrant (f : CanFrame) : Prop := pciType (f.data.getD 0 0) = 3

instance (f : CanFrame) : Decidable f.IsGrant := inferInstanceAs (Decidable (_ = _))

/-- The frame with which `isotp_send()` begins the message `m`. -/
def Link.startFrame (l : Link) (m : List UInt8) : CanFrame :=
  if m.length ≤ sfMaxData then l.txFrame (pciByte 0 m.length :: m) else l.ffFrame m

/-- The send side with no message under way. -/
def TxSide.quiet (t : TxSide) : TxSide := { t with phase := .idle }

/-- The messages behind the one that is arriving: what is in flight of each is its first frame. -/
inductive Behind (t : TxSide) : List (List UInt8) → Prop
  | short {m : List UInt8} (h0 : 0 < m.length) (h7 : m.length ≤ sfMaxData) (hp : t.phase = .idle) :
      Behind t [m]
  | long {m : List UInt8} (h7 : sfMaxData < m.length) (hle : m.length ≤ isotpMaxMsg)
      (hp : t.phase = .waitFc) (ht : TxAt t m 0) : Behind t [m]
  | cons {m : List UInt8} {q : List (List UInt8)} (h0 : 0 < m.length)
      (h7 : m.length ≤ sfMaxData) (h : Behind t q) : Behind t (m :: q)

/-- The messages on their way in one direction, by the sides that take part in it, the frames with
data and the grants in flight; `a₀` and `b₀` have the addresses and configurations. -/
inductive Flight (a₀ b₀ : Link) (t : TxSide) (r : RxSide) (data fc : List CanFrame) :
    List (List UInt8) → Prop
  | empty (hp : t.phase = .idle) (hdata : data = []) (hfc : fc = []) : Flight a₀ b₀ t r data fc []
  | newest {m : List UInt8} (h : Stage a₀ b₀ m t r data fc []) : Flight a₀ b₀ t r data fc [m]
  | older {m : List UInt8} {q : List (List UInt8)} {cur : List CanFrame}
      (h : Stage a₀ b₀ m t.quiet r cur fc []) (hq : Behind t q)
      (hdata : data = cur ++ q.map a₀.startFrame) : Flight a₀ b₀ t r data fc (m :: q)

/-- Steps left in which a frame of the direction is delivered or sent. -/
def flightWork (t : TxSide) (data fc : List CanFrame) : ℕ :=
  3 * (if t.phase = .idle then 0 else (t.len - t.off + 6) / 7) + 2 * data.length + fc.length

/-- The work that a message is. -/
def messageWork (m : List UInt8) : ℕ := 3 * (m.length / 7) + 2

theorem flightWork_idle {t : TxSide} (hp : t.phase = .idle) (data fc : List CanFrame) :
    flightWork t data fc = 2 * data.length + fc.length := by
  rw [flightWork, if_pos hp, Nat.mul_zero, Nat.zero_add]

/-- A stage at which the send side is idle does not depend on it. -/
theorem Stage.of_idle {a₀ b₀ : Link} {m : List UInt8} {t t' : TxSide} {r : RxSide}
    {ab ba : List CanFrame} {done : List (List UInt8)} (h : Stage a₀ b₀ m t r ab ba done)
    (hp : t.phase = .idle) (hp' : t'.phase = .idle) : Stage a₀ b₀ m t' r ab ba done := by
  cases h with
  | single h0 h7 _ hab hba hd => exact .single h0 h7 hp' hab hba hd
  | sent j k _ hr hk hlt hle hbs hab hba hd => exact .sent j k hp' hr hk hlt hle hbs hab hba hd
  | finished _ hab hba hd => exact .finished hp' hab hba hd
  | first _ _ hp₀ | granted _ hp₀ | sending _ _ hp₀ | blocked _ _ hp₀ => rw [hp] at hp₀; cases hp₀

/-- No stage depends on whether a message waits to be collected. -/
theorem Stage.collect {a₀ b₀ : Link} {m : List UInt8} {t : TxSide} {r : RxSide}
    {ab ba : List CanFrame} {done : List (List UInt8)} (h : Stage a₀ b₀ m t r ab ba done) :
    Stage a₀ b₀ m t { r with complete := false } ab ba done := by
  have hrx {j : ℕ} (hr : RxAt r m j) : RxAt { r with complete := false } m j :=
    ⟨hr.phase, hr.len, hr.off, hr.sn, hr.buf, hr.lt, hr.le⟩
  cases h with
  | single h0 h7 hp hab hba hd => exact .single h0 h7 hp hab hba hd
  | first h7 hle hp ht hab hba hd => exact .first h7 hle hp ht hab hba hd
  | granted j hp ht hr hbs hab hba hd => exact .granted j hp ht (hrx hr) hbs hab hba hd
  | sending j k hp ht hst hr hbs hbs0 hab hba hd =>
    exact .sending j k hp ht hst (hrx hr) hbs hbs0 hab hba hd
  | blocked j k hp ht hr hbs hk hblock hab hba hd =>
    exact .blocked j k hp ht (hrx hr) hbs hk hblock hab hba hd
  | sent j k hp hr hk hlt hle hbs hab hba hd =>
    exact .sent j k hp (hrx hr) hk hlt hle hbs hab hba hd
  | finished hp hab hba hd => exact .finished hp hab hba hd

namespace Behind

variable {t t' : TxSide} {q : List (List UInt8)} {m : List UInt8}

theorem ne_send (h : Behind t q) : t.phase ≠ .send := by
  induction h with
  | short _ _ hp => rw [hp]; simp
  | long _ _ hp => rw [hp]; simp
  | cons _ _ _ ih => exact ih

theorem ne_nil (h : Behind t [m]) : m ≠ [] := by
  rintro rfl
  cases h with
  | short h0 => cases h0
  | long h7 => cases h7
  | cons h0 => cases h0

/-- The newest message goes to the end; the one that was is a SingleFrame. -/
theorem snoc (h : Behind t q) (hp : t.phase = .idle) (hm : Behind t' [m]) :
    Behind t' (q ++ [m]) := by
  induction h with
  | short h0 h7 => exact .cons h0 h7 hm
  | long _ _ hp' => rw [hp] at hp'; cases hp'
  | cons h0 h7 _ ih => exact .cons h0 h7 ih

/-- A message alone on its way is at its first stage. -/
theorem stage {a₀ b₀ : Link} (h : Behind t [m]) (r : RxSide) :
    Stage a₀ b₀ m t r [a₀.startFrame m] [] [] := by
  cases h with
  | short h0 h7 hp => exact .single h0 h7 hp (by rw [Link.startFrame, if_pos h7]) rfl rfl
  | long h7 hle hp ht =>
    exact .first h7 hle hp ht (by rw [Link.startFrame, if_neg (Nat.not_le.2 h7)]) rfl rfl
  | cons _ _ h => cases h

/-- The message that was complete leaves the others on their way. -/
theorem flight {a₀ b₀ : Link} (h : Behind t q) (r : RxSide) :
    Flight a₀ b₀ t r (q.map a₀.startFrame) [] q := by
  cases h with
  | short h0 h7 hp => exact .newest ((Behind.short h0 h7 hp).stage r)
  | long h7 hle hp ht => exact .newest ((Behind.long h7 hle hp ht).stage r)
  | cons h0 h7 h => exact .older ((Behind.short h0 h7 rfl).stage r) h rfl

/-- The work of the newest message, when it has just been taken. -/
theorem work_le (h : Behind t' [m]) (hp : t.phase = .idle) (data fc : List CanFrame)
    (f : CanFrame) : flightWork t' (data ++ [f]) fc ≤ flightWork t data fc + messageWork m := by
  rw [flightWork_idle hp, messageWork]
  cases h with
  | short _ _ hp' =>
    rw [flightWork_idle hp', List.length_append, List.length_singleton]
    omega
  | long h7 _ hp' ht =>
    have hoff : t'.off = 6 := ht.off
    have hlen : t'.len = m.length := ht.len
    have hlt := ht.lt
    rw [flightWork, if_neg (by rw [hp']; simp), hlen, hoff, List.length_append,
      List.length_singleton]
    omega
  | cons _ _ h => cases h

end Behind

namespace Flight

variable {a₀ b₀ a b : Link} {t t' : TxSide} {r : RxSide} {data fc : List CanFrame}
  {pending : List (List UInt8)} {m : List UInt8}

/-- A message has been taken: it is behind all others. -/
theorem push (h : Flight a₀ b₀ t r data fc pending) (hp : t.phase = .idle) (hm : Behind t' [m]) :
    Flight a₀ b₀ t' r (data ++ [a₀.startFrame m]) fc (pending ++ [m]) := by
  cases h with
  | empty _ hdata hfc =>
    rw [hdata, hfc]
    exact .newest (hm.stage r)
  | newest hst => exact .older (hst.of_idle hp rfl) hm rfl
  | @older _ q cur hst hq hdata =>
    have hmap : (q ++ [m]).map a₀.startFrame = q.map a₀.startFrame ++ [a₀.startFrame m] :=
      List.map_append
    refine .older (hst.of_idle rfl rfl) (hq.snoc hp hm) ?_
    rw [hdata, List.append_assoc, ← hmap]
    rfl

/-- The pair in which the newest message is under way. -/
theorem pairInv (ha : a₀.SameConfig a) (hb : b₀.SameConfig b)
    (h : Stage a₀ b₀ m a.tx b.rx data fc []) :
    PairInv a₀ b₀ m ⟨a, b.withTx b.tx.quiet, data, fc, []⟩ := ⟨ha, hb.withTx _ _, rfl, h⟩

/-- A poll of the sender, at which N_Bs does not expire, sends the next ConsecutiveFrame of the
newest message, or nothing. -/
theorem poll (h : Flight a₀ b₀ a.tx b.rx data fc pending) (ha : a₀.SameConfig a)
    (hb : b₀.SameConfig b) {now : UInt32}
    (ht : ¬(a.tx.phase = .waitFc ∧ a.cfg.nBsMs ≤ elapsed now a.tx.timer)) :
    Flight a₀ b₀ (a.isotpPoll ⟨now, true⟩).1.tx b.rx (data ++ (a.isotpPoll ⟨now, true⟩).2.toList) fc
        pending ∧
      flightWork (a.isotpPoll ⟨now, true⟩).1.tx (data ++ (a.isotpPoll ⟨now, true⟩).2.toList) fc +
        (if (a.isotpPoll ⟨now, true⟩).2 ≠ none then 1 else 0) ≤ flightWork a.tx data fc := by
  have hstill (hs : a.tx.phase ≠ .send) :
      (a.isotpPoll ⟨now, true⟩).1.tx = a.tx ∧ (a.isotpPoll ⟨now, true⟩).2 = Option.none := by
    rcases a.isotpPoll_cases ⟨now, true⟩ (fun hs' => absurd hs' hs) with ⟨htx, hf, -⟩ |
      ⟨hp, hexp, -⟩ | ⟨hp, -⟩
    · exact ⟨htx, hf⟩
    · exact absurd ⟨hp, hexp⟩ ht
    · exact absurd hp hs
  cases h with
  | empty hp hdata hfc =>
    obtain ⟨htx, hf⟩ := hstill (by rw [hp]; simp)
    rw [htx, hf, if_neg (by simp), Option.toList_none, List.append_nil]
    exact ⟨.empty hp hdata hfc, le_rfl⟩
  | newest hst =>
    obtain ⟨hi, hw⟩ := (pairInv ha hb hst).step_pollA ht (rfl : Pair.step _ (.pollA now) = _)
    exact ⟨.newest hi.stage, hw⟩
  | older hst hq hdata =>
    obtain ⟨htx, hf⟩ := hstill hq.ne_send
    rw [htx, hf, if_neg (by simp), Option.toList_none, List.append_nil]
    exact ⟨.older hst hq hdata, le_rfl⟩

/-- The sender gets a grant, which is one for the newest message. -/
theorem grant {f : CanFrame} (h : Flight a₀ b₀ a.tx b.rx data (f :: fc) pending)
    (hab : Connected a₀ b₀) (ha : a₀.SameConfig a) (hb : b₀.SameConfig b) (now : UInt32) :
    Flight a₀ b₀ (a.isotpOnCanFrame ⟨now, true⟩ f.id f.data).1.tx b.rx
        (data ++ (a.isotpOnCanFrame ⟨now, true⟩ f.id f.data).2.toList) fc pending ∧
      flightWork (a.isotpOnCanFrame ⟨now, true⟩ f.id f.data).1.tx
        (data ++ (a.isotpOnCanFrame ⟨now, true⟩ f.id f.data).2.toList) fc + 1 ≤
          flightWork a.tx data (f :: fc) := by
  cases h with
  | empty _ _ hfc => cases hfc
  | newest hst =>
    obtain ⟨hi, hw⟩ := (pairInv ha hb hst).step_deliverA hab (rfl : Pair.step _ (.deliverA now) = _)
    exact ⟨.newest hi.stage, hw⟩
  | older hst =>
    cases hst with
    | single _ _ _ _ hba | sent _ _ _ _ _ _ _ _ _ hba | finished _ _ hba => cases hba
    | first _ _ hp | granted _ hp | sending _ _ hp | blocked _ _ hp => cases hp

/-- The receiver gets a frame of the message that is arriving. -/
theorem stage_deliver {f : CanFrame} (hf : ¬f.IsGrant) (hc : b.rx.complete = false)
    (hi : PairInv a₀ b₀ m ⟨a, b.withTx b.tx.quiet, f :: data, fc, []⟩) (hab : Connected a₀ b₀)
    (now : UInt32) :
    let d := b.isotpOnCanFrame ⟨now, true⟩ f.id f.data
    Stage a₀ b₀ m a.tx d.1.rx data (fc ++ d.2.toList) d.1.rx.waiting ∧
      flightWork a.tx data (fc ++ d.2.toList) + 1 ≤ flightWork a.tx (f :: data) fc := by
  intro d
  obtain ⟨hi', hw⟩ := hi.step_deliverB hab (rfl : Pair.step _ (.deliverB now) = _)
  have hstage := hi'.stage
  have hcol : (b.withTx b.tx.quiet).collected = b.withTx b.tx.quiet := by
    rw [Link.collected, ← hc]
    rfl
  rw [Link.completes, hcol, b.isotpOnCanFrame_withTx _ ⟨now, true⟩ f.data f.id hf,
    List.nil_append] at hstage
  rw [if_pos (show Pair.Works _ (.deliverB now) from trivial),
    b.isotpOnCanFrame_withTx _ ⟨now, true⟩ f.data f.id hf] at hw
  refine ⟨?_, hw⟩
  have hwait : (if d.1.rx.complete = true then some (d.1.rx.buf.read 0 d.1.rx.len)
      else Option.none).toList = d.1.rx.waiting := by
    unfold RxSide.waiting
    split <;> rfl
  rw [← hwait]
  exact hstage

/-- The receiver gets a frame with data: it brings the oldest message on, or completes it. -/
theorem deliver {f : CanFrame} (h : Flight a₀ b₀ a.tx b.rx (f :: data) fc pending) (hf : ¬f.IsGrant)
    (hc : b.rx.complete = false) (hab : Connected a₀ b₀) (ha : a₀.SameConfig a)
    (hb : b₀.SameConfig b) (now : UInt32) :
    let d := b.isotpOnCanFrame ⟨now, true⟩ f.id f.data
    (∃ rest, pending = d.1.rx.waiting ++ rest ∧
        Flight a₀ b₀ a.tx d.1.rx data (fc ++ d.2.toList) rest) ∧
      flightWork a.tx data (fc ++ d.2.toList) + 1 ≤ flightWork a.tx (f :: data) fc := by
  intro d
  generalize hall : f :: data = all at h
  cases h with
  | empty _ hdata => rw [← hall] at hdata; cases hdata
  | @newest m hst =>
    subst hall
    obtain ⟨hst', hw⟩ := stage_deliver hf hc (pairInv ha hb hst) hab now
    refine ⟨?_, hw⟩
    by_cases hd : d.1.rx.waiting = []
    · refine ⟨[m], by rw [hd]; rfl, .newest ?_⟩
      rw [← hd]
      exact hst'
    · -- the message is complete
      cases hst' with
      | finished hp hab' hba hd' => exact ⟨[], by rw [hd']; rfl, .empty hp hab' hba⟩
      | single _ _ _ _ _ hd' | first _ _ _ _ _ _ hd' | granted _ _ _ _ _ _ _ hd'
      | sending _ _ _ _ _ _ _ _ _ _ hd' | blocked _ _ _ _ _ _ _ _ _ _ hd'
      | sent _ _ _ _ _ _ _ _ _ _ hd' => exact absurd hd' hd
  | @older m q cur hst hq hdata =>
    rcases cur with _ | ⟨g, cur⟩
    · -- a stage whose send side is idle has a frame in flight
      cases hst with
      | single _ _ _ hab' => cases hab'
      | sent j k _ _ hk _ _ _ hab' =>
        have hlen : (a₀.flight m j k).length = 0 := by rw [← hab']; rfl
        rw [Link.length_flight] at hlen
        omega
      | finished _ _ _ hd => cases hd
      | first _ _ hp | granted _ hp | sending _ _ hp | blocked _ _ hp => cases hp
    subst hall
    obtain ⟨rfl, rfl⟩ := List.cons.inj hdata
    have hpair := stage_deliver hf hc (pairInv (a := a.withTx a.tx.quiet) (ha.withTx _ _) hb hst)
      hab now
    have hst' : Stage a₀ b₀ m a.tx.quiet d.1.rx cur (fc ++ d.2.toList) d.1.rx.waiting := hpair.1
    have hw : flightWork a.tx.quiet cur (fc ++ d.2.toList) + 1 ≤
        flightWork a.tx.quiet (f :: cur) fc := hpair.2
    refine ⟨?_, ?_⟩
    · by_cases hd : d.1.rx.waiting = []
      · refine ⟨m :: q, by rw [hd]; rfl, .older ?_ hq rfl⟩
        rw [← hd]
        exact hst'
      · -- the message is complete, and the next one is on its way
        cases hst' with
        | finished _ hab' hba hd' =>
          refine ⟨q, by rw [hd']; rfl, ?_⟩
          rw [hab', hba]
          exact hq.flight d.1.rx
        | single _ _ _ _ _ hd' | first _ _ _ _ _ _ hd' | granted _ _ _ _ _ _ _ hd'
        | sending _ _ _ _ _ _ _ _ _ _ hd' | blocked _ _ _ _ _ _ _ _ _ _ hd'
        | sent _ _ _ _ _ _ _ _ _ _ hd' => exact absurd hd' hd
    · rw [flightWork_idle rfl, flightWork_idle rfl] at hw
      simp only [flightWork, List.length_append, List.length_cons] at hw ⊢
      omega

/-- A message that is collected is not on its way. -/
theorem collect (h : Flight a₀ b₀ t r data fc pending) :
    Flight a₀ b₀ t { r with complete := false } data fc pending := by
  cases h with
  | empty hp hdata hfc => exact .empty hp hdata hfc
  | newest hst => exact .newest hst.collect
  | older hst hq hdata => exact .older hst.collect hq hdata

end Flight

/-! ### What the calls do to a direction -/

section Calls

variable (l : Link) (e : Env)

/-- `isotp_send()` takes a message and begins it, or does nothing. -/
theorem Link.send_cases (now : UInt32) (m : List UInt8) :
    (l.takes (.send ⟨now, true⟩ m) = none ∧ l.isotpSend ⟨now, true⟩ m =
        (l, (l.isotpSend ⟨now, true⟩ m).2.1, none)) ∨
      (l.takes (.send ⟨now, true⟩ m) = some m ∧ l.tx.phase = .idle ∧
        Behind (l.isotpSend ⟨now, true⟩ m).1.tx [m] ∧
        (l.isotpSend ⟨now, true⟩ m).2.2 = some (l.startFrame m)) := by
  rcases l.isotpSend_cases ⟨now, true⟩ m with ⟨-, hret, hl, hf⟩ | ⟨hp, h0, h7, hret, hp', hf⟩ |
    ⟨hp, h7, hle, hret, htx, hf⟩
  · refine .inl ⟨if_neg ?_, Prod.ext hl (Prod.ext rfl hf)⟩
    rcases hret with hret | hret <;> rw [hret] <;> simp
  · refine .inr ⟨if_pos (.inl hret), hp, .short h0 h7 hp', ?_⟩
    rw [hf, Link.startFrame, if_pos h7]
  · have htx' : (l.isotpSend ⟨now, true⟩ m).1.tx = l.txStarted m now := by
      rcases htx with ⟨-, htx⟩ | ⟨hno, -⟩
      · exact htx
      · cases hno
    refine .inr ⟨if_pos (.inr hret), hp, ?_, ?_⟩
    · rw [htx']
      exact .long h7 hle rfl (.started h7 hle now)
    · rw [hf, Link.startFrame, if_neg (Nat.not_le.2 h7)]
      rfl

theorem Link.startFrame_not_grant (m : List UInt8) : ¬(l.startFrame m).IsGrant := by
  unfold Link.startFrame CanFrame.IsGrant
  split
  · rw [Link.txFrame_head, pciType_pciByte _ (by omega)]
    omega
  · rw [Link.ffFrame, Link.txFrame_head, pciType_pciByte _ (by omega)]
    omega

theorem Link.sendFc_grant (fs : Fs) : (l.sendFc fs).IsGrant := by
  rw [CanFrame.IsGrant, Link.sendFc, Link.txFrame_head, pciType_pciByte _ (by omega)]

theorem Link.pollTx_not_grant {f : CanFrame} (h : f ∈ (l.isotpPoll e).2) : ¬f.IsGrant := by
  have hcf (n : ℕ) (p : List UInt8) : ¬(l.txFrame (pciByte 2 n :: p)).IsGrant := by
    rw [CanFrame.IsGrant, Link.txFrame_head, pciType_pciByte _ (by omega)]
    omega
  rw [Link.isotpPoll_frame] at h
  unfold Link.pollTx at h
  split at h
  · split at h <;> cases h
  split at h
  swap
  · cases h
  split at h
  swap
  · cases h
  dsimp only at h
  split at h
  · obtain rfl := Option.some.inj h
    exact hcf _ _
  · rw [Link.cfSent_frame] at h
    obtain rfl := Option.some.inj h
    exact hcf _ _

/-- A poll at which N_Cr does not expire leaves the receive side alone. -/
theorem Link.isotpPoll_rx_same
    (h : ¬(l.rx.phase = .recv ∧ l.cfg.nCrMs ≤ elapsed e.now l.rx.timer)) :
    (l.isotpPoll e).1.rx = l.rx := by
  rw [Link.isotpPoll_eq, Link.pollRx, if_neg h]
  split <;> rfl

/-- FlowControl goes to the send side, and is not answered. -/
theorem Link.isotpOnCanFrame_grant {f : CanFrame} (hf : f.IsGrant) :
    (l.isotpOnCanFrame e f.id f.data).1.rx = l.rx ∧ (l.isotpOnCanFrame e f.id f.data).2 = none := by
  by_cases hd : f.data.length < 1 ∨ isotpCanDl < f.data.length
  · rw [l.isotpOnCanFrame_ignores e f.data (.inl hd)]
    exact ⟨rfl, rfl⟩
  cases ha : l.addressed f.id with
  | none =>
    rw [l.isotpOnCanFrame_ignores e f.data (.inr ha)]
    exact ⟨rfl, rfl⟩
  | some functional =>
    cases functional with
    | false =>
      rw [l.isotpOnCanFrame_fc e f.data ⟨by omega, ha, hf⟩]
      exact ⟨l.handleFc_rx e f.data, rfl⟩
    | true =>
      rw [l.isotpOnCanFrame_functional e f.data hd ha, if_neg (by rw [show _ = 3 from hf]; omega)]
      exact ⟨rfl, rfl⟩

/-- What is no FlowControl leaves the send side alone, and is answered by nothing else. -/
theorem Link.isotpOnCanFrame_data {f : CanFrame} (hf : ¬f.IsGrant) :
    (l.isotpOnCanFrame e f.id f.data).1.tx = l.tx ∧
      ∀ g ∈ (l.isotpOnCanFrame e f.id f.data).2, g.IsGrant := by
  refine ⟨l.isotpOnCanFrame_tx e f.data fun h => hf h.2.2, fun g hg => ?_⟩
  rcases l.isotpOnCanFrame_frame e f.data f.id with hno | ⟨fs, hfs⟩
  · rw [hno] at hg; cases hg
  · rw [hfs] at hg
    obtain rfl := Option.some.inj hg
    exact l.sendFc_grant fs

/-- What `isotp_receive()` returns was waiting. -/
theorem Link.receive_waiting (outCap : ℕ) :
    (l.returns (.receive outCap)).toList ++ (l.isotpReceive outCap).1.rx.waiting = l.rx.waiting ∧
      ((l.isotpReceive outCap).1.rx = l.rx ∨
        (l.isotpReceive outCap).1.rx = { l.rx with complete := false }) := by
  by_cases hc : l.rx.complete = false
  · have hr : l.isotpReceive outCap = (l, ⟨.noData, [], false⟩) := if_pos hc
    rw [Link.returns, hr]
    exact ⟨rfl, .inl rfl⟩
  by_cases hcap : outCap < l.rx.len
  · have hr : l.isotpReceive outCap = (l, ⟨.nospace, [], false⟩) :=
      (if_neg hc).trans (if_pos hcap)
    rw [Link.returns, hr]
    exact ⟨rfl, .inl rfl⟩
  · have hr : l.isotpReceive outCap = ({ l with rx := { l.rx with complete := false } },
        ⟨.ok, l.rx.buf.read 0 l.rx.len, l.rx.functional⟩) := (if_neg hc).trans (if_neg hcap)
    rw [Bool.not_eq_false] at hc
    rw [Link.returns, hr]
    exact ⟨by simp [RxSide.waiting, hc], .inr rfl⟩

end Calls

end IsoTp

end Espcan32

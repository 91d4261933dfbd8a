import Espcan32.IsoTp.Bounds
import Espcan32.IsoTp.Send
import Espcan32.Uds.Server

/-!
# The bench loop

In bench mode one task owns the controller: `bench_task()` feeds the link the frame that has
come, polls it, and polls the server.  `State` is its state, and a `Turn` holds what one turn of
the loop takes from outside: the frame, the readings of the microsecond clock, which never
go back, and whether `can_tx` succeeds.

* `Transport.Keeps` : receiving and sending keep a property of the link.
* `Poll.udsServerPoll_keeps` : then a poll of the server keeps it.
* `State.turn` : one turn of the loop.
-/

namespace Espcan32

namespace Uds

open IsoTp (Ret Link Env)

/-! ### What a poll of the server keeps of its link -/

/-- Receiving and sending keep `I`. -/
structure Transport.Keeps {L : Type} (T : Transport L) (I : L → Prop) : Prop where
  receive : ∀ l, I l → I (T.receive l).1
  send : ∀ l data, I l → I (T.send l data).1

namespace Poll

variable {L W : Type} {T : Transport L} {I : L → Prop} {p : Poll L W}

theorem udsSendRaw_keeps (hT : T.Keeps I) (hp : I p.link) (buf : List UInt8) :
    I (p.udsSendRaw T buf).1.link := hT.send _ _ hp

theorem udsSendNrc_keeps (hT : T.Keeps I) (hp : I p.link) (sid nrc : UInt8) (functional : Bool) :
    I (p.udsSendNrc T sid nrc functional).link := by
  unfold udsSendNrc
  split
  · exact hp
  · have hraw := udsSendRaw_keeps hT hp [udsNegRespSid, sid, nrc]
    split <;> rename_i heq <;> rw [heq] at hraw <;> exact hraw

theorem udsSendResponse_keeps (hT : T.Keeps I) (hp : I p.link) (sid : UInt8) (buf : List UInt8)
    (functional : Bool) : I (p.udsSendResponse T sid buf functional).1.link := by
  unfold udsSendResponse
  have hraw := udsSendRaw_keeps hT hp buf
  split <;> rename_i heq <;> rw [heq] at hraw
  · exact hraw
  · exact udsSendNrc_keeps hT hraw _ _ _

theorem call_keeps {fn : Handler W} {c c' : Ctx} {q : Poll L W} {disp : Disp} (hp : I p.link)
    (h : p.call fn c = some (q, disp, c')) : I q.link := by
  unfold call at h
  simp only [Option.bind_eq_bind, Option.bind_eq_some_iff, Option.some.injEq, Prod.mk.injEq] at h
  obtain ⟨_, -, rfl, -⟩ := h
  exact hp

theorem settle_keeps (hT : T.Keeps I) {fn : Handler W} {sid : UInt8} {functional : Bool} {n : ℕ}
    {disp disp' : Disp} {c c' : Ctx} {q : Poll L W} (hp : I p.link)
    (h : p.settle T fn sid functional n disp c = some (q, disp', c')) : I q.link := by
  induction n generalizing p disp c with
  | zero =>
    simp only [settle, Option.some.injEq, Prod.mk.injEq] at h
    obtain ⟨rfl, -⟩ := h
    exact hp
  | succ n ih =>
    cases disp with
    | responsePending =>
      simp only [settle, Option.bind_eq_bind, Option.bind_eq_some_iff] at h
      obtain ⟨⟨q', disp₁, c₁⟩, hcall, h⟩ := h
      exact ih (call_keeps (udsSendNrc_keeps hT hp sid Nrc.rcrrp functional) hcall) h
    | _ =>
      simp only [settle, Option.some.injEq, Prod.mk.injEq] at h
      obtain ⟨rfl, -⟩ := h
      exact hp

theorem finish_link : p.finish.link = p.link := by
  rw [finish_eq]

theorem respond_keeps (hT : T.Keeps I) (hp : I p.link) (sid : UInt8) (suppress functional : Bool)
    (c : Ctx) : I (p.respond T sid suppress functional c).link := by
  unfold respond
  dsimp only
  split
  · have hresp := udsSendResponse_keeps (p := { p with server := p.server.commit sid c.session })
      hT hp sid (c.resp.read 0 c.respLen) functional
    split <;> rename_i heq <;> rw [heq] at hresp <;> exact hresp
  · exact hp

theorem emit_keeps (hT : T.Keeps I) (hp : I p.link) (sid : UInt8) (suppress functional : Bool)
    (disp : Disp) (c : Ctx) : I (p.emit T sid suppress functional disp c).link := by
  cases disp with
  | responsePending => exact udsSendNrc_keeps hT hp _ _ _
  | positive => rw [emit, finish_link]; exact respond_keeps hT hp _ _ _ _
  | negative => rw [emit, finish_link]; exact udsSendNrc_keeps hT hp _ _ _
  | noResponse => rw [emit, finish_link]; exact hp

theorem dispatch_keeps (hT : T.Keeps I) (hp : I p.link) {services : List (Service W)}
    {req : List UInt8} {functional : Bool} {q : Poll L W}
    (h : p.dispatch T services req functional = some q) : I q.link := by
  simp only [dispatch, Option.bind_eq_bind, Option.bind_eq_some_iff] at h
  obtain ⟨sid, -, h⟩ := h
  split at h
  · rw [← Option.some.inj h]
    exact udsSendNrc_keeps hT hp _ _ _
  · rw [← Option.some.inj h]
    exact udsSendNrc_keeps hT hp _ _ _
  · split at h
    · rw [← Option.some.inj h]
      exact udsSendNrc_keeps hT hp _ _ _
    · simp only [Option.bind_eq_some_iff, Option.some.injEq] at h
      obtain ⟨⟨q₁, disp₁, c₁⟩, hcall, ⟨q₂, disp₂, c₂⟩, hsettle, rfl⟩ := h
      exact emit_keeps hT (settle_keeps hT (call_keeps hp hcall) hsettle) _ _ _ _ _

/-- What receiving and sending keep of a link, a poll of the server keeps. -/
theorem udsServerPoll_keeps (hT : T.Keeps I) (hp : I p.link) {services : List (Service W)}
    {elapsedMs : UInt32} {q : Poll L W} (h : p.udsServerPoll T services elapsedMs = some q) :
    I q.link := by
  unfold udsServerPoll at h
  have hr := hT.receive _ hp
  dsimp only at h
  split at h
  · rw [← Option.some.inj h]
    exact hr
  · exact dispatch_keeps hT hr h

end Poll

end Uds

open IsoTp Uds

namespace Bench

/-! ### The loop -/

/-- `CFG_BENCH_RX_ID`: physical requests. -/
def cfgBenchRxId : UInt32 := 0x7E0

/-- `CFG_BENCH_TX_ID`: responses. -/
def cfgBenchTxId : UInt32 := 0x7E8

/-- `CFG_BENCH_FUNC_ID`: functional requests. -/
def cfgBenchFuncId : UInt32 := 0x7DF

/-- `bench_millis()`, when `pcan_time_now_us()` returns `us`. -/
def benchMillis (us : ℕ) : UInt32 := UInt32.ofNat (us / 1000)

/-- The link as a transport for one poll of the server, beside what `can_tx` is going to return in
it, call by call; `us` is what the clock shows when a FirstFrame has gone out. -/
def benchTransport (us : ℕ) : Transport (Link × List Bool) where
  receive p := (((p.1.isotpReceive isotpMaxMsg).1, p.2), (p.1.isotpReceive isotpMaxMsg).2)
  send p data :=
    let e : Env := ⟨benchMillis us, p.2.headD false⟩
    (((p.1.isotpSend e data).1, p.2.tail), (p.1.isotpSend e data).2.1)

/-- What `bench_task()` works on: the link, the server, the last reading of the clock, and
`last_ms`. -/
structure State where
  link : Link
  server : Server
  clock : ℕ
  lastMs : UInt32

/-- What one turn of the loop takes from outside: a standard frame, if one has come; the readings
of the microsecond clock for the frame, for the poll of the link, for `now_ms` and for a FirstFrame
that the server sends; what `can_tx` returns during the poll of the link and, call by call, of the
server, and `esp_random()`. -/
structure Turn where
  frame : Option (UInt32 × List UInt8)
  frameUs : ℕ
  pollUs : ℕ
  pollTx : Bool
  serverUs : ℕ
  sendUs : ℕ
  serverTx : List Bool
  random : UInt32

/-- The clock does not go back. -/
def Turn.Ordered (t : Turn) (clock : ℕ) : Prop :=
  clock ≤ t.frameUs ∧ t.frameUs ≤ t.pollUs ∧ t.pollUs ≤ t.serverUs ∧ t.serverUs ≤ t.sendUs

instance (t : Turn) (clock : ℕ) : Decidable (t.Ordered clock) :=
  inferInstanceAs (Decidable (_ ∧ _))

/-- The hooks during the poll of the link. -/
def Turn.pollEnv (t : Turn) : Env := ⟨benchMillis t.pollUs, t.pollTx⟩

/-- The hooks while the frame is fed; `can_tx` decides about nothing in it. -/
def Turn.frameEnv (t : Turn) : Env := ⟨benchMillis t.frameUs, false⟩

namespace State

/-- The link after `isotp_on_can_frame()`. -/
def fed (b : State) (t : Turn) : Link :=
  match t.frame with
  | some (id, data) => b.link.step (.frame t.frameEnv id data)
  | none => b.link

/-- The link after `isotp_poll()`. -/
def polled (b : State) (t : Turn) : Link := (b.fed t).step (.poll t.pollEnv)

/-- One turn of `bench_task()`; none follows a restart. -/
def turn (b : State) (t : Turn) : Option State :=
  if t.Ordered b.clock then do
    let nowMs := benchMillis t.serverUs
    let p ← (⟨b.server, (b.polled t, t.serverTx), t.random, [], false⟩ :
      Poll (Link × List Bool) UInt32).udsServerPoll (benchTransport t.sendUs) benchServices
        (nowMs - b.lastMs)
    if p.restarted then none else some ⟨p.link.1, p.server, t.sendUs, nowMs⟩
  else none

end State

/-- `bench_task()` before its loop, when the clock shows `us`. -/
def init (us : ℕ) : State where
  link := isotpInit cfgBenchTxId cfgBenchRxId cfgBenchFuncId (some ⟨0, 0, 0, 0, 0, 0, 0, 0xCC⟩)
  server := udsServerInit (fun _ => 0) isotpMaxMsg
  clock := us
  lastMs := benchMillis us

/-- The bench loop. -/
def system : System State Turn := .ofFun State.turn

end Bench

end Espcan32

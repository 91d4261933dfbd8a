import Espcan32.Bench.Loop
import Espcan32.IsoTp.Channel
import Espcan32.Uds.Response
import Espcan32.Uds.Script

/-!
# A tester at the other end of the bus

A tester with a link of its own sends requests to the bench through lossless channels, and waits for
one exchange to be over before it begins the next.  What crosses the bus are the frames of both
links; the abstract view is that the tester calls the server.

* `Session.polled_channel`, `Channel.right_sends` : the link calls of a turn of `bench_task()` are
  steps of one end of a `Duplex`.
* `SessionInv` : both directions of the channel, and the server as one that is called.
* `session_refines` : **the session is a run of the server by itself on the tester's requests, each
  once and in order; the tester gets its responses, each once and in order.**
-/

namespace Espcan32

open IsoTp Uds

namespace Bench

/-! ### The system -/

/-- The tester; the bench as the other end, with its server, clock and `last_ms`. -/
structure Session where
  tester : End
  ecu : End
  server : Server
  clock : ℕ
  lastMs : UInt32

/-- A step of the tester, or a turn of `bench_task()`, in which a frame arrives or not. -/
inductive SessionStep where
  | tester (s : EndStep)
  | turn (arrives : Bool) (t : Turn)

/-- The frames that sending the PDUs in turn hands to `can_tx`. -/
def sendFrames (us : ℕ) : Link → List (List UInt8) → List CanFrame
  | _, [] => []
  | l, pdu :: pdus =>
    (l.handed (.send ⟨benchMillis us, true⟩ pdu)).toList ++
      sendFrames us (l.step (.send ⟨benchMillis us, true⟩ pdu)) pdus

namespace State

/-- The poll of the server in a turn. -/
def serverPoll (b : State) (t : Turn) : Option (Poll (Link × List Bool) UInt32) :=
  b.server.poll (benchTransport t.sendUs)
    ⟨(b.polled t, t.serverTx), benchMillis t.serverUs - b.lastMs, t.random⟩

/-- The frames that a turn hands to `can_tx`: the answer to the frame, what the poll of the link
sends, and what the server sends. -/
def hands (b : State) (t : Turn) (p : Poll (Link × List Bool) UInt32) : List CanFrame :=
  (match t.frame with
    | some (id, data) => (b.link.handed (.frame t.frameEnv id data)).toList
    | none => []) ++
  (((b.fed t).handed (.poll t.pollEnv)).toList ++
    sendFrames t.sendUs ((b.polled t).step (.receive isotpMaxMsg)) (p.sent.map Prod.fst))

theorem turn_eq {b b' : State} {t : Turn} (h : b.turn t = some b') :
    ∃ p, b.serverPoll t = some p ∧
      b' = ⟨p.link.1, p.server, t.sendUs, benchMillis t.serverUs⟩ := by
  unfold turn at h
  split at h
  swap
  · cases h
  obtain ⟨p, hp, h⟩ := Option.bind_eq_some_iff.1 h
  split at h
  · cases h
  · exact ⟨p, hp, (Option.some.inj h).symm⟩

end State

namespace Session

/-- The bench. -/
def bench (x : Session) : State := ⟨x.ecu.link, x.server, x.clock, x.lastMs⟩

/-- The two ends. -/
def ends (x : Session) : Duplex := ⟨x.tester, x.ecu⟩

/-- The turn with the frame that arrives in it. -/
def framed (x : Session) (arrives : Bool) (t : Turn) : Turn :=
  { t with frame := if arrives then x.ecu.inbox.head?.map fun f => (f.id, f.data) else none }

/-- The session after a turn of the bench that leads to `b` by the poll `p` of the server. -/
def afterTurn (x : Session) (arrives : Bool) (t : Turn) (b : State)
    (p : Poll (Link × List Bool) UInt32) : Session where
  tester := { x.tester with inbox := x.tester.inbox ++ x.bench.hands t p }
  ecu :=
    { link := b.link
      inbox := if arrives then x.ecu.inbox.tail else x.ecu.inbox
      sent := x.ecu.sent ++ (p.sent.filter fun y => Taken y.2).map Prod.fst
      got := x.ecu.got ++ ((x.bench.polled t).returns (.receive isotpMaxMsg)).toList }
  server := b.server
  clock := b.clock
  lastMs := b.lastMs

/-- One step of the session. -/
def step (x : Session) : SessionStep → Option Session
  | .tester s => (x.ends.stepLeft s).map fun d => { x with tester := d.left, ecu := d.right }
  | .turn arrives t =>
    (x.bench.turn (x.framed arrives t)).bind fun b =>
      (x.bench.serverPoll (x.framed arrives t)).map fun p =>
        x.afterTurn arrives (x.framed arrives t) b p

/-- No exchange is under way: each request has been taken up, and what the server has sent has
arrived. -/
def Over (x : Session) : Prop := x.ecu.got = x.tester.sent ∧ x.tester.got = x.ecu.sent

instance (x : Session) : Decidable x.Over := inferInstanceAs (Decidable (_ ∧ _))

/-- `can_tx` succeeds throughout a turn. -/
def CanTx (t : Turn) : Prop := t.pollTx = true ∧ [true, true] <+: t.serverTx

instance (t : Turn) : Decidable (CanTx t) := inferInstanceAs (Decidable (_ ∧ _))

/-- The step hands a message to `isotp_send()`. -/
def Begins : EndStep → Prop
  | .send _ _ => True
  | _ => False

instance (s : EndStep) : Decidable (Begins s) :=
  match s with
  | .send _ _ => inferInstanceAs (Decidable True)
  | .poll _ | .deliver _ | .receive _ => inferInstanceAs (Decidable False)

/-- The tester begins a request when no exchange is under way, no timer expires at either end, and
`can_tx` succeeds. -/
def Proper (x : Session) : SessionStep → Prop
  | .tester s => x.tester.Timely s ∧ (Begins s → x.Over)
  | .turn arrives t =>
    CanTx t ∧ (⟨x.bench.fed (x.framed arrives t), [], [], []⟩ : End).Timely
      (.poll (benchMillis t.pollUs))

instance (x : Session) (s : SessionStep) : Decidable (x.Proper s) :=
  match s with
  | .tester s => inferInstanceAs (Decidable (x.tester.Timely s ∧ (Begins s → x.Over)))
  | .turn _ _ => inferInstanceAs (Decidable (_ ∧ _))

/-- The session before it begins, when the clock of the bench shows `us`. -/
def start (a : Link) (us : ℕ) : Session where
  tester := ⟨a, [], [], []⟩
  ecu := ⟨(init us).link, [], [], []⟩
  server := (init us).server
  clock := us
  lastMs := (init us).lastMs

/-- What the poll of the server in a turn is called with: the request that it finds, and what its
sends return. -/
def scripted (x : Session) (t : Turn) (p : Poll (Link × List Bool) UInt32) : Tick Script where
  link := ⟨((x.bench.polled t).isotpReceive isotpMaxMsg).2, p.sent.map Prod.snd⟩
  elapsedMs := benchMillis t.serverUs - x.lastMs
  random := t.random

/-- What the server has been called with. -/
def calls (x : Session) : SessionStep → List (Tick Script) → List (Tick Script)
  | .tester _, ticks => ticks
  | .turn arrives t, ticks =>
    ticks ++ ((x.bench.serverPoll (x.framed arrives t)).map
      (x.scripted (x.framed arrives t))).toList

end Session

/-- The session as a system. -/
def sessionSystem : System Session SessionStep := .ofFun Session.step

end Bench

namespace Uds

/-- The PDUs that a server on a script has sent. -/
def answers (s : Server) (t : Tick Script) (pdus : List (List UInt8)) : List (List UInt8) :=
  pdus ++ (s.poll scriptTransport t).elim [] fun p => p.sent.map Prod.fst

end Uds

namespace Bench

/-! ### What the server sends in a turn -/

/-- On an idle link whose `can_tx` succeeds a poll of the server sends one PDU at most, and it is
taken. -/
theorem sent_taken {us : ℕ} {s : Server} {t : Tick (Link × List Bool)}
    {p : Poll (Link × List Bool) UInt32} (hpolled : Polled (benchTransport us) s t p)
    (hcap : s.respCap ≤ isotpMaxMsg)
    (hidle : t.request (benchTransport us) ≠ none → t.link.1.tx.phase = .idle)
    (htx : t.link.2.headD false = true) : p.sent.length ≤ 1 ∧ ∀ y ∈ p.sent, Taken y.2 := by
  have hfirst {pdu : List UInt8} {r : Ret} {sent : List (List UInt8 × Ret)}
      (hreq : t.request (benchTransport us) ≠ none) (h0 : 0 < pdu.length)
      (hle : pdu.length ≤ isotpMaxMsg)
      (hf : FirstOn (benchTransport us) ((benchTransport us).receive t.link).1 ((pdu, r) :: sent)) :
      Taken r := by
    rw [show r = _ from hf _ rfl]
    refine taken_of_idle (e := ⟨benchMillis us, t.link.2.headD false⟩) htx ?_ h0 hle
    show (t.link.1.isotpReceive isotpMaxMsg).1.tx.phase = .idle
    rw [Link.isotpReceive_tx]
    exact hidle hreq
  have hnrc {sid nrc : UInt8} {functional : Bool} (hreq : t.request (benchTransport us) ≠ none)
      (hsent : SendsNrc sid nrc functional p.sent)
      (hf : FirstOn (benchTransport us) ((benchTransport us).receive t.link).1 p.sent) :
      p.sent.length ≤ 1 ∧ ∀ y ∈ p.sent, Taken y.2 := by
    unfold SendsNrc at hsent
    split at hsent
    · rw [hsent]
      exact ⟨Nat.zero_le _, by simp⟩
    · obtain ⟨r, hsent⟩ := hsent
      rw [hsent] at hf ⊢
      have hr := hfirst hreq (by simp) (by simp) hf
      exact ⟨le_rfl, by simpa using hr⟩
  cases hpolled with
  | quiet _ _ hsent => rw [hsent]; exact ⟨Nat.zero_le _, by simp⟩
  | unknown hreq _ _ hsent hf => exact hnrc (by rw [hreq]; simp) hsent hf
  | @answered sid tl functional v g hreq _ _ hlen _ hsent hf =>
    cases v with
    | negative nrc => exact hnrc (by rw [hreq]; simp) hsent hf
    | positive resp session =>
      obtain ⟨h0, hle⟩ := hlen resp session rfl
      simp only [Sends] at hsent
      split at hsent
      · rw [hsent]
        exact ⟨Nat.zero_le _, by simp⟩
      · rcases hsent with ⟨r, hr, hsent⟩ | ⟨r, r', hno, hsent⟩
        · rw [hsent]
          exact ⟨le_rfl, by simpa using hr⟩
        · rw [hsent] at hf
          exact absurd (hfirst (by rw [hreq]; simp) h0 (hle.trans hcap) hf) hno

/-! ### A turn is a run of one end -/

section Channel

variable {a₀ b₀ : Link} {l r : End} {s : EndStep} {c : Call}

/-- A step of the right end. -/
theorem right_step (h : ∃ n, DuplexInv a₀ b₀ ⟨l, r⟩ n) (hab : Connected a₀ b₀) (ht : r.Timely s)
    (hc : r.call s = some c) : ∃ n, DuplexInv a₀ b₀
      ⟨{ l with inbox := l.inbox ++ (r.link.handed c).toList }, r.after s c⟩ n := by
  obtain ⟨n, h⟩ := h
  refine ⟨_, h.step (s := (.right, s)) hab ht ?_⟩
  rw [Duplex.step, Duplex.stepLeft, Duplex.swap_left, hc]
  rfl

/-- The sends of a poll of the server. -/
theorem right_sends {us : ℕ} {k k' : Link × List Bool} {sent : List (List UInt8 × Ret)}
    (hall : (benchTransport us).SendsAll k sent k') (hab : Connected a₀ b₀)
    (htx : List.replicate sent.length true <+: k.2) (htaken : ∀ y ∈ sent, Taken y.2)
    {inbox : List CanFrame} {out got : List (List UInt8)}
    (h : ∃ n, DuplexInv a₀ b₀ ⟨l, ⟨k.1, inbox, out, got⟩⟩ n) :
    ∃ n, DuplexInv a₀ b₀ ⟨{ l with inbox := l.inbox ++ sendFrames us k.1 (sent.map Prod.fst) },
      ⟨k'.1, inbox, out ++ sent.map Prod.fst, got⟩⟩ n := by
  induction hall generalizing l out with
  | nil => simpa [sendFrames] using h
  | @cons k k₁ k' pdu ret sent hsend hall ih =>
    obtain ⟨txs, htx⟩ := htx
    have hhead : k.2.headD false = true := by rw [← htx]; rfl
    have hk : k₁ = ((k.1.isotpSend ⟨benchMillis us, true⟩ pdu).1, k.2.tail) ∧
        ret = (k.1.isotpSend ⟨benchMillis us, true⟩ pdu).2.1 := by
      have hs : (((k.1.isotpSend ⟨benchMillis us, k.2.headD false⟩ pdu).1, k.2.tail),
        (k.1.isotpSend ⟨benchMillis us, k.2.headD false⟩ pdu).2.1) = (k₁, ret) := hsend
      rw [hhead] at hs
      exact ⟨(Prod.mk.inj hs).1.symm, (Prod.mk.inj hs).2.symm⟩
    obtain ⟨rfl, rfl⟩ := hk
    have htake : k.1.takes (.send ⟨benchMillis us, true⟩ pdu) = some pdu :=
      if_pos (htaken _ List.mem_cons_self)
    have hstep := right_step h hab (s := .send (benchMillis us) pdu) trivial rfl
    simp only [End.after, htake, Option.toList_some, Link.returns, Option.toList_none,
      List.append_nil] at hstep
    have hrest := ih ⟨txs, by rw [← htx]; rfl⟩
      (fun y hy => htaken y (List.mem_cons_of_mem _ hy)) hstep
    simpa [sendFrames, Link.step] using hrest

end Channel

namespace Session

variable {a₀ b₀ : Link} {x : Session} {arrives : Bool} {t : Turn}

/-- The frame and the poll of the link in a turn. -/
theorem polled_channel (h : ∃ n, DuplexInv a₀ b₀ x.ends n) (hab : Connected a₀ b₀)
    (hcol : x.ecu.link.rx.complete = false) (hproper : x.Proper (.turn arrives t)) :
    ∃ n, DuplexInv a₀ b₀ ⟨{ x.tester with inbox := x.tester.inbox ++
        ((match (x.framed arrives t).frame with
          | some (id, data) => (x.ecu.link.handed (.frame t.frameEnv id data)).toList
          | none => []) ++
        ((x.bench.fed (x.framed arrives t)).handed (.poll t.pollEnv)).toList) },
      ⟨x.bench.polled (x.framed arrives t), if arrives then x.ecu.inbox.tail else x.ecu.inbox,
        x.ecu.sent, x.ecu.got⟩⟩ n := by
  obtain ⟨⟨hpollTx, -⟩, htimely⟩ := hproper
  have hfed : ∃ n, DuplexInv a₀ b₀ ⟨{ x.tester with inbox := x.tester.inbox ++
        (match (x.framed arrives t).frame with
          | some (id, data) => (x.ecu.link.handed (.frame t.frameEnv id data)).toList
          | none => []) },
      ⟨x.bench.fed (x.framed arrives t), if arrives then x.ecu.inbox.tail else x.ecu.inbox,
        x.ecu.sent, x.ecu.got⟩⟩ n := by
    cases arrives with
    | false =>
      have hf : (x.framed false t).frame = none := rfl
      rw [State.fed, hf, List.append_nil]
      exact h
    | true =>
      cases hin : x.ecu.inbox with
      | nil =>
        have hf : (x.framed true t).frame = none := by rw [framed, hin]; rfl
        rw [State.fed, hf, List.append_nil, if_pos rfl, List.tail_nil, ← hin]
        exact h
      | cons f rest =>
        have hf : (x.framed true t).frame = some (f.id, f.data) := by rw [framed, hin]; rfl
        have hstep := right_step h hab (s := .deliver (benchMillis t.frameUs)) hcol
          (by rw [End.call, hin]; rfl)
        simp only [End.after, Link.takes, Link.returns, Option.toList_none, List.append_nil, hin,
          List.tail_cons] at hstep
        rw [State.fed, hf, if_pos rfl, List.tail_cons]
        exact hstep
  have hstep := right_step hfed hab (s := .poll (benchMillis t.pollUs)) htimely rfl
  have henv : t.pollEnv = ⟨benchMillis t.pollUs, true⟩ := by rw [Turn.pollEnv, hpollTx]
  simp only [End.after, Link.takes, Link.returns, Option.toList_none, List.append_nil,
    List.append_assoc] at hstep
  rw [State.polled, show (x.framed arrives t).pollEnv = t.pollEnv from rfl, henv]
  exact hstep

end Session

/-! ### What holds between steps -/

/-- What holds of the session between steps, and of the calls of the server; `a₀` has the addresses
and the configuration of the tester. -/
structure SessionInv (a₀ : Link) (us : ℕ) (x : Session) (ticks : List (Tick Script)) : Prop where
  channel : ∃ n, DuplexInv a₀ (init us).link x.ends n
  nonempty : ∀ m ∈ x.tester.sent, m ≠ []
  range : x.ecu.link.InRange
  collected : x.ecu.link.rx.complete = false
  /-- One request at most is on its way, and then nothing else is. -/
  one : x.ecu.got ≠ x.tester.sent →
    x.tester.got = x.ecu.sent ∧ x.tester.sent.length = x.ecu.got.length + 1
  server : ((udsSystem scriptTransport).withAux answers).Run ((init us).server, []) ticks
    (x.server, x.ecu.sent)
  found : ticks.filterMap (fun t => (t.request scriptTransport).map Prod.fst) = x.ecu.got
  taken : ∀ t ∈ ticks, ∀ r ∈ t.link.rets, Taken r

namespace SessionInv

variable {a₀ : Link} {us : ℕ} {x x' : Session} {ticks : List (Tick Script)}

theorem of_start {a : Link} (ha : a.Idle) (us : ℕ) : SessionInv a us (.start a us) [] where
  channel := ⟨0, .of_start ha ⟨rfl, rfl, rfl⟩⟩
  nonempty := by intro m hm; cases hm
  range := Link.inRange_init _ _ _ _
  collected := rfl
  one h := absurd rfl h
  server := .nil
  found := rfl
  taken := by intro t ht; cases ht

/-- A link that finds a request for the server, while the tester waits, has nothing to send. -/
theorem idle_of_waiting (h : SessionInv a₀ us x ticks) {l r : End} {b₀ : Link} {n : ℕ}
    (hi : DuplexInv a₀ b₀ ⟨l, r⟩ n) (hsent : l.sent = x.tester.sent) (hgot : l.got = x.tester.got)
    (hout : r.sent = x.ecu.sent) (hin : r.got = x.ecu.got) (hw : r.link.rx.waiting ≠ []) :
    r.link.tx.phase = .idle := by
  obtain ⟨pending, hforth, -⟩ := hi.forth.flight
  obtain ⟨pending', hback, hfl⟩ := hi.back.flight
  have hne : x.ecu.got ≠ x.tester.sent := by
    intro heq
    rw [show (Duplex.mk l r).left.sent = x.tester.sent from hsent,
      show (Duplex.mk l r).right.got = x.ecu.got from hin, ← heq, List.append_assoc,
      List.self_eq_append_right, List.append_eq_nil_iff] at hforth
    exact hw hforth.1
  obtain ⟨hover, -⟩ := h.one hne
  rw [show (Duplex.mk l r).swap.left.sent = x.ecu.sent from hout,
    show (Duplex.mk l r).swap.right.got = x.tester.got from hgot, hover, List.append_assoc,
    List.self_eq_append_right, List.append_eq_nil_iff] at hback
  obtain ⟨-, rfl⟩ := hback
  cases hfl with
  | empty hp => exact hp

/-- What a poll finds is what is collected. -/
theorem request_eq {L : Type} (T : Transport L) (t : Tick L) (l : Link)
    (hr : (T.receive t.link).2 = (l.isotpReceive isotpMaxMsg).2)
    (hne : ∀ m ∈ l.returns (.receive isotpMaxMsg), m ≠ []) :
    (t.request T).map Prod.fst = l.returns (.receive isotpMaxMsg) := by
  unfold Tick.request
  unfold Link.returns at hne ⊢
  dsimp only at hne ⊢
  rw [hr]
  by_cases hret : (l.isotpReceive isotpMaxMsg).2.ret = .ok
  · rw [if_pos hret] at hne ⊢
    have hlen := hne _ rfl
    rw [if_neg]
    · rfl
    · rintro (h | h)
      · exact h hret
      · exact hlen (List.length_eq_zero_iff.1 h)
  · rw [if_neg hret, if_pos (.inl hret)]
    rfl

/-- What the poll of the server does in a turn, on the link `l`. -/
structure Served (x : Session) (t : Turn) (l : Link) (p : Poll (Link × List Bool) UInt32) :
    Prop where
  few : p.sent.length ≤ 1
  taken : ∀ y ∈ p.sent, Taken y.2
  quiet : l.returns (.receive isotpMaxMsg) = none → p.sent = []
  sends : (benchTransport t.sendUs).SendsAll ((l.isotpReceive isotpMaxMsg).1, t.serverTx) p.sent
    p.link
  script : x.server.poll scriptTransport (x.scripted t p) =
    some (p.script (l.isotpReceive isotpMaxMsg).2 [])
  found : ((x.scripted t p).request scriptTransport).map Prod.fst =
    l.returns (.receive isotpMaxMsg)

/-- The poll of the server in a turn. -/
theorem served (h : SessionInv a₀ us x ticks) {t : Turn} {p : Poll (Link × List Bool) UInt32}
    (hp : x.bench.serverPoll t = some p) (htx : [true, true] <+: t.serverTx)
    (hne : ∀ m ∈ (x.bench.polled t).returns (.receive isotpMaxMsg), m ≠ [])
    (hidle : (x.bench.polled t).returns (.receive isotpMaxMsg) ≠ none →
      (x.bench.polled t).tx.phase = .idle) : Served x t (x.bench.polled t) p := by
  have hreq := request_eq (benchTransport t.sendUs) ⟨(x.bench.polled t, t.serverTx),
    benchMillis t.serverUs - x.bench.lastMs, t.random⟩ (x.bench.polled t) rfl hne
  have hdone := polled_of_poll _ hp
  have hpoll : (⟨x.server, (x.bench.polled t, t.serverTx), t.random, [], false⟩ :
      Poll (Link × List Bool) UInt32).udsServerPoll (benchTransport t.sendUs) benchServices
        (benchMillis t.serverUs - x.bench.lastMs) = some p := hp
  have hheadD : t.serverTx.headD false = true := by
    obtain ⟨txs, htxs⟩ := htx
    rw [← htxs]
    rfl
  obtain ⟨hlen, htaken⟩ := sent_taken hdone (respCap_of_run h.server.of_withAux).le (fun hr => by
    refine hidle fun hnone => hr ?_
    rw [hnone, Option.map_eq_none_iff] at hreq
    exact hreq) hheadD
  obtain ⟨new, hsent, hall, hscript⟩ := Poll.udsServerPoll_replay hpoll
  obtain rfl : p.sent = new := hsent
  refine ⟨hlen, htaken, fun hr => ?_, hall, hscript, request_eq _ _ _ rfl hne⟩
  rw [hr, Option.map_eq_none_iff] at hreq
  cases hdone with
  | quiet _ _ hsent => exact hsent
  | unknown hreq' | answered hreq' => rw [hreq] at hreq'; cases hreq'

/-- The link when the poll of the server has collected what it found. -/
theorem collected_turn (h : SessionInv a₀ us x ticks) (arrives : Bool) (t : Turn) :
    ((x.bench.polled (x.framed arrives t)).isotpReceive isotpMaxMsg).1.InRange ∧
      ((x.bench.polled (x.framed arrives t)).isotpReceive isotpMaxMsg).1.rx.complete = false := by
  have hfed : (x.bench.fed (x.framed arrives t)).InRange := by
    unfold State.fed
    split
    · exact h.range.step _
    · exact h.range
  have hpolled : (x.bench.polled (x.framed arrives t)).InRange := hfed.step _
  refine ⟨hpolled.step (.receive isotpMaxMsg), ?_⟩
  unfold Link.isotpReceive
  split
  · assumption
  · rw [if_neg (Nat.not_lt.2 hpolled.len)]

/-- A turn of the bench. -/
theorem turn (h : SessionInv a₀ us x ticks) (hab : Connected a₀ (init us).link) {arrives : Bool}
    {t : Turn} (hproper : x.Proper (.turn arrives t))
    (hst : x.step (.turn arrives t) = some x') :
    SessionInv a₀ us x' (x.calls (.turn arrives t) ticks) := by
  obtain ⟨b, hb, hst⟩ := Option.bind_eq_some_iff.1 hst
  obtain ⟨p, hp, rfl⟩ := Option.map_eq_some_iff.1 hst
  obtain ⟨p', hp', rfl⟩ := State.turn_eq hb
  obtain rfl := Option.some.inj (hp.symm.trans hp')
  have htx : [true, true] <+: t.serverTx := hproper.1.2
  obtain ⟨n, hpolled⟩ := x.polled_channel h.channel hab h.collected hproper
  -- the poll of the server begins by collecting what the link has completed
  have hcollect := right_step ⟨n, hpolled⟩ hab (s := .receive isotpMaxMsg) trivial rfl
  rw [show Link.handed _ (.receive isotpMaxMsg) = none from rfl, Option.toList_none,
    List.append_nil] at hcollect
  simp only [End.after, Link.takes, Option.toList_none, List.append_nil] at hcollect
  obtain ⟨hwait, -⟩ := (x.bench.polled (x.framed arrives t)).receive_waiting isotpMaxMsg
  have hserved : Served x (x.framed arrives t) (x.bench.polled (x.framed arrives t)) p := by
    refine h.served hp htx (fun m hm => ?_) fun hr => ?_
    · obtain ⟨n, hi⟩ := hcollect
      refine h.nonempty m (hi.forth.got_le.subset (List.mem_append_right _ ?_))
      rw [show (x.bench.polled (x.framed arrives t)).returns (.receive isotpMaxMsg) = some m
        from hm]
      exact List.mem_singleton_self m
    · refine h.idle_of_waiting hpolled rfl rfl rfl rfl fun hw => hr ?_
      rw [show (End.mk (x.bench.polled (x.framed arrives t)) _ _ _).link.rx.waiting = _ from
        hwait.symm, List.append_eq_nil_iff, Option.toList_eq_nil_iff] at hw
      exact hw.1
  have hreplicate : List.replicate p.sent.length true <+: t.serverTx := by
    refine List.IsPrefix.trans ?_ htx
    rcases Nat.le_one_iff_eq_zero_or_eq_one.1 hserved.few with h0 | h1
    · rw [h0]; decide
    · rw [h1]; decide
  obtain ⟨n', hends⟩ := right_sends hserved.sends hab hreplicate hserved.taken hcollect
  have hfilter : p.sent.filter (fun y => Taken y.2) = p.sent :=
    List.filter_eq_self.2 fun y hy => decide_eq_true (hserved.taken y hy)
  have hkeep := hserved.sends.keeps (I := fun k => k.1.InRange ∧ k.1.rx.complete = false)
    (h.collected_turn arrives t) fun k pdu hk => ⟨hk.1.step (.send _ pdu), by
      rw [show ((benchTransport _).send k pdu).1.1.rx = k.1.rx from Link.isotpSend_rx _ _ _]
      exact hk.2⟩
  have hcalls : x.calls (.turn arrives t) ticks =
      ticks ++ [x.scripted (x.framed arrives t) p] := by rw [Session.calls, hp]; rfl
  rw [hcalls]
  refine ⟨⟨n', ?_⟩, h.nonempty, hkeep.1, hkeep.2, ?_, ?_, ?_, ?_⟩
  · rw [Session.ends, Session.afterTurn, hfilter, State.hands]
    dsimp only
    rw [← List.append_assoc _ _ (sendFrames _ _ _), ← List.append_assoc x.tester.inbox]
    exact hends
  · intro hne
    cases hr : (x.bench.polled (x.framed arrives t)).returns (.receive isotpMaxMsg) with
    | none =>
      simp only [Session.afterTurn, hr, hserved.quiet hr, Option.toList_none, List.append_nil,
        List.filter_nil, List.map_nil] at hne ⊢
      exact h.one hne
    | some m =>
      -- the one request that was on its way has arrived
      have hle : x.ecu.got ++ (Option.toList _) <+: x.tester.sent := hends.forth.got_le
      rw [hr, Option.toList_some] at hle
      have hgot : x.ecu.got ≠ x.tester.sent := by
        intro heq
        have hlen := hle.length_le
        rw [← heq, List.length_append, List.length_singleton] at hlen
        omega
      have hone := (h.one hgot).2
      refine absurd (show x.ecu.got ++ (Option.toList _) = x.tester.sent from ?_) hne
      rw [hr, Option.toList_some]
      refine hle.eq_of_length ?_
      rw [List.length_append, List.length_singleton, hone]
  · refine .snoc h.server ⟨?_, ?_⟩
    · show (x.server.poll scriptTransport _).map Poll.server = some p.server
      rw [hserved.script]
      rfl
    · rw [answers, hserved.script]
      show x.ecu.sent ++ _ = _
      rw [hfilter]
      rfl
  · rw [List.filterMap_append, h.found, List.filterMap_cons, hserved.found]
    show _ = x.ecu.got ++ (Option.toList _)
    cases (x.bench.polled (x.framed arrives t)).returns (.receive isotpMaxMsg) <;> rfl
  · intro tick htick r hr
    rcases List.mem_append.1 htick with htick | htick
    · exact h.taken tick htick r hr
    · obtain rfl := List.mem_singleton.1 htick
      obtain ⟨y, hy, rfl⟩ := List.mem_map.1 hr
      exact hserved.taken y hy

/-- A step of the tester. -/
theorem tester (h : SessionInv a₀ us x ticks) (hab : Connected a₀ (init us).link) {s : EndStep}
    (hproper : x.Proper (.tester s)) (hst : x.step (.tester s) = some x') :
    SessionInv a₀ us x' (x.calls (.tester s) ticks) := by
  obtain ⟨d, hd, rfl⟩ := Option.map_eq_some_iff.1 hst
  obtain ⟨n, hi⟩ := h.channel
  have hi' := hi.step (s := (.left, s)) hab hproper.1 hd
  obtain ⟨c, hc, rfl⟩ := Option.map_eq_some_iff.1 hd
  have htakes (m : List UInt8) (hm : m ∈ x.tester.link.takes c) : m ≠ [] ∧ x.Over := by
    cases s with
    | send now msg =>
      obtain rfl := Option.some.inj hc
      rcases x.tester.link.send_cases now msg with ⟨hno, -⟩ | ⟨htake, -, hb, -⟩
      · rw [hno] at hm; cases hm
      · rw [htake] at hm
        obtain rfl := Option.some.inj hm
        exact ⟨hb.ne_nil, hproper.2 trivial⟩
    | poll | receive => obtain rfl := Option.some.inj hc; cases hm
    | deliver now =>
      obtain ⟨f, rest, -, rfl⟩ := deliver_cases hc
      cases hm
  refine ⟨⟨_, hi'⟩, fun m hm => ?_, h.range, h.collected, fun hne => ?_, h.server, h.found, h.taken⟩
  · rcases List.mem_append.1 hm with hm | hm
    · exact h.nonempty m hm
    · exact (htakes m (Option.mem_toList.1 hm)).1
  · -- what the tester collects while its request is on its way is nothing
    have hgot : x.tester.got ++ (x.tester.link.returns c).toList <+: x.ecu.sent := hi'.back.got_le
    have hone : x.tester.got = x.ecu.sent ∧
        (x.tester.sent ++ (x.tester.link.takes c).toList).length = x.ecu.got.length + 1 := by
      cases htake : x.tester.link.takes c with
      | none =>
        rw [Option.toList_none, List.append_nil]
        refine h.one fun heq => hne ?_
        show x.ecu.got = x.tester.sent ++ (x.tester.link.takes c).toList
        rw [htake, Option.toList_none, List.append_nil, heq]
      | some m =>
        obtain ⟨-, hin, hout⟩ := htakes m htake
        rw [Option.toList_some, List.length_append, List.length_singleton, hin]
        exact ⟨hout, rfl⟩
    refine ⟨hgot.eq_of_length_le ?_, hone.2⟩
    rw [List.length_append, hone.1]
    exact Nat.le_add_right _ _

theorem step (h : SessionInv a₀ us x ticks) (hab : Connected a₀ (init us).link) {s : SessionStep}
    (hproper : x.Proper s) (hst : x.step s = some x') : SessionInv a₀ us x' (x.calls s ticks) := by
  cases s with
  | tester s => exact h.tester hab hproper hst
  | turn arrives t => exact h.turn hab hproper hst

end SessionInv

/-! ### Runs -/

/-- A tester that asks whether the server is there, and collects the answer. -/
def testerPresent : Option (Session × List (Tick Script)) :=
  let turn : Turn := ⟨none, 0, 1000, true, 1000, 1000, [true, true], 0⟩
  System.exec Session.step Session.Proper Session.calls
    (.start (isotpInit cfgBenchRxId cfgBenchTxId isotpNoFuncId none) 0, [])
    [.tester (.send 0 [0x3E, 0x00]), .turn true turn, .tester (.deliver 2), .tester (.receive 4095)]

end Bench

end Espcan32

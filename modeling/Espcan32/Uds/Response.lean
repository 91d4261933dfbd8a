import Espcan32.IsoTp.Sides
import Espcan32.Uds.Invariant

/-!
# The response

What the server hands to `isotp_send()` for a request, when the link is idle and `can_tx`
succeeds.

* `Server.result` : what the handler of a request returns.
* `Silent` : the results that are not sent.
* `response_discipline` : **one well-formed PDU for every request, or silence exactly where it is
  due**.
-/

namespace Espcan32

namespace Uds

open IsoTp (Ret Link Env isotpMaxMsg)

/-! ### Results and PDUs -/

/-- The result of a request: what its handler returns, or serviceNotSupported. -/
def Server.result {L : Type} (s : Server) (t : Tick L) (req : List UInt8) (functional : Bool) :
    Option Result := do
  match udsFindService benchServices (← req[0]?) with
  | some ⟨_, _, some fn⟩ =>
    let (_, disp, c, _) ← fn t.random ((s.takeUp t.elapsedMs).ctx req functional)
      (s.takeUp t.elapsedMs).g
    match disp with
    | .positive => some (.positive (c.resp.read 0 c.respLen) c.session)
    | .negative => some (.negative c.nrc)
    | _ => none
  | _ => some (.negative Nrc.sns)

/-- The results that are not sent: a positive one to a service with a suppress bit that is set, and
some negative ones to a functional request. -/
def Silent (req : List UInt8) (functional : Bool) : Result → Prop
  | .positive _ _ =>
    (∃ sid ∈ req[0]?, sid = 0x10 ∨ sid = 0x11 ∨ sid = 0x31 ∨ sid = 0x3E) ∧
      ∃ b ∈ req[1]?, b &&& 0x80 ≠ 0
  | .negative nrc =>
    functional = true ∧ (nrc = 0x11 ∨ nrc = 0x12 ∨ nrc = 0x31 ∨ nrc = 0x7E ∨ nrc = 0x7F)

/-- The second byte of a positive response to a request with the sub-function `b`. -/
def echo (sid b : UInt8) : UInt8 := if sid = 0x27 then b else b &&& 0x7F

/-- A PDU answers a request with a result. -/
def PduFor (sid : UInt8) (tl pdu : List UInt8) : Result → Prop
  | .negative nrc => pdu = [0x7F, sid, nrc]
  | .positive _ _ =>
    ∃ rest, pdu = (sid + 0x40) :: rest ∧
      (sid = 0x10 ∨ sid = 0x11 ∨ sid = 0x27 ∨ sid = 0x31 ∨ sid = 0x3E →
        ∃ b ∈ tl.head?, rest.head? = some (echo sid b))

/-- Every positive response has the right form. -/
theorem Effect.pduFor {random : UInt32} {sid : UInt8} {tl resp : List UInt8}
    {session session' : UInt8} {g g' : Statics}
    (h : Effect random (sid :: tl) session g (.positive resp session') g') :
    PduFor sid tl resp (.positive resp session') := by
  cases h with
  | session hr | reset hr | noReset hr | seed hr | zeroSeed hr | unlock hr | routine hr =>
    obtain ⟨rfl, rfl⟩ := List.cons.inj hr
    exact ⟨_, rfl, fun _ => ⟨_, rfl, rfl⟩⟩
  | present hr hsub =>
    obtain ⟨rfl, rfl⟩ := List.cons.inj hr
    exact ⟨_, rfl, fun _ => ⟨_, rfl, congrArg some hsub.symm⟩⟩
  | dids hr | download hr | block hr | again hr | exit hr =>
    obtain ⟨rfl, rfl⟩ := List.cons.inj hr
    exact ⟨_, rfl, fun hsid => absurd hsid (by decide)⟩

/-! ### Suppression -/

theorem suppressed_iff {sid : UInt8} {tl resp : List UInt8} {functional : Bool} {session : UInt8} :
    Poll.suppressed sid (sid :: tl) = true ↔
      Silent (sid :: tl) functional (.positive resp session) := by
  unfold Poll.suppressed udsSidHasSuppress Silent
  rw [Bool.and_eq_true, Option.any_eq_true]
  simp only [decide_eq_true_eq, List.getElem?_cons_zero, Option.mem_def, Option.some.injEq,
    exists_eq_left']
  rfl

theorem suppressedNrc_iff {req : List UInt8} {functional : Bool} {nrc : UInt8} :
    (functional ∧ udsNrcSuppressedOnFunctional nrc) ↔ Silent req functional (.negative nrc) := by
  unfold udsNrcSuppressedOnFunctional Silent
  rw [decide_eq_true_eq]
  rfl

/-! ### The idle link -/

/-- An idle link takes every message that is not too long, if `can_tx` succeeds. -/
theorem taken_of_idle {e : Env} {l : Link} {data : List UInt8} (hcan : e.canTx = true)
    (hidle : l.tx.phase = .idle) (hpos : 0 < data.length) (hmax : data.length ≤ isotpMaxMsg) :
    Taken ((linkTransport e).send l data).2 := by
  show Taken (l.isotpSend e data).2.1
  rcases l.isotpSend_cases e data with ⟨h, -⟩ | ⟨-, -, -, h, -⟩ | ⟨-, -, -, h, -⟩
  · rcases h with h | h | h
    · exact absurd hidle h
    · omega
    · omega
  · rw [h, if_pos hcan]; exact .inl rfl
  · rw [h, if_pos hcan]; exact .inr rfl

/-- Taking up a request does not touch the send side of the link. -/
theorem receive_tx (e : Env) (l : Link) : ((linkTransport e).receive l).1.tx = l.tx := by
  obtain ⟨rx, h⟩ := l.isotpReceive_eq isotpMaxMsg
  show (l.isotpReceive isotpMaxMsg).1.tx = l.tx
  rw [h]

/-! ### Polls -/

section

variable {L : Type} {T : Transport L} {s : Server} {t : Tick L}

/-- The capacity of the response buffer is what `uds_server_init()` was given. -/
theorem respCap_of_run {respBuf : Mem UInt8} {respCap : ℕ} {ts : List (Tick L)}
    (hrun : (udsSystem T).Run (udsServerInit respBuf respCap) ts s) : s.respCap = respCap := by
  refine hrun.invariant (I := fun s => s.respCap = respCap) rfl fun s t s' hinv hst => ?_
  obtain ⟨p, -, rfl, hpolled⟩ := step_polled T hst
  exact hpolled.respCap.trans hinv

theorem result_unknown {sid : UInt8} {tl : List UInt8} {functional : Bool}
    (hfind : udsFindService benchServices sid = none) :
    s.result t (sid :: tl) functional = some (.negative Nrc.sns) := by
  unfold Server.result
  rw [List.getElem?_cons_zero]
  simp only [Option.bind_eq_bind, Option.bind_some]
  rw [hfind]

theorem result_answered {sid : UInt8} {tl : List UInt8} {functional : Bool} {v : Result}
    {g : Statics}
    (hmeets : ∃ h, udsFindService benchServices sid = some ⟨sid, 0, some (builtin h)⟩ ∧
      Meets ((s.takeUp t.elapsedMs).ctx (sid :: tl) functional)
        (h t.random ((s.takeUp t.elapsedMs).ctx (sid :: tl) functional) (s.takeUp t.elapsedMs).g)
        v g) :
    s.result t (sid :: tl) functional = some v := by
  obtain ⟨h, hfind, hmeets⟩ := hmeets
  unfold Server.result
  rw [List.getElem?_cons_zero]
  simp only [Option.bind_eq_bind, Option.bind_some]
  rw [hfind]
  dsimp only
  unfold builtin
  generalize h t.random ((s.takeUp t.elapsedMs).ctx (sid :: tl) functional)
    (s.takeUp t.elapsedMs).g = r at hmeets
  cases hmeets with
  | negative nrc resp => rfl
  | positive bs session resp _ hlen hpos hresp =>
    rw [Option.map_some, Option.bind_some]
    dsimp only
    rw [hresp]

/-- A negative response code is sent once, or not at all. -/
theorem SendsNrc.discipline {sid nrc : UInt8} {tl : List UInt8} {functional : Bool}
    {sent : List (List UInt8 × Ret)} (h : SendsNrc sid nrc functional sent) :
    (Silent (sid :: tl) functional (.negative nrc) → sent = []) ∧
      (¬Silent (sid :: tl) functional (.negative nrc) →
        ∃ pdu r, sent = [(pdu, r)] ∧ PduFor sid tl pdu (.negative nrc)) := by
  unfold SendsNrc at h
  refine ⟨fun hs => ?_, fun hs => ?_⟩
  · rwa [if_pos (suppressedNrc_iff.2 hs)] at h
  · rw [if_neg fun h => hs (suppressedNrc_iff.1 h)] at h
    obtain ⟨r, rfl⟩ := h
    exact ⟨_, r, rfl, rfl⟩

end

/-- **Response discipline**: a server with a response buffer of 4095 bytes, in any state that it
can reach over any transport, polled on an idle link whose `can_tx` succeeds, hands exactly one
PDU to `isotp_send()` for a request, and it answers the request with the result of its handler; or
it hands over nothing, exactly when the result is one that is not sent. -/
theorem response_discipline {L₀ : Type} {T₀ : Transport L₀} {respBuf : Mem UInt8}
    {ts : List (Tick L₀)} {s : Server}
    (hrun : (udsSystem T₀).Run (udsServerInit respBuf 4095) ts s) {e : Env}
    (hcan : e.canTx = true) {t : Tick Link} (hidle : t.link.tx.phase = .idle) {sid : UInt8}
    {tl : List UInt8} {functional : Bool}
    (hreq : t.request (linkTransport e) = some (sid :: tl, functional)) :
    ∃ p v, s.poll (linkTransport e) t = some p ∧ s.result t (sid :: tl) functional = some v ∧
      (Silent (sid :: tl) functional v → p.sent = []) ∧
      (¬Silent (sid :: tl) functional v →
        ∃ pdu r, p.sent = [(pdu, r)] ∧ PduFor sid tl pdu v) := by
  obtain ⟨p, hp, hpolled⟩ := poll_cases (linkTransport e) s t
  cases hpolled with
  | quiet hnone => rw [hreq] at hnone; cases hnone
  | unknown hreq' hfind hserver hsent =>
    obtain ⟨rfl, rfl, rfl⟩ := request_unique _ hreq hreq'
    exact ⟨p, _, hp, result_unknown hfind, hsent.discipline⟩
  | @answered sid' tl' functional' v g hreq' hmeets heffect hlen hserver hsent hfirst =>
    obtain ⟨rfl, rfl, rfl⟩ := request_unique _ hreq hreq'
    refine ⟨p, v, hp, result_answered hmeets, ?_⟩
    cases v with
    | negative nrc => exact SendsNrc.discipline hsent
    | positive resp session =>
      simp only [Sends] at hsent
      refine ⟨fun hs => ?_, fun hs => ?_⟩
      · rwa [if_pos (suppressed_iff.2 hs)] at hsent
      · rw [if_neg fun h => hs (suppressed_iff.1 h)] at hsent
        rcases hsent with ⟨r, -, hsent⟩ | ⟨r, r', hr, hsent⟩
        · exact ⟨resp, r, hsent, heffect.pduFor⟩
        · -- an idle link refuses nothing
          obtain ⟨hpos, hmax⟩ := hlen resp session rfl
          rw [respCap_of_run hrun] at hmax
          have hsend : r = ((linkTransport e).send ((linkTransport e).receive t.link).1 resp).2 :=
            hfirst (resp, r) (by rw [hsent]; rfl)
          refine absurd ?_ hr
          rw [hsend]
          exact taken_of_idle hcan (by rw [receive_tx]; exact hidle) hpos hmax

/-- The server of the host tests is asked for one of its identifiers. -/
theorem response_discipline_readDid :
    ∃ p v, (udsServerInit (fun _ => 0) 4095).poll (linkTransport ⟨0, true⟩)
        (heldTick [0x22, 0xF1, 0x97] 1 0) = some p ∧
      (udsServerInit (fun _ => 0) 4095).result (heldTick [0x22, 0xF1, 0x97] 1 0) [0x22, 0xF1, 0x97]
        false = some v ∧
      (¬Silent [0x22, 0xF1, 0x97] false v →
        ∃ pdu r, p.sent = [(pdu, r)] ∧ PduFor 0x22 [0xF1, 0x97] pdu v) := by
  have hrun : (udsSystem (linkTransport ⟨0, true⟩)).Run (udsServerInit (fun _ => 0) 4095) []
      (udsServerInit (fun _ => 0) 4095) := .nil
  have hreq : (heldTick [0x22, 0xF1, 0x97] 1 0).request (linkTransport ⟨0, true⟩) =
      some ([0x22, 0xF1, 0x97], false) := by decide +kernel
  obtain ⟨p, v, hp, hv, -, hsent⟩ := response_discipline hrun rfl (by decide) hreq
  exact ⟨p, v, hp, hv, hsent⟩

end Uds

end Espcan32

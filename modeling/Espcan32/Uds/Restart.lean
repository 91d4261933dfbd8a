import Espcan32.Uds.Response

/-!
# When the server restarts

An ECUReset asks for the restart in its handler, a refused response calls it off, and the end of
the poll carries it out, all through one static.

* `Effect.pendingReset_iff` : which request leaves a restart pending.
* `Sends.accepted_iff` : when its response counts as delivered.
* `restart_iff` : **a poll restarts exactly if it has answered an ECUReset**.
-/

namespace Espcan32

namespace Uds

open IsoTp (Ret)

/-- A restart is pending after a request exactly if it is an ECUReset of the three types that
restart and its result is the positive response. -/
theorem Effect.pendingReset_iff {random : UInt32} {req : List UInt8} {session : UInt8} {v : Result}
    {g g' : Statics} (h : Effect random req session g v g') (hnone : g.pendingReset = false) :
    g'.pendingReset = true ↔
      ∃ b tl session', req = Sid.ecuReset :: b :: tl ∧
        (subFunction b = 0x01 ∨ subFunction b = 0x02 ∨ subFunction b = 0x03) ∧
        v = .positive [Sid.ecuReset + udsPosRespOffset, subFunction b] session' := by
  cases h with
  | reset hreq hsub => exact ⟨fun _ => ⟨_, _, _, hreq, hsub, rfl⟩, fun _ => rfl⟩
  | noReset hreq hlow hsub =>
    refine iff_of_false (ne_true_of_eq_false hnone) ?_
    rintro ⟨b, tl, session', hr, hsub', -⟩
    obtain ⟨-, htl⟩ := List.cons.inj (hreq.symm.trans hr)
    obtain ⟨rfl, -⟩ := List.cons.inj htl
    exact absurd hsub' hsub
  | refused | badKey | lockout =>
    refine iff_of_false (ne_true_of_eq_false hnone) ?_
    rintro ⟨b, tl, session', -, -, hv⟩
    cases hv
  | session hreq | dids hreq | seed hreq | zeroSeed hreq | unlock hreq | routine hreq | present hreq
  | download hreq | block hreq | again hreq | exit hreq =>
    refine iff_of_false (ne_true_of_eq_false hnone) ?_
    rintro ⟨b, tl, session', hr, -, -⟩
    exact absurd (List.cons.inj (hreq.symm.trans hr)).1 (by decide)

/-- A positive response counts as delivered if it is suppressed, or if it is taken. -/
theorem Sends.accepted_iff {sid : UInt8} {suppress functional : Bool} {resp : List UInt8}
    {session : UInt8} {sent : List (List UInt8 × Ret)}
    (h : Sends sid suppress functional (.positive resp session) sent)
    (hresp : resp.head? ≠ some udsNegRespSid) :
    Accepted sent ↔ suppress = true ∨ ∃ r, Taken r ∧ (resp, r) ∈ sent := by
  cases suppress with
  | true =>
    have hsent : sent = [] := h
    rw [hsent]
    exact iff_of_true (fun x hx => by cases hx) (.inl rfl)
  | false =>
    rcases h with ⟨r, hr, rfl⟩ | ⟨r, r', hr, rfl⟩
    · refine iff_of_true ?_ (.inr ⟨r, hr, List.mem_singleton.2 rfl⟩)
      rintro x ⟨⟩
      exact hr
    · refine iff_of_false (fun hacc => hr (hacc _ rfl)) ?_
      rintro (hs | ⟨q, hq, hmem⟩)
      · cases hs
      · simp only [List.mem_cons, List.not_mem_nil, or_false, Prod.mk.injEq] at hmem
        rcases hmem with ⟨-, rfl⟩ | ⟨rfl, -⟩
        · exact hr hq
        · exact hresp rfl

theorem resetResp_head (b : UInt8) :
    [Sid.ecuReset + udsPosRespOffset, subFunction b].head? ≠ some udsNegRespSid := by
  rw [List.head?_cons]
  decide

section

variable {L : Type} (T : Transport L)

/-- The request of the poll `t` is an ECUReset of the three types that restart, its result is the
positive response, and bit 7 suppresses that or `isotp_send()` has taken it. -/
def ResetAnswered (s : Server) (t : Tick L) (p : Poll L UInt32) : Prop :=
  ∃ b tl functional session, t.request T = some (Sid.ecuReset :: b :: tl, functional) ∧
    (subFunction b = 0x01 ∨ subFunction b = 0x02 ∨ subFunction b = 0x03) ∧
    s.result t (Sid.ecuReset :: b :: tl) functional =
      some (.positive [Sid.ecuReset + udsPosRespOffset, subFunction b] session) ∧
    (b &&& udsSuppressPosRsp ≠ 0 ∨
      ∃ r, Taken r ∧ ([Sid.ecuReset + udsPosRespOffset, subFunction b], r) ∈ p.sent)

end

variable {L : Type} {T : Transport L} {s : Server} {t : Tick L} {p : Poll L UInt32}

/-- The restart of a poll whose handler has answered. -/
theorem restarted_answered {sid : UInt8} {tl : List UInt8} {functional : Bool} {v : Result}
    {g : Statics} (hrestart : p.restarted =
      match v with
      | .negative _ => g.pendingReset
      | .positive _ _ => g.pendingReset && Accepted p.sent)
    (hnone : s.g.pendingReset = false) (hreq : t.request T = some (sid :: tl, functional))
    (hresult : s.result t (sid :: tl) functional = some v)
    (heffect : Effect t.random (sid :: tl) s.session (s.takeUp t.elapsedMs).g v g)
    (hsent : Sends sid (Poll.suppressed sid (sid :: tl)) functional v p.sent) :
    p.restarted = true ↔ ResetAnswered T s t p := by
  have hpending := heffect.pendingReset_iff hnone
  cases v with
  | negative nrc =>
    rw [hrestart, hpending]
    constructor
    · rintro ⟨b, tl', session', -, -, hv⟩
      cases hv
    · rintro ⟨b, tl', functional', session', hreq', -, hresult', -⟩
      obtain ⟨hr, rfl⟩ := Prod.mk.inj (Option.some.inj (hreq.symm.trans hreq'))
      rw [← hr, hresult] at hresult'
      cases hresult'
  | positive resp session =>
    rw [hrestart, Bool.and_eq_true, hpending, decide_eq_true_eq]
    constructor
    · rintro ⟨⟨b, tl', session', hr, hsub, hv⟩, hacc⟩
      obtain ⟨rfl, rfl⟩ := List.cons.inj hr
      obtain ⟨rfl, rfl⟩ := Result.positive.inj hv
      refine ⟨b, tl', functional, session, hreq, hsub, hresult, ?_⟩
      refine ((hsent.accepted_iff (resetResp_head b)).1 hacc).imp_left fun hsuppress => ?_
      simpa [Poll.suppressed, udsSidHasSuppress] using hsuppress
    · rintro ⟨b, tl', functional', session', hreq', hsub, hresult', hdone⟩
      obtain ⟨hr, rfl⟩ := Prod.mk.inj (Option.some.inj (hreq.symm.trans hreq'))
      obtain ⟨rfl, rfl⟩ := List.cons.inj hr
      obtain ⟨rfl, rfl⟩ := Result.positive.inj (Option.some.inj (hresult.symm.trans hresult'))
      refine ⟨⟨b, tl', _, rfl, hsub, rfl⟩, (hsent.accepted_iff (resetResp_head b)).2 ?_⟩
      refine hdone.imp_left fun hbit => ?_
      simpa [Poll.suppressed, udsSidHasSuppress] using hbit

/-- **A poll restarts exactly if it has answered an ECUReset**, after every run and over any
transport: its own request is an ECUReset of the three types that restart, and the positive
response to it has been taken or was suppressed.  No restart is left for a later poll. -/
theorem restart_iff {respBuf : Mem UInt8} {respCap : ℕ} {ts : List (Tick L)}
    (hrun : (udsSystem T).Run (udsServerInit respBuf respCap) ts s)
    (hp : s.poll T t = some p) :
    (p.restarted = true ↔ ResetAnswered T s t p) ∧ p.server.g.pendingReset = false := by
  have hsound := sound_of_run hrun
  have hpolled := polled_of_poll T hp
  have hst : (udsSystem T).step s t p.server := by
    show (s.poll T t).map Poll.server = some p.server
    rw [hp, Option.map_some]
  refine ⟨?_, (hsound.step hst).noReset⟩
  cases hpolled with
  | quiet hreq hserver hsent hrestart =>
    rw [hrestart]
    refine iff_of_false (by decide) ?_
    rintro ⟨b, tl, functional, session, hreq', -⟩
    rw [hreq] at hreq'
    cases hreq'
  | unknown hreq hfind hserver hsent hfirst hrestart =>
    rw [hrestart]
    refine iff_of_false (by decide) ?_
    rintro ⟨b, tl, functional, session, hreq', -⟩
    obtain ⟨rfl, -⟩ := request_unique T hreq hreq'
    exact absurd hfind (by decide)
  | answered hreq hmeets heffect hlen hserver hsent hfirst hrestart =>
    exact restarted_answered hrestart hsound.noReset hreq (result_answered hmeets) heffect hsent

/-- A soft reset on the link of the host tests. -/
theorem restart_iff_softReset :
    ∃ p, (udsServerInit (fun _ => 0) 4095).poll (linkTransport ⟨0, true⟩)
        (heldTick [0x11, 0x03] 1 0) = some p ∧ p.restarted = true ∧
      ResetAnswered (linkTransport ⟨0, true⟩) (udsServerInit (fun _ => 0) 4095)
        (heldTick [0x11, 0x03] 1 0) p := by
  have hrun : (udsSystem (linkTransport ⟨0, true⟩)).Run (udsServerInit (fun _ => 0) 4095) []
      (udsServerInit (fun _ => 0) 4095) := .nil
  have hrestart : ((udsServerInit (fun _ => 0) 4095).poll (linkTransport ⟨0, true⟩)
      (heldTick [0x11, 0x03] 1 0)).map Poll.restarted = some true := by decide +kernel
  obtain ⟨p, hp, hrestart⟩ := Option.map_eq_some_iff.1 hrestart
  exact ⟨p, hp, hrestart, (restart_iff hrun hp).1.1 hrestart⟩

end Uds

end Espcan32

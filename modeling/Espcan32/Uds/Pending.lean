import Espcan32.Uds.Server

/-!
# What follows a ResponsePending

A handler that needs more time has `7F SID 78` sent and is called again, up to eight times.  The
suppress bit, the functional address and `UDS_NO_RESPONSE` then decide about the final response as
if nothing had been sent.

* `outcome` : what a handler settles on, and how often it has asked for more time.
* `dispatch_sent` : **all that is handed over for a request**.
* `final_iff` : **the tester gets its final answer exactly if nothing silences the handler**.

The handler is an arbitrary function, in an arbitrary table, over any transport.
-/

namespace Espcan32

namespace Uds

open IsoTp (Ret)

variable {L W : Type} {T : Transport L}

/-! ### Outcomes -/

/-- The calls after the first one, with `n` left: how many there are, and what the last returns. -/
def settled (fn : Handler W) : ℕ → W → Disp → Ctx → Statics → Option (ℕ × Disp × Ctx)
  | n + 1, w, .responsePending, c, g => do
    let (w, disp, c, g) ← fn w { c with respLen := 0, nrc := Nrc.generalReject } g
    let (k, disp, c) ← settled fn n w disp c g
    some (k + 1, disp, c)
  | _, _, disp, c, _ => some (0, disp, c)

/-- What a handler settles on, and how often it has asked for more time. -/
def outcome (fn : Handler W) (w : W) (c : Ctx) (g : Statics) : Option (ℕ × Disp × Ctx) := do
  let (w, disp, c, g) ← fn w c g
  settled fn udsMaxPendingIters w disp c g

/-- The handler of a request, if the table has one for the session. -/
def handlerOf (services : List (Service W)) (session sid : UInt8) : Option (Handler W) :=
  match udsFindService services sid with
  | some ⟨_, mask, some fn⟩ =>
    if mask ≠ 0 ∧ (1 <<< session.toNat) &&& mask.toNat = 0 then none else some fn
  | _ => none

/-- `7F SID 78`. -/
def pendingPdu (sid : UInt8) : List UInt8 := [udsNegRespSid, sid, Nrc.rcrrp]

/-- The suppress bit, the functional address or the handler itself silences what it has settled
on. -/
def Silenced (suppress functional : Bool) : Disp → Ctx → Prop
  | .positive, c => suppress = true ∨ c.respLen = 0
  | .negative, c => functional = true ∧ udsNrcSuppressedOnFunctional c.nrc = true
  | .responsePending, _ => False
  | .noResponse, _ => True

/-- The handler has made a `7F SID 78` of its own. -/
def OwnPending (sid : UInt8) (suppress : Bool) : Disp → Ctx → Prop
  | .positive, c =>
    suppress = false ∧ 0 < c.respLen ∧ c.resp.read 0 c.respLen = pendingPdu sid
  | .negative, c => c.nrc = Nrc.rcrrp
  | _, _ => False

/-- What is handed over in the end. -/
def finalPdus (sid : UInt8) (suppress functional : Bool) : Disp → Ctx → List (List UInt8)
  | .positive, c => if suppress = false ∧ 0 < c.respLen then [c.resp.read 0 c.respLen] else []
  | .negative, c =>
    if functional ∧ udsNrcSuppressedOnFunctional c.nrc then [] else [[udsNegRespSid, sid, c.nrc]]
  | .responsePending, _ => [[udsNegRespSid, sid, Nrc.generalReject]]
  | .noResponse, _ => []

/-- There is exactly one final PDU, behind all the `7F SID 78`. -/
def Final (sid : UInt8) (pdus : List (List UInt8)) : Prop :=
  ∃ k pdu, pdus = List.replicate k (pendingPdu sid) ++ [pdu] ∧ pdu ≠ pendingPdu sid

theorem finalPdus_eq_nil {sid : UInt8} {suppress functional : Bool} {disp : Disp} {c : Ctx} :
    finalPdus sid suppress functional disp c = [] ↔ Silenced suppress functional disp c := by
  cases disp with
  | positive =>
    simp only [finalPdus, Silenced, ite_eq_right_iff, List.cons_ne_nil, imp_false, not_and_or,
      Bool.not_eq_false, Nat.pos_iff_ne_zero, not_not]
  | negative =>
    simp only [finalPdus, Silenced, ite_eq_left_iff, List.cons_ne_nil, imp_false, not_not]
  | responsePending => exact iff_of_false (List.cons_ne_nil _ _) id
  | noResponse => exact iff_of_true rfl trivial

theorem finalPdus_eq_pending {sid : UInt8} {suppress functional : Bool} {disp : Disp} {c : Ctx} :
    finalPdus sid suppress functional disp c = [pendingPdu sid] ↔
      OwnPending sid suppress disp c := by
  cases disp with
  | positive =>
    simp only [finalPdus, OwnPending]
    by_cases h : suppress = false ∧ 0 < c.respLen
    · rw [if_pos h, List.cons.injEq, eq_self, and_true]
      exact ⟨fun heq => ⟨h.1, h.2, heq⟩, fun hp => hp.2.2⟩
    · rw [if_neg h]
      exact iff_of_false (List.cons_ne_nil _ _).symm fun hp => h ⟨hp.1, hp.2.1⟩
  | negative =>
    simp only [finalPdus, OwnPending]
    by_cases h : functional = true ∧ udsNrcSuppressedOnFunctional c.nrc = true
    · rw [if_pos h]
      refine iff_of_false (List.cons_ne_nil _ _).symm fun hp => ?_
      rw [hp] at h
      exact absurd h.2 (by decide)
    · rw [if_neg h]
      simp [pendingPdu]
  | responsePending => simp [finalPdus, OwnPending, pendingPdu, Nrc.generalReject, Nrc.rcrrp]
  | noResponse => exact iff_of_false (List.cons_ne_nil _ _).symm id

/-- There is at most one of them. -/
theorem finalPdus_cases (sid : UInt8) (suppress functional : Bool) (disp : Disp) (c : Ctx) :
    finalPdus sid suppress functional disp c = [] ∨
      ∃ pdu, finalPdus sid suppress functional disp c = [pdu] := by
  cases disp with
  | positive =>
    simp only [finalPdus]
    split
    · exact .inr ⟨_, rfl⟩
    · exact .inl rfl
  | negative =>
    simp only [finalPdus]
    split
    · exact .inl rfl
    · exact .inr ⟨_, rfl⟩
  | responsePending => exact .inr ⟨_, rfl⟩
  | noResponse => exact .inl rfl

/-- Behind `k` times `7F SID 78` there is a final PDU if there is one that is not another of
these. -/
theorem final_replicate_iff {sid : UInt8} {k : ℕ} {fin : List (List UInt8)}
    (hfin : fin = [] ∨ ∃ pdu, fin = [pdu]) :
    (pendingPdu sid ∈ List.replicate k (pendingPdu sid) ++ fin →
        Final sid (List.replicate k (pendingPdu sid) ++ fin)) ↔
      fin ≠ [pendingPdu sid] ∧ (0 < k → fin ≠ []) := by
  have hall {pdus : List (List UInt8)} (hp : ∀ x ∈ pdus, x = pendingPdu sid) : ¬Final sid pdus := by
    rintro ⟨j, pdu, rfl, hne⟩
    exact hne (hp pdu (List.mem_append_right _ (List.mem_singleton.2 rfl)))
  rcases hfin with rfl | ⟨pdu, rfl⟩
  · rw [List.append_nil]
    constructor
    · refine fun h => ⟨(List.cons_ne_nil _ _).symm, fun hk => ?_⟩
      exact absurd (h (List.mem_replicate.2 ⟨by omega, rfl⟩))
        (hall fun x hx => List.eq_of_mem_replicate hx)
    · intro h hmem
      exact absurd rfl (h.2 (Nat.pos_of_ne_zero (List.mem_replicate.1 hmem).1))
  · by_cases hpdu : pdu = pendingPdu sid
    · rw [hpdu]
      refine iff_of_false (fun h => ?_) fun h => h.1 rfl
      refine hall (fun x hx => ?_) (h (List.mem_append_right _ (List.mem_singleton.2 rfl)))
      rcases List.mem_append.1 hx with hx | hx
      · exact List.eq_of_mem_replicate hx
      · exact List.mem_singleton.1 hx
    · exact iff_of_true (fun _ => ⟨k, pdu, rfl, hpdu⟩)
        ⟨fun h => hpdu (List.cons.inj h).1, fun _ => List.cons_ne_nil _ _⟩

/-! ### What a poll hands over -/

namespace Poll

/-- The PDUs that have been handed over. -/
def pdus (p : Poll L W) : List (List UInt8) := p.sent.map Prod.fst

/-- All that has been handed over has been taken. -/
def AllTaken (p : Poll L W) : Prop := ∀ x ∈ p.sent, Taken x.2

instance (p : Poll L W) : Decidable p.AllTaken :=
  inferInstanceAs (Decidable (∀ x ∈ p.sent, Taken x.2))

/-- A `7F SID 78` is never silenced. -/
theorem udsSendNrc_pending (p : Poll L W) (sid : UInt8) (functional : Bool) :
    ∃ link dropped r, p.udsSendNrc T sid Nrc.rcrrp functional =
      { p with
        link := link, sent := p.sent ++ [(pendingPdu sid, r)]
        server := { p.server with respDropped := dropped } } := by
  obtain ⟨link, dropped, sent, hnrc, hsent, -⟩ :=
    p.udsSendNrc_eq (T := T) sid Nrc.rcrrp functional
  rw [SendsNrc, if_neg (fun h => absurd h.2 (by decide))] at hsent
  obtain ⟨r, rfl⟩ := hsent
  exact ⟨link, dropped, r, hnrc⟩

/-- The loop hands over a `7F SID 78` for each call that it makes. -/
theorem settle_sent {fn : Handler W} {sid : UInt8} {functional : Bool} {n : ℕ} {p p' : Poll L W}
    {disp disp' : Disp} {c c' : Ctx}
    (h : p.settle T fn sid functional n disp c = some (p', disp', c')) :
    ∃ k, settled fn n p.world disp c p.server.g = some (k, disp', c') ∧
      p'.pdus = p.pdus ++ List.replicate k (pendingPdu sid) := by
  induction n generalizing p disp c with
  | zero =>
    cases h
    exact ⟨0, rfl, by simp⟩
  | succ n ih =>
    cases disp with
    | positive | negative | noResponse =>
      cases h
      exact ⟨0, rfl, by simp⟩
    | responsePending =>
      rw [settle, Option.bind_eq_bind, Option.bind_eq_some_iff] at h
      obtain ⟨⟨p₁, disp₁, c₁⟩, hcall, h⟩ := h
      obtain ⟨link, dropped, r, hnrc⟩ := p.udsSendNrc_pending (T := T) sid functional
      rw [hnrc, call, Option.bind_eq_bind, Option.bind_eq_some_iff] at hcall
      obtain ⟨⟨w, disp₂, c₂, g⟩, hfn, hcall⟩ := hcall
      cases hcall
      obtain ⟨k, hsettled, hpdus⟩ := ih h
      refine ⟨k + 1, ?_, ?_⟩
      · rw [settled, Option.bind_eq_bind, hfn, Option.bind_some]
        dsimp only at hsettled ⊢
        rw [hsettled]
        rfl
      · rw [hpdus, List.replicate_succ]
        simp [pdus]

/-- A negative response code is handed over, or silenced. -/
theorem udsSendNrc_pdus (p : Poll L W) (sid nrc : UInt8) (functional : Bool) :
    (p.udsSendNrc T sid nrc functional).pdus = p.pdus ++
      if functional ∧ udsNrcSuppressedOnFunctional nrc then []
      else [[udsNegRespSid, sid, nrc]] := by
  obtain ⟨link, dropped, sent, hnrc, hsent, -⟩ := p.udsSendNrc_eq (T := T) sid nrc functional
  rw [hnrc, pdus, List.map_append]
  congr 1
  unfold SendsNrc at hsent
  split at hsent <;> rename_i h
  · rw [hsent, if_pos h]
    rfl
  · obtain ⟨r, rfl⟩ := hsent
    rw [if_neg h]
    rfl

theorem finish_sent (p : Poll L W) : p.finish.sent = p.sent := by rw [finish_eq]

/-- A response that is taken is all that is handed over. -/
theorem respond_pdus {p : Poll L W} {sid : UInt8} {suppress functional : Bool} {c : Ctx}
    (htaken : (p.respond T sid suppress functional c).AllTaken) :
    (p.respond T sid suppress functional c).pdus =
      p.pdus ++ finalPdus sid suppress functional .positive c := by
  unfold respond finalPdus at *
  dsimp only at htaken ⊢
  split
  · rename_i h
    rw [if_pos h] at htaken
    obtain ⟨link, dropped, sent, taken, hresp, -, hsent⟩ := udsSendResponse_eq (T := T)
      { p with server := p.server.commit sid c.session } sid (c.resp.read 0 c.respLen) functional
    rw [hresp] at htaken ⊢
    cases taken with
    | true =>
      obtain ⟨r, -, rfl⟩ := hsent
      simp [pdus]
    | false =>
      obtain ⟨r, r', hr, rfl⟩ := hsent
      exact absurd (htaken (c.resp.read 0 c.respLen, r) (by simp)) hr
  · exact (List.append_nil _).symm

/-- What is handed over in the end, if it is taken. -/
theorem emit_pdus {p : Poll L W} {sid : UInt8} {suppress functional : Bool} {disp : Disp} {c : Ctx}
    (htaken : (p.emit T sid suppress functional disp c).AllTaken) :
    (p.emit T sid suppress functional disp c).pdus =
      p.pdus ++ finalPdus sid suppress functional disp c := by
  cases disp with
  | positive =>
    rw [AllTaken, emit, finish_sent] at htaken
    rw [emit, pdus, finish_sent]
    exact respond_pdus htaken
  | negative =>
    rw [emit, pdus, finish_sent]
    exact p.udsSendNrc_pdus sid c.nrc functional
  | responsePending =>
    rw [emit, udsSendNrc_pdus, if_neg (fun h => absurd h.2 (by decide))]
    rfl
  | noResponse =>
    rw [emit, pdus, finish_sent]
    exact (List.append_nil _).symm

/-- A request that no handler is called for is answered with at most one negative response code,
and that is not `7F SID 78`. -/
theorem dispatch_unserved {services : List (Service W)} {p p' : Poll L W} {sid : UInt8}
    {tl : List UInt8} {functional : Bool}
    (h : p.dispatch T services (sid :: tl) functional = some p')
    (hnone : handlerOf services p.server.session sid = none) :
    ∃ nrc, nrc ≠ Nrc.rcrrp ∧ p' = p.udsSendNrc T sid nrc functional := by
  unfold dispatch at h
  rw [List.getElem?_cons_zero, Option.bind_eq_bind, Option.bind_some] at h
  unfold handlerOf at hnone
  rcases hfind : udsFindService services sid with _ | ⟨sid', mask, _ | fn⟩
  · rw [hfind] at h
    exact ⟨Nrc.sns, by decide, (Option.some.inj h).symm⟩
  · rw [hfind] at h
    exact ⟨Nrc.sns, by decide, (Option.some.inj h).symm⟩
  · rw [hfind] at h hnone
    dsimp only at h hnone
    split at hnone
    · rename_i hmask
      rw [if_pos hmask] at h
      exact ⟨Nrc.snsias, by decide, (Option.some.inj h).symm⟩
    · cases hnone

/-- **All that is handed over for a request**: a `7F SID 78` for each time that the handler has
asked for more time, and what it has settled on, unless that is silenced. -/
theorem dispatch_sent {services : List (Service W)} {p p' : Poll L W} {sid : UInt8}
    {tl : List UInt8} {functional : Bool} {fn : Handler W}
    (h : p.dispatch T services (sid :: tl) functional = some p')
    (hfn : handlerOf services p.server.session sid = some fn) (htaken : p'.AllTaken) :
    ∃ k disp c, outcome fn p.world (p.server.ctx (sid :: tl) functional) p.server.g =
        some (k, disp, c) ∧
      p'.pdus = p.pdus ++ (List.replicate k (pendingPdu sid) ++
        finalPdus sid (suppressed sid (sid :: tl)) functional disp c) := by
  unfold dispatch at h
  rw [List.getElem?_cons_zero, Option.bind_eq_bind, Option.bind_some] at h
  unfold handlerOf at hfn
  rcases hfind : udsFindService services sid with _ | ⟨sid', mask, _ | fn'⟩
  · rw [hfind] at hfn
    cases hfn
  · rw [hfind] at hfn
    cases hfn
  · rw [hfind] at h hfn
    dsimp only at h hfn
    split at hfn
    · cases hfn
    · rename_i hmask
      obtain rfl := Option.some.inj hfn
      rw [if_neg hmask, Option.bind_eq_bind, Option.bind_eq_some_iff] at h
      obtain ⟨⟨p₁, disp₁, c₁⟩, hcall, h⟩ := h
      rw [call, Option.bind_eq_bind, Option.bind_eq_some_iff] at hcall
      obtain ⟨⟨w, disp₂, c₂, g⟩, hfirst, hcall⟩ := hcall
      cases hcall
      obtain ⟨⟨p₂, disp, c⟩, hsettle, h⟩ := Option.bind_eq_some_iff.1 h
      obtain ⟨k, hsettled, hpdus⟩ := settle_sent hsettle
      have hp' : p₂.emit T sid (suppressed sid (sid :: tl)) functional disp c = p' :=
        Option.some.inj h
      refine ⟨k, disp, c, ?_, ?_⟩
      · rw [outcome, hfirst]
        exact hsettled
      · rw [← hp', emit_pdus (hp' ▸ htaken), hpdus, List.append_assoc]
        rfl

end Poll

/-- **The tester gets its final answer exactly if nothing silences the handler.**  The poll finds a
request, and the link takes all that it is given.  Once a `7F SID 78` has been handed over, exactly
one other PDU follows; this holds if and only if the handler of the request, if there is one, does
not make a `7F SID 78` of its own, and what it settles on after it has asked for more time is not
silenced. -/
theorem final_iff {services : List (Service W)} {s : Server} {link : L} {w : W} {elapsedMs : UInt32}
    {sid : UInt8} {tl : List UInt8} {functional : Bool} {p : Poll L W}
    (hreq : (T.receive link).2 = ⟨.ok, sid :: tl, functional⟩)
    (hp : (⟨s, link, w, [], false⟩ : Poll L W).udsServerPoll T services elapsedMs = some p)
    (htaken : p.AllTaken) :
    (pendingPdu sid ∈ p.pdus → Final sid p.pdus) ↔
      ∀ fn k disp c, handlerOf services s.session sid = some fn →
        outcome fn w ((s.takeUp elapsedMs).ctx (sid :: tl) functional) (s.takeUp elapsedMs).g =
            some (k, disp, c) →
          ¬OwnPending sid (Poll.suppressed sid (sid :: tl)) disp c ∧
            (0 < k → ¬Silenced (Poll.suppressed sid (sid :: tl)) functional disp c) := by
  unfold Poll.udsServerPoll at hp
  dsimp only at hp
  rw [hreq, if_neg (by simp)] at hp
  rcases hfn : handlerOf services s.session sid with _ | fn
  · obtain ⟨nrc, hnrc, rfl⟩ := Poll.dispatch_unserved hp hfn
    refine iff_of_true (fun hmem => ?_) fun fn k disp c h => by cases h
    -- the only PDU is the negative response, so that there is no `7F SID 78`
    rw [Poll.udsSendNrc_pdus] at hmem
    split at hmem
    · cases hmem
    · have heq := List.mem_singleton.1 hmem
      exact absurd (List.cons.inj (List.cons.inj (List.cons.inj heq).2).2).1.symm hnrc
  · obtain ⟨k, disp, c, houtcome, hpdus⟩ := Poll.dispatch_sent hp hfn htaken
    rw [hpdus]
    have hiff := @final_replicate_iff sid k _
      (finalPdus_cases sid (Poll.suppressed sid (sid :: tl)) functional disp c)
    rw [ne_eq, ne_eq, finalPdus_eq_pending, finalPdus_eq_nil] at hiff
    refine hiff.trans ⟨fun h fn' k' disp' c' hfn' houtcome' => ?_,
      fun h => h fn k disp c rfl houtcome⟩
    obtain rfl := Option.some.inj hfn'
    obtain ⟨rfl, rfl, rfl⟩ := by simpa using houtcome.symm.trans houtcome'
    exact h

/-- A routine that asks for more time `w` times. -/
def slowRoutine : Handler ℕ := fun w c g =>
  if w = 0 then (c.reply [Sid.routine + udsPosRespOffset, 0x01] g).map (Prod.mk 0)
  else some (w - 1, .responsePending, c, g)

/-- A server that has only this routine polls the link of the host tests and finds a request. -/
def slowPoll (req : List UInt8) (w : ℕ) : Option (Poll IsoTp.Link ℕ) :=
  (⟨udsServerInit (fun _ => 0) 4095, (heldTick req 1 0).link, w, [], false⟩ :
    Poll IsoTp.Link ℕ).udsServerPoll (linkTransport ⟨0, true⟩)
      [⟨Sid.routine, 0, some slowRoutine⟩] 1

/-- Without the suppress bit the answer follows. -/
theorem final_iff_slowRoutine :
    ∃ p, slowPoll [0x31, 0x01] 3 = some p ∧
      (pendingPdu 0x31 ∈ p.pdus → Final 0x31 p.pdus) := by
  have htaken : (slowPoll [0x31, 0x01] 3).map (fun p => decide p.AllTaken) = some true := by
    decide +kernel
  obtain ⟨p, hp, htaken⟩ := Option.map_eq_some_iff.1 htaken
  rw [decide_eq_true_eq] at htaken
  have hreq : ((linkTransport ⟨0, true⟩).receive (heldTick [0x31, 0x01] 1 0).link).2 =
      ⟨.ok, 0x31 :: [0x01], false⟩ := by decide +kernel
  have hout : (outcome slowRoutine 3
      (((udsServerInit (fun _ => 0) 4095).takeUp 1).ctx [0x31, 0x01] false)
      ((udsServerInit (fun _ => 0) 4095).takeUp 1).g).map
        (fun o => (o.2.1, o.2.2.respLen, o.2.2.resp.read 0 o.2.2.respLen)) =
          some (.positive, 2, [0x71, 0x01]) := by decide +kernel
  refine ⟨p, hp, (final_iff hreq hp htaken).2 fun fn k disp c hfn hfin => ?_⟩
  obtain rfl : slowRoutine = fn := Option.some.inj hfn
  rw [hfin, Option.map_some, Option.some.injEq, Prod.mk.injEq, Prod.mk.injEq] at hout
  obtain ⟨rfl, hlen, hread⟩ := hout
  refine ⟨fun hown => absurd (hread.symm.trans hown.2.2) (by decide), fun _ hsil => ?_⟩
  rcases hsil with hs | hs
  · exact absurd hs (by decide)
  · rw [hlen] at hs
    cases hs

/-- With the suppress bit there is none, although the tester has been told to wait for it. -/
theorem slowRoutine_silenced :
    ¬∀ (services : List (Service ℕ)) (s : Server) (link : IsoTp.Link) (w : ℕ) (elapsedMs : UInt32)
      (sid : UInt8) (tl : List UInt8) (functional : Bool) (p : Poll IsoTp.Link ℕ),
      ((linkTransport ⟨0, true⟩).receive link).2 = ⟨.ok, sid :: tl, functional⟩ →
        (⟨s, link, w, [], false⟩ : Poll IsoTp.Link ℕ).udsServerPoll (linkTransport ⟨0, true⟩)
          services elapsedMs = some p →
          p.AllTaken → pendingPdu sid ∈ p.pdus → Final sid p.pdus := by
  intro hall
  have hsent : (slowPoll [0x31, 0x81] 1).map (fun p => (decide p.AllTaken, p.pdus)) =
      some (true, [pendingPdu 0x31]) := by decide +kernel
  obtain ⟨p, hp, hsent⟩ := Option.map_eq_some_iff.1 hsent
  rw [Prod.mk.injEq, decide_eq_true_eq] at hsent
  obtain ⟨htaken, hpdus⟩ := hsent
  have hreq : ((linkTransport ⟨0, true⟩).receive (heldTick [0x31, 0x81] 1 0).link).2 =
      ⟨.ok, 0x31 :: [0x81], false⟩ := by decide +kernel
  obtain ⟨k, pdu, heq, hne⟩ := hall _ _ _ _ _ _ _ _ p hreq hp htaken
    (by rw [hpdus]; exact List.mem_singleton.2 rfl)
  have hmem : pdu ∈ p.pdus := by rw [heq]; simp
  rw [hpdus] at hmem
  exact hne (List.mem_singleton.1 hmem)

end Uds

end Espcan32

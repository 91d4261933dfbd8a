import Espcan32.Uds.Handlers

/-!
# What one poll does

A poll of the server with the built-in table finds no request, or one for a service it does not
have, or one that a handler answers.  `poll_cases` says for each what becomes of the server and
what is handed to the transport; whether `isotp_send()` takes it decides about no more than
`resp_dropped` and a restart.

* `Server.conclude` : the server after a result.
* `Sends` : the PDUs of a result.
* `poll_cases` : **every poll returns, and does one of three things.**
-/

namespace Espcan32

namespace Uds

open IsoTp (Ret Received)

variable {L : Type} (T : Transport L)

/-! ### Requests and results -/

/-- The request that a poll finds, and whether it came on the functional address. -/
def Tick.request (t : Tick L) : Option (List UInt8 × Bool) :=
  let r := (T.receive t.link).2
  if r.ret ≠ .ok ∨ r.out.length = 0 then none else some (r.out, r.functional)

namespace Server

variable (s : Server)

/-- The server when it takes up a request: the lockout has aged, and the S3 timer starts anew. -/
def takeUp (elapsedMs : UInt32) : Server := { s.ageLock elapsedMs with s3TimerMs := 0 }

/-- Steps 6 and 7: the security state is mirrored, and no restart is pending any longer. -/
def mirror : Server :=
  { s with
    g := { s.g with pendingReset := false }, secLevel := s.g.secLevel, secSeed := s.g.secSeed }

/-- The server after a handler has answered. -/
def conclude (sid : UInt8) : Result → Statics → Server
  | .negative _, g => { s with g := g }.mirror
  | .positive _ session, g => ({ s with g := g }.commit sid session).mirror

end Server

/-- `isotp_send()` has taken a PDU. -/
def Taken (r : Ret) : Prop := r = .ok ∨ r = .inprogress

instance (r : Ret) : Decidable (Taken r) := inferInstanceAs (Decidable (_ ∨ _))

/-- What is handed to `isotp_send()` for a negative response code. -/
def SendsNrc (sid nrc : UInt8) (functional : Bool) (sent : List (List UInt8 × Ret)) : Prop :=
  if functional ∧ udsNrcSuppressedOnFunctional nrc then sent = []
  else ∃ r, sent = [([udsNegRespSid, sid, nrc], r)]

/-- What is handed to `isotp_send()` for a result: nothing if it is suppressed, and otherwise the
response, followed by busyRepeatRequest if that is refused. -/
def Sends (sid : UInt8) (suppress functional : Bool) :
    Result → List (List UInt8 × Ret) → Prop
  | .negative nrc, sent => SendsNrc sid nrc functional sent
  | .positive resp _, sent =>
    if suppress then sent = []
    else
      (∃ r, Taken r ∧ sent = [(resp, r)]) ∨
        ∃ r r', ¬Taken r ∧ sent = [(resp, r), ([udsNegRespSid, sid, Nrc.brr], r')]

/-- All that is handed to `isotp_send()` for a result. -/
theorem Sends.eq_of_mem {sid : UInt8} {suppress functional : Bool} {v : Result}
    {sent : List (List UInt8 × Ret)} (h : Sends sid suppress functional v sent)
    {x : List UInt8 × Ret} (hx : x ∈ sent) :
    (∃ nrc, v = .negative nrc ∧ x.1 = [udsNegRespSid, sid, nrc]) ∨
      ∃ resp session, v = .positive resp session ∧
        (x.1 = resp ∨ x.1 = [udsNegRespSid, sid, Nrc.brr]) := by
  cases v with
  | negative nrc =>
    refine .inl ⟨nrc, rfl, ?_⟩
    simp only [Sends, SendsNrc] at h
    split at h
    · rw [h] at hx; cases hx
    · obtain ⟨r, rfl⟩ := h
      rw [List.mem_singleton.1 hx]
  | positive resp session =>
    refine .inr ⟨resp, session, rfl, ?_⟩
    simp only [Sends] at h
    split at h
    · rw [h] at hx; cases hx
    · rcases h with ⟨r, -, rfl⟩ | ⟨r, r', -, rfl⟩
      · exact .inl (by rw [List.mem_singleton.1 hx])
      · simp only [List.mem_cons, List.not_mem_nil, or_false] at hx
        rcases hx with rfl | rfl
        · exact .inl rfl
        · exact .inr rfl

/-- A positive response that is not suppressed is handed over first. -/
theorem Sends.mem_positive {sid : UInt8} {functional : Bool} {resp : List UInt8} {session : UInt8}
    {sent : List (List UInt8 × Ret)} (h : Sends sid false functional (.positive resp session) sent) :
    resp ∈ sent.map Prod.fst := by
  rcases h with ⟨r, -, rfl⟩ | ⟨r, r', -, rfl⟩
  · exact List.mem_singleton.2 rfl
  · exact List.mem_cons_self

/-- A PDU has been handed to `isotp_send()`. -/
def Poll.hands {L W : Type} (p : Poll L W) (pdu : List UInt8) : Bool :=
  p.sent.any fun x => x.1 = pdu

theorem Poll.hands_iff {L W : Type} {p : Poll L W} {pdu : List UInt8} :
    p.hands pdu = true ↔ ∃ x ∈ p.sent, x.1 = pdu := by
  simp [Poll.hands]

/-- A response that is not suppressed is handed over exactly if it is the result. -/
theorem Sends.hands_iff {W : Type} {p : Poll L W} {sid : UInt8} {functional : Bool} {v : Result}
    (h : Sends sid false functional v p.sent) {resp : List UInt8}
    (hresp : resp.head? ≠ some udsNegRespSid) :
    p.hands resp = true ↔ ∃ session, v = .positive resp session := by
  rw [Poll.hands_iff]
  constructor
  · rintro ⟨x, hx, rfl⟩
    rcases h.eq_of_mem hx with ⟨nrc, -, hpdu⟩ | ⟨resp, session, rfl, hpdu | hpdu⟩
    · rw [hpdu] at hresp
      exact absurd rfl hresp
    · exact ⟨session, by rw [hpdu]⟩
    · rw [hpdu] at hresp
      exact absurd rfl hresp
  · rintro ⟨session, rfl⟩
    exact List.mem_map.1 h.mem_positive

/-- What comes first is handed over on the link `link`. -/
def FirstOn (link : L) (sent : List (List UInt8 × Ret)) : Prop :=
  ∀ x ∈ sent.head?, x.2 = (T.send link x.1).2

/-- The response was taken, or there was none to send. -/
def Accepted (sent : List (List UInt8 × Ret)) : Prop := ∀ x ∈ sent.head?, Taken x.2

instance (sent : List (List UInt8 × Ret)) : Decidable (Accepted sent) := by
  unfold Accepted; infer_instance

/-! ### The steps of a poll -/

namespace Poll

variable {T} {W : Type} (p : Poll L W)

theorem udsSendRaw_eq (buf : List UInt8) :
    ∃ link r, p.udsSendRaw T buf =
        ({ p with link := link, sent := p.sent ++ [(buf, r)] }, decide (Taken r)) ∧
      FirstOn T p.link [(buf, r)] := by
  refine ⟨_, _, rfl, ?_⟩
  rintro x ⟨⟩
  rfl

/-- A negative response goes out, or is dropped, or is not due. -/
theorem udsSendNrc_eq (sid nrc : UInt8) (functional : Bool) :
    ∃ link dropped sent, p.udsSendNrc T sid nrc functional =
        { p with
          link := link, sent := p.sent ++ sent
          server := { p.server with respDropped := dropped } } ∧
      SendsNrc sid nrc functional sent ∧ FirstOn T p.link sent := by
  unfold udsSendNrc SendsNrc
  split
  · exact ⟨p.link, p.server.respDropped, [], by rw [List.append_nil], rfl, fun x hx => by cases hx⟩
  · obtain ⟨link, r, hraw, hfirst⟩ := p.udsSendRaw_eq (T := T) [udsNegRespSid, sid, nrc]
    rw [hraw]
    cases decide (Taken r) with
    | true => exact ⟨link, p.server.respDropped, _, rfl, ⟨r, rfl⟩, hfirst⟩
    | false => exact ⟨link, p.server.respDropped + 1, _, rfl, ⟨r, rfl⟩, hfirst⟩

/-- A response goes out, or a negative one in its place. -/
theorem udsSendResponse_eq (sid : UInt8) (buf : List UInt8) (functional : Bool) :
    ∃ link dropped sent taken, p.udsSendResponse T sid buf functional =
        ({ p with
          link := link, sent := p.sent ++ sent
          server := { p.server with respDropped := dropped } }, taken) ∧
      FirstOn T p.link sent ∧
      if taken then ∃ r, Taken r ∧ sent = [(buf, r)]
      else ∃ r r', ¬Taken r ∧ sent = [(buf, r), ([udsNegRespSid, sid, Nrc.brr], r')] := by
  unfold udsSendResponse
  obtain ⟨link, r, hraw, hfirst⟩ := p.udsSendRaw_eq (T := T) buf
  rw [hraw]
  by_cases hr : Taken r
  · rw [decide_eq_true hr]
    exact ⟨link, p.server.respDropped, _, true, rfl, hfirst, r, hr, rfl⟩
  · rw [decide_eq_false hr]
    dsimp only
    obtain ⟨link', dropped, sent, hnrc, hsent, -⟩ := udsSendNrc_eq (T := T)
      { p with link := link, sent := p.sent ++ [(buf, r)] } sid Nrc.brr functional
    rw [hnrc]
    rw [SendsNrc, if_neg (by simp [udsNrcSuppressedOnFunctional, Nrc.brr, Nrc.sns, Nrc.sfns,
      Nrc.roor, Nrc.sfnsias, Nrc.snsias])] at hsent
    obtain ⟨r', rfl⟩ := hsent
    refine ⟨link', dropped, [(buf, r), ([udsNegRespSid, sid, Nrc.brr], r')], false, ?_, ?_, r, r',
      hr, rfl⟩
    · simp
    · rintro x ⟨⟩
      exact hfirst _ rfl

/-- Steps 6 and 7. -/
theorem finish_eq :
    p.finish = { p with
      server := p.server.mirror
      restarted := p.restarted || p.server.g.pendingReset } := by
  unfold finish
  cases h : p.server.g.pendingReset with
  | true => simp [Server.mirror, h]
  | false =>
    have hg : { p.server.g with pendingReset := false } = p.server.g := by rw [← h]
    simp [Server.mirror, hg, h]

/-- Steps 5 to 7 for a negative result. -/
theorem emit_negative (sid : UInt8) (suppress functional : Bool) (c : Ctx) :
    ∃ link dropped sent, p.emit T sid suppress functional .negative c =
        { p with
          link := link, sent := p.sent ++ sent
          server := { p.server.mirror with respDropped := dropped }
          restarted := p.restarted || p.server.g.pendingReset } ∧
      SendsNrc sid c.nrc functional sent ∧ FirstOn T p.link sent := by
  obtain ⟨link, dropped, sent, hnrc, hsent⟩ := p.udsSendNrc_eq (T := T) sid c.nrc functional
  refine ⟨link, dropped, sent, ?_, hsent⟩
  rw [emit, hnrc, finish_eq]
  rfl

/-- Steps 5 to 7 for a positive result. -/
theorem emit_positive (sid : UInt8) (suppress functional : Bool) {c : Ctx} (hlen : 0 < c.respLen) :
    ∃ link dropped sent, p.emit T sid suppress functional .positive c =
        { p with
          link := link, sent := p.sent ++ sent
          server := { (p.server.commit sid c.session).mirror with respDropped := dropped }
          restarted :=
            p.restarted || ((p.server.commit sid c.session).g.pendingReset && Accepted sent) } ∧
      Sends sid suppress functional (.positive (c.resp.read 0 c.respLen) c.session) sent ∧
      FirstOn T p.link sent := by
  rw [show p.emit T sid suppress functional .positive c =
    (p.respond T sid suppress functional c).finish from rfl, finish_eq]
  unfold respond Sends
  dsimp only
  cases suppress with
  | true =>
    refine ⟨p.link, (p.server.commit sid c.session).respDropped, [], ?_, rfl,
      fun x hx => by cases hx⟩
    rw [if_neg (by simp)]
    simp [Accepted, Server.mirror]
  | false =>
    rw [if_pos ⟨rfl, hlen⟩]
    obtain ⟨link, dropped, sent, taken, hresp, hfirst, hsent⟩ := udsSendResponse_eq (T := T)
      { p with server := p.server.commit sid c.session } sid (c.resp.read 0 c.respLen) functional
    rw [hresp]
    cases taken with
    | true =>
      obtain ⟨r, hr, rfl⟩ := hsent
      refine ⟨link, dropped, _, ?_, .inl ⟨r, hr, rfl⟩, hfirst⟩
      simp [Accepted, hr, Server.mirror]
    | false =>
      obtain ⟨r, r', hr, rfl⟩ := hsent
      refine ⟨link, dropped, _, ?_, .inr ⟨r, r', hr, rfl⟩, hfirst⟩
      simp [Accepted, hr, Server.mirror]

end Poll

/-! ### The table -/

/-- A service identifier is not in the table, or it is with a handler that answers. -/
theorem bench_cases (sid : UInt8) :
    udsFindService benchServices sid = none ∨
      ∃ h, udsFindService benchServices sid = some ⟨sid, 0, some (builtin h)⟩ ∧
        ∀ (random : UInt32) (c : Ctx) (g : Statics) (tl : List UInt8), c.req = sid :: tl →
          Answers random c g (h random c g) := by
  cases hfind : udsFindService benchServices sid with
  | none => exact .inl rfl
  | some svc =>
    refine .inr ?_
    have hmem := List.mem_of_find?_eq_some hfind
    have hsid : svc.sid = sid := by simpa using List.find?_some hfind
    subst hsid
    rw [benchServices] at hmem
    simp only [List.mem_cons, List.not_mem_nil, or_false] at hmem
    rcases hmem with rfl | rfl | rfl | rfl | rfl | rfl | rfl | rfl | rfl
    · exact ⟨_, rfl, fun _ _ _ _ => udsHDiagSession_answers⟩
    · exact ⟨_, rfl, fun _ _ _ _ => udsHEcuReset_answers⟩
    · exact ⟨_, rfl, fun _ _ _ _ => udsHReadDid_answers⟩
    · exact ⟨_, rfl, fun _ _ _ _ => udsHSecurity_answers⟩
    · exact ⟨_, rfl, fun _ _ _ _ => udsHRoutine_answers⟩
    · exact ⟨_, rfl, fun _ _ _ _ => udsHTesterPresent_answers⟩
    · exact ⟨_, rfl, fun _ _ _ _ => udsHRequestDownload_answers⟩
    · exact ⟨_, rfl, fun _ _ _ _ => udsHTransferData_answers⟩
    · exact ⟨_, rfl, fun _ _ _ _ => udsHRequestTransferExit_answers⟩

theorem builtin_injective {W : Type} : Function.Injective (@builtin W) := by
  intro h h' heq
  funext w c g
  have happ := congrFun (congrFun (congrFun heq w) c) g
  exact Option.map_injective (Prod.mk_right_injective w) happ

/-- The handler of a request is the one that the table has for its first byte. -/
theorem handler_unique {sid sid' : UInt8} {req tl tl' : List UInt8}
    {h : UInt32 → Ctx → Statics → Option (Disp × Ctx × Statics)}
    (hfind : udsFindService benchServices sid = some ⟨sid, 0, some (builtin h)⟩)
    (hreq : req = sid :: tl) (hreq' : req = sid' :: tl')
    (h' : UInt32 → Ctx → Statics → Option (Disp × Ctx × Statics))
    (hfind' : udsFindService benchServices sid' = some ⟨sid', 0, some (builtin h')⟩) : h = h' := by
  obtain rfl : sid = sid' := (List.cons.inj (hreq.symm.trans hreq')).1
  rw [hfind] at hfind'
  simp only [Option.some.injEq, Service.mk.injEq, true_and] at hfind'
  exact builtin_injective hfind'

/-- What a request can do, other than being refused, it does if the response fits. -/
theorem bench_decides {sid : UInt8} {h : UInt32 → Ctx → Statics → Option (Disp × Ctx × Statics)}
    (hfind : udsFindService benchServices sid = some ⟨sid, 0, some (builtin h)⟩) {random : UInt32}
    {c : Ctx} {g g' : Statics} {tl : List UInt8} {v : Result} (hreq : c.req = sid :: tl)
    (he : Effect random c.req c.session g v g') (hv : v.Decided) (hcap : v.room ≤ c.respCap) :
    Meets c (h random c g) v g' := by
  cases he with
  | refused hik henoa => exact absurd hv (not_or.2 ⟨hik, henoa⟩)
  | session hr hsub =>
    obtain rfl := handler_unique hfind hreq hr (fun _ => udsHDiagSession) rfl
    exact udsHDiagSession_grants hr hsub (by simpa [Result.room, be16] using hcap)
  | reset hr hsub =>
    obtain rfl := handler_unique hfind hreq hr (fun _ => udsHEcuReset) rfl
    exact udsHEcuReset_resets hr hsub (by simpa [Result.room] using hcap)
  | noReset hr hlow hsub =>
    obtain rfl := handler_unique hfind hreq hr (fun _ => udsHEcuReset) rfl
    exact udsHEcuReset_grants hr hlow hsub (by simpa [Result.room] using hcap)
  | dids hr hlen hany =>
    obtain rfl := handler_unique hfind hreq hr (fun _ => udsHReadDid) rfl
    exact udsHReadDid_grants hr hlen hany (by simpa [Result.room] using hcap)
  | seed hr hlock hlevel =>
    obtain rfl := handler_unique hfind hreq hr udsHSecurity rfl
    rw [udsHSecurity_seed hr hlock]
    exact requestSeed_new hlevel (by simpa [Result.room, be32] using hcap)
  | zeroSeed hr hlock hlevel =>
    obtain rfl := handler_unique hfind hreq hr udsHSecurity rfl
    rw [udsHSecurity_seed hr hlock]
    exact requestSeed_zero hlevel (by simpa [Result.room, be32] using hcap)
  | unlock hr hlock hpending hkey =>
    obtain rfl := handler_unique hfind hreq hr udsHSecurity rfl
    rw [udsHSecurity_key hr hlock, sendKey_eq hr hpending (by simpa [Result.room] using hcap),
      if_neg (not_not.2 hkey)]
    exact .reply c.session _ (by simpa [Result.room] using hcap) (by simp)
  | badKey hr hlock hpending hkey hmax =>
    obtain rfl := handler_unique hfind hreq hr udsHSecurity rfl
    rw [udsHSecurity_key hr hlock, sendKey_eq hr hpending hcap, if_pos hkey, if_neg hmax]
    exact .refuse c _ _
  | lockout hr hlock hpending hkey hmax =>
    obtain rfl := handler_unique hfind hreq hr udsHSecurity rfl
    rw [udsHSecurity_key hr hlock, sendKey_eq hr hpending hcap, if_pos hkey, if_pos hmax]
    exact .refuse c _ _
  | routine hr hsub =>
    obtain rfl := handler_unique hfind hreq hr (fun _ => udsHRoutine) rfl
    exact udsHRoutine_grants hr hsub (by simpa [Result.room] using hcap)
  | present hr hsub =>
    obtain rfl := handler_unique hfind hreq hr (fun _ => udsHTesterPresent) rfl
    exact udsHTesterPresent_grants hr hsub (by simpa [Result.room] using hcap)
  | download hr hlen hlevel hclosed hsizeLen haddrLen hlens hneed hmem hsize =>
    obtain rfl := handler_unique hfind hreq hr (fun _ => udsHRequestDownload) rfl
    exact udsHRequestDownload_grants hr hlen hlevel hclosed hsizeLen haddrLen hlens hneed hmem hsize
      (by simpa [Result.room, be16] using hcap)
  | block hr hopen hlevel hlen hroom =>
    obtain rfl := handler_unique hfind hreq hr (fun _ => udsHTransferData) rfl
    exact udsHTransferData_block hr hopen hlevel hlen hroom (by simpa [Result.room] using hcap)
  | again hr hopen hlevel hne hpos hbsc =>
    obtain rfl := handler_unique hfind hreq hr (fun _ => udsHTransferData) rfl
    exact udsHTransferData_again hr hopen hlevel hne hpos hbsc (by simpa [Result.room] using hcap)
  | exit hr hopen hlevel =>
    obtain rfl := handler_unique hfind hreq hr (fun _ => udsHRequestTransferExit) rfl
    exact udsHRequestTransferExit_grants hopen hlevel (by simpa [Result.room] using hcap)

/-! ### The poll -/

theorem commit_pendingReset (s : Server) (sid session : UInt8) :
    (s.commit sid session).g.pendingReset = s.g.pendingReset := by
  unfold Server.commit
  split <;> rfl

/-- A positive result commits its session, and relocks the server if that is another one or the
default session is selected; or nothing happens. -/
theorem commit_cases (s : Server) (sid session : UInt8) :
    (session ≠ s.session ∨ sid = Sid.diagSession ∧ session = udsSessionDefault) ∧
        s.commit sid session = { s with session := session }.udsRelock ∨
      ¬(session ≠ s.session ∨ sid = Sid.diagSession ∧ session = udsSessionDefault) ∧
        s.commit sid session = s := by
  unfold Server.commit
  split
  · exact .inl ⟨‹_›, rfl⟩
  · exact .inr ⟨‹_›, rfl⟩

theorem ageLock_zero {s : Server} {elapsedMs : UInt32} (h : s.g.secLockMs = 0) :
    (s.ageLock elapsedMs).g.secLockMs = 0 := by
  rw [Server.ageLock, h]
  rfl

/-- A positive result that asks for no other session leaves the session alone. -/
theorem commit_self (s : Server) {sid : UInt8} (hsid : sid ≠ Sid.diagSession) :
    s.commit sid s.session = s :=
  if_neg fun h => h.elim (fun hne => hne rfl) fun hd => hsid hd.1

/-- S3 expiry returns to the default session and relocks the server; else the timer runs on. -/
theorem ageS3_cases (s : Server) (elapsedMs : UInt32) :
    (s.s3TimeoutMs ≤ s.s3TimerMs + elapsedMs ∧
      s.ageS3 elapsedMs = { s with s3TimerMs := 0, session := udsSessionDefault }.udsRelock) ∨
    (¬s.s3TimeoutMs ≤ s.s3TimerMs + elapsedMs ∧
      s.ageS3 elapsedMs = { s with s3TimerMs := s.s3TimerMs + elapsedMs }) := by
  by_cases h : s.s3TimeoutMs ≤ s.s3TimerMs + elapsedMs
  · exact .inl ⟨h, if_pos h⟩
  · exact .inr ⟨h, if_neg h⟩

theorem conclude_positive (s : Server) (sid : UInt8) (resp : List UInt8) (session : UInt8)
    (g : Statics) :
    s.conclude sid (.positive resp session) g = ({ s with g := g }.commit sid session).mirror := rfl

/-- The server after a positive result that asks for no other session. -/
theorem conclude_self (s : Server) (elapsedMs : UInt32) {sid : UInt8} (hsid : sid ≠ Sid.diagSession)
    (resp : List UInt8) (g : Statics) :
    (s.takeUp elapsedMs).conclude sid (.positive resp s.session) g =
      { s.takeUp elapsedMs with g := g }.mirror :=
  congrArg Server.mirror (commit_self { s.takeUp elapsedMs with g := g } hsid)

/-- What becomes of the security state at the end: a relock clears the unlock and the seed. -/
theorem conclude_security (s : Server) (sid : UInt8) (v : Result) (g : Statics) :
    (s.conclude sid v g).g.secLockMs = g.secLockMs ∧
      (s.conclude sid v g).g.secAttempts = g.secAttempts ∧
      ((s.conclude sid v g).g.secLevel = g.secLevel ∧
          (s.conclude sid v g).g.secPending = g.secPending ∨
        (s.conclude sid v g).g.secLevel = 0 ∧ (s.conclude sid v g).g.secPending = 0) := by
  cases v with
  | negative nrc => exact ⟨rfl, rfl, .inl ⟨rfl, rfl⟩⟩
  | positive resp session =>
    rw [conclude_positive]
    rcases commit_cases { s with g := g } sid session with ⟨-, hc⟩ | ⟨-, hc⟩ <;> rw [hc]
    · exact ⟨rfl, rfl, .inr ⟨rfl, rfl⟩⟩
    · exact ⟨rfl, rfl, .inl ⟨rfl, rfl⟩⟩

/-- What a poll of the server has done. -/
inductive Polled (s : Server) (t : Tick L) (p : Poll L UInt32) : Prop
  /-- There is no request. -/
  | quiet (hreq : t.request T = none)
      (hserver : p.server = (s.ageLock t.elapsedMs).ageS3 t.elapsedMs) (hsent : p.sent = [])
      (hrestart : p.restarted = false)
  /-- The request is for a service that is not in the table. -/
  | unknown {sid : UInt8} {tl : List UInt8} {functional : Bool} {dropped : UInt32}
      (hreq : t.request T = some (sid :: tl, functional))
      (hfind : udsFindService benchServices sid = none)
      (hserver : p.server = { s.takeUp t.elapsedMs with respDropped := dropped })
      (hsent : SendsNrc sid Nrc.sns functional p.sent)
      (hfirst : FirstOn T (T.receive t.link).1 p.sent) (hrestart : p.restarted = false)
  /-- A handler has answered. -/
  | answered {sid : UInt8} {tl : List UInt8} {functional : Bool} {v : Result} {g : Statics}
      (hreq : t.request T = some (sid :: tl, functional))
      (hmeets : ∃ h, udsFindService benchServices sid = some ⟨sid, 0, some (builtin h)⟩ ∧
        Meets ((s.takeUp t.elapsedMs).ctx (sid :: tl) functional)
          (h t.random ((s.takeUp t.elapsedMs).ctx (sid :: tl) functional) (s.takeUp t.elapsedMs).g)
          v g)
      (heffect : Effect t.random (sid :: tl) s.session (s.takeUp t.elapsedMs).g v g)
      (hlen : ∀ resp session, v = .positive resp session →
        0 < resp.length ∧ resp.length ≤ s.respCap)
      (hserver : ∃ dropped buf, p.server =
        { (s.takeUp t.elapsedMs).conclude sid v g with respDropped := dropped, respBuf := buf })
      (hsent : Sends sid (Poll.suppressed sid (sid :: tl)) functional v p.sent)
      (hfirst : FirstOn T (T.receive t.link).1 p.sent)
      (hrestart : p.restarted =
        match v with
        | .negative _ => g.pendingReset
        | .positive _ _ => g.pendingReset && Accepted p.sent)

/-- Steps 2 to 7 with the built-in table. -/
theorem dispatch_bench {s : Server} {t : Tick L} {sid : UInt8} {tl : List UInt8} {functional : Bool}
    (hreq : t.request T = some (sid :: tl, functional)) :
    ∃ p, (⟨s.takeUp t.elapsedMs, (T.receive t.link).1, t.random, [], false⟩ :
        Poll L UInt32).dispatch T benchServices (sid :: tl) functional = some p ∧
      Polled T s t p := by
  unfold Poll.dispatch
  rw [List.getElem?_cons_zero]
  simp only [Option.bind_eq_bind, Option.bind_some]
  rcases bench_cases sid with hfind | ⟨h, hfind, hanswers⟩
  · rw [hfind]
    obtain ⟨link', dropped, sent, hnrc, hsent, hfirst⟩ := Poll.udsSendNrc_eq (T := T)
      (⟨s.takeUp t.elapsedMs, (T.receive t.link).1, t.random, [], false⟩ : Poll L UInt32) sid
      Nrc.sns functional
    exact ⟨_, rfl, .unknown hreq hfind (by rw [hnrc]) (by rw [hnrc]; exact hsent)
      (by rw [hnrc]; exact hfirst) (by rw [hnrc])⟩
  · rw [hfind]
    dsimp only
    rw [if_neg (by simp)]
    obtain ⟨v, g, hmeets, heffect⟩ := hanswers t.random
      ((s.takeUp t.elapsedMs).ctx (sid :: tl) functional) (s.takeUp t.elapsedMs).g tl rfl
    unfold Poll.call builtin
    dsimp only
    generalize hr : h t.random ((s.takeUp t.elapsedMs).ctx (sid :: tl) functional)
      (s.takeUp t.elapsedMs).g = r at hmeets
    have hhandler := hmeets
    cases hmeets with
    | negative nrc resp =>
      obtain ⟨link', dropped, sent, hemit, hsent, hfirst⟩ := Poll.emit_negative (T := T)
        (⟨{ s.takeUp t.elapsedMs with g := g, respBuf := resp }, (T.receive t.link).1, t.random, [],
          false⟩ : Poll L UInt32) sid (Poll.suppressed sid (sid :: tl)) functional
        { (s.takeUp t.elapsedMs).ctx (sid :: tl) functional with nrc := nrc, resp := resp }
      exact ⟨_, congrArg some hemit, .answered hreq ⟨h, hfind, hr ▸ hhandler⟩ heffect
        (fun _ _ hv => by cases hv) ⟨dropped, resp, rfl⟩ hsent hfirst rfl⟩
    | positive bs session resp _ hlen hpos hresp =>
      obtain ⟨link', dropped, sent, hemit, hsent, hfirst⟩ := Poll.emit_positive (T := T)
        (⟨{ s.takeUp t.elapsedMs with g := g, respBuf := resp }, (T.receive t.link).1, t.random, [],
          false⟩ : Poll L UInt32) sid (Poll.suppressed sid (sid :: tl)) functional
        (c := { (s.takeUp t.elapsedMs).ctx (sid :: tl) functional with
          resp := resp, respLen := bs.length, session := session }) hpos
      dsimp only at hsent hemit
      rw [hresp] at hsent
      refine ⟨_, congrArg some hemit,
        .answered hreq ⟨h, hfind, hr ▸ hhandler⟩ heffect (fun _ _ hv => ?_) ?_ hsent hfirst ?_⟩
      · cases hv; exact ⟨hpos, hlen⟩
      · refine ⟨dropped, resp, ?_⟩
        unfold Server.conclude Server.commit
        dsimp only
        split <;> rfl
      · rw [Bool.false_or, commit_pendingReset]
        rfl

/-- **What one poll does.** -/
theorem poll_cases (s : Server) (t : Tick L) : ∃ p, s.poll T t = some p ∧ Polled T s t p := by
  unfold Server.poll Poll.udsServerPoll
  dsimp only
  by_cases hnone : (T.receive t.link).2.ret ≠ .ok ∨ (T.receive t.link).2.out.length = 0
  · rw [if_pos hnone]
    exact ⟨_, rfl, .quiet (if_pos hnone) rfl rfl rfl⟩
  · rw [if_neg hnone]
    have hreq : t.request T = some ((T.receive t.link).2.out, (T.receive t.link).2.functional) :=
      if_neg hnone
    rcases hout : (T.receive t.link).2.out with _ | ⟨sid, tl⟩
    · rw [hout] at hnone; simp at hnone
    · rw [hout] at hreq
      exact dispatch_bench T hreq

/-- What a poll has returned, it has done. -/
theorem polled_of_poll {s : Server} {t : Tick L} {p : Poll L UInt32} (hp : s.poll T t = some p) :
    Polled T s t p := by
  obtain ⟨q, hq, hpolled⟩ := poll_cases T s t
  obtain rfl := Option.some.inj (hp.symm.trans hq)
  exact hpolled

/-- A poll finds one request. -/
theorem request_unique {t : Tick L} {sid sid' : UInt8} {tl tl' : List UInt8}
    {functional functional' : Bool} (h : t.request T = some (sid :: tl, functional))
    (h' : t.request T = some (sid' :: tl', functional')) :
    sid = sid' ∧ tl = tl' ∧ functional = functional' := by
  obtain ⟨hreq, hf⟩ := Prod.mk.inj (Option.some.inj (h.symm.trans h'))
  obtain ⟨hsid, htl⟩ := List.cons.inj hreq
  exact ⟨hsid, htl, hf⟩

/-- What a request can do, other than being refused, it does in a poll if the response fits. -/
theorem Polled.decides {s : Server} {t : Tick L} {sid : UInt8} {tl : List UInt8} {functional : Bool}
    {v v' : Result} {g g' : Statics}
    (hmeets : ∃ h, udsFindService benchServices sid = some ⟨sid, 0, some (builtin h)⟩ ∧
      Meets ((s.takeUp t.elapsedMs).ctx (sid :: tl) functional)
        (h t.random ((s.takeUp t.elapsedMs).ctx (sid :: tl) functional) (s.takeUp t.elapsedMs).g)
        v g)
    (he : Effect t.random (sid :: tl) s.session (s.takeUp t.elapsedMs).g v' g') (hv : v'.Decided)
    (hcap : v'.room ≤ s.respCap) : v = v' ∧ g = g' := by
  obtain ⟨h, hfind, hmeets⟩ := hmeets
  exact hmeets.unique (bench_decides hfind rfl he hv hcap)

/-- A poll does not change the capacity of the response buffer. -/
theorem Polled.respCap {s : Server} {t : Tick L} {p : Poll L UInt32} (hpolled : Polled T s t p) :
    p.server.respCap = s.respCap := by
  cases hpolled with
  | quiet hreq hserver =>
    rw [hserver]
    rcases ageS3_cases (s.ageLock t.elapsedMs) t.elapsedMs with ⟨-, hs3⟩ | ⟨-, hs3⟩ <;>
      rw [hs3] <;> rfl
  | unknown hreq hfind hserver => rw [hserver]; rfl
  | @answered sid tl functional v g hreq hmeets heffect hlen hserver =>
    obtain ⟨dropped, buf, hserver⟩ := hserver
    rw [hserver]
    cases v with
    | negative nrc => rfl
    | positive resp session =>
      rw [conclude_positive]
      rcases commit_cases { s.takeUp t.elapsedMs with g := g } sid session with ⟨-, hc⟩ | ⟨-, hc⟩ <;>
        rw [hc] <;> rfl

/-- A step of the system is a poll. -/
theorem step_polled {s s' : Server} {t : Tick L} (hst : (udsSystem T).step s t s') :
    ∃ p, s.poll T t = some p ∧ s' = p.server ∧ Polled T s t p := by
  obtain ⟨p, hp, hpolled⟩ := poll_cases T s t
  have hst' : (s.poll T t).map Poll.server = some s' := hst
  rw [hp] at hst'
  exact ⟨p, hp, (Option.some.inj hst').symm, hpolled⟩

end Uds

end Espcan32

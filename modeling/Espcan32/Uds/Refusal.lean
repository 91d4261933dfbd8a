import Espcan32.Uds.Response

/-!
# Refused responses

A handler commits its effect before the response is sent.  When `isotp_send()` refuses the
response, the tester is told to repeat the request, or hears nothing; only the restart of an
ECUReset is taken back.

* `NoEffect` : what a refused response should leave behind.
* `Harmless` : the requests that have no effect that shows.
* `refused_noEffect_iff` : **a refused response has no hidden effect exactly for these**.
-/

namespace Espcan32

namespace Uds

open IsoTp (Ret Link)

/-! ### What can be observed -/

/-- The state that later requests can observe; the seed counts while it is outstanding. -/
structure Observed where
  session : UInt8
  secLevel : UInt8
  seed : Option UInt32
  secAttempts : UInt8
  xferSize : UInt32
  xferReceived : UInt32
  xferBsc : UInt8
  deriving DecidableEq, Repr

/-- What can be observed of a server. -/
def Server.observed (s : Server) : Observed where
  session := s.session
  secLevel := s.g.secLevel
  seed := if s.g.secPending = 0 then none else some s.g.secSeed
  secAttempts := s.g.secAttempts
  xferSize := s.g.xferSize
  xferReceived := s.g.xferReceived
  xferBsc := s.g.xferBsc

/-- The transport has refused the response `resp`. -/
def Poll.Refused {L W : Type} (p : Poll L W) (resp : List UInt8) : Prop :=
  ∃ r rest, p.sent = (resp, r) :: rest ∧ ¬Taken r

/-- The poll `p` of the server `s` has refused the response `resp` to the request of `t` without a
trace: nothing has changed that can be observed, and when the request is repeated on a link that
takes the response, with the same random number, the response is the same. -/
def NoEffect {L : Type} (T : Transport L) (s : Server) (t : Tick L) (p : Poll L UInt32)
    (resp : List UInt8) : Prop :=
  p.server.observed = s.observed ∧
    ∀ t' : Tick L, t'.request T = t.request T → t'.random = t.random →
      Taken (T.send (T.receive t'.link).1 resp).2 →
        ∃ p' r, p.server.poll T t' = some p' ∧ p'.sent = [(resp, r)]

/-- The requests whose positive response stands for no effect that shows: those without one, a
session or a reset that the server is in already, a seed that is zero or the same again, and the
repetition of a block. -/
structure Harmless (random : UInt32) (s : Server) (sid : UInt8) (tl : List UInt8) : Prop where
  session : sid = Sid.diagSession → ∀ b ∈ tl.head?, subFunction b = s.session ∧
    (subFunction b = udsSessionDefault → s.g.secLevel = 0 ∧ s.g.secPending = 0)
  reset : sid = Sid.ecuReset → ∀ b ∈ tl.head?,
    subFunction b = 0x01 ∨ subFunction b = 0x02 ∨ subFunction b = 0x03 →
      s.session = udsSessionDefault
  seed : sid = Sid.security → tl.head? = some 0x01 ∧
    (s.g.secLevel = udsSecLevel1 ∨ s.g.secPending ≠ 0 ∧ challenge random = s.g.secSeed)
  download : sid ≠ Sid.reqDownload
  again : sid = Sid.transferData → ∀ bsc ∈ tl.head?, bsc ≠ s.g.xferBsc
  exit : sid ≠ Sid.reqXferExit

theorem Harmless.other {random : UInt32} {s : Server} {sid : UInt8} {tl : List UInt8}
    (h : sid = Sid.readDid ∨ sid = Sid.routine ∨ sid = Sid.testerPres) :
    Harmless random s sid tl := by
  rcases h with rfl | rfl | rfl <;>
    exact ⟨fun h => absurd h (by decide), fun h => absurd h (by decide),
      fun h => absurd h (by decide), by decide, fun h => absurd h (by decide), by decide⟩

/-! ### Time -/

/-- What a request can do, it can do later too. -/
theorem Effect.ageLock {random : UInt32} {req resp : List UInt8} {session session' : UInt8}
    {s : Server} {g : Statics} (he : Effect random req session s.g (.positive resp session') g)
    (elapsedMs : UInt32) :
    ∃ g', Effect random req session (s.ageLock elapsedMs).g (.positive resp session') g' := by
  cases he with
  | session hr hsub => exact ⟨_, .session hr hsub⟩
  | reset hr hsub => exact ⟨_, .reset hr hsub⟩
  | noReset hr hlow hsub => exact ⟨_, .noReset hr hlow hsub⟩
  | dids hr hlen hany => exact ⟨_, .dids hr hlen hany⟩
  | seed hr hlock hlevel => exact ⟨_, .seed hr (ageLock_zero hlock) hlevel⟩
  | zeroSeed hr hlock hlevel => exact ⟨_, .zeroSeed hr (ageLock_zero hlock) hlevel⟩
  | unlock hr hlock hpending hkey => exact ⟨_, .unlock hr (ageLock_zero hlock) hpending hkey⟩
  | routine hr hsub => exact ⟨_, .routine hr hsub⟩
  | present hr hsub => exact ⟨_, .present hr hsub⟩
  | download hr hlen hlevel hclosed hsizeLen haddrLen hlens hneed hmem hsize =>
    exact ⟨_, .download hr hlen hlevel hclosed hsizeLen haddrLen hlens hneed hmem hsize⟩
  | block hr hopen hlevel hlen hroom => exact ⟨_, .block hr hopen hlevel hlen hroom⟩
  | again hr hopen hlevel hne hpos hbsc => exact ⟨_, .again hr hopen hlevel hne hpos hbsc⟩
  | exit hr hopen hlevel => exact ⟨_, .exit hr hopen hlevel⟩

/-! ### What is left behind -/

/-- A relock of a locked server changes nothing. -/
theorem relock_eq {g : Statics} (h : g.Sound) (hlevel : g.secLevel = 0)
    (hpending : g.secPending = 0) : g.relock = g := by
  have hclosed : g.xferActive = false := by
    by_contra hopen
    have hopen' := (h.openXfer (by simpa using hopen)).1
    rw [hlevel] at hopen'
    exact absurd hopen' (by decide)
  obtain ⟨hsize, hrec, hbsc⟩ := h.closedXfer hclosed
  cases g
  simp only at hlevel hpending hclosed hsize hrec hbsc
  subst hlevel hpending hclosed hsize hrec hbsc
  rfl

theorem mirror_g {s : Server} (h : s.g.pendingReset = false) : s.mirror.g = s.g := by
  unfold Server.mirror
  rw [← h]

section

variable {random elapsedMs : UInt32} {s : Server} {sid : UInt8} {tl resp : List UInt8}
  {session : UInt8} {g : Statics}

/-- What is harmless leaves the statics and the session alone. -/
theorem Harmless.unchanged (hh : Harmless random s sid tl) (hsound : s.Sound)
    (he : Effect random (sid :: tl) s.session (s.takeUp elapsedMs).g (.positive resp session) g) :
    ((s.takeUp elapsedMs).conclude sid (.positive resp session) g).g = (s.takeUp elapsedMs).g ∧
      ((s.takeUp elapsedMs).conclude sid (.positive resp session) g).session = s.session := by
  have ht := hsound.takeUp elapsedMs
  -- what asks for no other session and leaves the statics alone
  have hself : sid ≠ Sid.diagSession →
      ((s.takeUp elapsedMs).conclude sid (.positive resp s.session) (s.takeUp elapsedMs).g).g =
          (s.takeUp elapsedMs).g ∧
        ((s.takeUp elapsedMs).conclude sid (.positive resp s.session)
          (s.takeUp elapsedMs).g).session = s.session := by
    intro hsid
    rw [conclude_self s elapsedMs hsid]
    exact ⟨mirror_g ht.noReset, rfl⟩
  cases he with
  | session hr hsub =>
    obtain ⟨rfl, rfl⟩ := List.cons.inj hr
    obtain ⟨hsame, hdefault⟩ := hh.session rfl _ rfl
    rw [conclude_positive]
    rcases commit_cases (s.takeUp elapsedMs) Sid.diagSession _ with ⟨hwhy, hc⟩ | ⟨-, hc⟩ <;> rw [hc]
    · rcases hwhy with hne | ⟨-, hd⟩
      · exact absurd hsame hne
      · obtain ⟨hlevel, hpending⟩ := hdefault hd
        refine ⟨(mirror_g ?_).trans (relock_eq ht.statics hlevel hpending), hsame⟩
        exact ht.noReset
    · exact ⟨mirror_g ht.noReset, rfl⟩
  | reset hr hsub =>
    obtain ⟨rfl, rfl⟩ := List.cons.inj hr
    have hd := hh.reset rfl _ rfl hsub
    rw [← hd, conclude_self s elapsedMs (by decide)]
    refine ⟨?_, rfl⟩
    show { (s.takeUp elapsedMs).g with pendingReset := false } = (s.takeUp elapsedMs).g
    rw [← ht.noReset]
  | seed hr hlock hlevel =>
    obtain ⟨rfl, rfl⟩ := List.cons.inj hr
    rcases (hh.seed rfl).2 with h1 | ⟨hpend, hseed⟩
    · exact absurd h1 hlevel
    · have hg : { (s.takeUp elapsedMs).g with
          secSeed := challenge random, secPending := udsSecLevel1 } = (s.takeUp elapsedMs).g := by
        rw [hseed, ← hsound.statics.offered.resolve_left hpend]
        rfl
      rw [hg]
      exact hself (by decide)
  | unlock hr =>
    obtain ⟨rfl, rfl⟩ := List.cons.inj hr
    exact absurd (hh.seed rfl).1 (by simp)
  | download hr => exact absurd (List.cons.inj hr).1 hh.download
  | block hr =>
    obtain ⟨rfl, rfl⟩ := List.cons.inj hr
    exact absurd rfl (hh.again rfl _ rfl)
  | exit hr => exact absurd (List.cons.inj hr).1 hh.exit
  | noReset hr | dids hr | zeroSeed hr | routine hr | present hr | again hr =>
    obtain ⟨rfl, rfl⟩ := List.cons.inj hr
    exact hself (by decide)

/-- What can be observed after a positive result that asks for no other session. -/
theorem observed_conclude_self (hsid : sid ≠ Sid.diagSession) :
    ((s.takeUp elapsedMs).conclude sid (.positive resp s.session) g).observed =
      ⟨s.session, g.secLevel, if g.secPending = 0 then none else some g.secSeed, g.secAttempts,
        g.xferSize, g.xferReceived, g.xferBsc⟩ := by
  rw [conclude_self s elapsedMs hsid]
  rfl

/-- What leaves no trace is harmless. -/
theorem harmless_of_observed (hsound : s.Sound)
    (he : Effect random (sid :: tl) s.session (s.takeUp elapsedMs).g (.positive resp session) g)
    (hobs : ((s.takeUp elapsedMs).conclude sid (.positive resp session) g).observed = s.observed) :
    Harmless random s sid tl := by
  have hst := hsound.statics
  cases he with
  | dids hr => exact .other (.inl (List.cons.inj hr).1)
  | routine hr => exact .other (.inr (.inl (List.cons.inj hr).1))
  | present hr => exact .other (.inr (.inr (List.cons.inj hr).1))
  | @session b _ hr hsub =>
    obtain ⟨rfl, rfl⟩ := List.cons.inj hr
    have hsame : subFunction b = s.session ∧
        (subFunction b = udsSessionDefault → s.g.secLevel = 0 ∧ s.g.secPending = 0) := by
      rw [conclude_positive] at hobs
      rcases commit_cases (s.takeUp elapsedMs) Sid.diagSession (subFunction b) with
        ⟨-, hc⟩ | ⟨hno, -⟩
      · -- the relock shows, unless there is nothing to clear
        rw [show ({ s.takeUp elapsedMs with g := (s.takeUp elapsedMs).g } : Server) =
          s.takeUp elapsedMs from rfl, hc] at hobs
        simp only [Server.observed, Observed.mk.injEq] at hobs
        obtain ⟨hsess, hlevel, hseed, -⟩ := hobs
        refine ⟨hsess, fun _ => ⟨hlevel.symm, ?_⟩⟩
        by_contra hpend
        rw [if_neg hpend] at hseed
        cases hseed
      · refine ⟨?_, fun hd => absurd (.inr ⟨rfl, hd⟩) hno⟩
        by_contra hne
        exact hno (.inl hne)
    refine ⟨fun _ => ?_, fun h => absurd h (by decide), fun h => absurd h (by decide), by decide,
      fun h => absurd h (by decide), by decide⟩
    rintro _ ⟨⟩
    exact hsame
  | reset hr hsub =>
    obtain ⟨rfl, rfl⟩ := List.cons.inj hr
    have hd : s.session = udsSessionDefault := by
      rw [conclude_positive] at hobs
      rcases commit_cases { s.takeUp elapsedMs with
          g := { (s.takeUp elapsedMs).g with pendingReset := true } } Sid.ecuReset
        udsSessionDefault with ⟨-, hc⟩ | ⟨hno, -⟩
      · rw [hc] at hobs
        exact (congrArg Observed.session hobs).symm
      · by_contra hne
        exact hno (.inl fun h => hne h.symm)
    exact ⟨fun h => absurd h (by decide), fun _ _ _ _ => hd, fun h => absurd h (by decide),
      by decide, fun h => absurd h (by decide), by decide⟩
  | noReset hr hlow hsub =>
    obtain ⟨rfl, rfl⟩ := List.cons.inj hr
    refine ⟨fun h => absurd h (by decide), fun _ => ?_, fun h => absurd h (by decide), by decide,
      fun h => absurd h (by decide), by decide⟩
    rintro _ ⟨⟩ hres
    exact absurd hres hsub
  | seed hr hlock hlevel =>
    obtain ⟨rfl, rfl⟩ := List.cons.inj hr
    rw [observed_conclude_self (by decide)] at hobs
    have hseed : some (challenge random) = if s.g.secPending = 0 then none else some s.g.secSeed :=
      congrArg Observed.seed hobs
    -- a new seed shows, unless it is the one that is out
    have hpend : s.g.secPending ≠ 0 := by
      intro h0
      rw [if_pos h0] at hseed
      cases hseed
    rw [if_neg hpend] at hseed
    exact ⟨fun h => absurd h (by decide), fun h => absurd h (by decide),
      fun _ => ⟨rfl, .inr ⟨hpend, Option.some.inj hseed⟩⟩, by decide,
      fun h => absurd h (by decide), by decide⟩
  | zeroSeed hr hlock hlevel =>
    obtain ⟨rfl, rfl⟩ := List.cons.inj hr
    exact ⟨fun h => absurd h (by decide), fun h => absurd h (by decide),
      fun _ => ⟨rfl, .inl hlevel⟩, by decide, fun h => absurd h (by decide), by decide⟩
  | unlock hr hlock hpending =>
    obtain ⟨rfl, rfl⟩ := List.cons.inj hr
    rw [observed_conclude_self (by decide)] at hobs
    -- with a seed out the server is locked, so that the level shows
    have hlevel : udsSecLevel1 = s.g.secLevel := congrArg Observed.secLevel hobs
    have hpend : s.g.secPending = udsSecLevel1 := hpending
    rw [(hst.pending (by rw [hpend]; decide)).1] at hlevel
    exact absurd hlevel (by decide)
  | download hr hlen hlevel hclosed hsizeLen haddrLen hlens hneed hmem hsize =>
    obtain ⟨rfl, rfl⟩ := List.cons.inj hr
    rw [observed_conclude_self (by decide)] at hobs
    exact absurd ((congrArg Observed.xferSize hobs).trans (hst.closedXfer hclosed).1) hsize
  | block hr hopen hlevel =>
    obtain ⟨rfl, rfl⟩ := List.cons.inj hr
    rw [observed_conclude_self (by decide)] at hobs
    -- the block counter shows, also where it wraps
    have hbsc : s.g.xferBsc + 1 = s.g.xferBsc := congrArg Observed.xferBsc hobs
    have hmod := congrArg UInt8.toNat hbsc
    rw [UInt8.toNat_add, UInt8.toNat_one] at hmod
    omega
  | again hr hopen hlevel hne =>
    obtain ⟨rfl, rfl⟩ := List.cons.inj hr
    refine ⟨fun h => absurd h (by decide), fun h => absurd h (by decide),
      fun h => absurd h (by decide), by decide, fun _ => ?_, by decide⟩
    rintro _ ⟨⟩
    exact hne
  | exit hr hopen hlevel =>
    obtain ⟨rfl, rfl⟩ := List.cons.inj hr
    rw [observed_conclude_self (by decide)] at hobs
    -- an open download has a size
    have hzero : 0 = s.g.xferSize := congrArg Observed.xferSize hobs
    exact absurd (hst.openXfer hopen).2.1 (by rw [← hzero]; decide)

end

/-! ### Refused responses -/

/-- **A refused response has no hidden effect exactly if the request is harmless**: for every
state that the server can reach over any transport, and every poll whose positive response is
refused, nothing has changed that later requests can observe, and the repeated request is answered
with the same response, if and only if the request asks for no effect that shows. -/
theorem refused_noEffect_iff {L₀ : Type} {T₀ : Transport L₀} {respBuf : Mem UInt8} {respCap : ℕ}
    {ts : List (Tick L₀)} {s : Server}
    (hrun : (udsSystem T₀).Run (udsServerInit respBuf respCap) ts s) {L : Type} {T : Transport L}
    {t : Tick L} {p : Poll L UInt32} {sid session : UInt8} {tl resp : List UInt8}
    {functional : Bool} (hp : s.poll T t = some p)
    (hreq : t.request T = some (sid :: tl, functional))
    (hresult : s.result t (sid :: tl) functional = some (.positive resp session))
    (hrefused : p.Refused resp) :
    NoEffect T s t p resp ↔ Harmless t.random s sid tl := by
  have hsound := sound_of_run hrun
  obtain ⟨r, rest, hsent, -⟩ := hrefused
  have hpolled := polled_of_poll T hp
  have hcap := hpolled.respCap
  cases hpolled with
  | quiet hnone => rw [hreq] at hnone; cases hnone
  | unknown hreq' hfind =>
    obtain ⟨rfl, rfl, rfl⟩ := request_unique T hreq hreq'
    rw [result_unknown hfind] at hresult
    cases hresult
  | @answered sid' tl' functional' v g hreq' hmeets heffect hlen hserver hsends =>
    obtain ⟨rfl, rfl, rfl⟩ := request_unique T hreq hreq'
    obtain rfl := Option.some.inj ((result_answered hmeets).symm.trans hresult)
    obtain ⟨dropped, buf, hserver⟩ := hserver
    have hloud : Poll.suppressed sid (sid :: tl) = false := by
      by_contra hs
      simp only [Sends] at hsends
      rw [if_pos (by simpa using hs), hsent] at hsends
      cases hsends
    constructor
    · rintro ⟨hobs, -⟩
      rw [hserver] at hobs
      exact harmless_of_observed hsound heffect hobs
    · intro hh
      obtain ⟨hg, hsess⟩ := hh.unchanged hsound heffect
      have hg' : p.server.g = (s.takeUp t.elapsedMs).g := by rw [hserver]; exact hg
      have hsess' : p.server.session = s.session := by rw [hserver]; exact hsess
      refine ⟨?_, fun t' hagain hrandom htaken => ?_⟩
      · unfold Server.observed
        rw [hg', hsess']
        rfl
      -- the same effect is possible once more, and so it happens
      obtain ⟨p', hp', hpolled'⟩ := poll_cases T p.server t'
      have he : Effect t'.random (sid :: tl) p.server.session p.server.g (.positive resp session)
          g := by
        rw [hg', hsess', hrandom]
        exact heffect
      obtain ⟨g', he'⟩ := he.ageLock t'.elapsedMs
      cases hpolled' with
      | quiet hnone => rw [hagain, hreq] at hnone; cases hnone
      | unknown hreq'' hfind =>
        obtain ⟨rfl, rfl, rfl⟩ := request_unique T (hagain.trans hreq) hreq''
        obtain ⟨h, hfind', -⟩ := hmeets
        rw [hfind] at hfind'; cases hfind'
      | @answered sid'' tl'' functional'' v' g'' hreq'' hmeets' heffect' hlen' hserver' hsends'
          hfirst' =>
        obtain ⟨rfl, rfl, rfl⟩ := request_unique T (hagain.trans hreq) hreq''
        obtain ⟨rfl, -⟩ := Polled.decides hmeets' he' trivial
          (by rw [hcap]; exact (hlen resp session rfl).2)
        simp only [Sends] at hsends'
        rw [if_neg (by simp [hloud])] at hsends'
        rcases hsends' with ⟨r', -, hsent'⟩ | ⟨r', r'', hr', hsent'⟩
        · exact ⟨p', r', hp', hsent'⟩
        · have hfirst : r' = (T.send (T.receive t'.link).1 resp).2 :=
            hfirst' (resp, r') (by rw [hsent']; rfl)
          exact absurd (hfirst ▸ htaken) hr'

/-! ### A busy link -/

/-- A poll that finds the request `req` complete while the link waits for a FlowControl. -/
def busyTick (req : List UInt8) (elapsedMs random : UInt32) : Tick Link :=
  let t := heldTick req elapsedMs random
  { t with link := { t.link with tx := { t.link.tx with phase := .waitFc } } }

theorem refused_noEffect_iff_testerPresent :
    ∃ p, (udsServerInit (fun _ => 0) 4095).poll (linkTransport ⟨0, true⟩) (busyTick [0x3E, 0x00] 1 0) =
        some p ∧
      NoEffect (linkTransport ⟨0, true⟩) (udsServerInit (fun _ => 0) 4095)
        (busyTick [0x3E, 0x00] 1 0) p [0x7E, 0x00] := by
  have hrun : (udsSystem (linkTransport ⟨0, true⟩)).Run (udsServerInit (fun _ => 0) 4095) []
      (udsServerInit (fun _ => 0) 4095) := .nil
  have hsent : ((udsServerInit (fun _ => 0) 4095).poll (linkTransport ⟨0, true⟩)
      (busyTick [0x3E, 0x00] 1 0)).map Poll.sent =
        some [([0x7E, 0x00], .nospace), ([0x7F, 0x3E, 0x21], .nospace)] := by decide +kernel
  obtain ⟨p, hp, hsent⟩ := Option.map_eq_some_iff.1 hsent
  have hresult : (udsServerInit (fun _ => 0) 4095).result (busyTick [0x3E, 0x00] 1 0)
      [0x3E, 0x00] false = some (.positive [0x7E, 0x00] 1) := by decide +kernel
  exact ⟨p, hp, (refused_noEffect_iff hrun hp (by decide +kernel) hresult
    ⟨_, _, hsent, by decide⟩).2 (.other (by decide))⟩

/-- The server is unlocked, and the response to a RequestDownload is refused. -/
def refusedDownload : Option (Server × Poll Link UInt32) := do
  let T := linkTransport ⟨0, true⟩
  let s ← System.runs (fun s t => (s.poll T t).map Poll.server) (udsServerInit (fun _ => 0) 4095)
    [heldTick [0x27, 0x01] 1 0x12345678, heldTick [0x27, 0x02, 0x48, 0x6E, 0x0C, 0x22] 1 0]
  let p ← s.poll T (busyTick [0x34, 0x00, 0x44, 0, 0, 0, 0, 0, 0, 1, 0] 1 0)
  some (s, p)

/-- The download is open, although the tester has been told to repeat its request. -/
theorem refusedDownload_opens :
    ¬∀ (ts : List (Tick Link)) (s : Server) (t : Tick Link) (p : Poll Link UInt32)
      (sid session : UInt8) (tl resp : List UInt8) (functional : Bool),
      (udsSystem (linkTransport ⟨0, true⟩)).Run (udsServerInit (fun _ => 0) 4095) ts s →
        s.poll (linkTransport ⟨0, true⟩) t = some p →
          t.request (linkTransport ⟨0, true⟩) = some (sid :: tl, functional) →
            s.result t (sid :: tl) functional = some (.positive resp session) → p.Refused resp →
              NoEffect (linkTransport ⟨0, true⟩) s t p resp := by
  intro hall
  rcases h : refusedDownload with _ | ⟨s, p⟩
  · exact absurd h (by decide +kernel)
  have hsteps := h
  simp only [refusedDownload, Option.bind_eq_bind, Option.bind_eq_some_iff] at hsteps
  obtain ⟨s', hs, p', hp, heq⟩ := hsteps
  obtain ⟨rfl, rfl⟩ := Prod.mk.inj (Option.some.inj heq)
  have hsize : refusedDownload.map (fun q => (q.1.g.xferSize, q.2.server.g.xferSize)) =
      some (0, 256) := by decide +kernel
  have hsent : refusedDownload.map (fun q => q.2.sent) =
      some [([0x74, 0x20, 0x04, 0x02], .nospace), ([0x7F, 0x34, 0x21], .nospace)] := by
    decide +kernel
  have hresult : refusedDownload.bind (fun q => q.1.result
      (busyTick [0x34, 0x00, 0x44, 0, 0, 0, 0, 0, 0, 1, 0] 1 0)
      [0x34, 0x00, 0x44, 0, 0, 0, 0, 0, 0, 1, 0] false) =
        some (.positive [0x74, 0x20, 0x04, 0x02] 1) := by decide +kernel
  rw [h] at hsize hsent hresult
  rw [Option.map_some, Option.some.injEq] at hsize hsent
  obtain ⟨hbefore, hafter⟩ := Prod.mk.inj hsize
  have hno := hall _ s' _ p' _ _ _ _ _ (System.Run.of_runs hs) hp (by decide +kernel) hresult
    ⟨_, _, hsent, by decide⟩
  have hsame : p'.server.g.xferSize = s'.g.xferSize := congrArg Observed.xferSize hno.1
  rw [hbefore, hafter] at hsame
  exact absurd hsame (by decide)

end Uds

end Espcan32

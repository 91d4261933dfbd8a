import Espcan32.Uds.Server

/-!
# The invariant of the server

Nine handlers, the commit of a session, S3 expiry and refused responses touch the statics.

* `Statics.Sound` : how the unlock, the seed, the lockout and the transfer go together.
* `Statics.Sound.effect` : every effect of a request keeps it.
* `server_sound` : **it holds after every run**; a transfer is open only while the unlock that
  opened it lasts.
-/

namespace Espcan32

namespace Uds

/-- How the unlock, the seed, the lockout and the transfer go together. -/
structure Statics.Sound (g : Statics) : Prop where
  openXfer : g.xferActive = true →
    g.secLevel = udsSecLevel1 ∧ 0 < g.xferSize ∧ g.xferReceived ≤ g.xferSize
  closedXfer : g.xferActive = false → g.xferSize = 0 ∧ g.xferReceived = 0 ∧ g.xferBsc = 0
  pending : g.secPending ≠ 0 → g.secLevel = 0 ∧ g.secLockMs = 0
  offered : g.secPending = 0 ∨ g.secPending = udsSecLevel1
  attempts : g.secAttempts < udsSecMaxAttempts
  level : g.secLevel = 0 ∨ g.secLevel = udsSecLevel1
  locked : g.secLockMs ≠ 0 → g.secLevel = 0

/-- The invariant of the server. -/
structure Server.Sound (s : Server) : Prop where
  statics : s.g.Sound
  noReset : s.g.pendingReset = false
  mirrored : s.secLevel = s.g.secLevel
  session : s.session = udsSessionDefault ∨ s.session = udsSessionProg ∨
    s.session = udsSessionExtended

namespace Statics.Sound

variable {g g' : Statics}

theorem init : Statics.init.Sound := by
  constructor <;> decide

theorem relock (h : g.Sound) : g.relock.Sound where
  openXfer hopen := by cases hopen
  closedXfer _ := ⟨rfl, rfl, rfl⟩
  pending hp := absurd rfl hp
  offered := .inl rfl
  attempts := h.attempts
  level := .inl rfl
  locked _ := rfl

theorem pendingReset (h : g.Sound) (b : Bool) : { g with pendingReset := b }.Sound :=
  ⟨h.openXfer, h.closedXfer, h.pending, h.offered, h.attempts, h.level, h.locked⟩

theorem ageLock {s : Server} (h : s.g.Sound) (elapsedMs : UInt32) :
    (s.ageLock elapsedMs).g.Sound := by
  refine ⟨h.openXfer, h.closedXfer, fun hp => ?_, h.offered, h.attempts, h.level, fun hl => ?_⟩
  · exact ⟨(h.pending hp).1, ageLock_zero (h.pending hp).2⟩
  · exact h.locked fun h0 => hl (ageLock_zero h0)

/-- Every effect of a request keeps the invariant. -/
theorem effect {random : UInt32} {req : List UInt8} {session : UInt8} {v : Result} (h : g.Sound)
    (he : Effect random req session g v g') : g'.Sound := by
  cases he with
  | refused | session | noReset | dids | zeroSeed | routine | present | again => exact h
  | reset => exact h.pendingReset true
  | seed hreq hlock hlevel =>
    refine ⟨h.openXfer, h.closedXfer, fun _ => ⟨?_, hlock⟩, .inr rfl, h.attempts, h.level, h.locked⟩
    exact h.level.resolve_right hlevel
  | unlock hreq hlock hpending hkey =>
    refine ⟨fun hopen => ?_, h.closedXfer, fun hp => absurd rfl hp, .inl rfl, ?_, .inr rfl,
      fun hl => absurd hlock hl⟩
    · exact ⟨rfl, (h.openXfer hopen).2⟩
    · show (0 : UInt8) < udsSecMaxAttempts
      decide
  | badKey hreq hlock hpending hkey hmax =>
    exact ⟨h.openXfer, h.closedXfer, fun hp => absurd rfl hp, .inl rfl, UInt8.not_le.1 hmax,
      h.level, h.locked⟩
  | lockout hreq hlock hpending hkey hmax =>
    refine ⟨h.openXfer, h.closedXfer, fun hp => absurd rfl hp, .inl rfl, ?_, h.level, fun _ => ?_⟩
    · show (0 : UInt8) < udsSecMaxAttempts
      decide
    · exact (h.pending (by rw [hpending]; decide)).1
  | download hreq hlen hlevel hclosed hsizeLen haddrLen hlens hneed hmem hsize =>
    exact ⟨fun _ => ⟨hlevel, UInt32.pos_iff_ne_zero.2 hsize, UInt32.zero_le⟩,
      (fun hc => by cases hc), h.pending, h.offered, h.attempts, h.level, h.locked⟩
  | block hreq hopen hlevel hlen hroom =>
    exact ⟨fun _ => ⟨hlevel, (h.openXfer hopen).2.1, hroom⟩, fun hc => (by cases hopen.symm.trans hc),
      h.pending, h.offered, h.attempts, h.level, h.locked⟩
  | exit hreq hopen hlevel =>
    exact ⟨(fun ho => by cases ho), fun _ => ⟨rfl, rfl, rfl⟩, h.pending, h.offered, h.attempts,
      h.level, h.locked⟩

end Statics.Sound

namespace Server.Sound

variable {s : Server}

theorem init (respBuf : Mem UInt8) (respCap : ℕ) : (udsServerInit respBuf respCap).Sound :=
  ⟨Statics.Sound.init, rfl, rfl, .inl rfl⟩

theorem takeUp (h : s.Sound) (elapsedMs : UInt32) : (s.takeUp elapsedMs).Sound :=
  ⟨h.statics.ageLock elapsedMs, h.noReset, h.mirrored, h.session⟩

theorem ageS3 (h : s.Sound) (elapsedMs : UInt32) : (s.ageS3 elapsedMs).Sound := by
  rcases ageS3_cases s elapsedMs with ⟨-, hs3⟩ | ⟨-, hs3⟩ <;> rw [hs3]
  · exact ⟨h.statics.relock, h.noReset, rfl, .inl rfl⟩
  · exact ⟨h.statics, h.noReset, h.mirrored, h.session⟩

/-- An answer keeps the invariant, and no restart stays pending. -/
theorem conclude {random : UInt32} {req : List UInt8} {v : Result} {g : Statics} (h : s.Sound)
    (sid : UInt8) (he : Effect random req s.session s.g v g) : (s.conclude sid v g).Sound := by
  have hg := h.statics.effect he
  cases v with
  | negative nrc => exact ⟨hg.pendingReset false, rfl, rfl, h.session⟩
  | positive resp session =>
    have hsession : session = udsSessionDefault ∨ session = udsSessionProg ∨
        session = udsSessionExtended := by
      cases he with
      | session hreq hsub => exact hsub
      | reset => exact .inl rfl
      | noReset | dids | seed | zeroSeed | unlock | routine | present | download | block | again
      | exit => exact h.session
    show (Server.commit { s with g := g } sid session).mirror.Sound
    rcases commit_cases { s with g := g } sid session with ⟨-, hc⟩ | ⟨-, hc⟩ <;> rw [hc]
    · exact ⟨hg.relock.pendingReset false, rfl, rfl, hsession⟩
    · exact ⟨hg.pendingReset false, rfl, rfl, h.session⟩

theorem step {L : Type} {T : Transport L} {t : Tick L} {s' : Server} (h : s.Sound)
    (hst : (udsSystem T).step s t s') : s'.Sound := by
  obtain ⟨p, -, rfl, hpolled⟩ := step_polled T hst
  cases hpolled with
  | quiet hreq hserver =>
    rw [hserver]
    exact ageS3 ⟨h.statics.ageLock _, h.noReset, h.mirrored, h.session⟩ _
  | unknown hreq hfind hserver =>
    have ht := h.takeUp t.elapsedMs
    rw [hserver]
    exact ⟨ht.statics, ht.noReset, ht.mirrored, ht.session⟩
  | @answered sid tl functional v g hreq hmeets heffect hlen hserver =>
    obtain ⟨dropped, buf, hserver⟩ := hserver
    have hc := (h.takeUp t.elapsedMs).conclude sid heffect
    rw [hserver]
    exact ⟨hc.statics, hc.noReset, hc.mirrored, hc.session⟩

end Server.Sound

/-! ### The unlock and the transfer -/

/-- A handler answers with the negative response code `nrc`. -/
def AnswersNrc (r : Option (Disp × Ctx × Statics)) (nrc : UInt8) : Prop :=
  ∃ c g, r = some (.negative, c, g) ∧ c.nrc = nrc

theorem answersNrc_refuse {c : Ctx} {nrc nrc' : UInt8} {g : Statics}
    (h : AnswersNrc (c.refuse nrc g) nrc') : nrc = nrc' := by
  obtain ⟨c', g', heq, hnrc⟩ := h
  obtain ⟨-, rfl, -⟩ := Prod.mk.inj (Option.some.inj heq) |>.imp_right Prod.mk.inj
  exact hnrc

theorem not_answersNrc_reply {c : Ctx} {bs : List UInt8} {g : Statics} {nrc : UInt8} :
    ¬AnswersNrc (c.reply bs g) nrc := by
  rintro ⟨c', g', heq, -⟩
  unfold Ctx.reply Ctx.put at heq
  split at heq <;> simp at heq

namespace Statics.Sound

variable {g : Statics}

/-- With a sound state, TransferData is not answered with securityAccessDenied. -/
theorem transferData_sad (h : g.Sound) (c : Ctx) : ¬AnswersNrc (udsHTransferData c g) Nrc.sad := by
  intro hsad
  unfold udsHTransferData at hsad
  split at hsad
  · exact absurd (answersNrc_refuse hsad) (by decide)
  split at hsad
  · exact absurd (answersNrc_refuse hsad) (by decide)
  rename_i hopen
  split at hsad
  · -- the unlock lasts as long as the transfer
    exact absurd (h.openXfer (by simpa using hopen)).1 ‹_›
  split at hsad
  · exact absurd (answersNrc_refuse hsad) (by decide)
  cases h1 : c.req[1]? with
  | none =>
    rw [h1] at hsad
    obtain ⟨_, _, heq, _⟩ := hsad
    cases heq
  | some bsc =>
    rw [h1] at hsad
    simp only [Option.bind_eq_bind, Option.bind_some] at hsad
    repeat' split at hsad
    all_goals
      first
        | exact not_answersNrc_reply hsad
        | exact absurd (answersNrc_refuse hsad) (by decide)

/-- With a sound state, RequestTransferExit is not answered with securityAccessDenied. -/
theorem requestTransferExit_sad (h : g.Sound) (c : Ctx) :
    ¬AnswersNrc (udsHRequestTransferExit c g) Nrc.sad := by
  intro hsad
  unfold udsHRequestTransferExit at hsad
  split at hsad
  · exact absurd (answersNrc_refuse hsad) (by decide)
  rename_i hopen
  split at hsad
  · exact absurd (h.openXfer (by simpa using hopen)).1 ‹_›
  split at hsad
  · exact absurd (answersNrc_refuse hsad) (by decide)
  · exact not_answersNrc_reply hsad

end Statics.Sound

/-! ### Runs -/

section

variable {L : Type} {T : Transport L} {respBuf : Mem UInt8} {respCap : ℕ} {ts : List (Tick L)}
  {s : Server}

theorem sound_of_run (hrun : (udsSystem T).Run (udsServerInit respBuf respCap) ts s) : s.Sound :=
  hrun.invariant (.init respBuf respCap) fun _ _ _ h hst => h.step hst

/-- **The invariant of the server holds after every run**, over any transport: a transfer is open
only while the server is unlocked and has then not taken more than it should; a seed is
outstanding only while the server is locked and no lockout runs; and neither TransferData nor
RequestTransferExit ever finds a transfer that has outlived its unlock. -/
theorem server_sound (hrun : (udsSystem T).Run (udsServerInit respBuf respCap) ts s) :
    (s.g.xferActive = true →
        s.g.secLevel = 1 ∧ 0 < s.g.xferSize ∧ s.g.xferReceived ≤ s.g.xferSize) ∧
      (s.g.xferActive = false → s.g.xferSize = 0 ∧ s.g.xferReceived = 0 ∧ s.g.xferBsc = 0) ∧
      (s.g.secPending ≠ 0 → s.g.secLevel = 0 ∧ s.g.secLockMs = 0) ∧
      s.g.secAttempts < 3 ∧ s.g.pendingReset = false ∧ s.secLevel = s.g.secLevel ∧
      (s.session = 1 ∨ s.session = 2 ∨ s.session = 3) ∧
      ∀ (elapsedMs : UInt32) (c : Ctx),
        ¬AnswersNrc (udsHTransferData c (s.takeUp elapsedMs).g) Nrc.sad ∧
          ¬AnswersNrc (udsHRequestTransferExit c (s.takeUp elapsedMs).g) Nrc.sad := by
  have h := sound_of_run hrun
  refine ⟨h.statics.openXfer, h.statics.closedXfer, h.statics.pending, h.statics.attempts,
    h.noReset, h.mirrored, h.session, fun elapsedMs c => ?_⟩
  have ht := (h.takeUp elapsedMs).statics
  exact ⟨ht.transferData_sad c, ht.requestTransferExit_sad c⟩

/-- The server is unlocked, and a download of 256 bytes is open with three bytes taken. -/
def openDownload : Option Server :=
  System.runs (fun s t => (s.poll (linkTransport ⟨0, true⟩) t).map Poll.server)
    (udsServerInit (fun _ => 0) 4095)
    [heldTick [0x27, 0x01] 1 0x12345678, heldTick [0x27, 0x02, 0x48, 0x6E, 0x0C, 0x22] 1 0,
      heldTick [0x34, 0x00, 0x44, 0, 0, 0, 0, 0, 0, 1, 0] 1 0, heldTick [0x36, 0x01, 1, 2, 3] 1 0]

theorem server_sound_openDownload :
    ∃ s, openDownload = some s ∧ s.g.xferActive = true ∧ s.g.xferReceived = 3 ∧
      s.g.secLevel = 1 ∧ s.g.xferReceived ≤ s.g.xferSize := by
  have hs : openDownload.map (fun s => (s.g.xferActive, s.g.xferReceived)) = some (true, 3) := by
    decide +kernel
  obtain ⟨s, h, hs⟩ := Option.map_eq_some_iff.1 hs
  rw [Prod.mk.injEq] at hs
  obtain ⟨hopen, hrec⟩ := hs
  have hx := (server_sound (System.Run.of_runs h)).1 hopen
  exact ⟨s, h, hopen, hrec, hx.1, hx.2.2⟩

end

end Uds

end Espcan32

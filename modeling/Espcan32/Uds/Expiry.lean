import Espcan32.Uds.Lockout
import Espcan32.Uds.Transfer

/-!
# S3 expiry

Without requests the server falls back to the default session and locks itself.  Its timer adds
up the time between polls in 32 bits, and every request starts it anew.

* `idleTime` : the time without requests, in numbers that do not wrap.
* `TimedBy` : the timer is that time.
* `s3_expiry` : **the server relocks when five seconds have passed without a request**, and not
  before.
-/

namespace Espcan32

namespace Uds

/-- What the S3 timer guards. -/
def Server.guarded (s : Server) :
    UInt8 × UInt8 × UInt8 × UInt8 × UInt32 × UInt32 × Bool × UInt32 × UInt32 × UInt8 :=
  (s.session, s.g.secLevel, s.secLevel, s.g.secPending, s.g.secSeed, s.secSeed, s.g.transfer)

/-- The server is in the default session, and there is nothing left of an unlock, a seed that was
handed out, or a transfer. -/
structure Server.FellBack (s : Server) : Prop where
  session : s.session = udsSessionDefault
  level : s.g.secLevel = 0
  pending : s.g.secPending = 0
  mirrored : s.secLevel = 0
  closed : s.g.xferActive = false

section

variable {L : Type} (T : Transport L)

/-- The time that has passed in polls without a request, since the last poll with one or the last
time that it has come to five seconds. -/
def idleTime (_ : Server) (t : Tick L) (n : ℕ) : ℕ :=
  match t.request T with
  | some _ => 0
  | none => if 5000 ≤ n + t.elapsedMs.toNat then 0 else n + t.elapsedMs.toNat

/-- The sum of the time and the timer does not wrap. -/
def Paced (_ : Server) (t : Tick L) : Prop := t.elapsedMs.toNat < 2 ^ 32 - 5000

instance (s : Server) (t : Tick L) : Decidable (Paced s t) := Nat.decLt _ _

end

/-- The timer stands at `n`, and expires at five seconds. -/
structure TimedBy (s : Server) (n : ℕ) : Prop where
  timer : s.s3TimerMs.toNat = n
  timeout : s.s3TimeoutMs = udsS3ServerMs
  running : n < 5000

namespace TimedBy

variable {L : Type} {T : Transport L} {s : Server} {t : Tick L} {p : Poll L UInt32} {n : ℕ}

/-- The timer has expired when the sum has come to five seconds. -/
theorem expires_iff (h : TimedBy s n) {elapsedMs : UInt32}
    (hpaced : elapsedMs.toNat < 2 ^ 32 - 5000) :
    s.s3TimeoutMs ≤ s.s3TimerMs + elapsedMs ↔ 5000 ≤ n + elapsedMs.toNat := by
  have hrunning := h.running
  have hsum : (s.s3TimerMs + elapsedMs).toNat = n + elapsedMs.toNat := by
    rw [UInt32.toNat_add, h.timer, Nat.mod_eq_of_lt (by omega)]
  rw [h.timeout, UInt32.le_iff_toNat_le, hsum]
  rfl

/-- A poll without a request: the server falls back, or the timer runs on. -/
theorem quiet_cases (h : TimedBy s n) (hpaced : Paced s t) :
    5000 ≤ n + t.elapsedMs.toNat ∧ (s.ageLock t.elapsedMs).ageS3 t.elapsedMs =
        { s.ageLock t.elapsedMs with s3TimerMs := 0, session := udsSessionDefault }.udsRelock ∨
      ¬5000 ≤ n + t.elapsedMs.toNat ∧ (s.ageLock t.elapsedMs).ageS3 t.elapsedMs =
        { s.ageLock t.elapsedMs with s3TimerMs := s.s3TimerMs + t.elapsedMs } := by
  rcases ageS3_cases (s.ageLock t.elapsedMs) t.elapsedMs with ⟨hexp, hs3⟩ | ⟨hexp, hs3⟩
  · exact .inl ⟨(h.expires_iff hpaced).1 hexp, hs3⟩
  · exact .inr ⟨fun h5 => hexp ((h.expires_iff hpaced).2 h5), hs3⟩

/-- An answer leaves the timer where it is. -/
theorem conclude (h : TimedBy s n) (sid : UInt8) (v : Result) (g : Statics) :
    TimedBy (s.conclude sid v g) n := by
  cases v with
  | negative nrc => exact ⟨h.timer, h.timeout, h.running⟩
  | positive resp session =>
    rw [conclude_positive]
    rcases commit_cases { s with g := g } sid session with ⟨-, hc⟩ | ⟨-, hc⟩ <;> rw [hc] <;>
      exact ⟨h.timer, h.timeout, h.running⟩

theorem takeUp (h : TimedBy s n) (elapsedMs : UInt32) : TimedBy (s.takeUp elapsedMs) 0 :=
  ⟨rfl, h.timeout, by decide⟩

/-- A poll keeps the timer and the idle time together. -/
theorem step (h : TimedBy s n) (hpaced : Paced s t) (hpolled : Polled T s t p) :
    TimedBy p.server (idleTime T s t n) := by
  unfold idleTime
  cases hpolled with
  | quiet hreq hserver =>
    rw [hreq, hserver]
    dsimp only
    rcases h.quiet_cases hpaced with ⟨h5, hs3⟩ | ⟨h5, hs3⟩ <;> rw [hs3]
    · rw [if_pos h5]
      exact ⟨rfl, h.timeout, by decide⟩
    · rw [if_neg h5]
      refine ⟨?_, h.timeout, by omega⟩
      show (s.s3TimerMs + t.elapsedMs).toNat = _
      rw [UInt32.toNat_add, h.timer, Nat.mod_eq_of_lt (by omega)]
  | unknown hreq hfind hserver =>
    rw [hreq, hserver]
    exact ⟨rfl, h.timeout, Nat.succ_pos _⟩
  | @answered sid tl functional v g hreq hmeets heffect hlen hserver =>
    obtain ⟨dropped, buf, hserver⟩ := hserver
    have hc := (h.takeUp t.elapsedMs).conclude sid v g
    rw [hreq, hserver]
    exact ⟨hc.timer, hc.timeout, hc.running⟩

end TimedBy

section

variable {L : Type} {T : Transport L} {s : Server} {n : ℕ} {respBuf : Mem UInt8} {respCap : ℕ}
  {ts : List (Tick L)}

theorem timedBy_of_run (hrun : (((udsSystem T).guard Paced).withAux (idleTime T)).Run
    (udsServerInit respBuf respCap, 0) ts (s, n)) : TimedBy s n := by
  refine hrun.invariant (I := fun q => TimedBy q.1 q.2) ⟨rfl, rfl, Nat.succ_pos _⟩ ?_
  rintro ⟨s, n⟩ t ⟨s', n'⟩ hinv ⟨⟨hpaced, hst⟩, haux⟩
  obtain ⟨p, -, hs', hpolled⟩ := step_polled T hst
  dsimp only at haux hs' ⊢
  rw [haux, hs']
  exact TimedBy.step hinv hpaced hpolled

/-- **The server relocks when five seconds have passed without a request**, after every run over
any transport in which less than 2^32 - 5000 ms pass between two polls.  In a poll that finds
no request the server falls back to the default session and locks itself if the time without one
has come to five seconds, and else it changes nothing that the timer guards.  Either way the wrong
keys stay counted, and of a lockout no more passes than the time of the poll. -/
theorem s3_expiry (hrun : (((udsSystem T).guard Paced).withAux (idleTime T)).Run
    (udsServerInit respBuf respCap, 0) ts (s, n)) {t : Tick L} {p : Poll L UInt32}
    (hpaced : Paced s t) (hp : s.poll T t = some p) (hreq : t.request T = none) :
    (5000 ≤ n + t.elapsedMs.toNat → p.server.FellBack) ∧
      (n + t.elapsedMs.toNat < 5000 → p.server.guarded = s.guarded) ∧
      p.server.g.secAttempts = s.g.secAttempts ∧
      p.server.g.secLockMs.toNat = s.g.secLockMs.toNat - t.elapsedMs.toNat := by
  have htimed := timedBy_of_run hrun
  have hpolled := polled_of_poll T hp
  cases hpolled with
  | quiet hreq' hserver =>
    rw [hserver]
    rcases htimed.quiet_cases hpaced with ⟨h5, hs3⟩ | ⟨h5, hs3⟩ <;> rw [hs3]
    · exact ⟨fun _ => ⟨rfl, rfl, rfl, rfl, rfl⟩, fun hlt => absurd h5 (Nat.not_le.2 hlt), rfl,
        toNat_ageLock s t.elapsedMs⟩
    · exact ⟨fun hle => absurd hle h5, fun _ => rfl, rfl, toNat_ageLock s t.elapsedMs⟩
  | unknown hreq' => rw [hreq] at hreq'; cases hreq'
  | answered hreq' => rw [hreq] at hreq'; cases hreq'

end

/-- A poll that finds no request on the link of the host tests. -/
def idleTick (elapsedMs : UInt32) : Tick IsoTp.Link := ⟨IsoTp.testLink, elapsedMs, 0⟩

/-- The server is unlocked, and idle for four seconds. -/
def idleUnlocked : Option (Server × ℕ) :=
  let T := linkTransport ⟨0, true⟩
  System.exec (fun s t => (s.poll T t).map Poll.server) Paced (idleTime T)
    (udsServerInit (fun _ => 0) 4095, 0)
    [heldTick [0x27, 0x01] 1 0x12345678, heldTick [0x27, 0x02, 0x48, 0x6E, 0x0C, 0x22] 1 0,
      idleTick 4000]

/-- One more second locks it. -/
theorem s3_expiry_idle :
    ∃ s n p, idleUnlocked = some (s, n) ∧ s.g.secLevel = 1 ∧
      s.poll (linkTransport ⟨0, true⟩) (idleTick 1000) = some p ∧ p.server.FellBack := by
  have hs : idleUnlocked.map (fun q => (q.1.g.secLevel, q.2)) = some (1, 4000) := by
    decide +kernel
  obtain ⟨⟨s, n⟩, h, hs⟩ := Option.map_eq_some_iff.1 hs
  rw [Prod.mk.injEq] at hs
  obtain ⟨hlevel, rfl⟩ := hs
  obtain ⟨p, hp, -⟩ := poll_cases (linkTransport ⟨0, true⟩) s (idleTick 1000)
  have hpaced : Paced s (idleTick 1000) := (by decide : (1000 : UInt32).toNat < 2 ^ 32 - 5000)
  have hreq : (idleTick 1000).request (linkTransport ⟨0, true⟩) = none := by decide +kernel
  have hexpiry := s3_expiry (System.Run.of_exec h) hpaced hp hreq
  exact ⟨s, _, p, h, hlevel, hp, hexpiry.1 (by decide)⟩

end Uds

end Espcan32

import Espcan32.Lib.History
import Espcan32.Uds.Invariant

/-!
# The unlock

An unlock needs the key for the seed that was issued last, and lasts until a relock.

* `Entry` : what a poll has done, as the tester sees it.
* `Journaled` : since when a seed is outstanding, and since when the server is unlocked.
* `unlock_sound` : **an unlocked server has been given the key for the latest seed, and nothing
  that relocks it has happened since**.
-/

namespace Espcan32

namespace Uds

open History (Since)
open IsoTp (Ret)

/-! ### What the tester sees -/

/-- What a poll has done: its request, the PDUs that were handed to `isotp_send()`, the session
before and after, and whether the S3 timer has expired. -/
structure Entry where
  request : Option (List UInt8)
  pdus : List (List UInt8)
  session : UInt8
  session' : UInt8
  expired : Bool
  deriving DecidableEq, Repr

namespace Entry

variable (r : Entry)

/-- The request is a requestSeed. -/
def AsksSeed : Prop := ∃ tl, r.request = some (Sid.security :: 0x01 :: tl)

/-- A requestSeed is answered with a seed. -/
def IssuesSeed (seed : UInt32) : Prop :=
  r.AsksSeed ∧ [Sid.security + udsPosRespOffset, 0x01] ++ be32 seed ∈ r.pdus

/-- The request is a sendKey of valid length with this key. -/
def SendsKey (key : UInt32) : Prop :=
  ∃ k3 k2 k1 k0 tl, r.request = some (Sid.security :: 0x02 :: k3 :: k2 :: k1 :: k0 :: tl) ∧
    ofBe32 k3 k2 k1 k0 = key

/-- The request selects the default session. -/
def SelectsDefault : Prop :=
  ∃ b tl, r.request = some (Sid.diagSession :: b :: tl) ∧ subFunction b = udsSessionDefault

/-- The request is an ECUReset that returns to the default session from another one. -/
def ResetsSession : Prop :=
  ∃ tl, r.request = some (Sid.ecuReset :: tl) ∧ r.session ≠ udsSessionDefault ∧
    r.session' = udsSessionDefault

/-- What relocks the server: another session, the default session once more, an ECUReset that
returns to it, and S3 expiry. -/
def Relocks : Prop :=
  r.session' ≠ r.session ∨ r.SelectsDefault ∨ r.ResetsSession ∨ r.expired = true

/-- What leaves an issued seed alone. -/
def Keeps : Prop := ¬r.AsksSeed ∧ (∀ key, ¬r.SendsKey key) ∧ ¬r.Relocks

end Entry

/-- A seed has been issued, and is still outstanding. -/
def Outstanding (seed : UInt32) : List Entry → Prop :=
  Since Entry.Keeps fun _ r => r.IssuesSeed seed

/-- A poll brings the key for the seed that is outstanding. -/
def Unlocks (pre : List Entry) (r : Entry) : Prop :=
  ∃ seed, r.SendsKey (seed ^^^ 0x5A5A5A5A) ∧ Outstanding seed pre

section

variable {L : Type} (T : Transport L)

/-- What the poll `t` does. -/
def Server.entry (s : Server) (t : Tick L) : Entry where
  request := (t.request T).map Prod.fst
  pdus := ((s.poll T t).map fun p => p.sent.map Prod.fst).getD []
  session := s.session
  session' := ((s.poll T t).map fun p => p.server.session).getD s.session
  expired := t.request T = none ∧ s.s3TimeoutMs ≤ s.s3TimerMs + t.elapsedMs

/-- Keep the journal. -/
def journal (s : Server) (t : Tick L) (h : List Entry) : List Entry := h ++ [s.entry T t]

end

/-! ### The invariant -/

/-- Since when a seed is outstanding, and since when the server is unlocked. -/
structure Journaled (h : List Entry) (s : Server) : Prop where
  room : s.g.secPending ≠ 0 ∨ s.g.secLevel ≠ 0 → 6 ≤ s.respCap
  pending : s.g.secPending ≠ 0 → Outstanding s.g.secSeed h
  level : s.g.secLevel ≠ 0 → Since (fun m => ¬m.Relocks) Unlocks h

namespace Journaled

variable {h : List Entry} {r : Entry} {s s' : Server}

/-- A locked server with no seed outstanding has nothing to account for. -/
theorem clear (hpending : s.g.secPending = 0) (hlevel : s.g.secLevel = 0) : Journaled h s where
  room hp := hp.elim (absurd hpending) (absurd hlevel)
  pending hp := absurd hpending hp
  level hl := absurd hlevel hl

/-- What leaves the security state alone. -/
theorem still (hinv : Journaled h s) (hcap : s'.respCap = s.respCap)
    (hpending : s'.g.secPending = s.g.secPending) (hseed : s'.g.secSeed = s.g.secSeed)
    (hlevel : s'.g.secLevel = s.g.secLevel) (hkeeps : s.g.secPending ≠ 0 → r.Keeps)
    (hrelocks : s.g.secLevel ≠ 0 → ¬r.Relocks) : Journaled (h ++ [r]) s' := by
  refine ⟨fun hp => ?_, fun hp => ?_, fun hl => ?_⟩
  · rw [hpending, hlevel] at hp
    rw [hcap]; exact hinv.room hp
  · rw [hpending] at hp
    rw [hseed]; exact (hinv.pending hp).still (hkeeps hp)
  · rw [hlevel] at hl
    exact (hinv.level hl).still (hrelocks hl)

end Journaled

/-! ### Entries -/

namespace Entry

variable {r : Entry}

/-- Without a request nothing but S3 expiry relocks. -/
theorem keeps_quiet (hreq : r.request = none) (hsession : r.session' = r.session)
    (hexp : r.expired = false) : r.Keeps := by
  refine ⟨?_, ?_, ?_⟩
  · rintro ⟨tl, h⟩; rw [hreq] at h; cases h
  · rintro key ⟨k3, k2, k1, k0, tl, h, -⟩; rw [hreq] at h; cases h
  · rintro (h | ⟨b, tl, h, -⟩ | ⟨tl, h, -⟩ | h)
    · exact h hsession
    · rw [hreq] at h; cases h
    · rw [hreq] at h; cases h
    · rw [hexp] at h; cases h

/-- A request that keeps the session relocks only if it selects the default one. -/
theorem not_relocks {sid : UInt8} {tl : List UInt8} (hreq : r.request = some (sid :: tl))
    (hsession : r.session' = r.session) (hexp : r.expired = false)
    (hdefault : sid = Sid.diagSession → ¬r.SelectsDefault) : ¬r.Relocks := by
  rintro (h | h | ⟨tl', -, hne, heq⟩ | h)
  · exact h hsession
  · obtain ⟨b, tl', hr, hb⟩ := h
    rw [hreq, Option.some.injEq] at hr
    exact hdefault (List.cons.inj hr).1 ⟨b, tl', hreq.trans (congrArg some hr), hb⟩
  · exact hne (hsession.symm.trans heq)
  · rw [hexp] at h; cases h

/-- A request to another service than SecurityAccess leaves a seed alone, unless it relocks. -/
theorem keeps_other {sid : UInt8} {tl : List UInt8} (hreq : r.request = some (sid :: tl))
    (hsid : sid ≠ Sid.security) (hrelocks : ¬r.Relocks) : r.Keeps := by
  refine ⟨?_, ?_, hrelocks⟩
  · rintro ⟨tl', h⟩
    rw [hreq, Option.some.injEq] at h
    exact hsid (List.cons.inj h).1
  · rintro key ⟨k3, k2, k1, k0, tl', h, -⟩
    rw [hreq, Option.some.injEq] at h
    exact hsid (List.cons.inj h).1

end Entry

/-! ### Steps -/

section

variable {L : Type} {T : Transport L} {s : Server} {t : Tick L} {p : Poll L UInt32}
  {h : List Entry}

theorem entry_request {sid : UInt8} {tl : List UInt8} {functional : Bool}
    (hreq : t.request T = some (sid :: tl, functional)) :
    (s.entry T t).request = some (sid :: tl) := by
  rw [Server.entry, hreq]; rfl

theorem entry_expired {req : List UInt8} {functional : Bool}
    (hreq : t.request T = some (req, functional)) : (s.entry T t).expired = false := by
  rw [Server.entry, hreq]
  simp

theorem entry_session (hp : s.poll T t = some p) : (s.entry T t).session' = p.server.session := by
  rw [Server.entry, hp]; rfl

theorem entry_pdus (hp : s.poll T t = some p) : (s.entry T t).pdus = p.sent.map Prod.fst := by
  rw [Server.entry, hp]; rfl

/-- A poll without a request ages the S3 timer, and relocks if it expires. -/
theorem Journaled.quiet (hinv : Journaled h s) (hp : s.poll T t = some p)
    (hreq : t.request T = none)
    (hserver : p.server = (s.ageLock t.elapsedMs).ageS3 t.elapsedMs) :
    Journaled (h ++ [s.entry T t]) p.server := by
  have hsession := entry_session hp
  have hexp : (s.entry T t).expired =
      decide (s.s3TimeoutMs ≤ s.s3TimerMs + t.elapsedMs) := by
    rw [Server.entry, hreq]
    simp
  rw [hserver] at hsession ⊢
  rcases ageS3_cases (s.ageLock t.elapsedMs) t.elapsedMs with ⟨-, hage⟩ | ⟨hs3, hage⟩ <;>
    rw [hage] at hsession ⊢
  · exact .clear rfl rfl
  · have hkeeps := Entry.keeps_quiet (by rw [Server.entry, hreq]; rfl) hsession
      (hexp.trans (decide_eq_false hs3))
    exact hinv.still rfl rfl rfl rfl (fun _ => hkeeps) fun _ => hkeeps.2.2

/-- A request that is refused leaves what is outstanding alone; with a seed outstanding neither a
requestSeed nor a sendKey of valid length is refused, and with any effort behind it neither is the
selection of the default session. -/
theorem Journaled.refused {sid : UInt8} {tl : List UInt8} {functional : Bool} {nrc : UInt8}
    {g : Statics} (hinv : Journaled h s) (hsound : s.Sound) (hp : s.poll T t = some p)
    (hreq : t.request T = some (sid :: tl, functional))
    (hmeets : ∃ f, udsFindService benchServices sid = some ⟨sid, 0, some (builtin f)⟩ ∧
      Meets ((s.takeUp t.elapsedMs).ctx (sid :: tl) functional)
        (f t.random ((s.takeUp t.elapsedMs).ctx (sid :: tl) functional) (s.takeUp t.elapsedMs).g)
        (.negative nrc) g)
    (hik : nrc ≠ Nrc.ik) (henoa : nrc ≠ Nrc.enoa)
    (hsession : p.server.session = s.session) :
    (s.g.secPending ≠ 0 → (s.entry T t).Keeps) ∧
      (s.g.secLevel ≠ 0 → ¬(s.entry T t).Relocks) := by
  have hst := (hsound.takeUp t.elapsedMs).statics
  have hr := entry_request (s := s) hreq
  have hsess := (entry_session hp).trans hsession
  have hexp := entry_expired (s := s) hreq
  -- with room for the response the selection of the default session is granted
  have hdefault : 6 ≤ s.respCap → ¬(s.entry T t).SelectsDefault := by
    rintro hcap ⟨b, tl', h', hb⟩
    rw [hr, Option.some.injEq] at h'
    have he : Effect t.random (sid :: tl) s.session (s.takeUp t.elapsedMs).g _ _ :=
      .session h' (.inl hb)
    have hv := (Polled.decides hmeets he trivial (by simpa [Result.room, be16] using hcap)).1
    cases hv
  have hrelocks : 6 ≤ s.respCap → ¬(s.entry T t).Relocks := fun hcap =>
    Entry.not_relocks hr hsess hexp fun _ => hdefault hcap
  refine ⟨fun hpend => ?_, fun hlevel => hrelocks (hinv.room (.inr hlevel))⟩
  have hcap := hinv.room (.inl hpend)
  have hpending : s.g.secPending = udsSecLevel1 := hst.offered.resolve_left hpend
  obtain ⟨hlevel, hlock⟩ := hst.pending hpend
  refine ⟨?_, ?_, hrelocks hcap⟩
  · rintro ⟨tl', h'⟩
    rw [hr, Option.some.injEq] at h'
    have he : Effect t.random (sid :: tl) s.session _ _ _ := .seed h' hlock (by rw [hlevel]; decide)
    have hv := (Polled.decides hmeets he trivial (by simpa [Result.room, be32] using hcap)).1
    cases hv
  · rintro key ⟨k3, k2, k1, k0, tl', h', -⟩
    rw [hr, Option.some.injEq] at h'
    -- a key is accepted, counted, or answered with a lockout
    by_cases hkey : ofBe32 k3 k2 k1 k0 = expectedKey (s.takeUp t.elapsedMs).g.secSeed
    · have he : Effect t.random (sid :: tl) s.session _ _ _ := .unlock h' hlock hpending hkey
      have hv := (Polled.decides hmeets he trivial (by simp [Result.room]; omega)).1
      cases hv
    · by_cases hmax : udsSecMaxAttempts ≤ (s.takeUp t.elapsedMs).g.secAttempts + 1
      · have he : Effect t.random (sid :: tl) s.session _ _ _ :=
          .lockout h' hlock hpending hkey hmax
        have hv := (Polled.decides hmeets he (.inr rfl) (by simp only [Result.room]; omega)).1
        exact henoa (Result.negative.inj hv)
      · have he : Effect t.random (sid :: tl) s.session _ _ _ :=
          .badKey h' hlock hpending hkey hmax
        have hv := (Polled.decides hmeets he (.inl rfl) (by simp only [Result.room]; omega)).1
        exact hik (Result.negative.inj hv)

/-- A positive answer of another service than SecurityAccess relocks, or leaves the security state
alone. -/
theorem Journaled.other {sid : UInt8} {tl resp : List UInt8} {functional : Bool} {session : UInt8}
    {g : Statics} {dropped : UInt32} {buf : Mem UInt8} (hinv : Journaled h s)
    (hp : s.poll T t = some p) (hreq : t.request T = some (sid :: tl, functional))
    (hserver : p.server = { (s.takeUp t.elapsedMs).conclude sid (.positive resp session) g with
      respDropped := dropped, respBuf := buf })
    (hlevel : g.secLevel = s.g.secLevel) (hpending : g.secPending = s.g.secPending)
    (hseed : g.secSeed = s.g.secSeed) (hsid : sid ≠ Sid.security)
    (hsub : sid = Sid.diagSession → ∃ b tl', tl = b :: tl' ∧ session = subFunction b) :
    Journaled (h ++ [s.entry T t]) p.server := by
  have hsession := entry_session hp
  rw [hserver, conclude_positive] at hsession ⊢
  rcases commit_cases { s.takeUp t.elapsedMs with g := g } sid session with ⟨-, hc⟩ | ⟨hno, hc⟩
  · rw [hc]
    exact .clear rfl rfl
  · rw [hc] at hsession ⊢
    have hrelocks : ¬(s.entry T t).Relocks := by
      refine Entry.not_relocks (entry_request hreq) hsession (entry_expired hreq) fun hd => ?_
      rintro ⟨b, tl', h', hb⟩
      obtain ⟨b', tl'', rfl, rfl⟩ := hsub hd
      rw [entry_request hreq, Option.some.injEq] at h'
      obtain ⟨rfl, -⟩ := List.cons.inj (List.cons.inj h').2
      exact hno (.inr ⟨hd, hb⟩)
    exact hinv.still rfl hpending hseed hlevel
      (fun _ => Entry.keeps_other (entry_request hreq) hsid hrelocks) fun _ => hrelocks

/-- A request to SecurityAccess does not relock. -/
theorem not_relocks_security {tl : List UInt8} {functional : Bool} (hp : s.poll T t = some p)
    (hreq : t.request T = some (Sid.security :: tl, functional))
    (hsession : p.server.session = s.session) : ¬(s.entry T t).Relocks :=
  Entry.not_relocks (entry_request hreq) ((entry_session hp).trans hsession) (entry_expired hreq)
    fun hd => absurd hd (by decide)

/-- What a poll does to the journal and the security state. -/
theorem Journaled.polled (hinv : Journaled h s) (hsound : s.Sound) (hp : s.poll T t = some p)
    (hpolled : Polled T s t p) : Journaled (h ++ [s.entry T t]) p.server := by
  have hst := (hsound.takeUp t.elapsedMs).statics
  cases hpolled with
  | quiet hreq hserver => exact hinv.quiet hp hreq hserver
  | @unknown sid tl functional dropped hreq hfind hserver =>
    have hsec : sid ≠ Sid.security := by rintro rfl; exact absurd hfind (by decide)
    have hdiag : sid ≠ Sid.diagSession := by rintro rfl; exact absurd hfind (by decide)
    have hsession := entry_session hp
    rw [hserver] at hsession ⊢
    have hrelocks := Entry.not_relocks (entry_request hreq) hsession (entry_expired hreq)
      fun hd => absurd hd hdiag
    exact hinv.still rfl rfl rfl rfl
      (fun _ => Entry.keeps_other (entry_request hreq) hsec hrelocks) fun _ => hrelocks
  | @answered sid tl functional v g hreq hmeets heffect hlen hserver hsent =>
    obtain ⟨dropped, buf, hserver⟩ := hserver
    cases heffect with
    | refused hik henoa =>
      obtain ⟨hkeeps, hrelocks⟩ := hinv.refused hsound hp hreq hmeets hik henoa (by rw [hserver]; rfl)
      rw [hserver]
      exact hinv.still rfl rfl rfl rfl hkeeps hrelocks
    | session hr hsub =>
      obtain ⟨rfl, rfl⟩ := List.cons.inj hr
      exact hinv.other hp hreq hserver rfl rfl rfl (by decide) fun _ => ⟨_, _, rfl, rfl⟩
    | reset hr | noReset hr | dids hr | routine hr | present hr | download hr | block hr | again hr
    | exit hr =>
      obtain ⟨rfl, rfl⟩ := List.cons.inj hr
      exact hinv.other hp hreq hserver rfl rfl rfl (by decide) fun hd => absurd hd (by decide)
    | seed hr hlock hlevel =>
      obtain ⟨rfl, rfl⟩ := List.cons.inj hr
      have hpdu : _ ∈ (s.entry T t).pdus := entry_pdus hp ▸ hsent.mem_positive
      rw [hserver, conclude_self s t.elapsedMs (by decide)]
      refine ⟨fun _ => (hlen _ _ rfl).2, fun _ => .now ⟨⟨_, entry_request hreq⟩, hpdu⟩, fun hl => ?_⟩
      exact absurd (hst.level.resolve_left hl) hlevel
    | zeroSeed hr hlock hlevel =>
      obtain ⟨rfl, rfl⟩ := List.cons.inj hr
      have hrelocks : ¬(s.entry T t).Relocks := by
        refine not_relocks_security hp hreq ?_
        rw [hserver, conclude_self s t.elapsedMs (by decide)]
        rfl
      rw [hserver, conclude_self s t.elapsedMs (by decide)]
      refine hinv.still rfl rfl rfl rfl (fun hpend => ?_) fun _ => hrelocks
      exact absurd (hlevel.symm.trans (hst.pending hpend).1) (by decide)
    | unlock hr hlock hpending hkey =>
      obtain ⟨rfl, rfl⟩ := List.cons.inj hr
      have hpend : s.g.secPending ≠ 0 := by
        rw [show s.g.secPending = udsSecLevel1 from hpending]; decide
      rw [hserver, conclude_self s t.elapsedMs (by decide)]
      exact ⟨fun _ => hinv.room (.inl hpend), fun hne => absurd rfl hne, fun _ =>
        .now ⟨s.g.secSeed, ⟨_, _, _, _, _, entry_request hreq, hkey⟩, hinv.pending hpend⟩⟩
    | badKey hr hlock hpending hkey | lockout hr hlock hpending hkey =>
      rw [hserver]
      exact .clear rfl (hst.pending (by rw [hpending]; decide)).1

/-! ### Runs -/

/-- **Unlock soundness**: when the server is unlocked after a run, over any transport, a poll
`seedPoll` has issued a seed and a later poll `keyPoll` has brought its key; no poll between them
is another requestSeed, another sendKey of valid length or relocks the server, and no poll after
`keyPoll` relocks it. -/
theorem unlock_sound {respBuf : Mem UInt8} {respCap : ℕ} {ts : List (Tick L)}
    (hrun : ((udsSystem T).withAux (journal T)).Run (udsServerInit respBuf respCap, []) ts (s, h))
    (hlevel : s.secLevel ≠ 0) :
    ∃ pre seedPoll mid keyPoll post seed,
      h = (pre ++ seedPoll :: mid) ++ keyPoll :: post ∧ seedPoll.IssuesSeed seed ∧
        keyPoll.SendsKey (seed ^^^ 0x5A5A5A5A) ∧
        (∀ m ∈ mid, ¬m.AsksSeed ∧ (∀ key, ¬m.SendsKey key) ∧ ¬m.Relocks) ∧
        ∀ m ∈ post, ¬m.Relocks := by
  have hinv := hrun.invariant (I := fun q : Server × List Entry => q.1.Sound ∧ Journaled q.2 q.1)
    ⟨.init respBuf respCap, .clear rfl rfl⟩
    (by
      rintro ⟨s, h⟩ t ⟨s', h'⟩ ⟨hsound, hinv⟩ ⟨hst, haux⟩
      obtain ⟨p, hp, hs', hpolled⟩ := step_polled T hst
      dsimp only at haux hs' ⊢
      rw [haux]
      exact ⟨hsound.step hst, hs' ▸ hinv.polled hsound hp hpolled⟩)
  obtain ⟨hsound, hinv⟩ := hinv
  rw [hsound.mirrored] at hlevel
  obtain ⟨pre, keyPoll, post, rfl, ⟨seed, hkey, pre', seedPoll, mid, rfl, hseed, hmid⟩, hpost⟩ :=
    hinv.level hlevel
  exact ⟨pre', seedPoll, mid, keyPoll, post, seed, rfl, hseed, hkey, hmid, hpost⟩

end

/-- A seed and its key. -/
def unlocked : Option (Server × List Entry) :=
  let T := linkTransport ⟨0, true⟩
  System.exec (fun s t => (s.poll T t).map Poll.server) (fun _ _ => True) (journal T)
    (udsServerInit (fun _ => 0) 4095, [])
    [heldTick [0x27, 0x01] 1 0x12345678, heldTick [0x3E, 0x80] 1 0,
      heldTick [0x27, 0x02, 0x48, 0x6E, 0x0C, 0x22] 1 0]

theorem unlock_sound_unlocked :
    ∃ s h, unlocked = some (s, h) ∧ s.secLevel ≠ 0 ∧
      ∃ seedPoll ∈ h, ∃ keyPoll ∈ h, ∃ seed, seedPoll.IssuesSeed seed ∧
        keyPoll.SendsKey (seed ^^^ 0x5A5A5A5A) := by
  have hs : unlocked.map (fun q => q.1.secLevel) = some 1 := by decide +kernel
  obtain ⟨⟨s, h⟩, hu, hs⟩ := Option.map_eq_some_iff.1 hs
  have hlevel : s.secLevel ≠ 0 := by
    rw [hs]; decide
  obtain ⟨pre, seedPoll, mid, keyPoll, post, seed, rfl, hseed, hkey, -, -⟩ :=
    unlock_sound (System.Run.of_exec hu).of_guard_withAux hlevel
  exact ⟨s, _, hu, hlevel, seedPoll, by simp, keyPoll, by simp, seed, hseed, hkey⟩

end Uds

end Espcan32

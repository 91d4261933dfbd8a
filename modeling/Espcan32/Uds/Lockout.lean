import Espcan32.Lib.History
import Espcan32.Uds.Invariant

/-!
# The lockout of SecurityAccess

After three wrong keys the server is locked out for ten seconds, which pass with the polls.  The
count of wrong keys starts anew with an unlock and with the lockout, and with nothing else.

* `Attempt` : what a poll says about keys, as the tester sees it.
* `LockInv` : since any wrong key, the lockout covers the time that is missing, or all of the
  wrong keys are still counted.
* `brute_force_bound` : **four wrong keys take at least ten seconds**, counted behind the first.
-/

namespace Espcan32

namespace Uds

open IsoTp (Ret)

/-! ### What the tester sees -/

/-- What a poll says about keys: the time before it, whether a sendKey was answered with
invalidKey or exceededNumberOfAttempts, and whether one was answered positively. -/
structure Attempt where
  elapsedMs : ℕ
  wrong : Bool
  unlock : Bool
  deriving DecidableEq, Repr

section

variable {L : Type} (T : Transport L)

/-- The request of a poll is a sendKey. -/
def Tick.sendsKey (t : Tick L) : Bool :=
  match t.request T with
  | some (sid :: sub :: _, _) => sid = Sid.security ∧ sub = 0x02
  | _ => false

/-- A sendKey has been answered with `pdu`. -/
def Server.answersKey (s : Server) (t : Tick L) (pdu : List UInt8) : Bool :=
  t.sendsKey T && (s.poll T t).any fun p => p.hands pdu

/-- What the poll `t` says about keys. -/
def Server.attempt (s : Server) (t : Tick L) : Attempt where
  elapsedMs := t.elapsedMs.toNat
  wrong :=
    s.answersKey T t [udsNegRespSid, Sid.security, Nrc.ik] ||
      s.answersKey T t [udsNegRespSid, Sid.security, Nrc.enoa]
  unlock := s.answersKey T t [Sid.security + udsPosRespOffset, 0x02]

/-- Keep the attempts. -/
def attempts (s : Server) (t : Tick L) (h : List Attempt) : List Attempt := h ++ [s.attempt T t]

end

/-- The time that a history takes. -/
def elapsed (h : List Attempt) : ℕ := (h.map Attempt.elapsedMs).sum

@[simp] theorem elapsed_snoc (h : List Attempt) (r : Attempt) :
    elapsed (h ++ [r]) = elapsed h + r.elapsedMs := by
  simp [elapsed]

/-! ### The invariant -/

/-- Since any wrong key without an unlock behind it, the lockout of `lock` milliseconds covers the
time that is missing, or all wrong keys are among the `count` that are counted. -/
def LockInv (h : List Attempt) (lock count : ℕ) : Prop :=
  ∀ pre a mid, h = pre ++ a :: mid → a.wrong = true → (∀ m ∈ mid, m.unlock = false) →
    10000 ≤ elapsed mid + lock ∨ (a :: mid).countP Attempt.wrong ≤ count

/-- Four wrong keys take ten seconds. -/
def Spread (h : List Attempt) : Prop :=
  ∀ pre a mid b post, h = pre ++ a :: (mid ++ b :: post) → a.wrong = true → b.wrong = true →
    2 ≤ mid.countP Attempt.wrong → (∀ m ∈ mid, m.unlock = false) → 10000 ≤ elapsed (mid ++ [b])

namespace LockInv

variable {h : List Attempt} {r : Attempt} {lock lock' count count' : ℕ}

theorem nil : LockInv [] lock count := by
  intro pre a mid heq
  simp at heq

/-- Time passes. -/
theorem still (hinv : LockInv h lock count) (hwrong : r.wrong = false)
    (hlock : lock ≤ r.elapsedMs + lock') (hcount : count ≤ count') :
    LockInv (h ++ [r]) lock' count' := by
  intro pre a mid heq ha hmid
  rcases History.snoc_split heq with ⟨rfl, rfl, rfl⟩ | ⟨mid, rfl, rfl⟩
  · rw [hwrong] at ha; cases ha
  · rw [elapsed_snoc, ← List.cons_append, List.countP_append,
      List.countP_singleton, if_neg (by simp [hwrong])]
    rcases hinv pre a mid rfl ha fun m hm => hmid m (List.mem_append_left _ hm) with hle | hle
    · exact .inl (by omega)
    · exact .inr (by omega)

/-- A wrong key is counted. -/
theorem wrongKey (hinv : LockInv h lock count) (hlock : lock ≤ r.elapsedMs)
    (hcount : count + 1 ≤ count') : LockInv (h ++ [r]) lock' count' := by
  intro pre a mid heq ha hmid
  rcases History.snoc_split heq with ⟨rfl, rfl, rfl⟩ | ⟨mid, rfl, rfl⟩
  · exact .inr ((List.countP_le_length).trans (by simp only [List.length_singleton]; omega))
  · rw [elapsed_snoc, ← List.cons_append, List.countP_append]
    have hr : [r].countP Attempt.wrong ≤ 1 := List.countP_le_length
    rcases hinv pre a mid rfl ha fun m hm => hmid m (List.mem_append_left _ hm) with hle | hle
    · exact .inl (by omega)
    · exact .inr (by omega)

/-- A lockout of ten seconds covers everything. -/
theorem lockout (hlock : 10000 ≤ lock) : LockInv h lock count :=
  fun _ _ _ _ _ _ => .inl (Nat.le_add_left_of_le hlock)

/-- Behind an unlock there is nothing to cover. -/
theorem unlock (hwrong : r.wrong = false) (hunlock : r.unlock = true) :
    LockInv (h ++ [r]) lock count := by
  intro pre a mid heq ha hmid
  rcases History.snoc_split heq with ⟨rfl, rfl, rfl⟩ | ⟨mid, rfl, rfl⟩
  · rw [hwrong] at ha; cases ha
  · have hr := hmid r (by simp)
    rw [hunlock] at hr; cases hr

/-- The fourth wrong key comes late enough, if it comes when no lockout runs and no more than two
wrong keys are counted. -/
theorem spread (hinv : LockInv h lock count) (hs : Spread h)
    (hr : r.wrong = true → lock ≤ r.elapsedMs ∧ count ≤ 2) : Spread (h ++ [r]) := by
  intro pre a mid b post heq ha hb htwo hmid
  rw [← List.cons_append, ← List.append_assoc] at heq
  rcases History.snoc_split heq with ⟨rfl, rfl, rfl⟩ | ⟨post, rfl, rfl⟩
  · obtain ⟨hlock, hcount⟩ := hr hb
    rw [elapsed_snoc]
    rcases hinv pre a mid rfl ha hmid with hle | hle
    · omega
    · rw [List.countP_cons, if_pos ha] at hle
      omega
  · exact hs pre a mid b post (by simp) ha hb htwo hmid

end LockInv

/-! ### Answers to a key -/

/-- A positive response does not look like a negative one. -/
theorem Effect.head_ne {random : UInt32} {req resp : List UInt8} {session session' : UInt8}
    {g g' : Statics} (h : Effect random req session g (.positive resp session') g') (nrc : UInt8) :
    resp ≠ [udsNegRespSid, Sid.security, nrc] := by
  intro heq
  cases h <;> simp [udsNegRespSid, udsPosRespOffset, Sid.diagSession, Sid.ecuReset, Sid.readDid,
    Sid.security, Sid.routine, Sid.testerPres, Sid.reqDownload, Sid.transferData,
    Sid.reqXferExit, be16, be32] at heq

section

variable {L : Type} {T : Transport L} {s : Server} {t : Tick L} {p : Poll L UInt32}

/-- A sendKey is answered if it is the request of the poll, and the PDU has been handed over. -/
theorem answersKey_iff (hp : s.poll T t = some p) (pdu : List UInt8) :
    s.answersKey T t pdu = true ↔ t.sendsKey T = true ∧ ∃ x ∈ p.sent, x.1 = pdu := by
  unfold Server.answersKey Poll.hands
  rw [hp, Bool.and_eq_true, Option.any_some, List.any_eq_true]
  simp only [decide_eq_true_eq]

/-- Without a request there is no answer to a key. -/
theorem attempt_quiet (hreq : t.request T = none) : (s.attempt T t).wrong = false := by
  simp [Server.attempt, Server.answersKey, Tick.sendsKey, hreq]

/-- A request for an unknown service is not a sendKey. -/
theorem attempt_unknown {sid : UInt8} {tl : List UInt8} {functional : Bool}
    (hreq : t.request T = some (sid :: tl, functional))
    (hfind : udsFindService benchServices sid = none) : (s.attempt T t).wrong = false := by
  have hkey : t.sendsKey T = false := by
    unfold Tick.sendsKey
    rw [hreq]
    rcases tl with _ | ⟨sub, tl⟩
    · rfl
    · have hsid : sid ≠ Sid.security := by
        rintro rfl
        exact absurd hfind (by decide)
      simp [hsid]
  simp [Server.attempt, Server.answersKey, hkey]

/-- Only a wrong key is answered as one. -/
theorem attempt_wrong {sid : UInt8} {req : List UInt8} {suppress functional : Bool} {v : Result}
    {g g' : Statics} {session : UInt8} (hp : s.poll T t = some p)
    (hsent : Sends sid suppress functional v p.sent)
    (heffect : Effect t.random req session g v g') (hwrong : (s.attempt T t).wrong = true) :
    v = .negative Nrc.ik ∨ v = .negative Nrc.enoa := by
  -- which PDUs could be taken for the answer to a wrong key
  have hcase : ∀ nrc, nrc = Nrc.ik ∨ nrc = Nrc.enoa →
      s.answersKey T t [udsNegRespSid, Sid.security, nrc] = true → v = .negative nrc := by
    intro nrc hnrc hans
    obtain ⟨-, x, hx, heq⟩ := (answersKey_iff hp _).1 hans
    rcases hsent.eq_of_mem hx with ⟨nrc', rfl, hpdu⟩ | ⟨resp, session', rfl, hpdu | hpdu⟩
    · rw [heq] at hpdu
      simp only [List.cons.injEq, and_true, true_and] at hpdu
      rw [hpdu.2]
    · exact absurd (hpdu.symm.trans heq) (heffect.head_ne nrc)
    · rw [heq] at hpdu
      simp only [List.cons.injEq, and_true, true_and] at hpdu
      rcases hnrc with rfl | rfl <;> exact absurd hpdu.2 (by decide)
  rcases Bool.or_eq_true _ _ ▸ hwrong with h | h
  · exact .inl (hcase Nrc.ik (.inl rfl) h)
  · exact .inr (hcase Nrc.enoa (.inr rfl) h)

/-- An unlock is seen. -/
theorem attempt_unlock {tl : List UInt8} {functional : Bool} {session : UInt8}
    (hp : s.poll T t = some p)
    (hreq : t.request T = some (Sid.security :: 0x02 :: tl, functional))
    (hsent : Sends Sid.security (Poll.suppressed Sid.security (Sid.security :: 0x02 :: tl))
      functional (.positive [Sid.security + udsPosRespOffset, 0x02] session) p.sent) :
    (s.attempt T t).unlock = true := by
  refine (answersKey_iff hp _).2 ⟨?_, ?_⟩
  · unfold Tick.sendsKey; rw [hreq]; rfl
  · simp only [Sends] at hsent
    rw [if_neg (by simp [Poll.suppressed, udsSidHasSuppress, Sid.security, Sid.diagSession,
      Sid.ecuReset, Sid.routine, Sid.testerPres])] at hsent
    rcases hsent with ⟨r, -, hs⟩ | ⟨r, r', -, hs⟩ <;> rw [hs]
    · exact ⟨_, List.mem_singleton.2 rfl, rfl⟩
    · exact ⟨_, List.mem_cons_self, rfl⟩

/-! ### Steps -/

/-- The lockout ages by the time that has passed. -/
theorem toNat_ageLock (s : Server) (elapsedMs : UInt32) :
    (s.ageLock elapsedMs).g.secLockMs.toNat = s.g.secLockMs.toNat - elapsedMs.toNat := by
  unfold Server.ageLock
  dsimp only
  split
  · split
    · rename_i hlt
      rw [UInt32.toNat_sub_of_le _ _ (UInt32.le_of_lt hlt)]
    · rename_i hge
      have hle := UInt32.le_iff_toNat_le.1 (UInt32.not_lt.1 hge)
      rw [UInt32.toNat_zero]; omega
  · rename_i hzero
    have h0 := UInt32.le_iff_toNat_le.1 (UInt32.not_lt.1 hzero)
    rw [UInt32.toNat_zero] at h0
    omega

/-- What a poll does to the lockout and to the count. -/
theorem LockInv.polled {h : List Attempt} (hp : s.poll T t = some p) (hpolled : Polled T s t p)
    (hsound : s.Sound) (hinv : LockInv h s.g.secLockMs.toNat s.g.secAttempts.toNat) :
    LockInv (h ++ [s.attempt T t]) p.server.g.secLockMs.toNat p.server.g.secAttempts.toNat ∧
      ((s.attempt T t).wrong = true →
        s.g.secLockMs.toNat ≤ (s.attempt T t).elapsedMs ∧ s.g.secAttempts.toNat ≤ 2) := by
  have hage := toNat_ageLock s t.elapsedMs
  have hmax : s.g.secAttempts.toNat ≤ 2 :=
    Nat.le_of_lt_succ (UInt8.lt_iff_toNat_lt.1 hsound.statics.attempts)
  have hms : (s.attempt T t).elapsedMs = t.elapsedMs.toNat := rfl
  cases hpolled with
  | quiet hreq hserver =>
    have hwrong := attempt_quiet (s := s) hreq
    refine ⟨?_, fun hw => absurd (hwrong.symm.trans hw) (by decide)⟩
    have hs3 : ((s.ageLock t.elapsedMs).ageS3 t.elapsedMs).g.secLockMs =
          (s.ageLock t.elapsedMs).g.secLockMs ∧
        ((s.ageLock t.elapsedMs).ageS3 t.elapsedMs).g.secAttempts = s.g.secAttempts := by
      rcases ageS3_cases (s.ageLock t.elapsedMs) t.elapsedMs with ⟨-, hs3⟩ | ⟨-, hs3⟩ <;>
        rw [hs3] <;> exact ⟨rfl, rfl⟩
    rw [hserver, hs3.1, hs3.2]
    exact hinv.still hwrong (by omega) le_rfl
  | unknown hreq hfind hserver =>
    have hwrong := attempt_unknown (s := s) hreq hfind
    refine ⟨?_, fun hw => absurd (hwrong.symm.trans hw) (by decide)⟩
    rw [hserver]
    exact hinv.still hwrong (show _ ≤ _ + (s.ageLock t.elapsedMs).g.secLockMs.toNat by omega) le_rfl
  | @answered sid tl functional v g hreq hmeets heffect hlen hserver hsent =>
    obtain ⟨dropped, buf, hserver⟩ := hserver
    obtain ⟨hlockMs, hattempts, -⟩ := conclude_security (s.takeUp t.elapsedMs) sid v g
    rw [hserver]
    dsimp only
    rw [hlockMs, hattempts]
    have hwrong := attempt_wrong hp hsent heffect
    have hgone : (s.takeUp t.elapsedMs).g.secLockMs = 0 →
        s.g.secLockMs.toNat ≤ (s.attempt T t).elapsedMs := by
      intro h0
      have h0' : (s.ageLock t.elapsedMs).g.secLockMs.toNat = 0 := by
        rw [show (s.ageLock t.elapsedMs).g.secLockMs = 0 from h0]; rfl
      omega
    cases heffect with
    | badKey hr hlock hpending hkey hno =>
      refine ⟨hinv.wrongKey (hgone hlock) ?_, fun _ => ⟨hgone hlock, hmax⟩⟩
      show s.g.secAttempts.toNat + 1 ≤ (s.g.secAttempts + 1).toNat
      rw [UInt8.toNat_add, UInt8.toNat_one]
      omega
    | lockout hr hlock =>
      exact ⟨.lockout (show 10000 ≤ udsSecLockMs.toNat by decide), fun _ => ⟨hgone hlock, hmax⟩⟩
    | unlock hr hlock =>
      have hno : (s.attempt T t).wrong = false := by
        by_contra hw
        simpa using hwrong (by simpa using hw)
      obtain ⟨rfl, rfl⟩ := List.cons.inj hr
      exact ⟨.unlock hno (attempt_unlock hp hreq hsent), fun hw => absurd (hno.symm.trans hw)
        (by decide)⟩
    | refused hik henoa =>
      have hno : (s.attempt T t).wrong = false := by
        by_contra hw
        rcases hwrong (by simpa using hw) with heq | heq <;> cases heq
        · exact hik rfl
        · exact henoa rfl
      exact ⟨hinv.still hno (show _ ≤ _ + (s.ageLock t.elapsedMs).g.secLockMs.toNat by omega)
        le_rfl, fun hw => absurd (hno.symm.trans hw) (by decide)⟩
    | session | reset | noReset | dids | seed | zeroSeed | routine | present | download | block
    | again | exit =>
      have hno : (s.attempt T t).wrong = false := by
        by_contra hw
        simpa using hwrong (by simpa using hw)
      exact ⟨hinv.still hno (show _ ≤ _ + (s.ageLock t.elapsedMs).g.secLockMs.toNat by omega)
        le_rfl, fun hw => absurd (hno.symm.trans hw) (by decide)⟩

/-- While the lockout runs, a poll leaves the security state alone. -/
theorem Polled.frozen (hpolled : Polled T s t p) (hsound : s.Sound)
    (hlock : (s.ageLock t.elapsedMs).g.secLockMs ≠ 0) :
    p.server.g.secLevel = s.g.secLevel ∧ p.server.g.secPending = s.g.secPending ∧
      p.server.g.secAttempts = s.g.secAttempts := by
  have hrunning : s.g.secLockMs ≠ 0 := by
    intro h0
    have hage := toNat_ageLock s t.elapsedMs
    rw [h0, UInt32.toNat_zero, Nat.zero_sub] at hage
    exact hlock (UInt32.toNat_inj.1 hage)
  -- there is nothing for a relock to clear
  have hlevel : s.g.secLevel = 0 := hsound.statics.locked hrunning
  have hpending : s.g.secPending = 0 := by
    by_contra hp
    exact hrunning (hsound.statics.pending hp).2
  cases hpolled with
  | quiet hreq hserver =>
    rw [hserver, hlevel, hpending]
    rcases ageS3_cases (s.ageLock t.elapsedMs) t.elapsedMs with ⟨-, hs3⟩ | ⟨-, hs3⟩ <;> rw [hs3]
    · exact ⟨rfl, rfl, rfl⟩
    · exact ⟨hlevel, hpending, rfl⟩
  | unknown hreq hfind hserver => rw [hserver]; exact ⟨rfl, rfl, rfl⟩
  | @answered sid tl functional v g hreq hmeets heffect hlen hserver =>
    obtain ⟨dropped, buf, hserver⟩ := hserver
    obtain ⟨-, hattempts, hsec⟩ := conclude_security (s.takeUp t.elapsedMs) sid v g
    rw [hserver]
    dsimp only
    have hg : g.secLevel = 0 ∧ g.secPending = 0 ∧ g.secAttempts = s.g.secAttempts := by
      cases heffect with
      | seed hr h0 | zeroSeed hr h0 | unlock hr h0 | badKey hr h0 | lockout hr h0 =>
        exact absurd h0 hlock
      | refused | session | reset | noReset | dids | routine | present | download | block | again
      | exit => exact ⟨hlevel, hpending, rfl⟩
    rw [hattempts, hlevel, hpending]
    rcases hsec with ⟨h1, h2⟩ | ⟨h1, h2⟩
    · exact ⟨h1.trans hg.1, h2.trans hg.2.1, hg.2.2⟩
    · exact ⟨h1, h2, hg.2.2⟩

/-! ### Runs -/

/-- **The brute-force bound**: in every run, over any transport, the polls behind a wrong key up to
and including the third next wrong key take at least ten seconds, unless there is an unlock
between them; and while the lockout runs, no poll changes the level, the outstanding seed or the
count of wrong keys. -/
theorem brute_force_bound {respBuf : Mem UInt8} {respCap : ℕ} {ts : List (Tick L)}
    {h : List Attempt}
    (hrun : ((udsSystem T).withAux (attempts T)).Run (udsServerInit respBuf respCap, []) ts (s, h)) :
    Spread h ∧
      ∀ (t : Tick L) (p : Poll L UInt32), s.poll T t = some p →
        (s.ageLock t.elapsedMs).g.secLockMs ≠ 0 →
          p.server.g.secLevel = s.g.secLevel ∧ p.server.g.secPending = s.g.secPending ∧
            p.server.g.secAttempts = s.g.secAttempts := by
  have hinv := hrun.invariant (I := fun q : Server × List Attempt =>
      q.1.Sound ∧ LockInv q.2 q.1.g.secLockMs.toNat q.1.g.secAttempts.toNat ∧ Spread q.2)
    ⟨.init respBuf respCap, .nil, fun pre a mid b post heq => by simp at heq⟩
    (by
      rintro ⟨s, h⟩ t ⟨s', h'⟩ ⟨hsound, hlock, hspread⟩ ⟨hst, haux⟩
      obtain ⟨p, hp, hs', hpolled⟩ := step_polled T hst
      obtain ⟨hlock', hwrong⟩ := hlock.polled hp hpolled hsound
      dsimp only at haux hs' ⊢
      rw [haux, hs']
      exact ⟨hs' ▸ hsound.step hst, hlock', hlock.spread hspread hwrong⟩)
  refine ⟨hinv.2.2, fun t p hp hlock => ?_⟩
  exact (polled_of_poll T hp).frozen hinv.1 hlock

end

/-- Four wrong keys; the fourth one waits for the lockout. -/
def fourWrongKeys : Option (Server × List Attempt) :=
  let T := linkTransport ⟨0, true⟩
  let seed := heldTick [0x27, 0x01] 1 7
  let key := heldTick [0x27, 0x02, 0, 0, 0, 0] 1 0
  System.exec (fun s t => (s.poll T t).map Poll.server) (fun _ _ => True) (attempts T)
    (udsServerInit (fun _ => 0) 4095, [])
    [seed, key, seed, key, seed, key, heldTick [0x27, 0x01] 10000 7, key]

theorem brute_force_bound_fourWrongKeys :
    ∃ s h pre a mid b, fourWrongKeys = some (s, h) ∧ h = pre ++ a :: (mid ++ [b]) ∧
      a.wrong = true ∧ b.wrong = true ∧ mid.countP Attempt.wrong = 2 ∧
      10000 ≤ elapsed (mid ++ [b]) := by
  have hhist : fourWrongKeys.map Prod.snd = some ([⟨1, false, false⟩] ++ ⟨1, true, false⟩ ::
      ([⟨1, false, false⟩, ⟨1, true, false⟩, ⟨1, false, false⟩, ⟨1, true, false⟩,
        ⟨10000, false, false⟩] ++ [⟨1, true, false⟩])) := by
    decide +kernel
  obtain ⟨⟨s, hist⟩, h, hhist⟩ := Option.map_eq_some_iff.1 hhist
  have hrun := (System.Run.of_exec h).of_guard_withAux
  exact ⟨s, hist, _, _, _, _, h, hhist, rfl, rfl, rfl,
    (brute_force_bound hrun).1 _ _ _ _ [] hhist rfl rfl (by decide) (by decide)⟩

end Uds

end Espcan32

import Espcan32.Uds.Basic

/-!
# What the built-in handlers do

A handler answers with a `Result`: a negative response code, or a positive response and the
session it asks for.  `Effect` says once what a request can do to the statics, with the conditions
under which it does so; nothing else is known about the handlers later.

* `Meets` : a handler has returned, within its bounds, and with a result.
* `readDids_eq` : the loop of ReadDataByIdentifier computes its reference.
* `udsHDiagSession_answers` … `udsHRequestTransferExit_answers` : **every handler returns, and its
  result is one that `Effect` allows.**
-/

namespace Espcan32

namespace Uds

/-! ### Results -/

/-- What a handler answers. -/
inductive Result where
  | negative (nrc : UInt8)
  | positive (resp : List UInt8) (session : UInt8)
  deriving DecidableEq, Repr

/-- The handler has returned with the result `v` and the statics `g`; it has written no more than
the response buffer, and the response is within its capacity. -/
inductive Meets (c : Ctx) : Option (Disp × Ctx × Statics) → Result → Statics → Prop
  | negative (nrc : UInt8) (resp : Mem UInt8) (g : Statics) :
      Meets c (some (.negative, { c with nrc := nrc, resp := resp }, g)) (.negative nrc) g
  | positive (bs : List UInt8) (session : UInt8) (resp : Mem UInt8) (g : Statics)
      (hlen : bs.length ≤ c.respCap) (hpos : 0 < bs.length)
      (hresp : resp.read 0 bs.length = bs) :
      Meets c
        (some (.positive, { c with resp := resp, respLen := bs.length, session := session }, g))
        (.positive bs session) g

/-- A handler that has returned has done so with one result. -/
theorem Meets.unique {c : Ctx} {r : Option (Disp × Ctx × Statics)} {v v' : Result} {g g' : Statics}
    (h : Meets c r v g) (h' : Meets c r v' g') : v = v' ∧ g = g' := by
  cases h with
  | negative nrc resp =>
    generalize hr : some (Disp.negative, { c with nrc := nrc, resp := resp }, g) = r' at h'
    cases h' with
    | negative nrc' resp' =>
      simp only [Option.some.injEq, Prod.mk.injEq, Ctx.mk.injEq, true_and, and_true] at hr
      exact ⟨congrArg Result.negative hr.1.2, hr.2⟩
    | positive => simp at hr
  | positive bs session resp _ hlen hpos hresp =>
    generalize hr : some (Disp.positive,
      { c with resp := resp, respLen := bs.length, session := session }, g) = r' at h'
    cases h' with
    | negative => simp at hr
    | positive bs' session' resp' _ hlen' hpos' hresp' =>
      simp only [Option.some.injEq, Prod.mk.injEq, Ctx.mk.injEq, true_and] at hr
      obtain ⟨⟨rfl, hlen, rfl⟩, rfl⟩ := hr
      rw [← hresp, ← hresp', hlen]
      exact ⟨rfl, rfl⟩

theorem Ctx.put_eq {c : Ctx} {i : ℕ} {bs : List UInt8} (h : i + bs.length ≤ c.respCap) :
    c.put i bs = some { c with resp := c.resp.copy i bs } := by
  rw [Ctx.put, if_pos h]

theorem Meets.refuse (c : Ctx) (nrc : UInt8) (g : Statics) :
    Meets c (c.refuse nrc g) (.negative nrc) g :=
  .negative nrc c.resp g

theorem Meets.reply {c : Ctx} {bs : List UInt8} (session : UInt8) (g : Statics)
    (h : bs.length ≤ c.respCap) (hpos : 0 < bs.length) :
    Meets c (Ctx.reply { c with session := session } bs g) (.positive bs session) g := by
  rw [Ctx.reply, Ctx.put_eq (by simpa using h)]
  exact .positive bs session (c.resp.copy 0 bs) g h hpos (Mem.read_copy _ _ _)

/-! ### Records -/

/-- The records that a list of requested DIDs is answered with; unknown ones are skipped. -/
def didRecords : List UInt8 → List DidEntry
  | hi :: lo :: rest =>
    (findDid (didOf hi lo)).toList ++ didRecords rest
  | _ => []

/-- A record in the response. -/
def DidEntry.bytes (entry : DidEntry) : List UInt8 := be16 entry.did ++ entry.data

/-- The bytes of records. -/
def didBytes (entries : List DidEntry) : List UInt8 := entries.flatMap DidEntry.bytes

/-! ### Effects -/

/-- What a request can do: with a random number, a request, the session and the statics before,
the result and the statics after. -/
inductive Effect (random : UInt32) (req : List UInt8) (session : UInt8) (g : Statics) :
    Result → Statics → Prop
  /-- The request is refused, and nothing happens. -/
  | refused {nrc : UInt8} (hik : nrc ≠ Nrc.ik) (henoa : nrc ≠ Nrc.enoa) :
      Effect random req session g (.negative nrc) g
  | session {b : UInt8} {tl : List UInt8} (hreq : req = Sid.diagSession :: b :: tl)
      (hsub : subFunction b = udsSessionDefault ∨ subFunction b = udsSessionProg ∨
        subFunction b = udsSessionExtended) :
      Effect random req session g
        (.positive ([Sid.diagSession + udsPosRespOffset, subFunction b] ++ be16 udsP2Enc ++
          be16 udsP2StarEnc) (subFunction b)) g
  | reset {b : UInt8} {tl : List UInt8} (hreq : req = Sid.ecuReset :: b :: tl)
      (hsub : subFunction b = 0x01 ∨ subFunction b = 0x02 ∨ subFunction b = 0x03) :
      Effect random req session g
        (.positive [Sid.ecuReset + udsPosRespOffset, subFunction b] udsSessionDefault)
        { g with pendingReset := true }
  | noReset {b : UInt8} {tl : List UInt8} (hreq : req = Sid.ecuReset :: b :: tl)
      (hlow : ¬(subFunction b < 0x01 ∨ 0x05 < subFunction b))
      (hsub : ¬(subFunction b = 0x01 ∨ subFunction b = 0x02 ∨ subFunction b = 0x03)) :
      Effect random req session g
        (.positive [Sid.ecuReset + udsPosRespOffset, subFunction b] session) g
  | dids {tl : List UInt8} (hreq : req = Sid.readDid :: tl)
      (hlen : ¬(req.length < 3 ∨ (req.length - 1) % 2 ≠ 0)) (hany : didRecords tl ≠ []) :
      Effect random req session g
        (.positive ((Sid.readDid + udsPosRespOffset) :: didBytes (didRecords tl)) session) g
  | seed {tl : List UInt8} (hreq : req = Sid.security :: 0x01 :: tl) (hlock : g.secLockMs = 0)
      (hlevel : g.secLevel ≠ udsSecLevel1) :
      Effect random req session g
        (.positive ([Sid.security + udsPosRespOffset, 0x01] ++ be32 (challenge random)) session)
        { g with secSeed := challenge random, secPending := udsSecLevel1 }
  | zeroSeed {tl : List UInt8} (hreq : req = Sid.security :: 0x01 :: tl) (hlock : g.secLockMs = 0)
      (hlevel : g.secLevel = udsSecLevel1) :
      Effect random req session g
        (.positive ([Sid.security + udsPosRespOffset, 0x01] ++ be32 0) session) g
  | unlock {k3 k2 k1 k0 : UInt8} {tl : List UInt8}
      (hreq : req = Sid.security :: 0x02 :: k3 :: k2 :: k1 :: k0 :: tl) (hlock : g.secLockMs = 0)
      (hpending : g.secPending = udsSecLevel1) (hkey : ofBe32 k3 k2 k1 k0 = expectedKey g.secSeed) :
      Effect random req session g
        (.positive [Sid.security + udsPosRespOffset, 0x02] session)
        { g with secLevel := udsSecLevel1, secPending := 0, secAttempts := 0 }
  | badKey {k3 k2 k1 k0 : UInt8} {tl : List UInt8}
      (hreq : req = Sid.security :: 0x02 :: k3 :: k2 :: k1 :: k0 :: tl) (hlock : g.secLockMs = 0)
      (hpending : g.secPending = udsSecLevel1) (hkey : ofBe32 k3 k2 k1 k0 ≠ expectedKey g.secSeed)
      (hmax : ¬udsSecMaxAttempts ≤ g.secAttempts + 1) :
      Effect random req session g (.negative Nrc.ik)
        { g with secPending := 0, secAttempts := g.secAttempts + 1 }
  | lockout {k3 k2 k1 k0 : UInt8} {tl : List UInt8}
      (hreq : req = Sid.security :: 0x02 :: k3 :: k2 :: k1 :: k0 :: tl) (hlock : g.secLockMs = 0)
      (hpending : g.secPending = udsSecLevel1) (hkey : ofBe32 k3 k2 k1 k0 ≠ expectedKey g.secSeed)
      (hmax : udsSecMaxAttempts ≤ g.secAttempts + 1) :
      Effect random req session g (.negative Nrc.enoa)
        { g with secPending := 0, secAttempts := 0, secLockMs := udsSecLockMs }
  | routine {b rh rl : UInt8} {tl : List UInt8} (hreq : req = Sid.routine :: b :: rh :: rl :: tl)
      (hsub : ¬(subFunction b < 0x01 ∨ 0x03 < subFunction b)) :
      Effect random req session g
        (.positive [Sid.routine + udsPosRespOffset, subFunction b, rh, rl, 0x00] session) g
  | present {b : UInt8} {tl : List UInt8} (hreq : req = Sid.testerPres :: b :: tl)
      (hsub : subFunction b = 0x00) :
      Effect random req session g (.positive [Sid.testerPres + udsPosRespOffset, 0x00] session) g
  | download {dfi alfid : UInt8} {tl : List UInt8} {sizeLen addrLen : ℕ} {size : UInt32}
      (hreq : req = Sid.reqDownload :: dfi :: alfid :: tl) (hlen : ¬req.length < 4)
      (hlevel : g.secLevel = udsSecLevelDownload) (hclosed : g.xferActive = false)
      (hsizeLen : (alfid &&& 0x0F).toNat = sizeLen)
      (haddrLen : (alfid >>> 4 &&& 0x0F).toNat = addrLen)
      (hlens : ¬(sizeLen = 0 ∨ 4 < sizeLen ∨ addrLen = 0 ∨ 4 < addrLen))
      (hneed : ¬req.length < 3 + addrLen + sizeLen)
      (hmem : memorySize req sizeLen (3 + addrLen) 0 = some size) (hsize : size ≠ 0) :
      Effect random req session g
        (.positive ([Sid.reqDownload + udsPosRespOffset, 0x20] ++
          be16 (UInt16.ofNat udsMaxBlockLen)) session)
        { g with xferActive := true, xferSize := size, xferReceived := 0, xferBsc := 1 }
  | block {data : List UInt8} (hreq : req = Sid.transferData :: g.xferBsc :: data)
      (hopen : g.xferActive = true) (hlevel : g.secLevel = udsSecLevelDownload)
      (hlen : req.length ≤ udsMaxBlockLen)
      (hroom : g.xferReceived + UInt32.ofNat data.length ≤ g.xferSize) :
      Effect random req session g
        (.positive [Sid.transferData + udsPosRespOffset, g.xferBsc] session)
        { g with
          xferReceived := g.xferReceived + UInt32.ofNat data.length
          xferBsc := g.xferBsc + 1 }
  | again {bsc : UInt8} {data : List UInt8} (hreq : req = Sid.transferData :: bsc :: data)
      (hopen : g.xferActive = true) (hlevel : g.secLevel = udsSecLevelDownload)
      (hne : bsc ≠ g.xferBsc) (hpos : 0 < g.xferReceived) (hbsc : bsc = g.xferBsc - 1) :
      Effect random req session g (.positive [Sid.transferData + udsPosRespOffset, bsc] session) g
  | exit {tl : List UInt8} (hreq : req = Sid.reqXferExit :: tl) (hopen : g.xferActive = true)
      (hlevel : g.secLevel = udsSecLevelDownload) :
      Effect random req session g (.positive [Sid.reqXferExit + udsPosRespOffset] session)
        { g with xferActive := false, xferSize := 0, xferReceived := 0, xferBsc := 0 }

/-- A handler has returned, and its result is one of those that `Effect` allows. -/
def Answers (random : UInt32) (c : Ctx) (g : Statics) (r : Option (Disp × Ctx × Statics)) : Prop :=
  ∃ v g', Meets c r v g' ∧ Effect random c.req c.session g v g'

namespace Answers

variable {random : UInt32} {c : Ctx} {g g' : Statics}

theorem refuse {nrc : UInt8} (hik : nrc ≠ Nrc.ik) (henoa : nrc ≠ Nrc.enoa) :
    Answers random c g (c.refuse nrc g) :=
  ⟨.negative nrc, g, .refuse c nrc g, .refused hik henoa⟩

theorem reply {bs : List UInt8} {session : UInt8} (h : bs.length ≤ c.respCap)
    (hpos : 0 < bs.length) (he : Effect random c.req c.session g (.positive bs session) g') :
    Answers random c g (Ctx.reply { c with session := session } bs g') :=
  ⟨.positive bs session, g', .reply session g' h hpos, he⟩

end Answers

/-! ### The loop of ReadDataByIdentifier -/

theorem DidEntry.length_bytes (entry : DidEntry) : entry.bytes.length = 2 + entry.data.length := by
  rw [DidEntry.bytes, List.length_append]; rfl

theorem didBytes_cons (entry : DidEntry) (entries : List DidEntry) :
    didBytes (entry :: entries) = entry.bytes ++ didBytes entries := rfl

theorem did_of_findDid {did : UInt16} {entry : DidEntry} (h : findDid did = some entry) :
    entry.did = did := by
  simpa using List.find?_some h

/-- What the loop of `uds_h_read_did()` ends with, when the records of `entries` are to come. -/
def readResult (cap oi matched : ℕ) (entries : List DidEntry) : Option (ℕ × ℕ) :=
  if oi + (didBytes entries).length ≤ cap then
    some (oi + (didBytes entries).length, matched + entries.length)
  else none

theorem readResult_nil {cap oi : ℕ} (matched : ℕ) (h : oi ≤ cap) :
    readResult cap oi matched [] = some (oi, matched) := by
  rw [readResult, if_pos (by simpa [didBytes] using h)]; rfl

theorem readResult_cons (cap oi matched : ℕ) (entry : DidEntry) (entries : List DidEntry) :
    readResult cap oi matched (entry :: entries) =
      readResult cap (oi + entry.bytes.length) (matched + 1) entries := by
  unfold readResult
  rw [didBytes_cons, List.length_append, List.length_cons, ← Nat.add_assoc,
    Nat.add_right_comm matched, Nat.add_assoc matched]

theorem didRecords_of_length {req : List UInt8} (h : req.length ≤ 1) : didRecords req = [] := by
  rcases req with _ | ⟨x, _ | ⟨y, rest⟩⟩
  · rfl
  · rfl
  · simp only [List.length_cons] at h; omega

/-- The loop of `uds_h_read_did()` appends the records of the DIDs from index `i` on, if they fit,
and gives up otherwise. -/
theorem readDids_eq (fuel : ℕ) (c : Ctx) (i oi matched : ℕ) (hfuel : c.req.length ≤ i + fuel)
    (hoi : oi ≤ c.respCap) :
    ∃ resp, readDids fuel c i oi matched = some ({ c with resp := resp },
        readResult c.respCap oi matched (didRecords (c.req.drop i))) ∧
      (oi + (didBytes (didRecords (c.req.drop i))).length ≤ c.respCap →
        resp.read 0 (oi + (didBytes (didRecords (c.req.drop i))).length) =
          c.resp.read 0 oi ++ didBytes (didRecords (c.req.drop i))) := by
  induction fuel generalizing c i oi matched with
  | zero =>
    rw [didRecords_of_length (by rw [List.length_drop]; omega)]
    refine ⟨c.resp, ?_, by simp [didBytes]⟩
    rw [readDids, if_pos (by omega), readResult_nil matched hoi]
  | succ fuel ih =>
    by_cases hend : c.req.length ≤ i + 1
    · rw [didRecords_of_length (by rw [List.length_drop]; omega)]
      refine ⟨c.resp, ?_, by simp [didBytes]⟩
      rw [readDids, if_pos hend, readResult_nil matched hoi]
    have hi : i < c.req.length := by omega
    have hi' : i + 1 < c.req.length := by omega
    have hdrop : c.req.drop i = c.req[i] :: c.req[i + 1] :: c.req.drop (i + 2) := by
      rw [List.drop_eq_getElem_cons hi, List.drop_eq_getElem_cons hi']
    rw [readDids, if_neg hend, List.getElem?_eq_getElem hi, List.getElem?_eq_getElem hi', hdrop,
      didRecords]
    simp only [Option.bind_eq_bind, Option.bind_some]
    generalize didOf c.req[i] c.req[i + 1] = did
    cases hfind : findDid did with
    -- an unknown DID adds no record
    | none => exact ih c (i + 2) oi matched (by omega) hoi
    | some entry =>
      obtain rfl := did_of_findDid hfind
      rw [Option.toList_some, List.singleton_append, readResult_cons, didBytes_cons,
        List.length_append]
      have hlen := entry.length_bytes
      have hroom : oi + entry.bytes.length = oi + 2 + entry.data.length := by omega
      dsimp only
      split
      · -- the record does not fit
        refine ⟨c.resp, ?_, fun hle => absurd hle (by omega)⟩
        rw [readResult, if_neg (by omega)]
      rw [show be16 entry.did ++ entry.data = entry.bytes from rfl, Ctx.put_eq (by omega),
        Option.bind_some]
      obtain ⟨resp, hloop, hread⟩ := ih { c with resp := c.resp.copy oi entry.bytes } (i + 2)
        (oi + entry.bytes.length) (matched + 1) (by simp only; omega) (by simp only; omega)
      refine ⟨resp, ?_, fun hle => ?_⟩
      · rw [← hroom]; exact hloop
      · rw [← Nat.add_assoc, hread (by simp only; omega), Mem.read_copy_append, List.append_assoc]

/-! ### The handlers -/

section

variable {random : UInt32} {c : Ctx} {g : Statics} {sid : UInt8} {tl : List UInt8}

/-- A request that is long enough has a second byte. -/
theorem byte_of_length (h : c.req = sid :: tl) (hlen : ¬c.req.length < 2) :
    ∃ b tl', tl = b :: tl' ∧ c.req[1]? = some b := by
  rcases tl with _ | ⟨b, tl⟩
  · rw [h] at hlen; simp at hlen
  · exact ⟨b, tl, rfl, by rw [h]; rfl⟩

theorem udsHDiagSession_answers (h : c.req = Sid.diagSession :: tl) :
    Answers random c g (udsHDiagSession c g) := by
  unfold udsHDiagSession
  split
  · exact .refuse (by decide) (by decide)
  obtain ⟨b, tl, rfl, h1⟩ := byte_of_length h ‹_›
  rw [h1]
  simp only [Option.bind_eq_bind, Option.bind_some]
  split
  · exact .refuse (by decide) (by decide)
  rename_i hsub
  split
  · exact .refuse (by decide) (by decide)
  exact .reply (by simp [be16]; omega) (by simp) (.session h (by grind))

theorem udsHEcuReset_answers (h : c.req = Sid.ecuReset :: tl) :
    Answers random c g (udsHEcuReset c g) := by
  unfold udsHEcuReset
  split
  · exact .refuse (by decide) (by decide)
  obtain ⟨b, tl, rfl, h1⟩ := byte_of_length h ‹_›
  rw [h1]
  simp only [Option.bind_eq_bind, Option.bind_some]
  split
  · exact .refuse (by decide) (by decide)
  split
  · exact .refuse (by decide) (by decide)
  split
  · exact .reply (by simp; omega) (by simp) (.reset h ‹_›)
  · exact .reply (by simp; omega) (by simp) (.noReset h ‹_› ‹_›)

/-- A request of a proper length is answered with the records of the known DIDs, if there are any
and they fit. -/
theorem udsHReadDid_meets (hlen : ¬(c.req.length < 3 ∨ (c.req.length - 1) % 2 ≠ 0))
    (hcap : ¬c.respCap < 1) :
    Meets c (udsHReadDid c g)
      (if didRecords (c.req.drop 1) ≠ [] ∧
          1 + (didBytes (didRecords (c.req.drop 1))).length ≤ c.respCap then
        .positive ((Sid.readDid + udsPosRespOffset) :: didBytes (didRecords (c.req.drop 1)))
          c.session
      else .negative Nrc.roor) g := by
  have hput : 0 + [Sid.readDid + udsPosRespOffset].length ≤ c.respCap := by
    rw [List.length_singleton]; omega
  obtain ⟨resp, hloop, hread⟩ := readDids_eq c.req.length
    { c with resp := c.resp.copy 0 [Sid.readDid + udsPosRespOffset] } 1 1 0 (by simp only; omega)
    (by simp only; omega)
  dsimp only at hloop hread
  rw [udsHReadDid, if_neg hlen, if_neg hcap, Ctx.put_eq hput]
  simp only [Option.bind_eq_bind, Option.bind_some]
  rw [hloop, Option.bind_some, readResult]
  generalize didRecords (c.req.drop 1) = entries at hread ⊢
  by_cases hfit : 1 + (didBytes entries).length ≤ c.respCap
  · rw [if_pos hfit]
    dsimp only
    rw [Nat.zero_add]
    by_cases hany : entries = []
    · rw [if_pos (by rw [hany]; rfl), if_neg fun h => h.1 hany]
      exact .negative Nrc.roor resp g
    · rw [if_neg fun h => hany (List.length_eq_zero_iff.1 h), if_pos ⟨hany, hfit⟩]
      have hbs : 1 + (didBytes entries).length =
          ((Sid.readDid + udsPosRespOffset) :: didBytes entries).length := Nat.add_comm _ _
      have hresp := hread hfit
      rw [show (c.resp.copy 0 [Sid.readDid + udsPosRespOffset]).read 0 1 =
        [Sid.readDid + udsPosRespOffset] from Mem.read_copy _ _ _, List.singleton_append] at hresp
      rw [hbs] at hresp hfit ⊢
      exact .positive _ c.session resp g hfit (Nat.succ_pos _) hresp
  · rw [if_neg hfit, if_neg fun h => hfit h.2]
    exact .negative Nrc.roor resp g

theorem udsHReadDid_answers (h : c.req = Sid.readDid :: tl) :
    Answers random c g (udsHReadDid c g) := by
  by_cases hlen : c.req.length < 3 ∨ (c.req.length - 1) % 2 ≠ 0
  · rw [udsHReadDid, if_pos hlen]
    exact .refuse (by decide) (by decide)
  by_cases hcap : c.respCap < 1
  · rw [udsHReadDid, if_neg hlen, if_pos hcap]
    exact .refuse (by decide) (by decide)
  have hmeets := udsHReadDid_meets (g := g) hlen hcap
  rw [show c.req.drop 1 = tl by rw [h]; rfl] at hmeets
  split at hmeets
  · rename_i hany
    exact ⟨_, g, hmeets, .dids h hlen hany.1⟩
  · exact ⟨_, g, hmeets, .refused (by decide) (by decide)⟩

theorem requestSeed_answers (h : c.req = Sid.security :: 0x01 :: tl) (hlock : g.secLockMs = 0) :
    Answers random c g (requestSeed random 0x01 c g) := by
  unfold requestSeed
  split
  · exact .refuse (by decide) (by decide)
  split
  · exact .reply (by simp [be32]; omega) (by simp) (.zeroSeed h hlock ‹_›)
  · exact .reply (by simp [be32]; omega) (by simp) (.seed h hlock ‹_›)

theorem sendKey_answers (h : c.req = Sid.security :: 0x02 :: tl) (hlock : g.secLockMs = 0) :
    Answers random c g (sendKey 0x02 udsSecLevel1 c g) := by
  unfold sendKey
  split
  · exact .refuse (by decide) (by decide)
  rename_i hlen
  obtain ⟨k3, k2, k1, k0, tl, rfl⟩ : ∃ k3 k2 k1 k0 tl', tl = k3 :: k2 :: k1 :: k0 :: tl' := by
    rcases tl with _ | ⟨k3, _ | ⟨k2, _ | ⟨k1, _ | ⟨k0, tl⟩⟩⟩⟩
    case cons.cons.cons.cons => exact ⟨k3, k2, k1, k0, tl, rfl⟩
    all_goals
      rw [h] at hlen
      simp only [List.length_cons, List.length_nil] at hlen
      omega
  split
  · exact .refuse (by decide) (by decide)
  rename_i hpend
  have hpending : g.secPending = udsSecLevel1 := by
    by_contra hne
    exact hpend (.inr hne)
  split
  · exact .refuse (by decide) (by decide)
  rw [show c.req[2]? = some k3 by rw [h]; rfl, show c.req[3]? = some k2 by rw [h]; rfl,
    show c.req[4]? = some k1 by rw [h]; rfl, show c.req[5]? = some k0 by rw [h]; rfl]
  simp only [Option.bind_eq_bind, Option.bind_some]
  split
  · rename_i hkey
    split
    · exact ⟨_, _, .refuse .., .lockout h hlock hpending hkey ‹_›⟩
    · exact ⟨_, _, .refuse .., .badKey h hlock hpending hkey ‹_›⟩
  · rename_i hkey
    exact .reply (by simp; omega) (by simp) (.unlock h hlock hpending (not_not.1 hkey))

/-- The sub-functions of the only level are 1 and 2. -/
theorem eq_of_seedLevel {sub : UInt8} (h : seedLevel sub = udsSecLevel1) :
    sub = if sub &&& 0x01 ≠ 0 then 0x01 else 0x02 := by
  unfold seedLevel at h
  split at h
  · rw [if_pos ‹_›]; exact h
  · rw [if_neg ‹_›, ← UInt8.sub_add_cancel sub 1, h]; rfl

theorem udsHSecurity_answers (h : c.req = Sid.security :: tl) :
    Answers random c g (udsHSecurity random c g) := by
  unfold udsHSecurity
  split
  · exact .refuse (by decide) (by decide)
  split
  · exact .refuse (by decide) (by decide)
  rename_i hlock
  obtain ⟨sub, tl, rfl, h1⟩ := byte_of_length h ‹_›
  have hzero : g.secLockMs = 0 := by
    by_contra hne
    exact hlock (UInt32.pos_iff_ne_zero.2 hne)
  rw [h1]
  simp only [Option.bind_eq_bind, Option.bind_some]
  split
  · exact .refuse (by decide) (by decide)
  rename_i hlevel
  have hseed : seedLevel sub = udsSecLevel1 := by simpa [udsSecLevelSupported] using hlevel
  have hsub := eq_of_seedLevel hseed
  split
  · rename_i hodd
    rw [if_pos hodd] at hsub
    subst hsub
    exact requestSeed_answers h hzero
  · rename_i heven
    rw [if_neg heven] at hsub
    rw [hseed]
    subst hsub
    exact sendKey_answers h hzero

theorem udsHRoutine_answers (h : c.req = Sid.routine :: tl) :
    Answers random c g (udsHRoutine c g) := by
  unfold udsHRoutine
  split
  · exact .refuse (by decide) (by decide)
  rename_i hlen
  obtain ⟨b, rh, rl, tl, rfl⟩ : ∃ b rh rl tl', tl = b :: rh :: rl :: tl' := by
    rcases tl with _ | ⟨b, _ | ⟨rh, _ | ⟨rl, tl⟩⟩⟩
    case cons.cons.cons => exact ⟨b, rh, rl, tl, rfl⟩
    all_goals
      rw [h] at hlen
      simp only [List.length_cons, List.length_nil] at hlen
      omega
  rw [show c.req[1]? = some b by rw [h]; rfl, show c.req[2]? = some rh by rw [h]; rfl,
    show c.req[3]? = some rl by rw [h]; rfl]
  simp only [Option.bind_eq_bind, Option.bind_some]
  split
  · exact .refuse (by decide) (by decide)
  rename_i hsub
  split
  · exact .refuse (by decide) (by decide)
  exact .reply (by simp; omega) (by simp) (.routine h hsub)

theorem udsHTesterPresent_answers (h : c.req = Sid.testerPres :: tl) :
    Answers random c g (udsHTesterPresent c g) := by
  unfold udsHTesterPresent
  split
  · exact .refuse (by decide) (by decide)
  obtain ⟨b, tl, rfl, h1⟩ := byte_of_length h ‹_›
  rw [h1]
  simp only [Option.bind_eq_bind, Option.bind_some]
  split
  · exact .refuse (by decide) (by decide)
  rename_i hsub
  split
  · exact .refuse (by decide) (by decide)
  exact .reply (by simp; omega) (by simp) (.present h (not_not.1 hsub))

/-- The bytes of the memorySize are read within the request. -/
theorem memorySize_isSome (req : List UInt8) (n i : ℕ) (size : UInt32) (h : i + n ≤ req.length) :
    ∃ size', memorySize req n i size = some size' := by
  induction n generalizing i size with
  | zero => exact ⟨size, rfl⟩
  | succ n ih =>
    rw [memorySize, List.getElem?_eq_getElem (by omega), Option.bind_eq_bind, Option.bind_some]
    exact ih (i + 1) _ (by omega)

theorem udsHRequestDownload_answers (h : c.req = Sid.reqDownload :: tl) :
    Answers random c g (udsHRequestDownload c g) := by
  unfold udsHRequestDownload
  split
  · exact .refuse (by decide) (by decide)
  rename_i hlen
  split
  · exact .refuse (by decide) (by decide)
  rename_i hlevel
  split
  · exact .refuse (by decide) (by decide)
  rename_i hclosed
  obtain ⟨dfi, alfid, tl, rfl⟩ : ∃ dfi alfid tl', tl = dfi :: alfid :: tl' := by
    rcases tl with _ | ⟨dfi, _ | ⟨alfid, tl⟩⟩
    case cons.cons => exact ⟨dfi, alfid, tl, rfl⟩
    all_goals
      rw [h] at hlen
      simp only [List.length_cons, List.length_nil] at hlen
      omega
  rw [show c.req[2]? = some alfid by rw [h]; rfl]
  simp only [Option.bind_eq_bind, Option.bind_some]
  split
  · exact .refuse (by decide) (by decide)
  rename_i hlens
  split
  · exact .refuse (by decide) (by decide)
  rename_i hneed
  split
  · exact .refuse (by decide) (by decide)
  obtain ⟨size, hsize⟩ := memorySize_isSome c.req _ _ 0 (Nat.le_of_not_lt hneed)
  rw [hsize, Option.bind_some]
  split
  · exact .refuse (by decide) (by decide)
  exact .reply (by simp [be16]; omega) (by simp)
    (.download h hlen (not_not.1 hlevel) (by simpa using hclosed) rfl rfl hlens hneed hsize ‹_›)

theorem udsHTransferData_answers (h : c.req = Sid.transferData :: tl) :
    Answers random c g (udsHTransferData c g) := by
  unfold udsHTransferData
  split
  · exact .refuse (by decide) (by decide)
  obtain ⟨bsc, data, rfl, h1⟩ := byte_of_length h ‹_›
  have hdlen : c.req.length - 2 = data.length := by rw [h]; simp
  split
  · exact .refuse (by decide) (by decide)
  rename_i hopen
  split
  · exact .refuse (by decide) (by decide)
  rename_i hlevel
  split
  · exact .refuse (by decide) (by decide)
  rw [h1, hdlen]
  simp only [Option.bind_eq_bind, Option.bind_some]
  split
  · rename_i hbsc
    subst hbsc
    split
    · exact .refuse (by decide) (by decide)
    rename_i hlen
    split
    · exact .refuse (by decide) (by decide)
    rename_i hroom
    exact .reply (by simp; omega) (by simp)
      (.block h (by simpa using hopen) (not_not.1 hlevel) (Nat.le_of_not_lt hlen)
        (UInt32.not_lt.1 hroom))
  rename_i hbsc
  split
  · rename_i hagain
    exact .reply (by simp; omega) (by simp)
      (.again h (by simpa using hopen) (not_not.1 hlevel) hbsc hagain.1 hagain.2)
  · exact .refuse (by decide) (by decide)

theorem udsHRequestTransferExit_answers (h : c.req = Sid.reqXferExit :: tl) :
    Answers random c g (udsHRequestTransferExit c g) := by
  unfold udsHRequestTransferExit
  split
  · exact .refuse (by decide) (by decide)
  rename_i hopen
  split
  · exact .refuse (by decide) (by decide)
  rename_i hlevel
  split
  · exact .refuse (by decide) (by decide)
  exact .reply (by simp; omega) (by simp) (.exit h (by simpa using hopen) (not_not.1 hlevel))

end

/-! ### What is possible happens -/

/-- The result is more than a refusal. -/
def Result.Decided : Result → Prop
  | .negative nrc => nrc = Nrc.ik ∨ nrc = Nrc.enoa
  | .positive _ _ => True

/-- The capacity that a handler asks for before it comes to its result. -/
def Result.room : Result → ℕ
  | .negative _ => 2
  | .positive resp _ => resp.length

section

variable {random : UInt32} {c : Ctx} {g : Statics} {b : UInt8} {tl : List UInt8}

theorem getElem?_one {sid : UInt8} (h : c.req = sid :: b :: tl) : c.req[1]? = some b := by
  rw [h]; rfl

theorem not_length_lt_two {sid : UInt8} (h : c.req = sid :: b :: tl) : ¬c.req.length < 2 := by
  rw [h]; simp

theorem udsHDiagSession_grants (h : c.req = Sid.diagSession :: b :: tl)
    (hsub : subFunction b = udsSessionDefault ∨ subFunction b = udsSessionProg ∨
      subFunction b = udsSessionExtended) (hcap : 6 ≤ c.respCap) :
    Meets c (udsHDiagSession c g)
      (.positive ([Sid.diagSession + udsPosRespOffset, subFunction b] ++ be16 udsP2Enc ++
        be16 udsP2StarEnc) (subFunction b)) g := by
  rw [udsHDiagSession, if_neg (not_length_lt_two h), getElem?_one h]
  simp only [Option.bind_eq_bind, Option.bind_some]
  rw [if_neg (by grind), if_neg (by omega)]
  exact .reply (subFunction b) g (by simpa [be16] using hcap) (by simp)

theorem udsHEcuReset_resets (h : c.req = Sid.ecuReset :: b :: tl)
    (hsub : subFunction b = 0x01 ∨ subFunction b = 0x02 ∨ subFunction b = 0x03)
    (hcap : 2 ≤ c.respCap) :
    Meets c (udsHEcuReset c g)
      (.positive [Sid.ecuReset + udsPosRespOffset, subFunction b] udsSessionDefault)
      { g with pendingReset := true } := by
  have hrange : ¬(subFunction b < 0x01 ∨ 0x05 < subFunction b) := by
    rcases hsub with hsub | hsub | hsub <;> rw [hsub] <;> decide
  rw [udsHEcuReset, if_neg (not_length_lt_two h), getElem?_one h]
  simp only [Option.bind_eq_bind, Option.bind_some]
  rw [if_neg hrange, if_neg (by omega), if_pos hsub]
  exact .reply udsSessionDefault _ hcap (by simp)

theorem udsHEcuReset_grants (h : c.req = Sid.ecuReset :: b :: tl)
    (hrange : ¬(subFunction b < 0x01 ∨ 0x05 < subFunction b))
    (hsub : ¬(subFunction b = 0x01 ∨ subFunction b = 0x02 ∨ subFunction b = 0x03))
    (hcap : 2 ≤ c.respCap) :
    Meets c (udsHEcuReset c g)
      (.positive [Sid.ecuReset + udsPosRespOffset, subFunction b] c.session) g := by
  rw [udsHEcuReset, if_neg (not_length_lt_two h), getElem?_one h]
  simp only [Option.bind_eq_bind, Option.bind_some]
  rw [if_neg hrange, if_neg (by omega), if_neg hsub]
  exact .reply c.session g hcap (by simp)

theorem udsHReadDid_grants (h : c.req = Sid.readDid :: tl)
    (hlen : ¬(c.req.length < 3 ∨ (c.req.length - 1) % 2 ≠ 0)) (hany : didRecords tl ≠ [])
    (hcap : (didBytes (didRecords tl)).length + 1 ≤ c.respCap) :
    Meets c (udsHReadDid c g)
      (.positive ((Sid.readDid + udsPosRespOffset) :: didBytes (didRecords tl)) c.session) g := by
  have hmeets := udsHReadDid_meets (g := g) hlen (by omega)
  rwa [show c.req.drop 1 = tl by rw [h]; rfl, if_pos ⟨hany, by omega⟩] at hmeets

/-- The handler of a requestSeed. -/
theorem udsHSecurity_seed (h : c.req = Sid.security :: 0x01 :: tl) (hlock : g.secLockMs = 0) :
    udsHSecurity random c g = requestSeed random 0x01 c g := by
  rw [udsHSecurity, if_neg (not_length_lt_two h), if_neg (by rw [hlock]; decide), getElem?_one h]
  simp only [Option.bind_eq_bind, Option.bind_some]
  rw [if_neg (by decide), if_pos (by decide)]

/-- The handler of a sendKey. -/
theorem udsHSecurity_key (h : c.req = Sid.security :: 0x02 :: tl) (hlock : g.secLockMs = 0) :
    udsHSecurity random c g = sendKey 0x02 udsSecLevel1 c g := by
  rw [udsHSecurity, if_neg (not_length_lt_two h), if_neg (by rw [hlock]; decide), getElem?_one h]
  simp only [Option.bind_eq_bind, Option.bind_some]
  rw [if_neg (by decide), if_neg (by decide)]
  rfl

theorem requestSeed_zero (hlevel : g.secLevel = udsSecLevel1) (hcap : 6 ≤ c.respCap) :
    Meets c (requestSeed random 0x01 c g)
      (.positive ([Sid.security + udsPosRespOffset, 0x01] ++ be32 0) c.session) g := by
  rw [requestSeed, if_neg (by omega), if_pos (show g.secLevel = 0x01 from hlevel)]
  exact .reply c.session g (by simpa [be32] using hcap) (by simp)

theorem requestSeed_new (hlevel : g.secLevel ≠ udsSecLevel1) (hcap : 6 ≤ c.respCap) :
    Meets c (requestSeed random 0x01 c g)
      (.positive ([Sid.security + udsPosRespOffset, 0x01] ++ be32 (challenge random)) c.session)
      { g with secSeed := challenge random, secPending := udsSecLevel1 } := by
  rw [requestSeed, if_neg (by omega), if_neg (show g.secLevel ≠ 0x01 from hlevel)]
  exact .reply c.session _ (by simpa [be32] using hcap) (by simp)

/-- The handler of a sendKey when it comes to the key. -/
theorem sendKey_eq {k3 k2 k1 k0 : UInt8}
    (h : c.req = Sid.security :: 0x02 :: k3 :: k2 :: k1 :: k0 :: tl)
    (hpending : g.secPending = udsSecLevel1) (hcap : 2 ≤ c.respCap) :
    sendKey 0x02 udsSecLevel1 c g =
      if ofBe32 k3 k2 k1 k0 ≠ expectedKey g.secSeed then
        if udsSecMaxAttempts ≤ g.secAttempts + 1 then
          c.refuse Nrc.enoa { g with secPending := 0, secAttempts := 0, secLockMs := udsSecLockMs }
        else c.refuse Nrc.ik { g with secPending := 0, secAttempts := g.secAttempts + 1 }
      else
        c.reply [Sid.security + udsPosRespOffset, 0x02]
          { g with secLevel := udsSecLevel1, secPending := 0, secAttempts := 0 } := by
  rw [sendKey, if_neg (by rw [h]; simp), if_neg (by rw [hpending]; decide), if_neg (by omega),
    show c.req[2]? = some k3 by rw [h]; rfl, show c.req[3]? = some k2 by rw [h]; rfl,
    show c.req[4]? = some k1 by rw [h]; rfl, show c.req[5]? = some k0 by rw [h]; rfl]
  rfl

theorem udsHRoutine_grants {rh rl : UInt8} (h : c.req = Sid.routine :: b :: rh :: rl :: tl)
    (hsub : ¬(subFunction b < 0x01 ∨ 0x03 < subFunction b)) (hcap : 5 ≤ c.respCap) :
    Meets c (udsHRoutine c g)
      (.positive [Sid.routine + udsPosRespOffset, subFunction b, rh, rl, 0x00] c.session) g := by
  rw [udsHRoutine, if_neg (by rw [h]; simp), getElem?_one h,
    show c.req[2]? = some rh by rw [h]; rfl, show c.req[3]? = some rl by rw [h]; rfl]
  simp only [Option.bind_eq_bind, Option.bind_some]
  rw [if_neg hsub, if_neg (by omega)]
  exact .reply c.session g hcap (by simp)

theorem udsHTesterPresent_grants (h : c.req = Sid.testerPres :: b :: tl)
    (hsub : subFunction b = 0x00) (hcap : 2 ≤ c.respCap) :
    Meets c (udsHTesterPresent c g)
      (.positive [Sid.testerPres + udsPosRespOffset, 0x00] c.session) g := by
  rw [udsHTesterPresent, if_neg (not_length_lt_two h), getElem?_one h]
  simp only [Option.bind_eq_bind, Option.bind_some]
  rw [if_neg (not_not.2 hsub), if_neg (by omega)]
  exact .reply c.session g hcap (by simp)

theorem udsHRequestDownload_grants {dfi alfid : UInt8} {size : UInt32} {sizeLen addrLen : ℕ}
    (h : c.req = Sid.reqDownload :: dfi :: alfid :: tl) (hlen : ¬c.req.length < 4)
    (hlevel : g.secLevel = udsSecLevelDownload) (hclosed : g.xferActive = false)
    (hsizeLen : (alfid &&& 0x0F).toNat = sizeLen)
    (haddrLen : (alfid >>> 4 &&& 0x0F).toNat = addrLen)
    (hlens : ¬(sizeLen = 0 ∨ 4 < sizeLen ∨ addrLen = 0 ∨ 4 < addrLen))
    (hneed : ¬c.req.length < 3 + addrLen + sizeLen)
    (hmem : memorySize c.req sizeLen (3 + addrLen) 0 = some size) (hsize : size ≠ 0)
    (hcap : 4 ≤ c.respCap) :
    Meets c (udsHRequestDownload c g)
      (.positive ([Sid.reqDownload + udsPosRespOffset, 0x20] ++
        be16 (UInt16.ofNat udsMaxBlockLen)) c.session)
      { g with xferActive := true, xferSize := size, xferReceived := 0, xferBsc := 1 } := by
  rw [udsHRequestDownload, if_neg hlen, if_neg (not_not.2 hlevel), if_neg (by simp [hclosed]),
    show c.req[2]? = some alfid by rw [h]; rfl]
  simp only [Option.bind_eq_bind, Option.bind_some]
  rw [hsizeLen, haddrLen, if_neg hlens, if_neg hneed, if_neg (by omega), hmem, Option.bind_some,
    if_neg hsize]
  exact .reply c.session _ (by simpa [be16] using hcap) (by simp)

theorem udsHTransferData_block {data : List UInt8}
    (h : c.req = Sid.transferData :: g.xferBsc :: data) (hopen : g.xferActive = true)
    (hlevel : g.secLevel = udsSecLevelDownload) (hlen : c.req.length ≤ udsMaxBlockLen)
    (hroom : g.xferReceived + UInt32.ofNat data.length ≤ g.xferSize) (hcap : 2 ≤ c.respCap) :
    Meets c (udsHTransferData c g)
      (.positive [Sid.transferData + udsPosRespOffset, g.xferBsc] c.session)
      { g with
        xferReceived := g.xferReceived + UInt32.ofNat data.length
        xferBsc := g.xferBsc + 1 } := by
  rw [udsHTransferData, if_neg (not_length_lt_two h), if_neg (by simp [hopen]),
    if_neg (not_not.2 hlevel), if_neg (by omega), getElem?_one h,
    show c.req.length - 2 = data.length by rw [h]; simp]
  simp only [Option.bind_eq_bind, Option.bind_some]
  rw [if_pos trivial, if_neg (by omega), if_neg (UInt32.not_lt.2 hroom)]
  exact .reply c.session _ hcap (by simp)

theorem udsHTransferData_again {bsc : UInt8} {data : List UInt8}
    (h : c.req = Sid.transferData :: bsc :: data) (hopen : g.xferActive = true)
    (hlevel : g.secLevel = udsSecLevelDownload) (hne : bsc ≠ g.xferBsc) (hpos : 0 < g.xferReceived)
    (hbsc : bsc = g.xferBsc - 1) (hcap : 2 ≤ c.respCap) :
    Meets c (udsHTransferData c g)
      (.positive [Sid.transferData + udsPosRespOffset, bsc] c.session) g := by
  rw [udsHTransferData, if_neg (not_length_lt_two h), if_neg (by simp [hopen]),
    if_neg (not_not.2 hlevel), if_neg (by omega), getElem?_one h]
  simp only [Option.bind_eq_bind, Option.bind_some]
  rw [if_neg hne, if_pos ⟨hpos, hbsc⟩]
  exact .reply c.session g hcap (by simp)

theorem udsHRequestTransferExit_grants (hopen : g.xferActive = true)
    (hlevel : g.secLevel = udsSecLevelDownload) (hcap : 1 ≤ c.respCap) :
    Meets c (udsHRequestTransferExit c g) (.positive [Sid.reqXferExit + udsPosRespOffset] c.session)
      { g with xferActive := false, xferSize := 0, xferReceived := 0, xferBsc := 0 } := by
  rw [udsHRequestTransferExit, if_neg (by simp [hopen]), if_neg (not_not.2 hlevel),
    if_neg (by omega)]
  exact .reply c.session _ hcap (by simp)

end

end Uds

end Espcan32

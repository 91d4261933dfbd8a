import Espcan32.Uds.Transfer

/-!
# A whole download

A tester that follows the procedure gets its image in, in whatever state it finds the server: it
selects the default session, asks for a seed, sends the key, and brings the image block by block.

* `Image` : an image whose blocks fit the size it declares and the length of a block.
* `Image.next` : what the tester sends after the responses it has got.
* `Stage` : the server after these responses.
* `download_completes` : **every request of the tester is answered positively**, and the books of
  the transfer are those of the blocks.
-/

namespace Espcan32

namespace Uds

open IsoTp (Ret)

/-! ### Seeds and keys -/

theorem toNat_ofBe32 (b3 b2 b1 b0 : UInt8) :
    (ofBe32 b3 b2 b1 b0).toNat = bigEndian [b3, b2, b1, b0] := by
  have h3 := b3.toNat_lt
  have h2 := b2.toNat_lt
  have h1 := b1.toNat_lt
  have h0 := b0.toNat_lt
  simp only [ofBe32, UInt32.toNat_or, UInt32.toNat_shiftLeft, UInt8.toNat_toUInt32,
    UInt32.reduceToNat, Nat.reduceMod]
  rw [shiftLeft_mod (by omega), shiftLeft_mod (by omega), shiftLeft_mod (by omega), Nat.or_assoc,
    Nat.or_assoc, shiftLeft_or_eq_add (k := 8) h0, shiftLeft_or_eq_add (k := 16) (by omega),
    shiftLeft_or_eq_add (k := 24) (by omega)]
  simp only [bigEndian, bigEndianFrom, List.foldl]
  omega

/-- The bytes of a seed are read back as the seed. -/
theorem ofBe32_be32 (v : UInt32) :
    ofBe32 (v >>> 24).toUInt8 (v >>> 16).toUInt8 (v >>> 8).toUInt8 (v &&& 0xFF).toUInt8 = v := by
  have hv := v.toNat_lt
  apply UInt32.toNat_inj.1
  rw [toNat_ofBe32]
  simp only [bigEndian, bigEndianFrom, List.foldl, UInt32.toNat_toUInt8, UInt32.toNat_shiftRight,
    UInt32.toNat_and, UInt32.reduceToNat, Nat.reduceMod, Nat.shiftRight_eq_div_pow, and_low_byte]
  omega

/-- The positive response to the selection of the default session. -/
def sessionResp : List UInt8 :=
  [Sid.diagSession + udsPosRespOffset, udsSessionDefault] ++ be16 udsP2Enc ++ be16 udsP2StarEnc

/-- The positive response to a requestSeed. -/
def seedResp (seed : UInt32) : List UInt8 :=
  [Sid.security + udsPosRespOffset, 0x01] ++ be32 seed

/-- The positive response to a sendKey. -/
def keyResp : List UInt8 := [Sid.security + udsPosRespOffset, 0x02]

/-- The positive response to a RequestTransferExit. -/
def exitResp : List UInt8 := [Sid.reqXferExit + udsPosRespOffset]

/-- The responses up to the acknowledgement of `k` blocks. -/
def responsesTo (seed : UInt32) (k : ℕ) : List (List UInt8) :=
  [sessionResp, seedResp seed, keyResp, downloadResp] ++
    (List.range k).map fun j => blockResp (UInt8.ofNat (j + 1))

/-- The sendKey that answers a seed. -/
def sendKeyFor : List UInt8 → Option (List UInt8)
  | [_, _, s3, s2, s1, s0] =>
    some ([Sid.security, 0x02] ++ be32 (expectedKey (ofBe32 s3 s2 s1 s0)))
  | _ => none

theorem sendKeyFor_seedResp (seed : UInt32) :
    sendKeyFor (seedResp seed) = some ([Sid.security, 0x02] ++ be32 (expectedKey seed)) := by
  rw [seedResp, be32, List.cons_append, List.cons_append, List.nil_append, sendKeyFor, ofBe32_be32]

/-! ### The procedure -/

/-- An image to download: the parameters of its RequestDownload, and its blocks, which are not too
long and not more than the size that is declared. -/
structure Image where
  dfi : UInt8
  alfid : UInt8
  memory : List UInt8
  blocks : List (List UInt8)
  sizeLen : 1 ≤ alfid.toNat % 16 ∧ alfid.toNat % 16 ≤ 4
  addrLen : 1 ≤ alfid.toNat / 16 ∧ alfid.toNat / 16 ≤ 4
  memory_length : alfid.toNat / 16 + alfid.toNat % 16 ≤ memory.length
  size_pos : 0 < declaredSize (Sid.reqDownload :: dfi :: alfid :: memory)
  block_length : ∀ b ∈ blocks, b.length + 2 ≤ udsMaxBlockLen
  fits : (blocks.map List.length).sum ≤ declaredSize (Sid.reqDownload :: dfi :: alfid :: memory)

namespace Image

variable (i : Image)

/-- The RequestDownload. -/
def download : List UInt8 := Sid.reqDownload :: i.dfi :: i.alfid :: i.memory

/-- The bytes of the first `k` blocks. -/
def upTo (k : ℕ) : ℕ := ((i.blocks.take k).map List.length).sum

/-- What the tester sends after the responses that it has got. -/
def next : List (List UInt8) → Option (List UInt8)
  | [] => some [Sid.diagSession, udsSessionDefault]
  | [_] => some [Sid.security, 0x01]
  | [_, seed] => sendKeyFor seed
  | [_, _, _] => some i.download
  | _ :: _ :: _ :: _ :: acks =>
    if acks.length = i.blocks.length then some [Sid.reqXferExit]
    else (i.blocks[acks.length]?).map fun data =>
      Sid.transferData :: UInt8.ofNat (acks.length + 1) :: data

/-- All responses, each of them positive. -/
def responses (seed : UInt32) : List (List UInt8) :=
  responsesTo seed i.blocks.length ++ [exitResp]

end Image

/-- A server and what the tester has got from it, and how often it has asked. -/
structure Flashing where
  server : Server
  heard : List (List UInt8)
  asked : ℕ

section

variable {L : Type} (T : Transport L)

/-- A poll, whose responses the tester gets. -/
def Flashing.step (x : Flashing) (t : Tick L) : Option Flashing :=
  (x.server.poll T t).map fun p =>
    ⟨p.server, x.heard ++ p.sent.map Prod.fst, x.asked + (t.request T).toList.length⟩

/-- The server polled again and again, and the tester. -/
def flashSystem : System Flashing (Tick L) := .ofFun (Flashing.step T)

/-- A poll finds no request, and the S3 timer does not expire; or it finds what the tester sends
next, and `isotp_send()` takes the response. -/
def Follows (i : Image) (x : Flashing) (t : Tick L) : Prop :=
  match t.request T with
  | none => ¬x.server.s3TimeoutMs ≤ x.server.s3TimerMs + t.elapsedMs
  | some (req, _) =>
    i.next x.heard = some req ∧ ∀ p ∈ x.server.poll T t, ∀ y ∈ p.sent, Taken y.2

instance (i : Image) (x : Flashing) (t : Tick L) : Decidable (Follows T i x t) := by
  unfold Follows
  split <;> infer_instance

end

/-! ### The server after each response -/

/-- The statics of the server after the responses `heard` of a download. -/
inductive Stage (i : Image) (g : Statics) : List (List UInt8) → Prop
  | start : Stage i g []
  | relocked (hlevel : g.secLevel = 0) (hclosed : g.xferActive = false) : Stage i g [sessionResp]
  | challenged (seed : UInt32) (hclosed : g.xferActive = false)
      (hpending : g.secPending = udsSecLevel1) (hseed : g.secSeed = seed) :
      Stage i g [sessionResp, seedResp seed]
  | unlocked (seed : UInt32) (hclosed : g.xferActive = false)
      (hlevel : g.secLevel = udsSecLevelDownload) : Stage i g [sessionResp, seedResp seed, keyResp]
  | bringing (seed : UInt32) (k : ℕ) (hk : k ≤ i.blocks.length)
      (hlevel : g.secLevel = udsSecLevelDownload) (hopen : g.xferActive = true)
      (hsize : g.xferSize.toNat = declaredSize i.download)
      (hreceived : g.xferReceived.toNat = i.upTo k) (hbsc : g.xferBsc = UInt8.ofNat (k + 1)) :
      Stage i g (responsesTo seed k)
  | ended (seed : UInt32) (hlevel : g.secLevel = udsSecLevelDownload)
      (hclosed : g.xferActive = false) : Stage i g (i.responses seed)

/-- The invariant of a download. -/
structure FlashInv (i : Image) (x : Flashing) : Prop where
  stage : Stage i x.server.g x.heard
  unlockable : x.server.g.secLockMs = 0
  room : 6 ≤ x.server.respCap
  counted : x.heard.length = x.asked

theorem responsesTo_succ (seed : UInt32) (k : ℕ) :
    responsesTo seed (k + 1) = responsesTo seed k ++ [blockResp (UInt8.ofNat (k + 1))] := by
  rw [responsesTo, List.range_succ, List.map_append, ← List.append_assoc]
  rfl

theorem length_responsesTo (seed : UInt32) (k : ℕ) : (responsesTo seed k).length = 4 + k := by
  rw [responsesTo, List.length_append, List.length_map, List.length_range]
  rfl

namespace Image

variable (i : Image)

theorem upTo_succ {k : ℕ} (hk : k < i.blocks.length) :
    i.upTo (k + 1) = i.upTo k + i.blocks[k].length := by
  rw [upTo, upTo, List.take_add_one, List.getElem?_eq_getElem hk, Option.toList_some,
    List.map_append, List.sum_append]
  simp

theorem upTo_le (k : ℕ) : i.upTo k ≤ declaredSize i.download := by
  have hall : (i.blocks.map List.length).sum =
      i.upTo k + ((i.blocks.drop k).map List.length).sum := by
    rw [upTo, ← List.sum_append, ← List.map_append, List.take_append_drop]
  have hfits : (i.blocks.map List.length).sum ≤ declaredSize i.download := i.fits
  omega

theorem next_responsesTo {seed : UInt32} {k : ℕ} (hk : k < i.blocks.length) :
    i.next (responsesTo seed k) =
      some (Sid.transferData :: UInt8.ofNat (k + 1) :: i.blocks[k]) := by
  rw [responsesTo]
  simp only [List.cons_append, List.nil_append, next, List.length_map, List.length_range]
  rw [if_neg (Nat.ne_of_lt hk), List.getElem?_eq_getElem hk, Option.map_some]

theorem next_last (seed : UInt32) :
    i.next (responsesTo seed i.blocks.length) = some [Sid.reqXferExit] := by
  rw [responsesTo]
  simp only [List.cons_append, List.nil_append, next, List.length_map, List.length_range]
  rw [if_pos trivial]

theorem next_responses (seed : UInt32) : i.next (i.responses seed) = none := by
  rw [responses, responsesTo]
  simp only [List.cons_append, List.nil_append, next, List.length_append, List.length_map,
    List.length_range, List.length_cons, List.length_nil]
  rw [if_neg (by omega), List.getElem?_eq_none (by omega), Option.map_none]

/-- What the server reads of the RequestDownload. -/
theorem memorySize_download : ∃ size : UInt32,
    memorySize i.download (i.alfid &&& 0x0F).toNat (3 + (i.alfid >>> 4 &&& 0x0F).toNat) 0 =
      some size ∧ size.toNat = declaredSize i.download ∧ size ≠ 0 := by
  have hsize := i.sizeLen
  have haddr := i.addrLen
  have hlen := i.memory_length
  have hlow := toNat_low_nibble i.alfid
  have hhigh : (i.alfid >>> 4 &&& 0x0F).toNat = i.alfid.toNat / 16 := by
    rw [toNat_low_nibble, toNat_high_nibble]
    omega
  obtain ⟨size, hmem⟩ := memorySize_isSome i.download (i.alfid &&& 0x0F).toNat
    (3 + (i.alfid >>> 4 &&& 0x0F).toNat) 0 (by
      rw [hlow, hhigh, download, List.length_cons, List.length_cons, List.length_cons]
      omega)
  have heq : declaredSize i.download = size.toNat := declaredSize_eq (by omega) hmem
  refine ⟨size, hmem, heq.symm, ?_⟩
  rintro rfl
  exact absurd heq (Nat.ne_of_gt i.size_pos)

end Image

/-! ### What a poll does -/

section

variable {L : Type} {T : Transport L} {i : Image} {x : Flashing} {t : Tick L}
  {p : Poll L UInt32} {sid : UInt8} {tl : List UInt8} {functional : Bool}

/-- A response that is taken is all that is sent. -/
theorem Sends.sole {resp : List UInt8} {session : UInt8} {sent : List (List UInt8 × Ret)}
    (h : Sends sid false functional (.positive resp session) sent)
    (htaken : ∀ y ∈ sent, Taken y.2) : sent.map Prod.fst = [resp] := by
  rcases h with ⟨r, -, rfl⟩ | ⟨r, r', hr, rfl⟩
  · rfl
  · exact absurd (htaken _ List.mem_cons_self) hr

namespace FlashInv

/-- A request that can be answered positively is, and its response leads to the next stage. -/
theorem answered (h : FlashInv i x) (hp : x.server.poll T t = some p)
    (hreq : t.request T = some (sid :: tl, functional))
    (hknown : udsFindService benchServices sid ≠ none)
    (hsup : Poll.suppressed sid (sid :: tl) = false) (htaken : ∀ y ∈ p.sent, Taken y.2)
    {resp : List UInt8} {session : UInt8} {g : Statics}
    (he : Effect t.random (sid :: tl) x.server.session (x.server.takeUp t.elapsedMs).g
      (.positive resp session) g)
    (hroom : resp.length ≤ 6) (hlock : g.secLockMs = 0)
    (hstage : Stage i ((x.server.takeUp t.elapsedMs).conclude sid (.positive resp session) g).g
      (x.heard ++ [resp])) :
    FlashInv i ⟨p.server, x.heard ++ p.sent.map Prod.fst, x.asked + 1⟩ := by
  have hcap := h.room
  obtain ⟨⟨dropped, buf, hserver⟩, hsent⟩ :=
    poll_decides hp hreq hknown he trivial (hroom.trans hcap)
  rw [hsup] at hsent
  rw [hsent.sole htaken]
  refine ⟨?_, ?_, ?_, ?_⟩
  · rw [hserver]
    exact hstage
  · rw [hserver]
    exact (conclude_security _ sid (.positive resp session) g).1.trans hlock
  · rw [(polled_of_poll T hp).respCap]
    exact hcap
  · rw [List.length_append, h.counted]
    rfl

/-- The selection of the default session relocks the server. -/
theorem relocks (h : FlashInv i x) (hheard : x.heard = []) (hp : x.server.poll T t = some p)
    (hreq : t.request T = some ([Sid.diagSession, udsSessionDefault], functional))
    (htaken : ∀ y ∈ p.sent, Taken y.2) :
    FlashInv i ⟨p.server, x.heard ++ p.sent.map Prod.fst, x.asked + 1⟩ := by
  refine h.answered hp hreq (by decide) (by decide) htaken (.session rfl (.inl rfl)) (by decide)
    (ageLock_zero h.unlockable) ?_
  rw [hheard, conclude_positive]
  rcases commit_cases { x.server.takeUp t.elapsedMs with g := (x.server.takeUp t.elapsedMs).g }
    Sid.diagSession (subFunction udsSessionDefault) with ⟨-, hc⟩ | ⟨hno, -⟩
  · rw [hc]
    exact .relocked rfl rfl
  · exact absurd (.inr ⟨rfl, rfl⟩) hno

/-- A locked server without a lockout offers a seed. -/
theorem challenges (h : FlashInv i x) (hheard : x.heard = [sessionResp])
    (hlevel : x.server.g.secLevel = 0) (hclosed : x.server.g.xferActive = false)
    (hp : x.server.poll T t = some p)
    (hreq : t.request T = some ([Sid.security, 0x01], functional))
    (htaken : ∀ y ∈ p.sent, Taken y.2) :
    FlashInv i ⟨p.server, x.heard ++ p.sent.map Prod.fst, x.asked + 1⟩ := by
  have hlocked : (x.server.takeUp t.elapsedMs).g.secLevel ≠ udsSecLevel1 := by
    rw [show (x.server.takeUp t.elapsedMs).g.secLevel = 0 from hlevel]
    decide
  refine h.answered hp hreq (by decide) (by decide) htaken
    (.seed rfl (ageLock_zero h.unlockable) hlocked) (by simp [be32]) (ageLock_zero h.unlockable) ?_
  rw [hheard, conclude_self x.server t.elapsedMs (by decide)]
  exact .challenged (challenge t.random) hclosed rfl rfl

/-- The key for the seed unlocks the server. -/
theorem unlocks (h : FlashInv i x) {seed : UInt32} (hheard : x.heard = [sessionResp, seedResp seed])
    (hclosed : x.server.g.xferActive = false) (hpending : x.server.g.secPending = udsSecLevel1)
    (hseed : x.server.g.secSeed = seed) (hp : x.server.poll T t = some p)
    (hreq : t.request T = some ([Sid.security, 0x02] ++ be32 (expectedKey seed), functional))
    (htaken : ∀ y ∈ p.sent, Taken y.2) :
    FlashInv i ⟨p.server, x.heard ++ p.sent.map Prod.fst, x.asked + 1⟩ := by
  have hkey : ofBe32 (expectedKey seed >>> 24).toUInt8 (expectedKey seed >>> 16).toUInt8
      (expectedKey seed >>> 8).toUInt8 (expectedKey seed &&& 0xFF).toUInt8 =
        expectedKey (x.server.takeUp t.elapsedMs).g.secSeed := by
    rw [ofBe32_be32, show (x.server.takeUp t.elapsedMs).g.secSeed = seed from hseed]
  refine h.answered hp hreq (by decide) (by rfl) htaken
    (.unlock rfl (ageLock_zero h.unlockable) hpending hkey) (by decide)
    (ageLock_zero h.unlockable) ?_
  rw [hheard, conclude_self x.server t.elapsedMs (by decide)]
  exact .unlocked seed hclosed rfl

/-- The RequestDownload opens the transfer. -/
theorem opens (h : FlashInv i x) {seed : UInt32}
    (hheard : x.heard = [sessionResp, seedResp seed, keyResp])
    (hclosed : x.server.g.xferActive = false) (hlevel : x.server.g.secLevel = udsSecLevelDownload)
    (hp : x.server.poll T t = some p) (hreq : t.request T = some (i.download, functional))
    (htaken : ∀ y ∈ p.sent, Taken y.2) :
    FlashInv i ⟨p.server, x.heard ++ p.sent.map Prod.fst, x.asked + 1⟩ := by
  obtain ⟨size, hmem, hdeclared, hne⟩ := i.memorySize_download
  have hsize := i.sizeLen
  have haddr := i.addrLen
  have hlen := i.memory_length
  have hlow := toNat_low_nibble i.alfid
  have hhigh : (i.alfid >>> 4 &&& 0x0F).toNat = i.alfid.toNat / 16 := by
    rw [toNat_low_nibble, toNat_high_nibble]
    omega
  have hlength : i.download.length = 3 + i.memory.length := by
    rw [Image.download, List.length_cons, List.length_cons, List.length_cons]
    omega
  refine h.answered hp hreq (by decide) (by rfl) htaken
    (.download rfl (by rw [← Image.download]; omega) hlevel hclosed rfl rfl (by omega)
      (by rw [← Image.download]; omega) hmem hne) (by decide) (ageLock_zero h.unlockable) ?_
  rw [hheard, conclude_self x.server t.elapsedMs (by decide)]
  exact .bringing seed 0 (Nat.zero_le _) hlevel rfl hdeclared rfl rfl

/-- The next block is taken. -/
theorem brings (h : FlashInv i x) {seed : UInt32} {k : ℕ} (hheard : x.heard = responsesTo seed k)
    (hk : k < i.blocks.length) (hlevel : x.server.g.secLevel = udsSecLevelDownload)
    (hopen : x.server.g.xferActive = true)
    (hsize : x.server.g.xferSize.toNat = declaredSize i.download)
    (hreceived : x.server.g.xferReceived.toNat = i.upTo k)
    (hbsc : x.server.g.xferBsc = UInt8.ofNat (k + 1)) (hp : x.server.poll T t = some p)
    (hreq : t.request T =
      some (Sid.transferData :: UInt8.ofNat (k + 1) :: i.blocks[k], functional))
    (htaken : ∀ y ∈ p.sent, Taken y.2) :
    FlashInv i ⟨p.server, x.heard ++ p.sent.map Prod.fst, x.asked + 1⟩ := by
  have hup := i.upTo_succ hk
  have hle := i.upTo_le (k + 1)
  have hlt := x.server.g.xferSize.toNat_lt
  have hblock := i.block_length _ (List.getElem_mem hk)
  have hsum : (x.server.g.xferReceived + UInt32.ofNat i.blocks[k].length).toNat =
      i.upTo (k + 1) := by
    rw [UInt32.toNat_add, UInt32.toNat_ofNat', hreceived]
    omega
  rw [← hbsc] at hreq
  refine h.answered hp hreq (by decide) (by rfl) htaken
    (.block rfl hopen hlevel hblock ?_) (by simp) (ageLock_zero h.unlockable) ?_
  · exact UInt32.le_iff_toNat_le.2 (hsum.trans_le (hle.trans_eq hsize.symm))
  · rw [hheard, conclude_self x.server t.elapsedMs (by decide)]
    show Stage i _ (responsesTo seed k ++ [blockResp x.server.g.xferBsc])
    have hbsc' : x.server.g.xferBsc + 1 = UInt8.ofNat (k + 1 + 1) := by
      rw [hbsc, UInt8.ofNat_add (k + 1) 1]
      rfl
    rw [hbsc, ← responsesTo_succ]
    exact .bringing seed (k + 1) hk hlevel hopen hsize hsum hbsc'

/-- The RequestTransferExit closes the transfer. -/
theorem closes (h : FlashInv i x) {seed : UInt32}
    (hheard : x.heard = responsesTo seed i.blocks.length)
    (hlevel : x.server.g.secLevel = udsSecLevelDownload) (hopen : x.server.g.xferActive = true)
    (hp : x.server.poll T t = some p) (hreq : t.request T = some ([Sid.reqXferExit], functional))
    (htaken : ∀ y ∈ p.sent, Taken y.2) :
    FlashInv i ⟨p.server, x.heard ++ p.sent.map Prod.fst, x.asked + 1⟩ := by
  refine h.answered hp hreq (by decide) (by decide) htaken (.exit rfl hopen hlevel) (by decide)
    (ageLock_zero h.unlockable) ?_
  rw [hheard, conclude_self x.server t.elapsedMs (by decide)]
  exact .ended seed hlevel rfl

/-- A poll without a request changes nothing but the timers. -/
theorem quiet (h : FlashInv i x) (hp : x.server.poll T t = some p) (hreq : t.request T = none)
    (hexp : ¬x.server.s3TimeoutMs ≤ x.server.s3TimerMs + t.elapsedMs) :
    FlashInv i ⟨p.server, x.heard ++ p.sent.map Prod.fst, x.asked⟩ := by
  cases polled_of_poll T hp with
  | quiet hnone hserver hsent =>
    rw [hsent, List.map_nil, List.append_nil, hserver]
    rcases ageS3_cases (x.server.ageLock t.elapsedMs) t.elapsedMs with ⟨hexp', -⟩ | ⟨-, hs3⟩
    · exact absurd hexp' hexp
    rw [hs3]
    refine ⟨?_, ageLock_zero h.unlockable, h.room, h.counted⟩
    have hstage := h.stage
    show Stage i _ x.heard
    generalize x.heard = heard at hstage ⊢
    cases hstage with
    | start => exact .start
    | relocked hlevel hclosed => exact .relocked hlevel hclosed
    | challenged seed hclosed hpending hseed => exact .challenged seed hclosed hpending hseed
    | unlocked seed hclosed hlevel => exact .unlocked seed hclosed hlevel
    | bringing seed k hk hlevel hopen hsize hreceived hbsc =>
      exact .bringing seed k hk hlevel hopen hsize hreceived hbsc
    | ended seed hlevel hclosed => exact .ended seed hlevel hclosed
  | unknown hreq' => rw [hreq] at hreq'; cases hreq'
  | answered hreq' => rw [hreq] at hreq'; cases hreq'

/-- What the tester sends next is answered positively. -/
theorem request (h : FlashInv i x) (hp : x.server.poll T t = some p) {req : List UInt8}
    (hreq : t.request T = some (req, functional)) (hnext : i.next x.heard = some req)
    (htaken : ∀ y ∈ p.sent, Taken y.2) :
    FlashInv i ⟨p.server, x.heard ++ p.sent.map Prod.fst, x.asked + 1⟩ := by
  have hstage := h.stage
  generalize hheard : x.heard = heard at hstage hnext
  cases hstage with
  | start =>
    obtain rfl := Option.some.inj hnext
    exact hheard ▸ h.relocks hheard hp hreq htaken
  | relocked hlevel hclosed =>
    obtain rfl := Option.some.inj hnext
    exact hheard ▸ h.challenges hheard hlevel hclosed hp hreq htaken
  | challenged seed hclosed hpending hseed =>
    obtain rfl := Option.some.inj ((sendKeyFor_seedResp seed).symm.trans hnext)
    exact hheard ▸ h.unlocks hheard hclosed hpending hseed hp hreq htaken
  | unlocked seed hclosed hlevel =>
    obtain rfl := Option.some.inj hnext
    exact hheard ▸ h.opens hheard hclosed hlevel hp hreq htaken
  | bringing seed k hk hlevel hopen hsize hreceived hbsc =>
    rcases Nat.lt_or_eq_of_le hk with hlt | rfl
    · obtain rfl := Option.some.inj ((i.next_responsesTo hlt).symm.trans hnext)
      exact hheard ▸ h.brings hheard hlt hlevel hopen hsize hreceived hbsc hp hreq htaken
    · obtain rfl := Option.some.inj ((i.next_last seed).symm.trans hnext)
      exact hheard ▸ h.closes hheard hlevel hopen hp hreq htaken
  | ended seed =>
    rw [i.next_responses seed] at hnext
    cases hnext

theorem step {x' : Flashing} (h : FlashInv i x)
    (hst : ((flashSystem T).guard (Follows T i)).step x t x') : FlashInv i x' := by
  obtain ⟨hfollows, hst⟩ := hst
  obtain ⟨p, hp, rfl⟩ := Option.map_eq_some_iff.1 hst
  unfold Follows at hfollows
  cases hreq : t.request T with
  | none =>
    rw [hreq] at hfollows
    exact h.quiet hp hreq hfollows
  | some r =>
    obtain ⟨req, functional⟩ := r
    rw [hreq] at hfollows
    exact h.request hp hreq hfollows.1 (hfollows.2 p hp)

end FlashInv

/-! ### Runs -/

/-- The responses so far are the first ones. -/
theorem Stage.heard {g : Statics} {heard : List (List UInt8)} (h : Stage i g heard) :
    ∃ seed, heard <+: i.responses seed := by
  cases h with
  | start => exact ⟨0, List.nil_prefix⟩
  | relocked => exact ⟨0, _, rfl⟩
  | challenged seed => exact ⟨seed, _, rfl⟩
  | unlocked seed => exact ⟨seed, _, rfl⟩
  | bringing seed k hk =>
    obtain ⟨d, hd⟩ := Nat.exists_eq_add_of_le hk
    refine ⟨seed, List.IsPrefix.trans ?_ (List.prefix_append _ _)⟩
    rw [responsesTo, responsesTo, hd, List.range_add, List.map_append, ← List.append_assoc]
    exact List.prefix_append _ _
  | ended seed => exact ⟨seed, List.prefix_rfl⟩

/-- **A download completes.**  A tester that follows the procedure, on a server in any state but a
lockout and over any transport, with polls between in which the S3 timer does not expire, and whose
responses are taken: each request is answered with one response, and that is the positive one; after
`k` blocks the counter and the total of the server are those of the blocks; and after the last
request the transfer is closed, and the server is still unlocked. -/
theorem download_completes {s : Server} {ts : List (Tick L)} (hlock : s.g.secLockMs = 0)
    (hcap : 6 ≤ s.respCap) (hrun : ((flashSystem T).guard (Follows T i)).Run ⟨s, [], 0⟩ ts x) :
    x.heard.length = x.asked ∧ (∃ seed, x.heard <+: i.responses seed) ∧
      (∀ k, k ≤ i.blocks.length → x.heard.length = 4 + k →
        x.server.g.xferActive = true ∧ x.server.g.xferSize.toNat = declaredSize i.download ∧
          x.server.g.xferReceived.toNat = i.upTo k ∧
          x.server.g.xferBsc.toNat = (k + 1) % 256) ∧
      (i.next x.heard = none → (∃ seed, x.heard = i.responses seed) ∧
        x.server.g.secLevel = udsSecLevelDownload ∧ x.server.g.xferActive = false) := by
  have hinv : FlashInv i x :=
    hrun.invariant ⟨.start, hlock, hcap, rfl⟩ fun _ _ _ h hst => h.step hst
  have hstage := hinv.stage
  refine ⟨hinv.counted, hstage.heard, fun k hk hlen => ?_, fun hnone => ?_⟩
  · generalize x.heard = heard at hstage hlen
    cases hstage with
    | start | relocked | challenged | unlocked =>
      simp only [List.length_cons, List.length_nil] at hlen
      omega
    | bringing seed j hj hlevel hopen hsize hreceived hbsc =>
      rw [length_responsesTo, Nat.add_left_cancel_iff] at hlen
      subst hlen
      exact ⟨hopen, hsize, hreceived, by rw [hbsc, UInt8.toNat_ofNat']⟩
    | ended seed =>
      rw [Image.responses, List.length_append, length_responsesTo, List.length_singleton] at hlen
      omega
  · generalize x.heard = heard at hstage hnone
    cases hstage with
    | start | relocked | unlocked => cases hnone
    | challenged seed => cases (sendKeyFor_seedResp seed).symm.trans hnone
    | bringing seed j hj =>
      rcases Nat.lt_or_eq_of_le hj with hlt | rfl
      · cases (i.next_responsesTo hlt).symm.trans hnone
      · cases (i.next_last seed).symm.trans hnone
    | ended seed hlevel hclosed => exact ⟨⟨seed, rfl⟩, hlevel, hclosed⟩

end

/-- Four bytes in two blocks. -/
def fourBytes : Image where
  dfi := 0x00
  alfid := 0x44
  memory := [0, 0, 0, 0, 0, 0, 0, 4]
  blocks := [[1, 2, 3], [4]]
  sizeLen := by decide
  addrLen := by decide
  memory_length := by decide
  size_pos := by decide
  block_length := by decide
  fits := by decide

/-- A download on a server that is in the midst of another one. -/
def downloadAnew : Option (Flashing × Unit) :=
  let T := linkTransport ⟨0, true⟩
  openDownload.bind fun s =>
    System.exec (Flashing.step T) (Follows T fourBytes) (fun _ _ u => u) (⟨s, [], 0⟩, ())
      [heldTick [0x10, 0x01] 1 0, heldTick [0x27, 0x01] 1 0x12345678,
        heldTick [0x27, 0x02, 0x48, 0x6E, 0x0C, 0x22] 1 0,
        heldTick [0x34, 0x00, 0x44, 0, 0, 0, 0, 0, 0, 0, 4] 1 0,
        heldTick [0x36, 0x01, 1, 2, 3] 1 0, heldTick [] 1000 0, heldTick [0x36, 0x02, 4] 1 0,
        heldTick [0x37] 1 0]

theorem download_completes_anew : ∃ s x, openDownload = some s ∧ s.g.xferActive = true ∧
    downloadAnew = some (x, ()) ∧ (∃ seed, x.heard = fourBytes.responses seed) ∧
    x.server.g.secLevel = 1 ∧ x.server.g.xferActive = false := by
  have hs : openDownload.map (fun s => (s.g.xferActive, s.g.secLockMs, s.respCap)) =
      some (true, 0, 4095) := by decide +kernel
  have hx : downloadAnew.map (fun q => fourBytes.next q.1.heard) = some none := by decide +kernel
  obtain ⟨s, hstart, hs⟩ := Option.map_eq_some_iff.1 hs
  rw [Prod.mk.injEq, Prod.mk.injEq] at hs
  obtain ⟨hopen, hlock, hcap⟩ := hs
  obtain ⟨⟨x, u⟩, hend, hnone⟩ := Option.map_eq_some_iff.1 hx
  have hexec := hend
  rw [downloadAnew, hstart, Option.bind_some] at hexec
  obtain ⟨-, -, -, hdone⟩ := download_completes hlock (by rw [hcap]; decide)
    (System.Run.of_exec hexec).of_withAux
  exact ⟨s, x, hstart, hopen, hend, hdone hnone⟩

end Uds

end Espcan32

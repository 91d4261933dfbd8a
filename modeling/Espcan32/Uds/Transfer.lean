import Espcan32.Uds.Invariant

/-!
# The books of a transfer

RequestDownload opens a transfer of a declared size, and TransferData brings it block by block.
The server keeps no more of it than an 8-bit counter and a 32-bit total.

* `Ledger` : the transfer with all its blocks, in numbers that do not wrap.
* `TransferStep` : what a poll does to the transfer.
* `blocks_booked` : **the counter and the total are those of the ledger**, as far as they reach.
* `retransmission_iff` : **a repeated block is acknowledged again exactly if the total is not
  zero**.
-/

namespace Espcan32

namespace Uds

open IsoTp (Ret)

/-! ### The ledger -/

/-- A block: its blockSequenceCounter, and the length of its payload. -/
structure Block where
  bsc : UInt8
  len : ℕ
  deriving DecidableEq, Repr

/-- A transfer: the size that its RequestDownload declares, and the blocks that have been
acknowledged as new ones since. -/
structure Ledger where
  size : ℕ
  blocks : List Block

/-- The bytes of all the blocks. -/
def Ledger.total (l : Ledger) : ℕ := (l.blocks.map Block.len).sum

/-- The memorySize of a RequestDownload. -/
def declaredSize (req : List UInt8) : ℕ :=
  let alfid := (req.getD 2 0).toNat
  bigEndian ((req.drop (3 + alfid / 16)).take (alfid % 16))

/-- The positive response to a RequestDownload. -/
def downloadResp : List UInt8 :=
  [Sid.reqDownload + udsPosRespOffset, 0x20] ++ be16 (UInt16.ofNat udsMaxBlockLen)

/-- The positive response to a block. -/
def blockResp (bsc : UInt8) : List UInt8 := [Sid.transferData + udsPosRespOffset, bsc]

theorem blockResp_head (bsc : UInt8) : (blockResp bsc).head? ≠ some udsNegRespSid := by
  simp [blockResp, udsPosRespOffset, Sid.transferData, udsNegRespSid]

/-- What the statics hold of the transfer. -/
def Statics.transfer (g : Statics) : Bool × UInt32 × UInt32 × UInt8 :=
  (g.xferActive, g.xferSize, g.xferReceived, g.xferBsc)

section

variable {L : Type} (T : Transport L)

/-- The poll `t` hands `resp` to `isotp_send()`. -/
def Server.answers (s : Server) (t : Tick L) (resp : List UInt8) : Bool :=
  (s.poll T t).any fun p => p.hands resp

/-- The size of the transfer that the poll `t` opens. -/
def Server.opens (s : Server) (t : Tick L) : Option ℕ :=
  match t.request T with
  | some (sid :: tl, _) =>
    if sid = Sid.reqDownload ∧ s.answers T t downloadResp then some (declaredSize (sid :: tl))
    else none
  | _ => none

/-- The block that the poll `t` acknowledges as a new one. -/
def Server.newBlock (s : Server) (t : Tick L) : Option Block :=
  match t.request T with
  | some (sid :: bsc :: data, _) =>
    if sid = Sid.transferData ∧ bsc = s.g.xferBsc ∧ s.answers T t (blockResp bsc) then
      some ⟨bsc, data.length⟩
    else none
  | _ => none

/-- Keep the ledger. -/
def ledger (s : Server) (t : Tick L) (l : Ledger) : Ledger :=
  match s.opens T t with
  | some size => ⟨size, []⟩
  | none => { l with blocks := l.blocks ++ (s.newBlock T t).toList }

end

/-- The memorySize that the code reads is the one that the request declares, if it fits. -/
theorem memorySize_eq {req : List UInt8} {n i : ℕ} {size v : UInt32}
    (h : memorySize req n i size = some v)
    (hfits : (size.toNat + 1) * 256 ^ n ≤ 2 ^ 32) :
    v.toNat = bigEndianFrom size.toNat ((req.drop i).take n) := by
  induction n generalizing i size with
  | zero =>
    obtain rfl := Option.some.inj h
    simp [bigEndianFrom]
  | succ n ih =>
    rw [memorySize, Option.bind_eq_bind, Option.bind_eq_some_iff] at h
    obtain ⟨b, hb, h⟩ := h
    have hlt := b.toNat_lt
    have hi : i < req.length := by
      by_contra hi
      rw [List.getElem?_eq_none (by omega)] at hb
      cases hb
    have hpow : 1 ≤ 256 ^ n := Nat.one_le_pow _ _ (by decide)
    have hone : (size <<< 8 ||| b.toUInt32).toNat = 256 * size.toNat + b.toNat := by
      rw [toNat_shiftIn, Nat.mod_eq_of_lt]
      calc 256 * size.toNat + b.toNat < (size.toNat + 1) * 256 := by omega
        _ ≤ (size.toNat + 1) * 256 ^ (n + 1) := by
          rw [Nat.pow_succ]
          exact Nat.mul_le_mul_left _ (Nat.le_mul_of_pos_left _ hpow)
        _ ≤ 2 ^ 32 := hfits
    rw [ih h, hone, List.drop_eq_getElem_cons hi, List.take_succ_cons]
    · rw [List.getElem?_eq_getElem hi, Option.some.injEq] at hb
      rw [hb]
      rfl
    · rw [hone]
      calc (256 * size.toNat + b.toNat + 1) * 256 ^ n ≤ ((size.toNat + 1) * 256) * 256 ^ n :=
            Nat.mul_le_mul_right _ (by omega)
        _ = (size.toNat + 1) * 256 ^ (n + 1) := by rw [Nat.pow_succ', Nat.mul_assoc]
        _ ≤ 2 ^ 32 := hfits

/-- What is read of a RequestDownload is the size that it declares. -/
theorem declaredSize_eq {dfi alfid : UInt8} {tl : List UInt8} {size : UInt32}
    (hlen : (alfid &&& 0x0F).toNat ≤ 4)
    (h : memorySize (Sid.reqDownload :: dfi :: alfid :: tl) (alfid &&& 0x0F).toNat
      (3 + (alfid >>> 4 &&& 0x0F).toNat) 0 = some size) :
    declaredSize (Sid.reqDownload :: dfi :: alfid :: tl) = size.toNat := by
  have hsize := memorySize_eq h (by
    calc ((0 : UInt32).toNat + 1) * 256 ^ (alfid &&& 0x0F).toNat ≤ 1 * 256 ^ 4 :=
          Nat.mul_le_mul_left _ (Nat.pow_le_pow_right (by decide) hlen)
      _ = 2 ^ 32 := rfl)
  have hhigh : (alfid >>> 4 &&& 0x0F).toNat = alfid.toNat / 16 := by
    have hb := alfid.toNat_lt
    rw [toNat_low_nibble, toNat_high_nibble]
    omega
  rw [hsize, declaredSize, hhigh, toNat_low_nibble]
  rfl

/-! ### What a poll does to the transfer -/

/-- What becomes of the transfer, and what the ledger notes. -/
inductive TransferStep {L : Type} (T : Transport L) (s : Server) (t : Tick L) (g' : Statics) : Prop
  /-- A RequestDownload is accepted. -/
  | opens {size : UInt32} (hopens : s.opens T t = some size.toNat)
      (hclosed : s.g.xferActive = false) (hg : g'.transfer = (true, size, 0, 1))
  /-- A block is accepted. -/
  | block {len : ℕ} (hopens : s.opens T t = none)
      (hblock : s.newBlock T t = some ⟨s.g.xferBsc, len⟩) (hactive : s.g.xferActive = true)
      (hlen : len + 2 ≤ udsMaxBlockLen)
      (hroom : s.g.xferReceived + UInt32.ofNat len ≤ s.g.xferSize)
      (hg : g'.transfer =
        (true, s.g.xferSize, s.g.xferReceived + UInt32.ofNat len, s.g.xferBsc + 1))
  /-- Nothing happens. -/
  | keeps (hopens : s.opens T t = none) (hblock : s.newBlock T t = none)
      (hg : g'.transfer = s.g.transfer)
  /-- The transfer is closed by a RequestTransferExit or a relock. -/
  | closes (hopens : s.opens T t = none) (hblock : s.newBlock T t = none)
      (hg : g'.xferActive = false)

/-- A result is committed with the transfer as the handler leaves it, or with a relock. -/
theorem conclude_transfer (s : Server) (sid : UInt8) (v : Result) (g : Statics) :
    (s.conclude sid v g).g.transfer = g.transfer ∨ (s.conclude sid v g).g.xferActive = false := by
  cases v with
  | negative nrc => exact .inl rfl
  | positive resp session =>
    rw [conclude_positive]
    rcases commit_cases { s with g := g } sid session with ⟨-, hc⟩ | ⟨-, hc⟩ <;> rw [hc]
    · exact .inr rfl
    · exact .inl rfl

section

variable {L : Type} {T : Transport L} {s : Server} {t : Tick L} {p : Poll L UInt32} {sid : UInt8}
  {tl : List UInt8} {functional : Bool} {v : Result}

theorem answers_eq (hp : s.poll T t = some p) (resp : List UInt8) :
    s.answers T t resp = p.hands resp := by
  rw [Server.answers, hp, Option.any_some]

theorem opens_quiet (hreq : t.request T = none) : s.opens T t = none := by
  rw [Server.opens, hreq]

theorem newBlock_quiet (hreq : t.request T = none) : s.newBlock T t = none := by
  rw [Server.newBlock, hreq]

/-- Only a RequestDownload opens a transfer. -/
theorem opens_other (hreq : t.request T = some (sid :: tl, functional))
    (hsid : sid ≠ Sid.reqDownload) : s.opens T t = none := by
  rw [Server.opens, hreq]
  exact if_neg fun h => hsid h.1

/-- Only a TransferData brings a block. -/
theorem newBlock_other (hreq : t.request T = some (sid :: tl, functional))
    (hsid : sid ≠ Sid.transferData) : s.newBlock T t = none := by
  rw [Server.newBlock, hreq]
  rcases tl with _ | ⟨bsc, data⟩
  · rfl
  · exact if_neg fun h => hsid h.1

/-- A RequestDownload is accepted if it is answered positively. -/
theorem opens_answered (hp : s.poll T t = some p)
    (hreq : t.request T = some (Sid.reqDownload :: tl, functional)) {session : UInt8}
    (hsent : Sends Sid.reqDownload (Poll.suppressed Sid.reqDownload (Sid.reqDownload :: tl))
      functional (.positive downloadResp session) p.sent) :
    s.opens T t = some (declaredSize (Sid.reqDownload :: tl)) := by
  rw [Server.opens, hreq]
  refine if_pos ⟨rfl, ?_⟩
  rw [answers_eq hp]
  exact (Sends.hands_iff hsent (by decide)).2 ⟨session, rfl⟩

/-- A block is a new one if it is answered positively and carries the expected counter. -/
theorem newBlock_answered (hp : s.poll T t = some p) {data : List UInt8}
    (hreq : t.request T = some (Sid.transferData :: s.g.xferBsc :: data, functional))
    {session : UInt8}
    (hsent : Sends Sid.transferData
      (Poll.suppressed Sid.transferData (Sid.transferData :: s.g.xferBsc :: data)) functional
      (.positive (blockResp s.g.xferBsc) session) p.sent) :
    s.newBlock T t = some ⟨s.g.xferBsc, data.length⟩ := by
  rw [Server.newBlock, hreq]
  refine if_pos ⟨rfl, rfl, ?_⟩
  rw [answers_eq hp]
  exact (Sends.hands_iff hsent (blockResp_head _)).2 ⟨session, rfl⟩

/-- A block with another counter is not a new one. -/
theorem newBlock_again {bsc : UInt8} {data : List UInt8}
    (hreq : t.request T = some (Sid.transferData :: bsc :: data, functional))
    (hne : bsc ≠ s.g.xferBsc) : s.newBlock T t = none := by
  rw [Server.newBlock, hreq]
  exact if_neg fun h => hne h.2.1

/-- A refused request opens no transfer and brings no block. -/
theorem quiet_of_refused (hp : s.poll T t = some p)
    (hreq : t.request T = some (sid :: tl, functional)) {nrc : UInt8}
    (hsent : Sends sid (Poll.suppressed sid (sid :: tl)) functional (.negative nrc) p.sent) :
    s.opens T t = none ∧ s.newBlock T t = none := by
  rw [Server.opens, Server.newBlock, hreq]
  constructor
  · refine if_neg fun h => ?_
    obtain ⟨rfl, hans⟩ := h
    rw [answers_eq hp] at hans
    obtain ⟨session, hv⟩ := (Sends.hands_iff hsent (by decide)).1 hans
    cases hv
  · rcases tl with _ | ⟨bsc, data⟩
    · rfl
    refine if_neg fun h => ?_
    obtain ⟨rfl, -, hans⟩ := h
    rw [answers_eq hp] at hans
    obtain ⟨session, hv⟩ := (Sends.hands_iff hsent (blockResp_head _)).1 hans
    cases hv

/-- **What a poll does to the transfer.** -/
theorem Polled.transfer (hp : s.poll T t = some p) (h : Polled T s t p) :
    TransferStep T s t p.server.g := by
  cases h with
  | quiet hreq hserver =>
    have hopens := opens_quiet (s := s) hreq
    have hblock := newBlock_quiet (s := s) hreq
    rw [hserver]
    rcases ageS3_cases (s.ageLock t.elapsedMs) t.elapsedMs with ⟨-, hs3⟩ | ⟨-, hs3⟩ <;> rw [hs3]
    · exact .closes hopens hblock rfl
    · exact .keeps hopens hblock rfl
  | unknown hreq hfind hserver =>
    rw [hserver]
    refine .keeps (opens_other hreq ?_) (newBlock_other hreq ?_) rfl
    · rintro rfl
      exact absurd hfind (by decide)
    · rintro rfl
      exact absurd hfind (by decide)
  | @answered sid tl functional v g hreq hmeets heffect hlen hserver hsent =>
    obtain ⟨dropped, buf, hserver⟩ := hserver
    rw [hserver]
    cases heffect with
    | refused | badKey | lockout =>
      obtain ⟨hopens, hblock⟩ := quiet_of_refused hp hreq hsent
      exact .keeps hopens hblock rfl
    | session hr | reset hr | noReset hr | dids hr | seed hr | zeroSeed hr | unlock hr | routine hr
    | present hr =>
      obtain ⟨rfl, rfl⟩ := List.cons.inj hr
      have hopens := opens_other (s := s) hreq (by decide)
      have hblock := newBlock_other (s := s) hreq (by decide)
      rcases conclude_transfer (s.takeUp t.elapsedMs) _ _ _ with hc | hc
      · exact .keeps hopens hblock hc
      · exact .closes hopens hblock hc
    | download hr hlen' hlevel hclosed hsizeLen haddrLen hlens hneed hmem =>
      obtain ⟨rfl, rfl⟩ := List.cons.inj hr
      subst hsizeLen haddrLen
      have hopens := opens_answered hp hreq hsent
      rw [declaredSize_eq (by omega) hmem] at hopens
      refine .opens hopens hclosed ?_
      rw [conclude_self s t.elapsedMs (by decide)]
      rfl
    | block hr hopen hlevel hmax hroom =>
      obtain ⟨rfl, rfl⟩ := List.cons.inj hr
      rw [List.length_cons, List.length_cons] at hmax
      refine .block (opens_other hreq (by decide)) (newBlock_answered hp hreq hsent) hopen hmax
        hroom ?_
      rw [conclude_self s t.elapsedMs (by decide)]
      exact congrArg (·, _, _, _) hopen
    | again hr hopen hlevel hne =>
      obtain ⟨rfl, rfl⟩ := List.cons.inj hr
      refine .keeps (opens_other hreq (by decide)) (newBlock_again hreq hne) ?_
      rw [conclude_self s t.elapsedMs (by decide)]
      rfl
    | exit hr =>
      obtain ⟨rfl, rfl⟩ := List.cons.inj hr
      refine .closes (opens_other hreq (by decide)) (newBlock_other hreq (by decide)) ?_
      rw [conclude_self s t.elapsedMs (by decide)]
      rfl

/-! ### The invariant -/

/-- An open transfer is the one of the ledger. -/
structure Booked (g : Statics) (l : Ledger) : Prop where
  size : g.xferSize.toNat = l.size
  bsc : g.xferBsc = UInt8.ofNat (l.blocks.length + 1)
  received : g.xferReceived = UInt32.ofNat l.total
  order : ∀ i b, l.blocks[i]? = some b → b.bsc = UInt8.ofNat (i + 1)

theorem Ledger.total_snoc (l : Ledger) (b : Block) :
    Ledger.total { l with blocks := l.blocks ++ [b] } = l.total + b.len := by
  simp [Ledger.total]

theorem ledger_opens {l : Ledger} {size : ℕ} (h : s.opens T t = some size) :
    ledger T s t l = ⟨size, []⟩ := by
  rw [ledger, h]

theorem ledger_block {l : Ledger} {b : Block} (h : s.opens T t = none)
    (hb : s.newBlock T t = some b) :
    ledger T s t l = { l with blocks := l.blocks ++ [b] } := by
  rw [ledger, h, hb]
  rfl

theorem ledger_still {l : Ledger} (h : s.opens T t = none) (hb : s.newBlock T t = none) :
    ledger T s t l = l := by
  rw [ledger, h, hb]
  simp

/-- A poll keeps the books. -/
theorem Booked.step {l : Ledger} {g' : Statics} (h : s.g.xferActive = true → Booked s.g l)
    (hst : TransferStep T s t g') : g'.xferActive = true → Booked g' (ledger T s t l) := by
  cases hst with
  | opens hopens hclosed hg =>
    obtain ⟨hactive, rfl, hreceived, hbsc⟩ := by simpa [Statics.transfer] using hg
    intro _
    rw [ledger_opens hopens]
    exact ⟨rfl, hbsc, hreceived, fun i b hb => by simp at hb⟩
  | @block len hopens hblock hactive hlen hroom hg =>
    obtain ⟨-, hsize, hreceived, hbsc⟩ := by simpa [Statics.transfer] using hg
    intro _
    have hl := h hactive
    rw [ledger_block hopens hblock]
    refine ⟨hsize ▸ hl.size, ?_, ?_, fun i b hb => ?_⟩
    · rw [hbsc, hl.bsc, List.length_append, List.length_singleton,
        UInt8.ofNat_add (l.blocks.length + 1) 1]
      rfl
    · rw [hreceived, hl.received, Ledger.total_snoc, UInt32.ofNat_add]
    · -- the counter before the block is the one that it carries
      rcases Nat.lt_trichotomy i l.blocks.length with hi | rfl | hi
      · rw [List.getElem?_append_left hi] at hb
        exact hl.order i b hb
      · rw [List.getElem?_append_right (le_refl _), Nat.sub_self] at hb
        obtain rfl := Option.some.inj hb
        exact hl.bsc
      · rw [List.getElem?_eq_none (by simp only [List.length_append, List.length_singleton]; omega)]
          at hb
        cases hb
  | keeps hopens hblock hg =>
    obtain ⟨hactive, hsize, hreceived, hbsc⟩ := by simpa [Statics.transfer] using hg
    rw [ledger_still hopens hblock, hactive]
    intro hopen
    have hl := h hopen
    exact ⟨hsize ▸ hl.size, hbsc ▸ hl.bsc, hreceived ▸ hl.received, hl.order⟩
  | closes hopens hblock hg =>
    intro hopen
    rw [hg] at hopen
    cases hopen

/-! ### Runs -/

variable {respBuf : Mem UInt8} {respCap : ℕ} {ts : List (Tick L)} {l : Ledger}

theorem booked_of_run (hrun : ((udsSystem T).withAux (ledger T)).Run
    (udsServerInit respBuf respCap, ⟨0, []⟩) ts (s, l)) :
    s.g.xferActive = true → Booked s.g l := by
  refine hrun.invariant (I := fun q => q.1.g.xferActive = true → Booked q.1.g q.2)
    (fun h => by cases h) ?_
  rintro ⟨s, l⟩ t ⟨s', l'⟩ hinv ⟨hst, haux⟩
  obtain ⟨p, hp, hs', hpolled⟩ := step_polled T hst
  dsimp only at haux hs' ⊢
  rw [haux, hs']
  exact Booked.step hinv (hpolled.transfer hp)

/-- **The counter and the total are those of the ledger**, in every run and over any transport:
while a transfer is open, the counter is one more than the number of blocks that have been
acknowledged as new ones, and the total is the sum of their lengths, as far as 8 and 32 bits
reach; the blocks came in order; and a poll that acknowledges no new block and leaves the transfer
open changes neither. -/
theorem blocks_booked (hrun : ((udsSystem T).withAux (ledger T)).Run
    (udsServerInit respBuf respCap, ⟨0, []⟩) ts (s, l)) (hopen : s.g.xferActive = true) :
    s.g.xferBsc.toNat = (l.blocks.length + 1) % 256 ∧
      s.g.xferReceived.toNat = l.total % 2 ^ 32 ∧
      (∀ i (hi : i < l.blocks.length), l.blocks[i].bsc.toNat = (i + 1) % 256) ∧
      ∀ (t : Tick L) (p : Poll L UInt32), s.poll T t = some p → s.newBlock T t = none →
        p.server.g.xferActive = true →
          p.server.g.xferBsc = s.g.xferBsc ∧ p.server.g.xferReceived = s.g.xferReceived := by
  have hl := booked_of_run hrun hopen
  refine ⟨?_, ?_, fun i hi => ?_, fun t p hp hnone hstill => ?_⟩
  · rw [hl.bsc, UInt8.toNat_ofNat']
  · rw [hl.received, UInt32.toNat_ofNat']
  · rw [hl.order i _ (List.getElem?_eq_getElem hi), UInt8.toNat_ofNat']
  · cases (polled_of_poll T hp).transfer hp with
    | opens hopens hclosed => rw [hopen] at hclosed; cases hclosed
    | block hopens hblock => rw [hnone] at hblock; cases hblock
    | keeps hopens hblock hg =>
      obtain ⟨-, -, hreceived, hbsc⟩ := by simpa [Statics.transfer] using hg
      exact ⟨hbsc, hreceived⟩
    | closes hopens hblock hg => rw [hg] at hstill; cases hstill

end

/-- A download of 256 bytes with two blocks, the first of them sent twice, and the ledger. -/
def twoBlocks : Option (Server × Ledger) :=
  let T := linkTransport ⟨0, true⟩
  System.exec (fun s t => (s.poll T t).map Poll.server) (fun _ _ => True) (ledger T)
    (udsServerInit (fun _ => 0) 4095, ⟨0, []⟩)
    [heldTick [0x27, 0x01] 1 0x12345678, heldTick [0x27, 0x02, 0x48, 0x6E, 0x0C, 0x22] 1 0,
      heldTick [0x34, 0x00, 0x44, 0, 0, 0, 0, 0, 0, 1, 0] 1 0, heldTick [0x36, 0x01, 1, 2, 3] 1 0,
      heldTick [0x36, 0x01, 1, 2, 3] 1 0, heldTick [0x36, 0x02, 4] 1 0]

theorem blocks_booked_twoBlocks :
    ∃ s l, twoBlocks = some (s, l) ∧ l.blocks = [⟨1, 3⟩, ⟨2, 1⟩] ∧
      s.g.xferBsc.toNat = (l.blocks.length + 1) % 256 ∧
      s.g.xferReceived.toNat = l.total % 2 ^ 32 := by
  have hs : twoBlocks.map (fun q => (q.1.g.xferActive, q.2.blocks)) =
      some (true, [⟨1, 3⟩, ⟨2, 1⟩]) := by decide +kernel
  obtain ⟨⟨s, l⟩, h, hs⟩ := Option.map_eq_some_iff.1 hs
  rw [Prod.mk.injEq] at hs
  have hb := blocks_booked (System.Run.of_exec h).of_guard_withAux hs.1
  exact ⟨s, l, h, hs.2, hb.1, hb.2.1⟩

/-! ### Repeated blocks -/

section

variable {L : Type} {T : Transport L} {s s' : Server} {t : Tick L} {p : Poll L UInt32}
  {bsc : UInt8} {data : List UInt8} {functional : Bool} {ts : List (Tick L)}

/-- A block that is answered positively is a new one, or the last one once more. -/
theorem acknowledged_cases (hp : s.poll T t = some p)
    (hreq : t.request T = some (Sid.transferData :: bsc :: data, functional))
    (hack : p.hands (blockResp bsc) = true) :
    s.g.xferActive = true ∧ s.g.secLevel = udsSecLevelDownload ∧ 2 ≤ s.respCap ∧
      p.server.g.secLevel = s.g.secLevel ∧
      (bsc = s.g.xferBsc ∧ p.server.g.transfer =
          (true, s.g.xferSize, s.g.xferReceived + UInt32.ofNat data.length, s.g.xferBsc + 1) ∨
        bsc ≠ s.g.xferBsc ∧ 0 < s.g.xferReceived ∧ bsc = s.g.xferBsc - 1 ∧
          p.server.g.transfer = s.g.transfer) := by
  cases polled_of_poll T hp with
  | quiet hnone => rw [hreq] at hnone; cases hnone
  | unknown hreq' hfind =>
    obtain ⟨rfl, rfl, rfl⟩ := request_unique T hreq hreq'
    exact absurd hfind (by decide)
  | @answered sid tl functional' v g hreq' hmeets heffect hlen hserver hsent =>
    obtain ⟨rfl, rfl, rfl⟩ := request_unique T hreq hreq'
    obtain ⟨dropped, buf, hserver⟩ := hserver
    obtain ⟨session, rfl⟩ := (Sends.hands_iff hsent (blockResp_head bsc)).1 hack
    have hcap : 2 ≤ s.respCap := (hlen _ _ rfl).2
    rw [hserver]
    generalize hv : Result.positive (blockResp bsc) session = v at heffect hsent
    cases heffect with
    | refused | badKey | lockout => cases hv
    | session hr | reset hr | noReset hr | dids hr | seed hr | zeroSeed hr | unlock hr | routine hr
    | present hr | download hr | exit hr => exact absurd (List.cons.inj hr).1 (by decide)
    | block hr hopen hlevel hmax hroom =>
      obtain ⟨hbsc, rfl⟩ := by simpa using hr
      rw [conclude_self s t.elapsedMs (by decide)]
      exact ⟨hopen, hlevel, hcap, rfl, .inl ⟨hbsc, congrArg (·, _, _, _) hopen⟩⟩
    | again hr hopen hlevel hne hpos hlast =>
      obtain ⟨rfl, rfl⟩ := by simpa using hr
      rw [conclude_self s t.elapsedMs (by decide)]
      exact ⟨hopen, hlevel, hcap, rfl, .inr ⟨hne, hpos, hlast, rfl⟩⟩

/-- The poll of a request to a service of the table does what is possible. -/
theorem poll_decides {sid : UInt8} {tl : List UInt8} {v : Result} {g : Statics}
    (hp : s.poll T t = some p) (hreq : t.request T = some (sid :: tl, functional))
    (hknown : udsFindService benchServices sid ≠ none)
    (he : Effect t.random (sid :: tl) s.session (s.takeUp t.elapsedMs).g v g) (hv : v.Decided)
    (hcap : v.room ≤ s.respCap) :
    (∃ dropped buf, p.server =
      { (s.takeUp t.elapsedMs).conclude sid v g with respDropped := dropped, respBuf := buf }) ∧
      Sends sid (Poll.suppressed sid (sid :: tl)) functional v p.sent := by
  cases polled_of_poll T hp with
  | quiet hnone => rw [hreq] at hnone; cases hnone
  | unknown hreq' hfind =>
    obtain ⟨rfl, rfl, rfl⟩ := request_unique T hreq hreq'
    exact absurd hfind hknown
  | @answered sid' tl' functional' v' g' hreq' hmeets heffect hlen hserver hsent =>
    obtain ⟨rfl, rfl, rfl⟩ := request_unique T hreq hreq'
    obtain ⟨rfl, rfl⟩ := Polled.decides hmeets he hv hcap
    exact ⟨hserver, hsent⟩

/-- The last block is acknowledged again, if the total is not zero. -/
theorem again_acknowledged (hp : s.poll T t = some p)
    (hreq : t.request T = some (Sid.transferData :: bsc :: data, functional))
    (hopen : s.g.xferActive = true) (hlevel : s.g.secLevel = udsSecLevelDownload)
    (hcap : 2 ≤ s.respCap) (hne : bsc ≠ s.g.xferBsc) (hpos : 0 < s.g.xferReceived)
    (hlast : bsc = s.g.xferBsc - 1) :
    p.hands (blockResp bsc) = true ∧ p.server.g.transfer = s.g.transfer := by
  have he : Effect t.random (Sid.transferData :: bsc :: data) s.session (s.takeUp t.elapsedMs).g
      (.positive (blockResp bsc) s.session) (s.takeUp t.elapsedMs).g :=
    .again rfl hopen hlevel hne hpos hlast
  obtain ⟨⟨dropped, buf, hserver⟩, hsent⟩ := poll_decides hp hreq (by decide) he trivial hcap
  refine ⟨(Sends.hands_iff hsent (blockResp_head bsc)).2 ⟨s.session, rfl⟩, ?_⟩
  rw [hserver, conclude_self s t.elapsedMs (by decide)]
  rfl

/-- A poll without a request in which the S3 timer does not expire. -/
def Still (T : Transport L) (s : Server) (t : Tick L) : Prop :=
  t.request T = none ∧ ¬s.s3TimeoutMs ≤ s.s3TimerMs + t.elapsedMs

theorem add_one_ne (b : UInt8) : b + 1 ≠ b := by
  intro h
  have hmod := congrArg UInt8.toNat h
  rw [UInt8.toNat_add, UInt8.toNat_one] at hmod
  omega

/-- Such polls leave the transfer and the unlock alone. -/
theorem still_run (hrun : ((udsSystem T).guard (Still T)).Run s ts s') :
    s'.g.transfer = s.g.transfer ∧ s'.g.secLevel = s.g.secLevel ∧ s'.respCap = s.respCap := by
  refine hrun.invariant (I := fun q => q.g.transfer = s.g.transfer ∧ q.g.secLevel = s.g.secLevel ∧
    q.respCap = s.respCap) ⟨rfl, rfl, rfl⟩ fun q t q' hinv hst => ?_
  obtain ⟨⟨hreq, hexp⟩, hst⟩ := hst
  obtain ⟨p, hp, rfl, hpolled⟩ := step_polled T hst
  cases hpolled with
  | quiet hreq' hserver =>
    rw [hserver]
    rcases ageS3_cases (q.ageLock t.elapsedMs) t.elapsedMs with ⟨hexp', -⟩ | ⟨-, hs3⟩
    · exact absurd hexp' hexp
    · rw [hs3]
      exact hinv
  | unknown hreq' => rw [hreq] at hreq'; cases hreq'
  | answered hreq' => rw [hreq] at hreq'; cases hreq'

/-- **A repeated block is acknowledged again exactly if the total is not zero.**  A TransferData
request has been answered positively, and comes again as the next request, with no relock between:
it is answered with the same response and leaves the transfer alone if and only if it was a
repetition already, or the total of the server, its own payload included, is not zero. -/
theorem retransmission_iff (hp : s.poll T t = some p)
    (hreq : t.request T = some (Sid.transferData :: bsc :: data, functional))
    (hack : p.hands (blockResp bsc) = true)
    (hstill : ((udsSystem T).guard (Still T)).Run p.server ts s') {t' : Tick L}
    {functional' : Bool}
    (hagain : t'.request T = some (Sid.transferData :: bsc :: data, functional')) :
    (∃ p', s'.poll T t' = some p' ∧ p'.hands (blockResp bsc) = true ∧
        p'.server.g.transfer = s'.g.transfer) ↔
      bsc ≠ s.g.xferBsc ∨ s.g.xferReceived + UInt32.ofNat data.length ≠ 0 := by
  obtain ⟨htransfer, hlevel', hcap'⟩ := still_run hstill
  have hpolled := polled_of_poll T hp
  obtain ⟨hopen, hlevel, hcap, hsame, hcase⟩ := acknowledged_cases hp hreq hack
  rw [hsame, hlevel] at hlevel'
  rw [hpolled.respCap] at hcap'
  rw [← hcap'] at hcap
  constructor
  · rintro ⟨p', hp', hack', -⟩
    rcases hcase with ⟨rfl, hg⟩ | ⟨hne, -⟩
    · -- the counter has moved on, so that the answer to the repetition needs a total
      obtain ⟨-, -, hreceived, hbsc⟩ := by simpa [Statics.transfer] using htransfer.trans hg
      obtain ⟨-, -, -, -, ⟨hnew, -⟩ | ⟨-, hpos, -⟩⟩ := acknowledged_cases hp' hagain hack'
      · exact absurd (hnew.trans hbsc).symm (add_one_ne _)
      · rw [hreceived] at hpos
        exact .inr fun h0 => absurd hpos (by rw [h0]; decide)
    · exact .inl hne
  · intro h
    obtain ⟨p', hp', -⟩ := poll_cases T s' t'
    refine ⟨p', hp', ?_⟩
    rcases hcase with ⟨rfl, hg⟩ | ⟨hne, hpos, hlast, hg⟩
    · obtain ⟨hopen', -, hreceived, hbsc⟩ := by simpa [Statics.transfer] using htransfer.trans hg
      refine again_acknowledged hp' hagain hopen' hlevel' hcap ?_ ?_ ?_
      · rw [hbsc]
        exact (add_one_ne _).symm
      · rw [hreceived]
        exact UInt32.pos_iff_ne_zero.2 (h.resolve_left (not_not.2 rfl))
      · rw [hbsc, UInt8.add_sub_cancel]
    · obtain ⟨hopen', -, hreceived, hbsc⟩ := by simpa [Statics.transfer] using htransfer.trans hg
      exact again_acknowledged hp' hagain (hopen'.trans hopen) hlevel' hcap (by rwa [hbsc])
        (by rwa [hreceived]) (by rwa [hbsc])

end

/-- The server is unlocked, and a download of 256 bytes is open. -/
def freshDownload : Option Server :=
  System.runs (fun s t => (s.poll (linkTransport ⟨0, true⟩) t).map Poll.server)
    (udsServerInit (fun _ => 0) 4095)
    [heldTick [0x27, 0x01] 1 0x12345678, heldTick [0x27, 0x02, 0x48, 0x6E, 0x0C, 0x22] 1 0,
      heldTick [0x34, 0x00, 0x44, 0, 0, 0, 0, 0, 0, 1, 0] 1 0]

/-- What a request to this server is answered with, twice. -/
def answeredTwice (req : List UInt8) : Option (List (List UInt8) × List (List UInt8)) := do
  let p ← (← freshDownload).poll (linkTransport ⟨0, true⟩) (heldTick req 1 0)
  let p' ← p.server.poll (linkTransport ⟨0, true⟩) (heldTick req 1 0)
  some (p.sent.map Prod.fst, p'.sent.map Prod.fst)

/-- A block of three bytes may be repeated. -/
theorem retransmission_iff_threeBytes :
    ∃ s p p', freshDownload = some s ∧
      s.poll (linkTransport ⟨0, true⟩) (heldTick [0x36, 0x01, 1, 2, 3] 1 0) = some p ∧
      p.server.poll (linkTransport ⟨0, true⟩) (heldTick [0x36, 0x01, 1, 2, 3] 1 0) = some p' ∧
      p'.hands (blockResp 0x01) = true ∧ p'.server.g.transfer = p.server.g.transfer := by
  have hback : (freshDownload.bind fun s =>
      (s.poll (linkTransport ⟨0, true⟩) (heldTick [0x36, 0x01, 1, 2, 3] 1 0)).map fun p =>
        (p.hands (blockResp 0x01), s.g.xferReceived)) = some (true, 0) := by decide +kernel
  obtain ⟨s, hs, hback⟩ := Option.bind_eq_some_iff.1 hback
  obtain ⟨p, hp, hback⟩ := Option.map_eq_some_iff.1 hback
  rw [Prod.mk.injEq] at hback
  have hreq : (heldTick [0x36, 0x01, 1, 2, 3] 1 0).request (linkTransport ⟨0, true⟩) =
      some (Sid.transferData :: 0x01 :: [1, 2, 3], false) := by decide +kernel
  obtain ⟨p', hp', hack, hsame⟩ := (retransmission_iff hp hreq hback.1 .nil hreq).2
    (.inr (by rw [hback.2]; decide))
  exact ⟨s, p, p', hs, hp, hp', hack, hsame⟩

/-- An empty first block may not: it is acknowledged, and its repetition is answered with
wrongBlockSequenceCounter. -/
theorem emptyBlock_notRepeated :
    ¬ ∀ (ts : List (Tick IsoTp.Link)) (s : Server) (t : Tick IsoTp.Link)
      (p : Poll IsoTp.Link UInt32) (bsc : UInt8) (data : List UInt8) (functional : Bool),
      (udsSystem (linkTransport ⟨0, true⟩)).Run (udsServerInit (fun _ => 0) 4095) ts s →
        s.poll (linkTransport ⟨0, true⟩) t = some p →
        t.request (linkTransport ⟨0, true⟩) =
          some (Sid.transferData :: bsc :: data, functional) →
        p.hands (blockResp bsc) = true →
          ∃ p', p.server.poll (linkTransport ⟨0, true⟩) t = some p' ∧
            p'.hands (blockResp bsc) = true ∧ p'.server.g.transfer = p.server.g.transfer := by
  intro hall
  have hanswers : answeredTwice [0x36, 0x01] = some ([[0x76, 0x01]], [[0x7F, 0x36, 0x73]]) := by
    decide +kernel
  unfold answeredTwice at hanswers
  simp only [Option.bind_eq_bind, Option.bind_eq_some_iff, Option.some.injEq, Prod.mk.injEq]
    at hanswers
  obtain ⟨s, hs, p, hp, p', hp', hsent, hsent'⟩ := hanswers
  have hack (q : Poll IsoTp.Link UInt32) : q.hands (blockResp 0x01) = true ↔
      blockResp 0x01 ∈ q.sent.map Prod.fst := by
    rw [Poll.hands_iff, List.mem_map]
  obtain ⟨q, hq, hback, -⟩ := hall _ s _ p 0x01 [] false (System.Run.of_runs hs) hp
    (by decide +kernel) ((hack p).2 (by rw [hsent]; decide))
  obtain rfl := Option.some.inj (hq.symm.trans hp')
  rw [hack, hsent'] at hback
  exact absurd hback (by decide)

end Uds

end Espcan32

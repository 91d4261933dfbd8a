import Espcan32.Uds.Transfer

/-!
# The declared size

TransferData compares the 32-bit total, the block included, with the size that RequestDownload
has declared.  A block brings up to 1024 bytes, so that near the top of the range the sum wraps
before it is compared.

* `within_of_run` : a transfer keeps to its size, if no sum up to it can wrap.
* `Filled` : a transfer that blocks of zeros fill, byte for byte.
* `ceiling_iff` : **the declared size is a ceiling exactly below 2^32 - 1024**.
-/

namespace Espcan32

namespace Uds

open IsoTp (isotpMaxMsg)

/-! ### Sizes that are kept to -/

/-- The blocks of the ledger do not exceed its size. -/
structure Within (g : Statics) (l : Ledger) : Prop extends Booked g l where
  total : l.size + 1024 < 2 ^ 32 → l.total ≤ l.size

section

variable {L : Type} {T : Transport L} {s : Server} {t : Tick L} {l : Ledger}

/-- A poll keeps to the size. -/
theorem Within.step {g' : Statics} (h : s.g.xferActive = true → Within s.g l)
    (hst : TransferStep T s t g') : g'.xferActive = true → Within g' (ledger T s t l) := by
  intro hopen
  refine ⟨Booked.step (fun h' => (h h').toBooked) hst hopen, ?_⟩
  cases hst with
  | opens hopens => rw [ledger_opens hopens]; exact fun _ => Nat.zero_le _
  | @block len hopens hblock hactive hlen hroom =>
    have hl := h hactive
    rw [ledger_block hopens hblock, Ledger.total_snoc]
    intro hsize
    -- the total before the block is within the size, so that the sum does not wrap
    have htotal := hl.total hsize
    have hmax : len + 2 ≤ 1026 := hlen
    rw [UInt32.le_iff_toNat_le, hl.received, ← UInt32.ofNat_add, UInt32.toNat_ofNat',
      Nat.mod_eq_of_lt (by dsimp only at hsize; omega), hl.size] at hroom
    exact hroom
  | keeps hopens hblock hg =>
    rw [ledger_still hopens hblock]
    have hactive : g'.xferActive = s.g.xferActive := congrArg Prod.fst hg
    exact (h (hactive ▸ hopen)).total
  | closes hopens hblock hg => rw [hg] at hopen; cases hopen

theorem within_of_run {respBuf : Mem UInt8} {respCap : ℕ} {ts : List (Tick L)}
    (hrun : ((udsSystem T).withAux (ledger T)).Run (udsServerInit respBuf respCap, ⟨0, []⟩) ts
      (s, l)) : s.g.xferActive = true → Within s.g l := by
  refine hrun.invariant (I := fun q => q.1.g.xferActive = true → Within q.1.g q.2)
    (fun h => by cases h) ?_
  rintro ⟨s, l⟩ t ⟨s', l'⟩ hinv ⟨hst, haux⟩
  obtain ⟨p, hp, hs', hpolled⟩ := step_polled T hst
  dsimp only at haux hs' ⊢
  rw [haux, hs']
  exact Within.step hinv (hpolled.transfer hp)

end

/-! ### A transfer that is filled -/

/-- The link of the host tests, whose frames the bus takes. -/
abbrev testTransport : Transport IsoTp.Link := linkTransport ⟨0, true⟩

/-- The server with the ledger, over that link. -/
abbrev testLedger : System (Server × Ledger) (Tick IsoTp.Link) :=
  (udsSystem testTransport).withAux (ledger testTransport)

/-- The server at the start, with an empty ledger. -/
abbrev testStart : Server × Ledger := (udsServerInit (fun _ => 0) 4095, ⟨0, []⟩)

/-- A request that fits the buffer of the link is found by a poll. -/
theorem request_heldTick {env : IsoTp.Env} {req : List UInt8} (hpos : req ≠ [])
    (hlen : req.length ≤ isotpMaxMsg) (elapsedMs random : UInt32) :
    (heldTick req elapsedMs random).request (linkTransport env) = some (req, false) := by
  have hrec : (linkTransport env).receive (heldTick req elapsedMs random).link =
      ((heldTick req elapsedMs random).link.isotpReceive isotpMaxMsg) := rfl
  have hout : ((heldTick req elapsedMs random).link.isotpReceive isotpMaxMsg).2 =
      ⟨.ok, req, false⟩ := by
    have hcap : ¬isotpMaxMsg < (heldTick req elapsedMs random).link.rx.len := Nat.not_lt.2 hlen
    have hread : (heldTick req elapsedMs random).link.rx.buf.read 0
        (heldTick req elapsedMs random).link.rx.len = req := Mem.read_copy _ 0 req
    rw [IsoTp.Link.isotpReceive, if_neg (by simp [heldTick]), if_neg hcap, hread]
    rfl
  rw [Tick.request, hrec, hout]
  exact if_neg (by simpa using hpos)

/-- A transfer of `size` bytes is open, and `n` bytes have come. -/
structure Filled (size n : ℕ) (s : Server) (l : Ledger) : Prop where
  booked : Booked s.g l
  active : s.g.xferActive = true
  level : s.g.secLevel = udsSecLevelDownload
  cap : 2 ≤ s.respCap
  declared : l.size = size
  total : l.total = n

/-- A block is taken if the sum, as far as 32 bits reach, is within the size. -/
theorem Filled.block {size n len : ℕ} {s : Server} {l : Ledger} (h : Filled size n s l)
    (hlen : len ≤ 1024) (hroom : (n + len) % 2 ^ 32 ≤ size) :
    ∃ t s' l', testLedger.step (s, l) t (s', l') ∧ Filled size (n + len) s' l' := by
  have hreq : (heldTick (Sid.transferData :: s.g.xferBsc :: List.replicate len 0) 1 0).request
      testTransport = some (Sid.transferData :: s.g.xferBsc :: List.replicate len 0, false) :=
    request_heldTick (by simp) (by simp [isotpMaxMsg]; omega) 1 0
  generalize heldTick (Sid.transferData :: s.g.xferBsc :: List.replicate len 0) 1 0 = t at hreq
  obtain ⟨p, hp, hpolled⟩ := poll_cases testTransport s t
  have hsum : s.g.xferReceived + UInt32.ofNat (List.replicate len (0 : UInt8)).length ≤
      s.g.xferSize := by
    rw [UInt32.le_iff_toNat_le, h.booked.received, List.length_replicate, ← UInt32.ofNat_add,
      UInt32.toNat_ofNat', h.booked.size, h.total, h.declared]
    exact hroom
  have he : Effect t.random (Sid.transferData :: s.g.xferBsc :: List.replicate len 0) s.session
      (s.takeUp t.elapsedMs).g (.positive (blockResp s.g.xferBsc) s.session)
      { (s.takeUp t.elapsedMs).g with
        xferReceived := s.g.xferReceived + UInt32.ofNat (List.replicate len (0 : UInt8)).length
        xferBsc := s.g.xferBsc + 1 } :=
    .block rfl h.active h.level (by simp [udsMaxBlockLen]; omega) hsum
  obtain ⟨⟨dropped, buf, hserver⟩, hsent⟩ := poll_decides hp hreq (by decide) he trivial h.cap
  have hopens := opens_other (s := s) hreq (by decide)
  have hblock := newBlock_answered hp hreq hsent
  rw [conclude_self s t.elapsedMs (by decide)] at hserver
  refine ⟨t, p.server, ledger testTransport s t l, ⟨?_, rfl⟩, ?_⟩
  · show (s.poll testTransport t).map Poll.server = some p.server
    rw [hp, Option.map_some]
  · have hactive : p.server.g.xferActive = true := by rw [hserver]; exact h.active
    refine ⟨Booked.step (fun _ => h.booked) (hpolled.transfer hp) hactive, hactive, ?_, ?_,
      ?_, ?_⟩
    · rw [hserver]; exact h.level
    · rw [hserver]; exact h.cap
    · rw [ledger_block hopens hblock]; exact h.declared
    · rw [ledger_block hopens hblock, Ledger.total_snoc, h.total, List.length_replicate]

/-- Four bytes are read as the word that they are written for. -/
theorem memorySize_be32 (v : UInt32) (b0 b1 b2 b3 b4 b5 b6 : UInt8) :
    memorySize (b0 :: b1 :: b2 :: b3 :: b4 :: b5 :: b6 :: be32 v) 4 7 0 = some v := by
  have hbytes : memorySize (b0 :: b1 :: b2 :: b3 :: b4 :: b5 :: b6 :: be32 v) 4 7 0 =
      some (((((0 : UInt32) <<< 8 ||| (v >>> 24).toUInt8.toUInt32) <<< 8 |||
        (v >>> 16).toUInt8.toUInt32) <<< 8 ||| (v >>> 8).toUInt8.toUInt32) <<< 8 |||
          (v &&& 0xFF).toUInt8.toUInt32) := rfl
  rw [hbytes, Option.some.injEq]
  apply UInt32.toNat_inj.1
  have hv := v.toNat_lt
  have hlow : (v &&& 0xFF).toNat = v.toNat % 256 := by rw [UInt32.toNat_and]; exact and_low_byte _
  simp only [toNat_shiftIn, UInt32.toNat_toUInt8, UInt32.toNat_shiftRight, hlow, UInt32.reduceToNat,
    Nat.shiftRight_eq_div_pow, Nat.reduceMod, Nat.reducePow]
  omega

/-- The server is unlocked, and no transfer is open. -/
def unlockedServer : Option Server :=
  System.runs (fun s t => (s.poll testTransport t).map Poll.server)
    (udsServerInit (fun _ => 0) 4095)
    [heldTick [0x27, 0x01] 1 0x12345678, heldTick [0x27, 0x02, 0x48, 0x6E, 0x0C, 0x22] 1 0]

/-- A RequestDownload opens a transfer of any size. -/
theorem filled_zero {size : ℕ} (hpos : 0 < size) (hsize : size < 2 ^ 32) :
    ∃ ts s l, testLedger.Run testStart ts (s, l) ∧ Filled size 0 s l := by
  have hstate : unlockedServer.map (fun s => (s.g.xferActive, s.g.secLevel, s.respCap)) =
      some (false, 1, 4095) := by decide +kernel
  obtain ⟨s, hs, hstate⟩ := Option.map_eq_some_iff.1 hstate
  rw [Prod.mk.injEq, Prod.mk.injEq] at hstate
  obtain ⟨hclosed, hlevel, hcap⟩ := hstate
  obtain ⟨l, hrun⟩ := System.Run.withAux (ledger testTransport) ⟨0, []⟩ (System.Run.of_runs hs)
  have hreq : (heldTick (Sid.reqDownload :: 0 :: 0x44 :: 0 :: 0 :: 0 :: 0 ::
      be32 (UInt32.ofNat size)) 1 0).request testTransport =
        some (Sid.reqDownload :: 0 :: 0x44 :: 0 :: 0 :: 0 :: 0 :: be32 (UInt32.ofNat size),
          false) :=
    request_heldTick (by simp) (by simp [be32, isotpMaxMsg]) 1 0
  generalize heldTick (Sid.reqDownload :: 0 :: 0x44 :: 0 :: 0 :: 0 :: 0 ::
    be32 (UInt32.ofNat size)) 1 0 = t at hreq
  have hv : (UInt32.ofNat size).toNat = size := by
    rw [UInt32.toNat_ofNat', Nat.mod_eq_of_lt hsize]
  have hmem := memorySize_be32 (UInt32.ofNat size) Sid.reqDownload 0 0x44 0 0 0 0
  have hne : UInt32.ofNat size ≠ 0 := fun h0 => by rw [h0] at hv; simp at hv; omega
  obtain ⟨p, hp, hpolled⟩ := poll_cases testTransport s t
  have he : Effect t.random (Sid.reqDownload :: 0 :: 0x44 :: 0 :: 0 :: 0 :: 0 ::
      be32 (UInt32.ofNat size)) s.session (s.takeUp t.elapsedMs).g
      (.positive downloadResp s.session)
      { (s.takeUp t.elapsedMs).g with
        xferActive := true, xferSize := UInt32.ofNat size, xferReceived := 0, xferBsc := 1 } :=
    .download rfl (by simp [be32]) hlevel hclosed rfl rfl (by decide) (by simp [be32]) hmem hne
  obtain ⟨⟨dropped, buf, hserver⟩, hsent⟩ := poll_decides hp hreq (by decide) he trivial
    (hcap ▸ (by decide : downloadResp.length ≤ 4095))
  have hopens := opens_answered hp hreq hsent
  rw [declaredSize_eq (by decide) hmem, hv] at hopens
  rw [conclude_self s t.elapsedMs (by decide)] at hserver
  refine ⟨_, p.server, ledger testTransport s t l, hrun.snoc ⟨?_, rfl⟩, ?_⟩
  · show (s.poll testTransport t).map Poll.server = some p.server
    rw [hp, Option.map_some]
  · have hactive : p.server.g.xferActive = true := by rw [hserver]; rfl
    refine ⟨Booked.step (fun h => ?_) (hpolled.transfer hp) hactive, hactive, ?_, ?_, ?_, ?_⟩
    · rw [hclosed] at h; cases h
    · rw [hserver]; exact hlevel
    · rw [hserver]; exact (show 2 ≤ s.respCap by rw [hcap]; decide)
    · rw [ledger_opens hopens]
    · rw [ledger_opens hopens]; rfl

/-- Blocks of 1024 bytes fill it. -/
theorem filled_blocks {size : ℕ} (hpos : 0 < size) (hsize : size < 2 ^ 32) (k : ℕ)
    (hk : 1024 * k ≤ size) :
    ∃ ts s l, testLedger.Run testStart ts (s, l) ∧ Filled size (1024 * k) s l := by
  induction k with
  | zero => exact filled_zero hpos hsize
  | succ k ih =>
    obtain ⟨ts, s, l, hrun, h⟩ := ih (by omega)
    obtain ⟨t, s', l', hst, h'⟩ := h.block (le_refl 1024) (by omega)
    exact ⟨_, s', l', hrun.snoc hst, h'⟩

/-- The transfer is full, and takes another block if the sum wraps. -/
theorem overfilled {size : ℕ} (hpos : 0 < size) (hsize : size < 2 ^ 32)
    (hwrap : 2 ^ 32 ≤ size + 1024) :
    ∃ ts s l, testLedger.Run testStart ts (s, l) ∧ s.g.xferActive = true ∧ l.size = size ∧
      size < l.total := by
  obtain ⟨ts, s, l, hrun, h⟩ := filled_blocks hpos hsize (size / 1024) (Nat.mul_div_le _ _)
  obtain ⟨t, s', l', hst, h'⟩ := h.block (show size % 1024 ≤ 1024 by omega) (by omega)
  rw [Nat.div_add_mod] at h'
  obtain ⟨t', s'', l'', hst', h''⟩ := h'.block (le_refl 1024) (by omega)
  exact ⟨_, s'', l'', (hrun.snoc hst).snoc hst', h''.active, h''.declared,
    by rw [h''.total]; omega⟩

/-! ### The ceiling -/

/-- The blocks of an open transfer of `size` bytes never exceed it, over any transport. -/
def Ceiling (size : ℕ) : Prop :=
  ∀ (L : Type) (T : Transport L) (respBuf : Mem UInt8) (respCap : ℕ) (ts : List (Tick L))
    (s : Server) (l : Ledger),
    ((udsSystem T).withAux (ledger T)).Run (udsServerInit respBuf respCap, ⟨0, []⟩) ts (s, l) →
      s.g.xferActive = true → l.size = size → l.total ≤ size

/-- **The declared size is a ceiling exactly below 2^32 - 1024.**  Above, the transfer takes a block
more when it is full: the sum has wrapped by the time that it is compared. -/
theorem ceiling_iff {size : ℕ} (hpos : 0 < size) (hsize : size < 2 ^ 32) :
    Ceiling size ↔ size < 2 ^ 32 - 1024 := by
  constructor
  · intro hceil
    by_contra hwrap
    obtain ⟨ts, s, l, hrun, hopen, hl, hlt⟩ := overfilled hpos hsize (by omega)
    exact Nat.not_le.2 hlt (hceil _ _ _ _ ts s l hrun hopen hl)
  · rintro hlt L T respBuf respCap ts s l hrun hopen rfl
    exact (within_of_run hrun hopen).total (by omega)

theorem ceiling_iff_page : Ceiling 4096 := (ceiling_iff (by decide) (by decide)).2 (by decide)

/-- At the top of the range it is none. -/
theorem ceiling_top : ¬∀ size, 0 < size → size < 2 ^ 32 → Ceiling size := by
  intro hall
  obtain ⟨ts, s, l, hrun, hopen, hl, hlt⟩ :=
    overfilled (show 0 < 0xFFFFFFFF by decide) (by decide) (by decide)
  exact Nat.not_le.2 hlt (hall _ (by decide) (by decide) _ _ _ _ ts s l hrun hopen hl)

end Uds

end Espcan32

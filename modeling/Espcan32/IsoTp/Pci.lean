import Espcan32.IsoTp.Basic

/-!
# The frames of a transfer

The first bytes of a frame (N_PCI) as the receiver decodes them, and the three kinds of frame a
send produces: `IsSf`, `IsFf` and `IsCf` say of a frame that decoding it gives the length, the
sequence number and the payload.  `IsCfs` numbers a whole list of ConsecutiveFrames.

* `isSf`, `isFf`, `isCf` : the frames `isotp.c` builds are of these kinds.
* `IsCfs.concat` : a list of ConsecutiveFrames grows at its end.
-/

namespace Espcan32

namespace IsoTp

theorem pciByte_toNat {t : ℕ} (n : ℕ) (ht : t < 16) : (pciByte t n).toNat = t * 16 + n % 16 := by
  rw [pciByte, and_low_nibble, shiftLeft_or_eq_add (k := 4) (by omega), UInt8.toNat_ofNat']
  omega

theorem pciType_pciByte {t : ℕ} (n : ℕ) (ht : t < 16) : pciType (pciByte t n) = t := by
  rw [pciType, toNat_high_nibble, pciByte_toNat n ht]; omega

theorem pciLow_pciByte {t : ℕ} (n : ℕ) (ht : t < 16) : pciLow (pciByte t n) = n % 16 := by
  rw [pciLow, toNat_low_nibble, pciByte_toNat n ht]; omega

namespace Link

variable (l : Link)

@[simp] theorem txFrame_id (buf : List UInt8) : (l.txFrame buf).id = l.txId := rfl

/-- The bytes of a frame are the significant ones, then padding. -/
theorem txFrame_data (buf : List UInt8) :
    ∃ k, (l.txFrame buf).data = buf ++ List.replicate k l.cfg.padByte ∧
      buf.length + k ≤ max buf.length isotpCanDl := by
  unfold txFrame
  dsimp only
  split_ifs with h
  · exact ⟨isotpCanDl - buf.length, rfl, by omega⟩
  · exact ⟨0, by simp, by omega⟩

@[simp] theorem txFrame_head (b0 : UInt8) (buf : List UInt8) :
    (l.txFrame (b0 :: buf)).data.getD 0 0 = b0 := by
  obtain ⟨k, hk, -⟩ := l.txFrame_data (b0 :: buf)
  rw [hk]; rfl

/-- `f` is a SingleFrame of the link `l` with payload `p`. -/
def IsSf (f : CanFrame) (p : List UInt8) : Prop :=
  ∃ b0, f = l.txFrame (b0 :: p) ∧ pciType b0 = 0 ∧ pciLow b0 = p.length

/-- `f` is a FirstFrame of the link `l` that declares `n` bytes and carries `six`. -/
def IsFf (f : CanFrame) (n : ℕ) (six : List UInt8) : Prop :=
  six.length = ffFirstData ∧
    ∃ b0 b1, f = l.txFrame (b0 :: b1 :: six) ∧ pciType b0 = 1 ∧ ffDl f.data = n

/-- `f` is a ConsecutiveFrame of the link `l` with sequence number `sn` and payload `p`. -/
def IsCf (f : CanFrame) (sn : ℕ) (p : List UInt8) : Prop :=
  ∃ b0, f = l.txFrame (b0 :: p) ∧ pciType b0 = 2 ∧ pciLow b0 = sn

/-- `fs` are ConsecutiveFrames numbered `n`, `n + 1`, … modulo 16 with payloads `ps`. -/
def IsCfs : ℕ → List CanFrame → List (List UInt8) → Prop
  | _, [], [] => True
  | n, f :: fs, p :: ps => l.IsCf f (n % 16) p ∧ IsCfs (n + 1) fs ps
  | _, _, _ => False

variable {l}

theorem isSf {p : List UInt8} (hp : p.length ≤ sfMaxData) :
    l.IsSf (l.txFrame (pciByte 0 p.length :: p)) p := by
  simp only [sfMaxData] at hp
  refine ⟨_, rfl, pciType_pciByte _ (by omega), ?_⟩
  rw [pciLow_pciByte _ (by omega)]; omega

/-- The receiver reads back the length that a FirstFrame declares. -/
theorem ffDl_txFrame {n : ℕ} {six : List UInt8} (hn : n ≤ isotpMaxMsg) :
    ffDl (l.txFrame (pciByte 1 (n >>> 8) :: UInt8.ofNat (n &&& 0xFF) :: six)).data = n := by
  simp only [isotpMaxMsg] at hn
  obtain ⟨k, hk, -⟩ := l.txFrame_data (pciByte 1 (n >>> 8) :: UInt8.ofNat (n &&& 0xFF) :: six)
  simp only [ffDl, hk, List.cons_append, List.getD_cons_zero, List.getD_cons_succ]
  rw [pciLow_pciByte _ (by omega), shiftLeft_or_eq_add (UInt8.toNat_lt _), UInt8.toNat_ofNat',
    and_low_byte, Nat.shiftRight_eq_div_pow]
  omega

theorem isFf {n : ℕ} {six : List UInt8} (hn : n ≤ isotpMaxMsg) (h6 : six.length = ffFirstData) :
    l.IsFf (l.txFrame (pciByte 1 (n >>> 8) :: UInt8.ofNat (n &&& 0xFF) :: six)) n six :=
  ⟨h6, _, _, rfl, pciType_pciByte _ (by omega), ffDl_txFrame hn⟩

theorem isCf {sn : ℕ} {p : List UInt8} (hs : sn < 16) :
    l.IsCf (l.txFrame (pciByte 2 sn :: p)) sn p := by
  refine ⟨_, rfl, pciType_pciByte _ (by omega), ?_⟩
  rw [pciLow_pciByte _ (by omega)]; omega

theorem IsCfs.concat {fs : List CanFrame} {ps : List (List UInt8)} {f : CanFrame}
    {p : List UInt8} {n : ℕ} (h : l.IsCfs n fs ps) (hf : l.IsCf f ((n + ps.length) % 16) p) :
    l.IsCfs n (fs ++ [f]) (ps ++ [p]) := by
  induction fs generalizing n ps with
  | nil => cases ps with
    | nil => exact ⟨hf, trivial⟩
    | cons => exact h.elim
  | cons g fs ih => cases ps with
    | nil => exact h.elim
    | cons q ps =>
      refine ⟨h.1, ih h.2 ?_⟩
      rwa [List.length_cons, ← Nat.add_assoc, Nat.add_right_comm] at hf

end Link

end IsoTp

end Espcan32

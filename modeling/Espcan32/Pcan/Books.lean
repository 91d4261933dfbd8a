import Espcan32.Lib.System
import Espcan32.Pcan.RoundTrip

/-!
# The books of a batch

The encoders work out the size of a record before they write it, from the flags of a frame and from
whether the batch has a timestamp already; and what they write goes by its own way through
`pcan_ts_append()`.

* `Add` : the calls that add a record, with any arguments.
* `Batch.addAny_eq` : what is worked out is what is written.
* `Booked` : the batch after the records that it has taken since the last reset.
* `batch_books` : **every batch keeps its books**, whatever is called.
-/

namespace Espcan32

namespace Pcan

/-! ### The calls -/

/-- A call that adds a record. -/
inductive Add where
  | frame (f : Frame)
  | status (func num : UInt8) (payload : {bs : List UInt8 // bs.length ≤ 15}) (withTs : Bool)
      (ts16 : UInt16)
  | error (errMask : UInt8) (ts16 : UInt16)
  | calibTs (ts16 : UInt16)

/-- The call. -/
def Batch.addAny (b : Batch) : Add → Batch × Bool
  | .frame f => b.addFrame f
  | .status func num payload withTs ts16 => b.addStatus func num payload withTs ts16
  | .error errMask ts16 => b.addError errMask ts16
  | .calibTs ts16 => b.addCalibTs ts16

namespace Add

/-- The tick of a record that carries a timestamp. -/
def tick : Add → Option UInt16
  | .frame f => some f.ts16
  | .status _ _ _ withTs ts16 => if withTs then some ts16 else none
  | .error _ ts16 => some ts16
  | .calibTs _ => none

/-- The bytes of a record; `haveFirst` says whether the batch has a timestamp already. -/
def bytes (haveFirst : Bool) : Add → List UInt8
  | .frame f => f.record haveFirst
  | .status func num payload withTs ts16 => statusRecord haveFirst func num payload withTs ts16
  | .error errMask ts16 => statusRecord haveFirst recError errMask [] true ts16
  | .calibTs ts16 => statusRecord haveFirst recTs 0 (putLe16 ts16) false 0

theorem three_le_length (a : Add) (haveFirst : Bool) : 3 ≤ (a.bytes haveFirst).length := by
  cases a with
  | frame f =>
    have hid : 2 ≤ if f.ext then 4 else 2 := by split <;> omega
    have hts : 1 ≤ if haveFirst then 1 else 2 := by split <;> omega
    rw [bytes, f.length_record]
    omega
  | status | error | calibTs =>
    rw [bytes, length_statusRecord]
    omega

end Add

/-- The tracker after a record with this tick. -/
def TsBatch.note (t : TsBatch) : Option UInt16 → TsBatch
  | some ts16 => t.append ts16
  | none => t

/-- **What is worked out is what is written**: an encoder appends the bytes of its record if all of
them fit, and else leaves the batch alone. -/
theorem Batch.addAny_eq (b : Batch) (a : Add) :
    b.addAny a = if usbTxBufferSize < b.len + (a.bytes b.ts.haveFirst).length then (b, false)
      else (b.put (a.bytes b.ts.haveFirst) (b.ts.note a.tick), true) := by
  cases a with
  | frame f =>
    rw [Add.bytes, f.length_record]
    rfl
  | status func num payload withTs ts16 =>
    rw [Batch.addAny, b.addStatus_eq func num payload payload.2 withTs ts16]
    cases withTs <;> rfl
  | error errMask ts16 => exact b.addStatus_eq recError errMask [] (by simp) true ts16
  | calibTs ts16 => exact b.addStatus_eq recTs 0 (putLe16 ts16) (by simp) false 0

/-! ### The books -/

/-- The batch after the records `recs`. -/
structure Booked (b : Batch) (recs : List Add) : Prop where
  le : b.len ≤ usbTxBufferSize
  room : msgHeaderLen + 3 * recs.length ≤ b.len
  type : b.buf 0 = msgTxCan
  count : b.buf 1 = b.recCnt
  recCnt : b.recCnt.toNat = recs.length
  haveFirst : b.ts.haveFirst = recs.any (·.tick.isSome)

namespace Booked

variable {b : Batch} {recs : List Add}

theorem reset (b : Batch) : Booked b.reset [] where
  le := Nat.le_of_ble_eq_true rfl
  room := le_rfl
  type := rfl
  count := rfl
  recCnt := rfl
  haveFirst := rfl

/-- A record that fits. -/
theorem put (h : Booked b recs) {a : Add}
    (hfit : b.len + (a.bytes b.ts.haveFirst).length ≤ usbTxBufferSize) :
    Booked (b.put (a.bytes b.ts.haveFirst) (b.ts.note a.tick)) (recs ++ [a]) := by
  have hroom := h.room
  have hthree := a.three_le_length b.ts.haveFirst
  have h2 : msgHeaderLen = 2 := rfl
  have h64 : usbTxBufferSize = 64 := rfl
  exact {
    le := hfit
    room := by
      rw [List.length_append, List.length_singleton]
      show _ ≤ b.len + (a.bytes b.ts.haveFirst).length
      omega
    type := by
      have hbelow := Mem.copy_of_lt (m := b.buf) (a.bytes b.ts.haveFirst) (by omega : 0 < b.len)
      exact ((Mem.copy_of_lt [b.recCnt + 1] Nat.zero_lt_one).trans hbelow).trans h.type
    count := Mem.copy_singleton (b.buf.copy b.len (a.bytes b.ts.haveFirst)) 1 (b.recCnt + 1)
    recCnt := by
      -- twenty records fill the buffer, so that the counter does not wrap
      have hcnt := h.recCnt
      simp only [Batch.put, UInt8.toNat_add, UInt8.reduceToNat, List.length_append,
        List.length_singleton]
      omega
    haveFirst := by
      rw [List.any_append, ← h.haveFirst]
      cases ht : a.tick <;> simp [Batch.put, TsBatch.note, TsBatch.append, ht] }

end Booked

/-! ### Runs -/

/-- A call: a reset, or one that adds a record. -/
inductive BatchCall where
  | reset
  | add (a : Add)

/-- The batch after a call. -/
def Batch.after (b : Batch) : BatchCall → Batch
  | .reset => b.reset
  | .add a => (b.addAny a).1

/-- A batch, called again and again. -/
def batchSystem : System Batch BatchCall := .ofFun fun b c => some (b.after c)

/-- The records that have been accepted since the last reset. -/
def accepted (b : Batch) (c : BatchCall) (recs : List Add) : List Add :=
  match c with
  | .reset => []
  | .add a => if (b.addAny a).2 then recs ++ [a] else recs

theorem booked_of_run {b₀ b : Batch} {calls : List BatchCall} {recs : List Add}
    (hrun : (batchSystem.withAux accepted).Run (b₀.reset, []) calls (b, recs)) : Booked b recs := by
  refine hrun.invariant (I := fun q => Booked q.1 q.2) (.reset b₀) ?_
  rintro ⟨b, recs⟩ c ⟨b', recs'⟩ h ⟨hst, haux⟩
  dsimp only at h hst haux ⊢
  obtain rfl := (Option.some.inj hst).symm
  rw [haux]
  cases c with
  | reset => exact .reset b
  | add a =>
    rw [Batch.after, accepted, b.addAny_eq]
    by_cases hfull : usbTxBufferSize < b.len + (a.bytes b.ts.haveFirst).length
    · rw [if_pos hfull]
      exact h
    · rw [if_neg hfull]
      exact h.put (Nat.not_lt.1 hfull)

/-- **Every batch keeps its books**, whatever is called: its length is within the buffer, its header
has the type and counts the records accepted since the last reset, and the tracker knows whether
one of them was timestamped.  A further record is accepted exactly if all its bytes fit; they are
then written behind the others, and nothing else is but the count; a refused one leaves the batch
alone. -/
theorem batch_books {b₀ b : Batch} {calls : List BatchCall} {recs : List Add}
    (hrun : (batchSystem.withAux accepted).Run (b₀.reset, []) calls (b, recs)) :
    2 ≤ b.len ∧ b.len ≤ 64 ∧ b.buf 0 = 2 ∧ b.buf 1 = b.recCnt ∧ b.recCnt.toNat = recs.length ∧
      (b.ts.haveFirst = true ↔ ∃ a ∈ recs, a.tick.isSome) ∧
      ∀ a : Add,
        ((b.addAny a).2 = true ↔ b.len + (a.bytes b.ts.haveFirst).length ≤ 64) ∧
        ((b.addAny a).2 = true →
          (b.addAny a).1.len = b.len + (a.bytes b.ts.haveFirst).length ∧
            (b.addAny a).1.buf.read b.len (a.bytes b.ts.haveFirst).length = a.bytes b.ts.haveFirst ∧
            ∀ i, i ≠ 1 → i < b.len ∨ b.len + (a.bytes b.ts.haveFirst).length ≤ i →
              (b.addAny a).1.buf i = b.buf i) ∧
        ((b.addAny a).2 = false → (b.addAny a).1 = b) := by
  have h := booked_of_run hrun
  have hroom := h.room
  have h2 : msgHeaderLen = 2 := rfl
  have h64 : usbTxBufferSize = 64 := rfl
  refine ⟨by omega, h.le, h.type, h.count, h.recCnt, ?_, fun a => ?_⟩
  · rw [h.haveFirst, List.any_eq_true]
  · rw [b.addAny_eq]
    by_cases hfull : usbTxBufferSize < b.len + (a.bytes b.ts.haveFirst).length
    · rw [if_pos hfull]
      exact ⟨iff_of_false Bool.false_ne_true (by omega), fun hacc => absurd hacc Bool.false_ne_true,
        fun _ => rfl⟩
    · rw [if_neg hfull]
      refine ⟨iff_of_true rfl (by omega), fun _ => ⟨rfl, ?_, fun i hone hi => ?_⟩,
        fun hacc => absurd hacc.symm Bool.false_ne_true⟩
      · have hread : ((b.buf.copy b.len (a.bytes b.ts.haveFirst)).copy 1 [b.recCnt + 1]).read b.len
            (a.bytes b.ts.haveFirst).length = a.bytes b.ts.haveFirst :=
          (Mem.holds_copy b.buf b.len (a.bytes b.ts.haveFirst)).copy (.inr (by simp; omega))
        exact hread
      · have hcount : ((b.buf.copy b.len (a.bytes b.ts.haveFirst)).copy 1 [b.recCnt + 1]) i =
            (b.buf.copy b.len (a.bytes b.ts.haveFirst)) i := by
          rcases Nat.lt_or_gt_of_ne hone with hlt | hgt
          · exact Mem.copy_of_lt _ hlt
          · exact Mem.copy_of_ge (by rw [List.length_singleton]; omega)
        refine hcount.trans ?_
        rcases hi with hi | hi
        · exact Mem.copy_of_lt _ hi
        · exact Mem.copy_of_ge hi

/-- A batch with a status without a timestamp and a frame. -/
theorem batch_books_statusFrame :
    ∃ b recs, (batchSystem.withAux accepted).Run
        ((⟨fun _ => 0xEE, 0, 7, ⟨true, 9⟩⟩ : Batch).reset, [])
        [.add (.status recBusload 0 ⟨[0x10], by decide⟩ false 0),
          .add (.frame ⟨0x123, 0x1234, 2, 0, Vector.replicate 8 0x55, 0⟩)] (b, recs) ∧
      recs.length = 2 ∧ b.buf 1 = b.recCnt ∧ b.recCnt.toNat = recs.length := by
  have hrun := System.Run.foldl Batch.after accepted
    ((⟨fun _ => 0xEE, 0, 7, ⟨true, 9⟩⟩ : Batch).reset, [])
    [.add (.status recBusload 0 ⟨[0x10], by decide⟩ false 0),
      .add (.frame ⟨0x123, 0x1234, 2, 0, Vector.replicate 8 0x55, 0⟩)]
  obtain ⟨-, -, -, hcount, hcnt, -⟩ := batch_books hrun
  exact ⟨_, _, hrun, rfl, hcount, hcnt⟩

end Pcan

end Espcan32

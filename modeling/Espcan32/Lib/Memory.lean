import Mathlib.Data.List.GetD
import Mathlib.Tactic.Common

/-!
# Arrays as memories

A fixed array of the code is modelled as a function from indices to cells.  `Mem.copy` is
`memcpy` into it and `Mem.read` reads a block out of it; both are total, so that a bound on the
index is a fact to prove about the code and not one the model assumes.
-/

namespace Espcan32

/-- The cells of an array, by index. -/
def Mem (α : Type*) := ℕ → α

namespace Mem

variable {α : Type*}

/-- `memcpy(&m[off], src, length src)`. -/
def copy (m : Mem α) (off : ℕ) (src : List α) : Mem α :=
  fun i => if off ≤ i then src.getD (i - off) (m i) else m i

/-- The block `m[off..off + n)`. -/
def read (m : Mem α) (off : ℕ) : ℕ → List α
  | 0 => []
  | n + 1 => m off :: read m (off + 1) n

@[simp] theorem length_read (m : Mem α) (off n : ℕ) : (m.read off n).length = n := by
  induction n generalizing off with
  | zero => rfl
  | succ n ih => simp [read, ih]

theorem getElem?_read (m : Mem α) (off n i : ℕ) :
    (m.read off n)[i]? = if i < n then some (m (off + i)) else none := by
  induction n generalizing off i with
  | zero => simp [read]
  | succ n ih =>
    cases i with
    | zero => simp [read]
    | succ i =>
      simp only [read, List.getElem?_cons_succ, ih, Nat.add_lt_add_iff_right]
      rw [Nat.add_assoc, Nat.add_comm 1 i]

theorem copy_of_lt {m : Mem α} {off i : ℕ} (src : List α) (h : i < off) :
    m.copy off src i = m i := by
  simp only [copy, Nat.not_le.2 h, ↓reduceIte]

theorem copy_of_ge {m : Mem α} {off i : ℕ} {src : List α} (h : off + src.length ≤ i) :
    m.copy off src i = m i := by
  simp only [copy]
  split
  · exact List.getD_eq_default _ _ (by omega)
  · rfl

theorem copy_add {m : Mem α} {off i : ℕ} {src : List α} (h : i < src.length) :
    m.copy off src (off + i) = src[i] := by
  simp [copy, h]

/-- A block behind another one: one copy does both. -/
theorem copy_append (m : Mem α) (off : ℕ) (src src' : List α) :
    (m.copy off src).copy (off + src.length) src' = m.copy off (src ++ src') := by
  funext i
  rcases Nat.lt_or_ge i off with hlt | hge
  · rw [copy_of_lt _ (by omega), copy_of_lt _ hlt, copy_of_lt _ hlt]
  · rcases Nat.lt_or_ge i (off + src.length) with hin | hout
    · rw [copy_of_lt _ hin]
      simp only [copy, if_pos hge]
      rw [List.getD_append _ _ _ _ (by omega)]
    · have hrest : i - (off + src.length) = i - off - src.length := by omega
      simp only [copy, if_pos hge, if_pos hout]
      rw [List.getD_append_right _ _ _ _ (by omega), List.getD_eq_default src _ (by omega), hrest]

@[simp] theorem copy_singleton (m : Mem α) (i : ℕ) (x : α) : m.copy i [x] i = x := by
  simp [copy]

/-- Blocks are equal when their cells are. -/
theorem read_congr {m m' : Mem α} {off off' n : ℕ} (h : ∀ i < n, m (off + i) = m' (off' + i)) :
    m.read off n = m'.read off' n := by
  apply List.ext_getElem?
  intro i
  simp only [getElem?_read]
  split
  · rw [h i ‹_›]
  · rfl

/-- What was copied in is read back. -/
@[simp] theorem read_copy (m : Mem α) (off : ℕ) (src : List α) :
    (m.copy off src).read off src.length = src := by
  apply List.ext_getElem?
  intro i
  rw [getElem?_read]
  split
  · rename_i h; rw [copy_add h, List.getElem?_eq_getElem h]
  · rename_i h; rw [List.getElem?_eq_none (by omega)]

/-- A copy leaves the blocks below it alone. -/
theorem read_copy_below {m : Mem α} {off off' n : ℕ} (src : List α) (h : off' + n ≤ off) :
    (m.copy off src).read off' n = m.read off' n :=
  read_congr fun _ _ => copy_of_lt src (by omega)

theorem read_add (m : Mem α) (off n k : ℕ) :
    m.read off (n + k) = m.read off n ++ m.read (off + n) k := by
  induction n generalizing off with
  | zero => simp [read]
  | succ n ih =>
    rw [Nat.add_right_comm, read, ih, read, List.cons_append, Nat.add_assoc, Nat.add_comm 1 n]

/-- Copying a block to the end of another one appends it. -/
theorem read_copy_append (m : Mem α) (n : ℕ) (src : List α) :
    (m.copy n src).read 0 (n + src.length) = m.read 0 n ++ src := by
  rw [read_add, read_copy_below src (by omega), Nat.zero_add, read_copy]

theorem drop_read (m : Mem α) (off n k : ℕ) :
    (m.read off n).drop k = m.read (off + k) (n - k) := by
  apply List.ext_getElem?
  intro i
  simp only [List.getElem?_drop, getElem?_read, Nat.add_assoc]
  congr 1
  simp only [eq_iff_iff]
  omega

theorem take_read (m : Mem α) (off n k : ℕ) :
    (m.read off n).take k = m.read off (min k n) := by
  apply List.ext_getElem?
  intro i
  simp only [List.getElem?_take, getElem?_read]
  split_ifs <;> first | rfl | omega

/-! ### What an array holds -/

/-- The block of `m` at `off` is `src`. -/
def Holds (m : Mem α) (off : ℕ) (src : List α) : Prop := m.read off src.length = src

@[simp] theorem holds_nil (m : Mem α) (off : ℕ) : m.Holds off [] := rfl

@[simp] theorem holds_cons {m : Mem α} {off : ℕ} {x : α} {xs : List α} :
    m.Holds off (x :: xs) ↔ m off = x ∧ m.Holds (off + 1) xs := by
  simp [Holds, read]

theorem holds_append {m : Mem α} {off : ℕ} {xs ys : List α} :
    m.Holds off (xs ++ ys) ↔ m.Holds off xs ∧ m.Holds (off + xs.length) ys := by
  rw [Holds, List.length_append, read_add]
  constructor
  · intro h
    exact List.append_inj h (length_read m off xs.length)
  · rintro ⟨hx, hy⟩
    rw [hx, hy]

theorem holds_copy (m : Mem α) (off : ℕ) (src : List α) : (m.copy off src).Holds off src :=
  read_copy m off src

/-- A copy elsewhere leaves what an array holds alone. -/
theorem Holds.copy {m : Mem α} {off off' : ℕ} {xs src : List α} (h : m.Holds off xs)
    (hd : off + xs.length ≤ off' ∨ off' + src.length ≤ off) : (m.copy off' src).Holds off xs := by
  rw [Holds, ← h]
  simp only [length_read]
  refine read_congr fun i hi => ?_
  rcases hd with hd | hd
  · exact copy_of_lt src (by omega)
  · exact copy_of_ge (by omega)

end Mem

end Espcan32

import Espcan32.Lib.Bits
import Espcan32.Lib.Memory

/-!
# Checked accesses

The accesses to arrays and the machine arithmetic of the code, each in a version that fails where
an index leaves the array or a result does not fit its type.  A function written with these
returns a value exactly when every access it makes is in bounds and no value it computes wraps.
-/

namespace Espcan32

variable {α : Type*}

/-- The block `xs[off..off + n)` of a list, if the list has it. -/
def blockWithin (xs : List α) (off n : ℕ) : Option (List α) :=
  if off + n ≤ xs.length then some ((xs.drop off).take n) else none

theorem blockWithin_of_le {xs : List α} {off n : ℕ} (h : off + n ≤ xs.length) :
    blockWithin xs off n = some ((xs.drop off).take n) := if_pos h

theorem getElem?_of_lt {xs : List α} {i : ℕ} (d : α) (h : i < xs.length) :
    xs[i]? = some (xs.getD i d) := by
  rw [List.getD_eq_getElem _ _ h, List.getElem?_eq_getElem h]

/-- The first `cap` cells of a memory, read. -/
def Mem.readWithin (m : Mem α) (cap off n : ℕ) : Option (List α) :=
  if off + n ≤ cap then some (m.read off n) else none

/-- The first `cap` cells of a memory, written. -/
def Mem.copyWithin (m : Mem α) (cap off : ℕ) (src : List α) : Option (Mem α) :=
  if off + src.length ≤ cap then some (m.copy off src) else none

theorem Mem.readWithin_of_le {m : Mem α} {cap off n : ℕ} (h : off + n ≤ cap) :
    m.readWithin cap off n = some (m.read off n) := if_pos h

theorem Mem.copyWithin_of_le {m : Mem α} {cap off : ℕ} {src : List α}
    (h : off + src.length ≤ cap) : m.copyWithin cap off src = some (m.copy off src) := if_pos h

theorem Mem.copyWithin_take {m : Mem α} {cap off n : ℕ} (src : List α) (h : off + n ≤ cap) :
    m.copyWithin cap off (src.take n) = some (m.copy off (src.take n)) :=
  copyWithin_of_le (Nat.le_trans (Nat.add_le_add_left (List.length_take_le n src) off) h)

/-- A difference that does not go below zero. -/
def exactSub (a b : ℕ) : Option ℕ := if b ≤ a then some (a - b) else none

/-- A number that fits `w` bits. -/
def exactIn (w n : ℕ) : Option ℕ := if n < 2 ^ w then some n else none

theorem exactSub_of_le {a b : ℕ} (h : b ≤ a) : exactSub a b = some (a - b) := if_pos h

theorem exactIn_of_lt {w n : ℕ} (h : n < 2 ^ w) : exactIn w n = some n := if_pos h

end Espcan32

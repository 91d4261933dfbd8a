import Espcan32.Lib.Memory

/-!
# Bounded buffers

A buffer of a fixed number of cells is shared with counting semaphores, and its indices run round.
An index is seen as what is left of a counter that never wraps; cells of counters that are less
than a round apart are different.

* `Semaphore` : a counting semaphore, which cannot hold more tokens than it was created for.
* `bump` : the next index.
* `mod_ne_of_lt`, `exists_mod_eq` : a round visits every cell once.
-/

namespace Espcan32

/-! ### Semaphores -/

/-- A counting semaphore for at most `max` tokens. -/
structure Semaphore (max : ℕ) where
  count : ℕ
  le : count ≤ max
  deriving DecidableEq, Repr

namespace Semaphore

variable {max : ℕ} (σ : Semaphore max)

/-- Without a token. -/
def empty : Semaphore max := ⟨0, Nat.zero_le _⟩

/-- With every token. -/
def full : Semaphore max := ⟨max, Nat.le_refl _⟩

/-- Take a token, if there is one. -/
def take : Option (Semaphore max) :=
  if 0 < σ.count then some ⟨σ.count - 1, Nat.le_trans (Nat.sub_le ..) σ.le⟩ else none

/-- Give a token; a full semaphore does not take it. -/
def give : Semaphore max := if h : σ.count < max then ⟨σ.count + 1, h⟩ else σ

variable {σ}

theorem ext_count {τ : Semaphore max} (h : σ.count = τ.count) : σ = τ := by
  cases σ; cases τ; cases h; rfl

theorem take_eq_none : σ.take = none ↔ σ.count = 0 := by
  unfold take
  split
  · exact iff_of_false (by simp) (by omega)
  · exact iff_of_true rfl (by omega)

theorem count_take {τ : Semaphore max} (h : σ.take = some τ) : σ.count = τ.count + 1 := by
  unfold take at h
  split at h
  · obtain rfl := Option.some.inj h
    dsimp only
    omega
  · cases h

theorem count_give (h : σ.count < max) : σ.give.count = σ.count + 1 := by
  rw [give, dif_pos h]

end Semaphore

/-! ### Indices that run round -/

/-- The next index: past the last cell comes the first one. -/
def bump (cap i : ℕ) : ℕ := if cap ≤ i + 1 then 0 else i + 1

theorem bump_mod {cap : ℕ} (hcap : 0 < cap) (n : ℕ) : bump cap (n % cap) = (n + 1) % cap := by
  have hlt := Nat.mod_lt n hcap
  rw [bump, ← Nat.mod_add_mod]
  split
  · rw [show n % cap + 1 = cap by omega, Nat.mod_self]
  · rw [Nat.mod_eq_of_lt (show n % cap + 1 < cap by omega)]

/-- Counters that are less than a round apart are at different cells. -/
theorem mod_ne_of_lt {cap i j : ℕ} (h : i < j) (hlt : j < i + cap) : i % cap ≠ j % cap := by
  intro heq
  have hd : cap ∣ j - i := Nat.dvd_of_mod_eq_zero (Nat.sub_mod_eq_zero_of_mod_eq heq.symm)
  have := Nat.le_of_dvd (by omega) hd
  omega

/-- A round from any counter visits every cell. -/
theorem exists_mod_eq {cap i : ℕ} (n : ℕ) (hi : i < cap) :
    ∃ j, n ≤ j ∧ j < n + cap ∧ j % cap = i := by
  have hlt := Nat.mod_lt n (Nat.zero_lt_of_lt hi)
  rcases Nat.le_total (n % cap) i with h | h
  · refine ⟨n + (i - n % cap), by omega, by omega, ?_⟩
    rw [← Nat.mod_add_mod, Nat.add_sub_cancel' h, Nat.mod_eq_of_lt hi]
  · rcases Nat.eq_or_lt_of_le h with rfl | h
    · exact ⟨n, Nat.le_refl _, by omega, rfl⟩
    · refine ⟨n + (cap - n % cap + i), by omega, by omega, ?_⟩
      rw [← Nat.mod_add_mod, ← Nat.add_assoc, Nat.add_sub_cancel' (Nat.le_of_lt hlt),
        Nat.add_mod_left, Nat.mod_eq_of_lt hi]

end Espcan32

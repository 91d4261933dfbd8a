import Mathlib.Data.List.Basic
import Mathlib.Tactic.Common

/-!
# Histories

A history is the list of what has happened so far; it grows at its end.  `Since Q P` is the
temporal operator *since* of the past: there was a `P`, and all that has happened behind it is a
`Q`.  Whether something is a `P` may depend on what was before it.

* `snoc_split` : a history that has grown splits at its last entry, or where it did before.
* `Since.now`, `Since.still` : the entries that begin *since*, and those that keep it.
-/

namespace Espcan32

namespace History

variable {α : Type*} {P P' : List α → α → Prop} {Q Q' : α → Prop} {h pre post : List α} {a r : α}

/-- A history that has grown splits at its last entry, or where it did before. -/
theorem snoc_split (heq : h ++ [r] = pre ++ a :: post) :
    pre = h ∧ a = r ∧ post = [] ∨ ∃ post', post = post' ++ [r] ∧ h = pre ++ a :: post' := by
  rcases List.eq_nil_or_concat post with rfl | ⟨post', b, rfl⟩
  · obtain ⟨rfl, hr⟩ := List.append_inj' heq rfl
    exact .inl ⟨rfl, (List.cons.inj hr).1.symm, rfl⟩
  · rw [List.concat_eq_append] at heq ⊢
    rw [← List.cons_append, ← List.append_assoc] at heq
    obtain ⟨rfl, hr⟩ := List.append_inj' heq rfl
    exact .inr ⟨post', by rw [(List.cons.inj hr).1], rfl⟩

/-- There was a `P`, and all behind it is a `Q`. -/
def Since (Q : α → Prop) (P : List α → α → Prop) (h : List α) : Prop :=
  ∃ pre a post, h = pre ++ a :: post ∧ P pre a ∧ ∀ m ∈ post, Q m

theorem Since.now (hP : P h r) : Since Q P (h ++ [r]) :=
  ⟨h, r, [], rfl, hP, fun _ hm => by cases hm⟩

theorem Since.still (hs : Since Q P h) (hQ : Q r) : Since Q P (h ++ [r]) := by
  obtain ⟨pre, a, post, rfl, hP, hpost⟩ := hs
  refine ⟨pre, a, post ++ [r], by simp, hP, fun m hm => ?_⟩
  rcases List.mem_append.1 hm with hm | hm
  · exact hpost m hm
  · rw [List.mem_singleton.1 hm]; exact hQ

end History

end Espcan32

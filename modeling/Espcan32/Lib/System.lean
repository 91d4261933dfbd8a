import Mathlib.Data.List.Induction
import Mathlib.Tactic.Common

/-!
# Labelled systems and their runs

A `System S L` moves between states of type `S` by steps labelled in `L`.  The label of a step
carries everything the step does not take from the state: the arguments of a call, the reading
of a clock, the choice of the party that moves.

## Main definitions

* `System.Run s ls s'` : performing the labels `ls` in order leads from `s` to `s'`.
* `System.guard G` : the system restricted to the steps that satisfy `G`.
* `System.withAux upd` : the system with an auxiliary variable, which every step updates by
  `upd` and which no step depends on.
* `System.ofFun f` : the system of an executable step function; `runs` runs it, and `exec` does so
  with a guard and an auxiliary variable.
* `System.Leads l P s` : performing `l` again and again can lead from `s` to a state with `P`.

## Main results

* `Run.invariant` : what holds at first and is kept by every step holds at the end of a run.
* `Run.length_add_le` : a run in which every step lowers a measure is no longer than the measure.
* `Run.withAux` : every run of a system is a run of the system with an auxiliary variable.
* `Leads.bind` : what is led to may be led on.
-/

namespace Espcan32

/-- A labelled system with states `S` and labels `L`. -/
structure System (S : Type*) (L : Type*) where
  /-- `step s l s'` : the system can move from `s` to `s'` with label `l`. -/
  step : S → L → S → Prop

namespace System

variable {S L X : Type*}

/-- Performing the labels `ls` in order leads from `s` to `s'`. -/
inductive Run (A : System S L) (s : S) : List L → S → Prop
  | nil : Run A s [] s
  | snoc {s' s'' : S} {ls : List L} {l : L} :
      Run A s ls s' → A.step s' l s'' → Run A s (ls ++ [l]) s''

/-- The steps of `A` that satisfy `G` (a condition on the state before the step and on its
label). -/
def guard (A : System S L) (G : S → L → Prop) : System S L where
  step s l s' := G s l ∧ A.step s l s'

/-- `A` with an auxiliary variable, updated by `upd` from the state before the step and the
label. -/
def withAux (A : System S L) (upd : S → L → X → X) : System (S × X) L where
  step s l s' := A.step s.1 l s'.1 ∧ s'.2 = upd s.1 l s.2

/-- The system of a step function; `none` means that the label is not possible. -/
def ofFun (f : S → L → Option S) : System S L where
  step s l s' := f s l = some s'

/-- Run a step function with a guard and an auxiliary variable on a list of labels. -/
def exec (f : S → L → Option S) (G : S → L → Prop) [∀ s l, Decidable (G s l)] (upd : S → L → X → X) :
    S × X → List L → Option (S × X)
  | p, [] => some p
  | p, l :: ls =>
    if G p.1 l then (f p.1 l).bind fun s' => exec f G upd (s', upd p.1 l p.2) ls else none

/-- Run a step function on a list of labels. -/
def runs (f : S → L → Option S) (s : S) : List L → Option S
  | [] => some s
  | l :: ls => (f s l).bind fun s' => runs f s' ls

variable {A : System S L} {s s' s'' : S} {l : L} {ls ls' : List L}

namespace Run

theorem single (h : A.step s l s') : A.Run s [l] s' := .snoc .nil h

theorem append (h : A.Run s ls s') (h' : A.Run s' ls' s'') : A.Run s (ls ++ ls') s'' := by
  induction h' with
  | nil => simpa using h
  | snoc _ hst ih => rw [← List.append_assoc]; exact .snoc ih hst

theorem head (hst : A.step s l s') (h : A.Run s' ls s'') : A.Run s (l :: ls) s'' :=
  (single hst).append h

/-- What holds at first and is kept by every step holds at the end of every run. -/
theorem invariant {I : S → Prop} (h : A.Run s ls s') (h₀ : I s)
    (hstep : ∀ s l s', I s → A.step s l s' → I s') : I s' := by
  induction h with
  | nil => exact h₀
  | snoc _ hst ih => exact hstep _ _ _ ih hst

/-- A run in which every step lowers a measure is no longer than the measure was. -/
theorem length_add_le {I : S → Prop} {m : S → ℕ} (h : A.Run s ls s') (h₀ : I s)
    (hstep : ∀ s l s', I s → A.step s l s' → I s' ∧ m s' < m s) : ls.length + m s' ≤ m s := by
  have hI : I s' ∧ ls.length + m s' ≤ m s := by
    induction h with
    | nil => exact ⟨h₀, Nat.le_of_eq (Nat.zero_add _)⟩
    | snoc _ hst ih =>
      obtain ⟨hI, hle⟩ := ih
      obtain ⟨hI', hlt⟩ := hstep _ _ _ hI hst
      refine ⟨hI', ?_⟩
      rw [List.length_append, List.length_singleton]
      omega
  exact hI.2

/-- Two systems with the same labels: a step relation that contains another has its runs. -/
theorem mono {B : System S L} (h : A.Run s ls s')
    (hAB : ∀ s l s', A.step s l s' → B.step s l s') : B.Run s ls s' := by
  induction h with
  | nil => exact .nil
  | snoc _ hst ih => exact .snoc ih (hAB _ _ _ hst)

theorem of_guard_withAux {G : S → L → Prop} {upd : S → L → X → X} {p q : S × X}
    (h : ((A.guard G).withAux upd).Run p ls q) : (A.withAux upd).Run p ls q :=
  h.mono fun _ _ _ hst => ⟨hst.1.2, hst.2⟩

/-- The auxiliary variable does not restrict the runs of a system. -/
theorem withAux (upd : S → L → X → X) (x : X) (h : A.Run s ls s') :
    ∃ x', (A.withAux upd).Run (s, x) ls (s', x') := by
  induction h with
  | nil => exact ⟨x, .nil⟩
  | @snoc s₁ _ _ l _ hst ih =>
    obtain ⟨x', h⟩ := ih
    exact ⟨upd s₁ l x', .snoc h ⟨hst, rfl⟩⟩

/-- A run with an auxiliary variable is a run of the system. -/
theorem of_withAux {upd : S → L → X → X} {p p' : S × X} (h : (A.withAux upd).Run p ls p') :
    A.Run p.1 ls p'.1 := by
  induction h with
  | nil => exact .nil
  | snoc _ hst ih => exact .snoc ih hst.1

end Run

theorem Run.of_exec {f : S → L → Option S} {G : S → L → Prop} [∀ s l, Decidable (G s l)]
    {upd : S → L → X → X} {p q : S × X} (h : exec f G upd p ls = some q) :
    (((ofFun f).guard G).withAux upd).Run p ls q := by
  induction ls generalizing p with
  | nil => cases h; exact .nil
  | cons l ls ih =>
    simp only [exec] at h
    split at h
    · rename_i hG
      obtain ⟨s', hst, h⟩ := Option.bind_eq_some_iff.1 h
      have hhead : (((ofFun f).guard G).withAux upd).step p l (s', upd p.1 l p.2) :=
        ⟨⟨hG, hst⟩, rfl⟩
      exact .head hhead (ih h)
    · cases h

theorem Run.of_runs {f : S → L → Option S} (h : runs f s ls = some s') : (ofFun f).Run s ls s' := by
  induction ls generalizing s with
  | nil => cases h; exact .nil
  | cons l ls ih =>
    obtain ⟨t, hst, h⟩ := Option.bind_eq_some_iff.1 h
    have hhead : (ofFun f).step s l t := hst
    exact .head hhead (ih h)

/-- A total step function runs on every list of labels. -/
theorem Run.foldl (g : S → L → S) (upd : S → L → X → X) (p : S × X) (ls : List L) :
    ((ofFun fun s l => some (g s l)).withAux upd).Run p ls
      (ls.foldl (fun p l => (g p.1 l, upd p.1 l p.2)) p) := by
  induction ls generalizing p with
  | nil => exact .nil
  | cons l ls ih =>
    have hhead : ((ofFun fun s l => some (g s l)).withAux upd).step p l
        (g p.1 l, upd p.1 l p.2) := ⟨rfl, rfl⟩
    exact .head hhead (ih _)

/-- A run of a total step function goes on with every label that satisfies the guard. -/
theorem Run.snocFun {g : S → L → S} {G : S → L → Prop} {upd : S → L → X → X} {p q : S × X}
    (h : (((ofFun fun s l => some (g s l)).guard G).withAux upd).Run p ls q) (l : L)
    (hG : G q.1 l) :
    (((ofFun fun s l => some (g s l)).guard G).withAux upd).Run p (ls ++ [l])
      (g q.1 l, upd q.1 l q.2) :=
  .snoc h ⟨⟨hG, rfl⟩, rfl⟩

/-- Performing `l` again and again can lead from `s` to a state with `P`. -/
def Leads (A : System S L) (l : L) (P : S → Prop) (s : S) : Prop :=
  ∃ n s', A.Run s (List.replicate n l) s' ∧ P s'

namespace Leads

variable {P Q : S → Prop}

theorem now (h : P s) : A.Leads l P s := ⟨0, s, .nil, h⟩

theorem step (hst : A.step s l s') (h : A.Leads l P s') : A.Leads l P s := by
  obtain ⟨n, t, hrun, hP⟩ := h
  exact ⟨n + 1, t, List.replicate_succ ▸ hrun.head hst, hP⟩

theorem bind (h : A.Leads l P s) (h' : ∀ s', P s' → A.Leads l Q s') : A.Leads l Q s := by
  obtain ⟨n, t, hrun, hP⟩ := h
  obtain ⟨n', t', hrun', hQ⟩ := h' t hP
  exact ⟨n + n', t', List.replicate_append_replicate ▸ hrun.append hrun', hQ⟩

end Leads

end System

end Espcan32

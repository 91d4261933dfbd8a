import Espcan32.Lib.System

/-!
# Progress in rounds

Several parties take the steps of a system in any order.  A *round* is a stretch of a run in which
each of them takes at least one step; nothing is said about the order, or about how many more steps
a party takes.  A bound in rounds is a bound for every schedule that forgets no party.

A *ranking* names, for each state, a party that helps: each step of that party lowers the rank, and
no step of another party raises it or changes who helps without lowering it.

## Main definitions

* `Rounds party n ls` : the labels `ls` make at least `n` rounds.
* `System.Through A T s ls s'` : a run from `s` to `s'` passes a state with `T`.
* `System.Ranks A party I T rank helper` : `helper` brings a state with `I` nearer to `T`.
* `System.LeadsIn A party n I T` : from a state with `I`, every run of `n` rounds passes a state
  with `T`.

## Main results

* `Ranks.leadsIn` : `T` is reached in more rounds than the rank.
* `LeadsIn.trans` : bounds add up.
* `Run.spends` : what a run spends comes out of the budget.
-/

namespace Espcan32

/-- The labels make at least `n` rounds. -/
inductive Rounds {L P : Type*} (party : L → Option P) : ℕ → List L → Prop
  | zero {ls : List L} : Rounds party 0 ls
  | succ {n : ℕ} {ls ls' : List L} (hround : ∀ p, ∃ l ∈ ls, party l = some p)
      (hrest : Rounds party n ls') : Rounds party (n + 1) (ls ++ ls')

namespace Rounds

variable {L P : Type*} {party : L → Option P} {n m : ℕ} {ls : List L}

/-- More labels before a round belong to it. -/
theorem prepend (ls' : List L) (h : Rounds party n ls) : Rounds party n (ls' ++ ls) := by
  cases h with
  | zero => exact .zero
  | @succ n ls ls'' hround hrest =>
    rw [← List.append_assoc]
    refine .succ (fun p => ?_) hrest
    obtain ⟨l, hl, hp⟩ := hround p
    exact ⟨l, List.mem_append_right _ hl, hp⟩

/-- Some rounds, and then some more. -/
theorem split (h : Rounds party (n + m) ls) :
    ∃ ls₁ ls₂, ls = ls₁ ++ ls₂ ∧ Rounds party n ls₁ ∧ Rounds party m ls₂ := by
  induction n generalizing ls with
  | zero => exact ⟨[], ls, rfl, .zero, by rwa [Nat.zero_add] at h⟩
  | succ n ih =>
    rw [Nat.succ_add] at h
    cases h with
    | @succ _ ls ls' hround hrest =>
      obtain ⟨ls₁, ls₂, rfl, h₁, h₂⟩ := ih hrest
      exact ⟨ls ++ ls₁, ls₂, (List.append_assoc ..).symm, .succ hround h₁, h₂⟩

/-- As many rounds as there are copies of one. -/
theorem flatten_replicate (n : ℕ) (hround : ∀ p, ∃ l ∈ ls, party l = some p) :
    Rounds party n (List.replicate n ls).flatten := by
  induction n with
  | zero => exact .zero
  | succ n ih => exact List.replicate_succ ▸ .succ hround ih

end Rounds

namespace System

variable {S L P X : Type*} {A : System S L} {s s' : S} {ls ls' : List L}

/-- A run from `s` to `s'` that passes a state with `T`. -/
def Through (A : System S L) (T : S → Prop) (s : S) (ls : List L) (s' : S) : Prop :=
  ∃ ls₁ ls₂ t, ls = ls₁ ++ ls₂ ∧ A.Run s ls₁ t ∧ T t ∧ A.Run t ls₂ s'

namespace Through

variable {T : S → Prop}

theorem last (h : A.Run s ls s') (hT : T s') : A.Through T s ls s' :=
  ⟨ls, [], s', (List.append_nil ls).symm, h, hT, .nil⟩

theorem append {s'' : S} (h : A.Through T s ls s') (h' : A.Run s' ls' s'') :
    A.Through T s (ls ++ ls') s'' := by
  obtain ⟨ls₁, ls₂, t, rfl, h₁, hT, h₂⟩ := h
  exact ⟨ls₁, ls₂ ++ ls', t, List.append_assoc .., h₁, hT, h₂.append h'⟩

theorem prepend {s'' : S} (h : A.Run s ls s') (h' : A.Through T s' ls' s'') :
    A.Through T s (ls ++ ls') s'' := by
  obtain ⟨ls₁, ls₂, t, rfl, h₁, hT, h₂⟩ := h'
  exact ⟨ls ++ ls₁, ls₂, t, (List.append_assoc ..).symm, h.append h₁, hT, h₂⟩

end Through

/-- A run of `ls ++ ls'` goes through a state between. -/
theorem Run.split (h : A.Run s (ls ++ ls') s') : ∃ t, A.Run s ls t ∧ A.Run t ls' s' := by
  induction ls' using List.reverseRecOn generalizing s' with
  | nil => exact ⟨s', by rwa [List.append_nil] at h, .nil⟩
  | append_singleton ls' l ih =>
    rw [← List.append_assoc] at h
    generalize hls : ls ++ ls' ++ [l] = all at h
    cases h with
    | nil => simp at hls
    | snoc h hst =>
      obtain ⟨rfl, hl⟩ := List.append_inj' hls rfl
      obtain rfl := (List.cons.inj hl).1
      obtain ⟨t, h₁, h₂⟩ := ih h
      exact ⟨t, h₁, .snoc h₂ hst⟩

/-- The party `helper s` brings the state `s` nearer to `T`. -/
def Ranks (A : System S L) (party : L → Option P) (I T : S → Prop) (rank : S → ℕ)
    (helper : S → P) : Prop :=
  ∀ s l s', I s → ¬T s → A.step s l s' →
    T s' ∨ I s' ∧ (rank s' < rank s ∨
      rank s' = rank s ∧ helper s' = helper s ∧ party l ≠ some (helper s))

namespace Ranks

variable {party : L → Option P} {I T : S → Prop} {rank : S → ℕ} {helper : S → P}

/-- A run lowers the rank, or the one who helps has not moved. -/
theorem run (hR : A.Ranks party I T rank helper) (h : A.Run s ls s') (hI : I s) (hT : ¬T s) :
    A.Through T s ls s' ∨ ¬T s' ∧ I s' ∧ (rank s' < rank s ∨
      rank s' = rank s ∧ helper s' = helper s ∧ ∀ l ∈ ls, party l ≠ some (helper s)) := by
  induction h with
  | nil => exact .inr ⟨hT, hI, .inr ⟨rfl, rfl, by simp⟩⟩
  | @snoc t t' ls l hrun hst ih =>
    rcases ih with ht | ⟨hT, hI, hle⟩
    · exact .inl (ht.append (.single hst))
    by_cases hT' : T t'
    · exact .inl (.last (.snoc hrun hst) hT')
    rcases hR t l t' hI hT hst with ht | ⟨hI', hlt | ⟨heq, hhelp, hne⟩⟩
    · exact absurd ht hT'
    · refine .inr ⟨hT', hI', .inl ?_⟩
      rcases hle with hlt' | ⟨heq, -⟩ <;> omega
    · refine .inr ⟨hT', hI', ?_⟩
      rcases hle with hlt | ⟨heq', hhelp', hls⟩
      · exact .inl (by omega)
      · refine .inr ⟨heq.trans heq', hhelp.trans hhelp', fun l' hl' => ?_⟩
        rcases List.mem_append.1 hl' with hl' | hl'
        · exact hls l' hl'
        · rw [List.mem_singleton.1 hl', ← hhelp']
          exact hne

/-- A run of more rounds than the rank gets there. -/
theorem reaches (hR : A.Ranks party I T rank helper) {n : ℕ} (hrounds : Rounds party n ls)
    (h : A.Run s ls s') (hI : I s) (hn : rank s < n) : A.Through T s ls s' := by
  induction hrounds generalizing s with
  | zero => omega
  | @succ n ls ls' hround _ ih =>
    by_cases hT : T s
    · exact ⟨[], ls ++ ls', s, rfl, .nil, hT, h⟩
    obtain ⟨t, h₁, h₂⟩ := h.split
    rcases hR.run h₁ hI hT with ht | ⟨-, hI', hlt | ⟨-, -, hnone⟩⟩
    · exact ht.append h₂
    · exact .prepend h₁ (ih h₂ hI' (by omega))
    · -- the one who helps has moved in this round
      obtain ⟨l, hl, hp⟩ := hround (helper s)
      exact absurd hp (hnone l hl)

end Ranks

/-- From every state with `I`, a run of `n` rounds passes a state with `T`. -/
def LeadsIn (A : System S L) (party : L → Option P) (n : ℕ) (I T : S → Prop) : Prop :=
  ∀ s ls s', I s → A.Run s ls s' → Rounds party n ls → A.Through T s ls s'

theorem Ranks.leadsIn {party : L → Option P} {I T : S → Prop} (rank : S → ℕ) (helper : S → P)
    (hR : A.Ranks party I T rank helper) {n : ℕ} (hn : ∀ s, I s → rank s < n) :
    A.LeadsIn party n I T :=
  fun s _ _ hI h hrounds => hR.reaches hrounds h hI (hn s hI)

/-- Either the end is reached, or the next stage leads there. -/
theorem LeadsIn.trans {party : L → Option P} {I T E : S → Prop} {n m : ℕ}
    (h : A.LeadsIn party n I fun s => E s ∨ T s) (h' : A.LeadsIn party m T E) :
    A.LeadsIn party (n + m) I E := by
  intro s ls s' hI hrun hrounds
  obtain ⟨ls₁, ls₂, rfl, hrounds₁, hrounds₂⟩ := hrounds.split
  obtain ⟨u, hrun₁, hrun₂⟩ := hrun.split
  obtain ⟨ls₃, ls₄, t, rfl, hrun₃, ht, hrun₄⟩ := h s ls₁ u hI hrun₁ hrounds₁
  rcases ht with hE | hT
  · exact ⟨ls₃, ls₄ ++ ls₂, t, List.append_assoc .., hrun₃, hE, hrun₄.append hrun₂⟩
  · rw [List.append_assoc]
    exact .prepend hrun₃ (h' t _ s' hT (hrun₄.append hrun₂) (hrounds₂.prepend ls₄))

/-- Whatever a run spends comes out of the budget it starts with. -/
theorem Run.spends {I : S → Prop} {cost : S → L → ℕ} (budget : S → ℕ) {p p' : S × ℕ}
    (h : (A.withAux fun s l n => n + cost s l).Run p ls p') (h₀ : I p.1)
    (hstep : ∀ s l s', I s → A.step s l s' → I s' ∧ cost s l + budget s' ≤ budget s) :
    I p'.1 ∧ p'.2 + budget p'.1 ≤ p.2 + budget p.1 := by
  induction h with
  | nil => exact ⟨h₀, Nat.le_refl _⟩
  | @snoc q q' ls l _ hst ih =>
    obtain ⟨hI, hle⟩ := ih
    obtain ⟨hst, hq⟩ := hst
    obtain ⟨hI', hcost⟩ := hstep _ _ _ hI hst
    refine ⟨hI', ?_⟩
    rw [hq]
    dsimp only
    omega

end System

end Espcan32

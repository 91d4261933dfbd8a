import Espcan32.Lib.System

/-!
# Objects with atomic calls

An object is known by what one call does to it at one instant.  An implementation takes several
steps for a call, between which other parties take theirs; it is as good as the object when each
call can be thought to take effect at some instant between its invocation and its response.

* `AtomicObject` : what one call does.
* `AtomicObject.system` : parties that call the object, where invocation, effect and response are
  three steps.
* `AtomicObject.Explains` : the object can take part in a history of invocations and responses.
* `AtomicObject.Implements` : each step of a system shows the events of some steps of the object's.

The main result is `Implements.explains`: every history of an implementation is one of the object.
-/

namespace Espcan32

/-- An object with contents `Q`; `does q op res q'` says that the call `op` can turn `q` into `q'`
and answer `res`. -/
structure AtomicObject (Q Op Res : Type*) where
  does : Q → Op → Res → Q → Prop

/-- Where a party is with its call. -/
inductive CallPhase (Op Res : Type*) where
  | idle
  /-- The call has not taken effect. -/
  | called (op : Op)
  /-- The call has taken effect, and not returned. -/
  | done (res : Res)

/-- What is seen of the calls. -/
inductive CallEvent (P Op Res : Type*) where
  | invoke (party : P) (op : Op)
  | respond (party : P) (res : Res)
  deriving DecidableEq, Repr

/-- A step of a party that calls the object. -/
inductive CallStep (P Op Res : Type*) where
  | event (e : CallEvent P Op Res)
  /-- The call of the party takes effect. -/
  | effect (party : P)

/-- The event that a step shows. -/
def CallStep.shown {P Op Res : Type*} : CallStep P Op Res → Option (CallEvent P Op Res)
  | .event e => some e
  | .effect _ => none

/-- An object's contents and where its parties are. -/
structure CallState (Q P Op Res : Type*) where
  contents : Q
  phase : P → CallPhase Op Res

/-- An object that no party has called. -/
def CallState.start {Q P Op Res : Type*} (q : Q) : CallState Q P Op Res := ⟨q, fun _ => .idle⟩

namespace AtomicObject

variable {Q P Op Res : Type*} [DecidableEq P]

/-- The steps of the parties that call the object. -/
inductive Step (o : AtomicObject Q Op Res) :
    CallState Q P Op Res → CallStep P Op Res → CallState Q P Op Res → Prop
  | invoke {q : Q} {phase : P → CallPhase Op Res} {p : P} {op : Op} (h : phase p = .idle) :
      Step o ⟨q, phase⟩ (.event (.invoke p op)) ⟨q, Function.update phase p (.called op)⟩
  | effect {q q' : Q} {phase : P → CallPhase Op Res} {p : P} {op : Op} {res : Res}
      (h : phase p = .called op) (hdoes : o.does q op res q') :
      Step o ⟨q, phase⟩ (.effect p) ⟨q', Function.update phase p (.done res)⟩
  | respond {q : Q} {phase : P → CallPhase Op Res} {p : P} {res : Res} (h : phase p = .done res) :
      Step o ⟨q, phase⟩ (.event (.respond p res)) ⟨q, Function.update phase p .idle⟩

/-- The object and its parties as a system. -/
def system (o : AtomicObject Q Op Res) : System (CallState Q P Op Res) (CallStep P Op Res) where
  step := o.Step

/-- A history of invocations and responses that the object can take part in, where it starts with
the contents `q` and ends with `q'`. -/
def Explains (o : AtomicObject Q Op Res) (q : Q) (history : List (CallEvent P Op Res)) (q' : Q) :
    Prop :=
  ∃ steps phase, o.system.Run (CallState.start q) steps ⟨q', phase⟩ ∧
    steps.filterMap CallStep.shown = history

variable {S L : Type*}

/-- Keep the history of the events that `events` reads off the steps of a system. -/
def history (events : S → L → List (CallEvent P Op Res)) (s : S) (l : L)
    (h : List (CallEvent P Op Res)) : List (CallEvent P Op Res) :=
  h ++ events s l

/-- Each step of the system `A` shows the events of some steps of the object and its parties, which
lead from a state related by `R` to one. -/
def Implements (o : AtomicObject Q Op Res) (A : System S L)
    (events : S → L → List (CallEvent P Op Res)) (R : S → CallState Q P Op Res → Prop) : Prop :=
  ∀ s l s' t, R s t → A.step s l s' →
    ∃ steps t', o.system.Run t steps t' ∧ steps.filterMap CallStep.shown = events s l ∧ R s' t'

variable {o : AtomicObject Q Op Res} {A : System S L}
  {events : S → L → List (CallEvent P Op Res)} {R : S → CallState Q P Op Res → Prop}

/-- Every history of an implementation is one of the object. -/
theorem Implements.explains (himpl : o.Implements A events R) {s s' : S} {q : Q}
    (h₀ : R s (CallState.start q)) {ls : List L} {h : List (CallEvent P Op Res)}
    (hrun : (A.withAux (history events)).Run (s, []) ls (s', h)) :
    ∃ q' phase, o.Explains q h q' ∧ R s' ⟨q', phase⟩ := by
  -- along the run, the object's own run is kept beside it
  let I : S × List (CallEvent P Op Res) → Prop := fun p =>
    ∃ steps t, o.system.Run (CallState.start q) steps t ∧
      steps.filterMap CallStep.shown = p.2 ∧ R p.1 t
  have hI : I (s', h) := by
    refine hrun.invariant (I := I) ⟨[], _, .nil, rfl, h₀⟩ ?_
    rintro ⟨s, h⟩ l ⟨s', h'⟩ ⟨steps, t, hrun, rfl, hR⟩ ⟨hst, rfl⟩
    obtain ⟨steps', t', hrun', hshown, hR'⟩ := himpl s l s' t hR hst
    refine ⟨steps ++ steps', t', hrun.append hrun', ?_, hR'⟩
    rw [List.filterMap_append, hshown]
    rfl
  obtain ⟨steps, ⟨q', phase⟩, hrun, hshown, hR⟩ := hI
  exact ⟨q', phase, ⟨steps, phase, hrun, hshown⟩, hR⟩

/-- The call of `p` takes effect and returns. -/
theorem run_effect_respond {q q' : Q} {phase : P → CallPhase Op Res} {p : P} {op : Op} {res : Res}
    (h : phase p = .called op) (hdoes : o.does q op res q') :
    o.system.Run ⟨q, phase⟩ [.effect p, .event (.respond p res)]
      ⟨q', Function.update phase p .idle⟩ := by
  have hdone : Function.update phase p (.done res) p = .done res := Function.update_self ..
  have heffect : o.system.Run ⟨q, phase⟩ [.effect p] ⟨q', Function.update phase p (.done res)⟩ :=
    .single (.effect h hdoes)
  have hrespond := heffect.snoc (.respond hdone)
  rwa [Function.update_idem] at hrespond

end AtomicObject

end Espcan32

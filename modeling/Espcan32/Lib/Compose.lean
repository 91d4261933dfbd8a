import Espcan32.Lib.System

/-!
# Systems side by side

A composite of systems moves by steps in each of which every component moves or stands still; a
step in which two of them move is one that they take together.

* `System.stay` : perform a label, or stand still.
* `System.keep` : keep an auxiliary variable of a component.
* `System.stay_keeps` : what every step of a component keeps is kept in the composite.
-/

namespace Espcan32

namespace System

variable {S L X : Type*}

/-- Perform a label, or stand still. -/
def stay (f : S → L → Option S) (s : S) : Option L → Option S
  | none => some s
  | some l => f s l

/-- Keep the auxiliary variable of a component, which is in the state `s`. -/
def keep (upd : S → L → X → X) (s : S) : Option L → X → X
  | none, x => x
  | some l, x => upd s l x

variable {f : S → L → Option S} {upd : S → L → X → X} {s s' : S} {o : Option L} {x : X}

/-- What every step of a component keeps is kept in the composite. -/
theorem stay_keeps {I : S → X → Prop} (h : stay f s o = some s') (hI : I s x)
    (hstep : ∀ l s', o = some l → f s l = some s' → I s' (upd s l x)) : I s' (keep upd s o x) := by
  cases o with
  | none =>
    obtain rfl := Option.some.inj h
    exact hI
  | some l => exact hstep l s' rfl h

end System

end Espcan32

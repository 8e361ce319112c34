import Mathlib

/-!
# Computations that return, abort or never end

A computation returns a value, gives up with an error that a caller can handle, or gets stuck for
ever. `Outcome.Ends` is the weakest precondition for partial correctness, with one postcondition
for each of the two ways to end.
-/

namespace QubicCore.Library

inductive Outcome (ε α : Type) where
  | returned (a : α)
  | aborted (e : ε)
  | stuck

namespace Outcome

variable {ε α β : Type}

protected def bind (o : Outcome ε α) (f : α → Outcome ε β) : Outcome ε β :=
  match o with
  | returned a => f a
  | aborted e => aborted e
  | stuck => stuck

instance : Monad (Outcome ε) where
  pure := returned
  bind := Outcome.bind

@[simp] lemma pure_eq (a : α) : (pure a : Outcome ε α) = returned a := rfl

@[simp] lemma returned_bind (a : α) (f : α → Outcome ε β) :
    ((returned a : Outcome ε α) >>= f) = f a := rfl

def ofOption : Option α → Outcome ε α
  | some a => returned a
  | none => stuck

@[simp] lemma ofOption_some (a : α) : (ofOption (some a) : Outcome ε α) = returned a := rfl

/-- The result satisfies `P` on return, the error `Q` on an abort. -/
def Ends (P : α → Prop) (Q : ε → Prop) : Outcome ε α → Prop
  | returned a => P a
  | aborted e => Q e
  | stuck => True

lemma Ends.bind {P : α → Prop} {P' : β → Prop} {Q Q' : ε → Prop} {o : Outcome ε α}
    {f : α → Outcome ε β} (h : o.Ends P Q) (hf : ∀ a, P a → (f a).Ends P' Q')
    (hQ : ∀ e, Q e → Q' e) : (o >>= f).Ends P' Q' := by
  cases o with
  | returned a => exact hf a h
  | aborted e => exact hQ e h
  | stuck => trivial

lemma ends_ofOption {P : α → Prop} {Q : ε → Prop} {x : Option α}
    (h : ∀ a, x = some a → P a) : (ofOption x : Outcome ε α).Ends P Q := by
  cases x with
  | some a => exact h a rfl
  | none => trivial

end Outcome

end QubicCore.Library

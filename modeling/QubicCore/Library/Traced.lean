import Mathlib

/-!
# Computations with a trace

A `Traced ε α` may fail to end, and lists the events of type `ε` that happened until then. The
events of a computation that never returns are still there, so what is proved of them does not
rest on its termination.
-/

namespace QubicCore.Library

structure Traced (ε α : Type) where
  events : List ε
  result : Option α

namespace Traced

variable {ε α β : Type}

instance : Monad (Traced ε) where
  pure a := ⟨[], some a⟩
  bind x f :=
    { events := x.events ++ (x.result.map fun a => (f a).events).getD []
      result := x.result.bind fun a => (f a).result }

def ofOption (x : Option α) : Traced ε α := ⟨[], x⟩

@[simp] lemma pure_events (a : α) : (pure a : Traced ε α).events = [] := rfl

@[simp] lemma ofOption_events (x : Option α) : (ofOption x : Traced ε α).events = [] := rfl

@[simp] lemma ofOption_result (x : Option α) : (ofOption x : Traced ε α).result = x := rfl

lemma bind_events (x : Traced ε α) (f : α → Traced ε β) :
    (x >>= f).events = x.events ++ (x.result.map fun a => (f a).events).getD [] := rfl

/-- An event of a sequence happened in its first part, or after that part returned. -/
@[simp] lemma mem_bind_events {x : Traced ε α} {f : α → Traced ε β} {e : ε} :
    e ∈ (x >>= f).events ↔ e ∈ x.events ∨ ∃ a, x.result = some a ∧ e ∈ (f a).events := by
  rw [bind_events, List.mem_append]
  cases x.result <;> simp

end Traced

end QubicCore.Library

import LoxGraph.Value
import LoxGraph.Token.Kind

/-!
Actions that may go wrong.

A stage that works step by step, on indices and counters, is an action: it moves a
state and may end early. What ends it is either an error in the text, which is
there to be reported, or a mishap that no stage is prepared for: an index out of
range, an operation on a value that it is not made for, a loop or a recursion
without end. The state stays as it was when the action ended.
-/

namespace LoxGraph.Stepwise

/-- What no stage is prepared for. -/
inductive Mishap where
  | outOfRange (index : Nat)
  | notANumeral (lexeme : String)
  | notALiteral (kind : TokenKind)
  | notADouble (value : Value)
  | notAnInteger (d : Double)
  | tooManyDigits (i : Int)
  | unmarkedEnd
  | endlessLoop
  | endlessRecursion

/-- What ends an action early. -/
inductive Raised (ε : Type) where
  | report (error : ε)
  | mishap (mishap : Mishap)

/-- An action on a state. -/
abbrev Action (ε σ : Type) := EStateM (Raised ε) σ

namespace Action

variable {ε σ α β : Type} {s s' : σ}

theorem run_bind_of_ok {x : Action ε σ α} {f : α → Action ε σ β} {a : α}
    (h : x.run s = .ok a s') : (x >>= f).run s = (f a).run s' := by
  rw [EStateM.run_bind, h]

theorem run_bind_of_error {x : Action ε σ α} {f : α → Action ε σ β} {e : Raised ε}
    (h : x.run s = .error e s') : (x >>= f).run s = .error e s' := by
  rw [EStateM.run_bind, h]

theorem run_bind_get (f : σ → Action ε σ β) : (get >>= f).run s = (f s).run s := rfl

theorem run_map (x : Action ε σ α) (f : α → β) :
    (f <$> x).run s = match x.run s with
      | .ok a s' => .ok (f a) s'
      | .error e s' => .error e s' := by
  simp only [EStateM.run, Functor.map, EStateM.map]
  split <;> simp_all

theorem run_map_of_ok {x : Action ε σ α} {f : α → β} {a : α} (h : x.run s = .ok a s') :
    (f <$> x).run s = .ok (f a) s' := by
  rw [run_map, h]

theorem run_map_of_error {x : Action ε σ α} {f : α → β} {e : Raised ε}
    (h : x.run s = .error e s') : (f <$> x).run s = .error e s' := by
  rw [run_map, h]

/-- An action that fails is handled where it failed. -/
theorem run_tryCatch (x : Action ε σ α) (handle : Raised ε → Action ε σ α) :
    (tryCatch x handle).run s = match x.run s with
      | .ok a s' => .ok a s'
      | .error e s' => (handle e).run s' := by
  show EStateM.tryCatch x handle s = _
  delta EStateM.tryCatch
  simp only [EStateM.run]
  cases x s <;> rfl

theorem run_tryCatch_of_ok {x : Action ε σ α} {handle : Raised ε → Action ε σ α} {a : α}
    (h : x.run s = .ok a s') : (tryCatch x handle).run s = .ok a s' := by
  rw [run_tryCatch, h]

theorem run_tryCatch_of_error {x : Action ε σ α} {handle : Raised ε → Action ε σ α}
    {e : Raised ε} (h : x.run s = .error e s') :
    (tryCatch x handle).run s = (handle e).run s' := by
  rw [run_tryCatch, h]

/-- When the first part of an action succeeds, what is handled comes from the rest. -/
theorem run_tryCatch_bind_of_ok {x : Action ε σ α} {f : α → Action ε σ β}
    {handle : Raised ε → Action ε σ β} {a : α} (h : x.run s = .ok a s') :
    (tryCatch (x >>= f) handle).run s = (tryCatch (f a) handle).run s' := by
  rw [run_tryCatch, run_tryCatch, run_bind_of_ok h]

end Action

end LoxGraph.Stepwise

/-!
# Computations that may fail
-/

namespace NGraphBridge

theorem bind_ok {ε α β : Type} {x : Except ε α} {f : α → Except ε β} {b : β}
    (success : x >>= f = .ok b) : ∃ a, x = .ok a ∧ f a = .ok b := by
  cases x with
  | error error => exact absurd success (by simp [bind, Except.bind])
  | ok a => exact ⟨a, rfl, success⟩

theorem ok_of_toOption {ε α : Type} {x : Except ε α} {a : α}
    (success : x.toOption = some a) :
    x = .ok a := by
  cases x with
  | error error => simp [Except.toOption] at success
  | ok result => simpa [Except.toOption] using success

end NGraphBridge

import Mathlib.Data.Rat.Floor

namespace PacketCache.Platform

/-- The ways a call of the C++ program ends without returning: the two standard
exceptions it throws, a failed `assert`, a dereferenced end iterator, and a step back from
`begin()`. -/
inductive Fault
  | invalidArgument (what : String)
  | runtimeError (what : String)
  | assertionFailed
  | pastTheEnd
  | beforeBegin
deriving DecidableEq

def Fault.isException : Fault → Bool
  | .invalidArgument _ | .runtimeError _ => true
  | .assertionFailed | .pastTheEnd | .beforeBegin => false

/-- The text of `what()`. The other faults are not exceptions and have none. -/
def Fault.what : Fault → String
  | .invalidArgument what | .runtimeError what => what
  | .assertionFailed | .pastTheEnd | .beforeBegin => ""

/-- `assert` is compiled out of a release build, which defines `NDEBUG`. -/
inductive Build
  | debug
  | release
deriving DecidableEq

def toInt64 (x : Int) : Int := x.bmod (2 ^ 64)

def toInt32 (x : Int) : Int := x.bmod (2 ^ 32)

/-- `static_cast<int64_t>` of a whole double. A value outside the type's range gives
the integer indefinite of the x86-64 conversion instruction. -/
def doubleToInt64 (x : Int) : Int :=
  if -2 ^ 63 ≤ x ∧ x < 2 ^ 63 then x else -2 ^ 63

def stdRound (x : ℚ) : Int :=
  if 0 ≤ x then ⌊x + 1 / 2⌋ else ⌈x - 1 / 2⌉

theorem toInt64_eq (x : Int) : toInt64 x = (x + 2 ^ 63) % 2 ^ 64 - 2 ^ 63 := by
  rw [toInt64, Int.bmod]
  split <;> omega

theorem toInt64_of_mem {x : Int} (hl : -2 ^ 63 ≤ x) (hu : x < 2 ^ 63) : toInt64 x = x := by
  rw [toInt64_eq]
  omega

theorem toInt32_of_mem {x : Int} (hl : -2 ^ 31 ≤ x) (hu : x < 2 ^ 31) : toInt32 x = x := by
  unfold toInt32
  exact Int.bmod_eq_of_le (by omega) (by omega)

def finalState {ε σ α : Type} : EStateM.Result ε σ α → σ
  | .ok _ s => s
  | .error _ s => s

@[simp] theorem finalState_ok {ε σ α : Type} (a : α) (s : σ) :
    finalState (.ok a s : EStateM.Result ε σ α) = s := rfl

@[simp] theorem finalState_error {ε σ α : Type} (e : ε) (s : σ) :
    finalState (.error e s : EStateM.Result ε σ α) = s := rfl

theorem bind_eq_ok {α β : Type} {x : Except Fault α} {f : α → Except Fault β} {b : β}
    (h : x >>= f = .ok b) : ∃ a, x = .ok a ∧ f a = .ok b := by
  cases x with
  | error e => cases h
  | ok a => exact ⟨a, rfl, h⟩

theorem bind_eq_error {α β : Type} {x : Except Fault α} {f : α → Except Fault β} {e : Fault}
    (h : x >>= f = .error e) : x = .error e ∨ ∃ a, x = .ok a ∧ f a = .error e := by
  cases x with
  | error e' =>
    obtain rfl := Except.error.inj h
    exact Or.inl rfl
  | ok a => exact Or.inr ⟨a, rfl, h⟩

end PacketCache.Platform

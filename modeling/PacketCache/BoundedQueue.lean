import Mathlib.Data.List.Basic

namespace PacketCache.BoundedQueue

variable {Q α : Type} {capacity : Nat} {contents : Q → List α} {q q' : Q} {a : α}

/-- The operations of a queue shared by threads, each of them atomic. -/
structure Operations (Q α : Type) where
  size : Q → Nat
  tryPop : Q → Option (α × Q)
  tryPush : α → Q → Option Q

variable {operations : Operations Q α}

/-- What the operations do to the elements in the queue, the oldest first: a pop takes the
oldest one and fails only on an empty queue, a push fails only on a full one. -/
structure Fifo (operations : Operations Q α) (capacity : Nat) (contents : Q → List α) : Prop where
  size : ∀ q, operations.size q = (contents q).length
  tryPop_none : ∀ q, operations.tryPop q = none → contents q = []
  tryPop_some : ∀ q a q', operations.tryPop q = some (a, q') → contents q = a :: contents q'
  tryPush_none : ∀ a q, operations.tryPush a q = none → capacity ≤ (contents q).length
  tryPush_some : ∀ a q q', operations.tryPush a q = some q' → contents q' = contents q ++ [a]

def bounded (α : Type) (capacity : Nat) : Operations (List α) α where
  size := List.length
  tryPop
    | [] => none
    | a :: q => some (a, q)
  tryPush a q := if q.length < capacity then some (q ++ [a]) else none

theorem bounded_fifo (α : Type) (capacity : Nat) : Fifo (bounded α capacity) capacity id := by
  refine ⟨fun q => rfl, fun q h => ?_, fun q a q' h => ?_, fun a q h => ?_, fun a q q' h => ?_⟩
  · cases q with
    | nil => rfl
    | cons b q => cases h
  · cases q with
    | nil => cases h
    | cons b q =>
      obtain ⟨rfl, rfl⟩ := Prod.mk.inj (Option.some.inj h)
      rfl
  · by_cases hq : q.length < capacity
    · simp [bounded, hq] at h
    · exact Nat.le_of_not_lt hq
  · by_cases hq : q.length < capacity
    · simpa [bounded, hq] using h.symm
    · simp [bounded, hq] at h

/-- The history of a queue: what was pushed has been popped in the same order, or is still
queued. -/
def Traced (contents : Q → List α) (pushed popped : List α) (q : Q) : Prop :=
  pushed = popped ++ contents q

variable {pushed popped : List α}

theorem Traced.tryPop (h : Traced contents pushed popped q)
    (hf : Fifo operations capacity contents) (ht : operations.tryPop q = some (a, q')) :
    Traced contents pushed (popped ++ [a]) q' := by
  rw [Traced] at h ⊢
  rw [h, hf.tryPop_some q a q' ht, List.append_assoc]
  rfl

theorem Traced.tryPush (h : Traced contents pushed popped q)
    (hf : Fifo operations capacity contents) (ht : operations.tryPush a q = some q') :
    Traced contents (pushed ++ [a]) popped q' := by
  rw [Traced] at h ⊢
  rw [h, hf.tryPush_some a q q' ht, List.append_assoc]

end PacketCache.BoundedQueue

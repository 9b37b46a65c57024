import Mathlib.Data.Set.Operations
import PacketCache.Transitions

namespace PacketCache.ExpiringStore

open PacketCache.Transitions (holds_of_since since_of_holds)

variable {κ α τ : Type*}

/-- The ways a store of items under keys changes: an item comes in, or a point in time comes
that some items do not outlast. -/
inductive Operation (κ α τ : Type*)
  | insert (key : κ) (item : α)
  | expire (time : τ)

variable [LE τ] (deadline : α → τ)

def apply (store : κ → Set α) : Operation κ α τ → κ → Set α
  | .insert key item => fun other => {x | other = key ∧ x = item ∨ x ∈ store other}
  | .expire time => fun other => {x | x ∈ store other ∧ time ≤ deadline x}

def run (operations : List (Operation κ α τ)) : κ → Set α :=
  operations.foldl (apply deadline) (fun _ => ∅)

variable {deadline} {store : κ → Set α} {operations : List (Operation κ α τ)}
variable {operation : Operation κ α τ} {key other : κ} {item x : α} {time : τ}

theorem run_snoc :
    run deadline (operations ++ [operation]) = apply deadline (run deadline operations) operation := by
  rw [run, List.foldl_append, ← run, List.foldl_cons, List.foldl_nil]

theorem mem_run_insert : x ∈ run deadline (operations ++ [.insert key item]) other ↔
    other = key ∧ x = item ∨ x ∈ run deadline operations other := by
  rw [run_snoc]
  exact Iff.rfl

theorem mem_run_expire : x ∈ run deadline (operations ++ [.expire time]) other ↔
    x ∈ run deadline operations other ∧ time ≤ deadline x := by
  rw [run_snoc]
  exact Iff.rfl

def Ends (deadline : α → τ) (item : α) (operation : Operation κ α τ) : Prop :=
  ∃ time, operation = .expire time ∧ ¬ time ≤ deadline item

theorem not_mem_of_ends (h : Ends deadline item operation) :
    item ∉ run deadline (operations ++ [operation]) key := by
  obtain ⟨time, rfl, hlt⟩ := h
  exact fun hm => hlt (mem_run_expire.mp hm).2

theorem mem_of_not_ends (h : ¬ Ends deadline item operation)
    (hm : item ∈ run deadline operations key) :
    item ∈ run deadline (operations ++ [operation]) key := by
  cases operation with
  | insert name added => exact mem_run_insert.mpr (Or.inr hm)
  | expire time =>
    refine mem_run_expire.mpr ⟨hm, ?_⟩
    by_contra hlt
    exact h ⟨time, rfl, hlt⟩

theorem not_ends_iff {after : List (Operation κ α τ)} :
    (∀ later ∈ after, ¬ Ends deadline item later) ↔
      ∀ time, .expire time ∈ after → time ≤ deadline item := by
  constructor
  · intro h time hm
    by_contra hlt
    exact h _ hm ⟨time, rfl, hlt⟩
  · rintro h _ hm ⟨time, rfl, hlt⟩
    exact hlt (h time hm)

/-- An item is in the store exactly if it came in and has outlasted every point in time that
came after it. -/
theorem mem_run_iff : item ∈ run deadline operations key ↔
    ∃ before after, operations = before ++ .insert key item :: after ∧
      ∀ time, .expire time ∈ after → time ≤ deadline item := by
  constructor
  · intro h
    obtain ⟨before, operation, after, rfl, hnot, hm, hafter⟩ := since_of_holds
      (P := fun history => item ∈ run deadline history key) id
      (fun before operation => not_mem_of_ends) h
    cases operation with
    | expire time => exact absurd (mem_run_expire.mp hm).1 hnot
    | insert name added =>
      obtain ⟨rfl, rfl⟩ := (mem_run_insert.mp hm).resolve_right hnot
      exact ⟨before, after, rfl, not_ends_iff.mp hafter⟩
  · rintro ⟨before, after, rfl, hafter⟩
    rw [List.append_cons]
    exact holds_of_since (P := fun history => item ∈ run deadline history key)
      (mem_run_insert.mpr (Or.inl ⟨rfl, rfl⟩)) (not_ends_iff.mpr hafter)
      (fun _ _ _ => mem_of_not_ends)

end PacketCache.ExpiringStore

import Mathlib.Data.List.Basic

namespace PacketCache.Bisection

variable {α β : Type*}

/-- The halving loop behind the bound searches of the C++ standard library, on the
positions `first, ..., first + len - 1`. A `fuel` of `len` is always enough. -/
def bisect (p : Nat → Bool) : Nat → Nat → Nat → Nat
  | 0, first, _ => first
  | fuel + 1, first, len =>
    if len = 0 then first
    else if p (first + len / 2) then bisect p fuel first (len / 2)
    else bisect p fuel (first + len / 2 + 1) (len - len / 2 - 1)

theorem bisect_eq (p : Nat → Bool) (r stop : Nat) (hlo : ∀ i, i < r → p i = false)
    (hhi : ∀ i, r ≤ i → i < stop → p i = true) (fuel first len : Nat) (hfuel : len ≤ fuel)
    (hfirst : first ≤ r) (hr : r ≤ first + len) (hstop : first + len ≤ stop) :
    bisect p fuel first len = r := by
  induction fuel generalizing first len with
  | zero => simp only [bisect]; omega
  | succ fuel ih =>
    simp only [bisect]
    split
    · omega
    · cases hp : p (first + len / 2) with
      | true =>
        have hle : r ≤ first + len / 2 := by
          by_contra hlt
          have hf := hlo (first + len / 2) (by omega)
          rw [hp] at hf
          cases hf
        simpa using ih first (len / 2) (by omega) hfirst hle (by omega)
      | false =>
        have hlt : first + len / 2 < r := by
          by_contra hge
          have ht := hhi (first + len / 2) (by omega) (by omega)
          rw [hp] at ht
          cases ht
        simpa using ih (first + len / 2 + 1) (len - len / 2 - 1) (by omega) hlt (by omega)
          (by omega)

/-- `std::ranges::upper_bound`: the comparison receives the searched value first. -/
def upperBound (comp : β → α → Bool) (xs : List α) (value : β) : Nat :=
  bisect (fun i => xs[i]?.any (comp value)) xs.length 0 xs.length

/-- `std::ranges::lower_bound`: the comparison receives the element first. -/
def lowerBound (comp : α → β → Bool) (xs : List α) (value : β) : Nat :=
  bisect (fun i => xs[i]?.any (fun a => !comp a value)) xs.length 0 xs.length

theorem bisect_append (q : α → Bool) (lo hi : List α) (hlo : ∀ a ∈ lo, q a = false)
    (hhi : ∀ a ∈ hi, q a = true) :
    bisect (fun i => (lo ++ hi)[i]?.any q) (lo ++ hi).length 0 (lo ++ hi).length = lo.length := by
  apply bisect_eq _ _ (lo ++ hi).length _ _ _ _ _ (Nat.le_refl _) (Nat.zero_le _) (by simp)
    (by simp)
  · intro i hi'
    have hm : (lo ++ hi)[i]? = some lo[i] := by
      rw [List.getElem?_append_left hi', List.getElem?_eq_getElem hi']
    simpa only [hm, Option.any_some] using hlo lo[i] (List.getElem_mem hi')
  · intro i hle hlt
    have hlt' : i - lo.length < hi.length := by
      rw [List.length_append] at hlt
      omega
    have hm : (lo ++ hi)[i]? = some hi[i - lo.length] := by
      rw [List.getElem?_append_right hle, List.getElem?_eq_getElem hlt']
    simpa only [hm, Option.any_some] using hhi _ (List.getElem_mem hlt')

theorem upperBound_append (comp : β → α → Bool) (value : β) (lo hi : List α)
    (hlo : ∀ a ∈ lo, comp value a = false) (hhi : ∀ a ∈ hi, comp value a = true) :
    upperBound comp (lo ++ hi) value = lo.length :=
  bisect_append (comp value) lo hi hlo hhi

theorem lowerBound_append (comp : α → β → Bool) (value : β) (lo hi : List α)
    (hlo : ∀ a ∈ lo, comp a value = true) (hhi : ∀ a ∈ hi, comp a value = false) :
    lowerBound comp (lo ++ hi) value = lo.length :=
  bisect_append (fun a => !comp a value) lo hi (fun a ha => by simp [hlo a ha])
    (fun a ha => by simp [hhi a ha])

end PacketCache.Bisection

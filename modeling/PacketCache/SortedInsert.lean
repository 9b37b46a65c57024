import PacketCache.DequeRuns

namespace PacketCache.SortedInsert

open PacketCache.DequeRuns PacketCache.Insertion PacketCache.Messages PacketCache.Platform
open PacketCache.SortedWindow PacketCache.StreamDeque PacketCache.Times

variable {maximum : Nat} {mDeque : List PacketTime} {p : PacketTime} (build : Build)

/-- Sorted insertion into a window of bounded size: the first packet goes when there is
one too many. -/
def insertEvict (maximum : Nat) (p : PacketTime) (mDeque : List PacketTime) : List PacketTime :=
  let inserted := insertKey PacketTime.startTime p mDeque
  if maximum < inserted.length then inserted.tail else inserted

/-- The ways through `StreamDequeImpl::addPacket`, in the order of its tests. In `ranOff` the
search returns `end()` and the function falls through. -/
inductive Branch
  | empty
  | afterBack
  | slipped
  | frontDuplicate
  | tooOld
  | beforeFront
  | ranOff
  | foundDuplicate
  | found
deriving DecidableEq

def branch (maximum : Nat) (mDeque : List PacketTime) (p : PacketTime) : Branch :=
  match mDeque with
  | [] => .empty
  | front :: rest =>
    let back := (front :: rest).getLast (List.cons_ne_nil front rest)
    let isFull := decide (maximum ≤ mDeque.length)
    if back.endTime ≤ p.startTime then .afterBack
    else if back.startTime < p.startTime then .slipped
    else if p.startTime = front.startTime then .frontDuplicate
    else if p.startTime < front.startTime ∧ isFull then .tooOld
    else if p.endTime ≤ front.startTime ∧ !isFull then .beforeFront
    else
      match mDeque[searchStart mDeque p.startTime]? with
      | none => .ranOff
      | some neighbor => if p.startTime = neighbor.startTime then .foundDuplicate else .found

def effect (maximum : Nat) (mDeque : List PacketTime) (p : PacketTime) :
    Branch → List PacketTime
  | .empty => [p]
  | .afterBack | .slipped => popWhenFull (decide (maximum ≤ mDeque.length)) mDeque ++ [p]
  | .frontDuplicate | .tooOld | .ranOff | .foundDuplicate => mDeque
  | .beforeFront => p :: mDeque
  | .found => popWhenFull (decide (maximum ≤ mDeque.length))
      (mDeque.insertIdx (searchStart mDeque p.startTime) p)

theorem placePacket_branch :
    placePacket build maximum mDeque p =
      if build = .debug ∧ branch maximum mDeque p = .found ∧
        !isSorted (effect maximum mDeque p .found) then .error .assertionFailed
      else .ok (effect maximum mDeque p (branch maximum mDeque p)) := by
  cases mDeque with
  | nil => simp [placePacket, branch, effect]
  | cons front rest =>
    have hne : front :: rest ≠ [] := List.cons_ne_nil front rest
    simp only [placePacket, branch]
    by_cases h1 : ((front :: rest).getLast hne).endTime ≤ p.startTime
    · simp only [if_pos h1, reduceCtorEq, false_and, and_false, ↓reduceIte, effect]
    by_cases h2 : ((front :: rest).getLast hne).startTime < p.startTime
    · simp only [if_neg h1, if_pos h2, reduceCtorEq, false_and, and_false, ↓reduceIte, effect]
    by_cases h3 : p.startTime = front.startTime
    · simp only [if_neg h1, if_neg h2, if_pos h3, reduceCtorEq, false_and, and_false,
        ↓reduceIte, effect]
    by_cases h4 : p.startTime < front.startTime ∧ decide (maximum ≤ (front :: rest).length)
    · simp only [if_neg h1, if_neg h2, if_neg h3, if_pos h4, reduceCtorEq, false_and, and_false,
        ↓reduceIte, effect]
    by_cases h5 : p.endTime ≤ front.startTime ∧ !decide (maximum ≤ (front :: rest).length)
    · simp only [if_neg h1, if_neg h2, if_neg h3, if_neg h4, if_pos h5, reduceCtorEq, false_and,
        and_false, ↓reduceIte, effect]
    simp only [if_neg h1, if_neg h2, if_neg h3, if_neg h4, if_neg h5, insertFound]
    cases hfound : (front :: rest)[searchStart (front :: rest) p.startTime]? with
    | none => simp only [reduceCtorEq, false_and, and_false, ↓reduceIte, effect]
    | some neighbor =>
      by_cases hn : p.startTime = neighbor.startTime
      · simp only [if_pos hn, reduceCtorEq, false_and, and_false, ↓reduceIte, effect]
      · simp only [if_neg hn, true_and, effect]

/-- The search of a sorted buffer stops before its end: the branches before it leave only
packets that start no later than the newest one. -/
theorem branch_ne_ranOff (h : Sorted PacketTime.startTime mDeque) :
    branch maximum mDeque p ≠ .ranOff := by
  cases mDeque with
  | nil => simp [branch]
  | cons front rest =>
    have hne : front :: rest ≠ [] := List.cons_ne_nil front rest
    simp only [branch]
    split_ifs with h1 h2 h3 h4 h5
    · simp
    · simp
    · simp
    · simp
    · simp
    obtain ⟨lo, neighbor, hi, hsplit, hlo, hhi⟩ :=
      exists_split PacketTime.startTime p.startTime h (List.getLast_mem hne) (not_lt.mp h2)
    have hfound : (front :: rest)[searchStart (front :: rest) p.startTime]? = some neighbor := by
      rw [hsplit, searchStart_append p.startTime lo _ hlo hhi,
        List.getElem?_append_right le_rfl, Nat.sub_self, List.getElem?_cons_zero]
    rw [hfound]
    by_cases hn : p.startTime = neighbor.startTime
    · simp [hn]
    · simp [hn]

theorem insertEvict_eq_rtake (hb : mDeque.length ≤ maximum) :
    insertEvict maximum p mDeque = (insertKey PacketTime.startTime p mDeque).rtake maximum := by
  have hl := length_insertKey PacketTime.startTime p mDeque
  rw [insertEvict, ← popWhenFull_eq_rtake hl hb, hl]
  by_cases hf : maximum ≤ mDeque.length
  · simp [popWhenFull, hf, Nat.lt_succ_of_le hf]
  · simp only [popWhenFull, hf, decide_false, Bool.false_eq_true, ↓reduceIte]
    rw [if_neg (by omega)]

structure RefinesInsertEvict (build : Build) (maximum : Nat) (self : StreamDequeImpl) : Prop where
  sorted : Sorted PacketTime.startTime self.mDeque
  bounded : self.mDeque.length ≤ maximum
  searched : ∀ p, Timed p → p.startTime ≤ p.endTime → branch maximum self.mDeque p ≠ .ranOff
  placed : ∀ p, Timed p → p.startTime ≤ p.endTime →
    self.addPacket build p.packet =
      .ok () { self with mDeque := effect maximum self.mDeque p (branch maximum self.mDeque p) }
  inserted : ∀ p, Timed p → p.startTime ≤ p.endTime →
    (∀ item ∈ self.mDeque, item.startTime ≠ p.startTime) →
    self.addPacket build p.packet =
      .ok () { self with mDeque := insertEvict maximum p self.mDeque }

theorem Reached.refinesInsertEvict {self : StreamDequeImpl} (h : Reached maximum self)
    (hmax : 1 ≤ maximum) : RefinesInsertEvict build maximum self := by
  refine ⟨h.wellFormed.sorted, h.wellFormed.bounded, ?_, ?_, ?_⟩
  · intro p _ _
    exact branch_ne_ranOff h.wellFormed.sorted
  · intro p ht hp
    obtain ⟨placed, hplaced, hadd, _⟩ := h.addPacket build hmax ht hp
    rw [placePacket_branch] at hplaced
    split_ifs at hplaced
    obtain rfl := Except.ok.inj hplaced
    exact hadd
  · intro p ht hp hnew
    rw [addPacket_timed build ht, h.capacity, placePacket_new build h.wellFormed hmax hp hnew,
      insertEvict_eq_rtake h.wellFormed.bounded]

/-- After any run, adding a packet refines sorted insertion with eviction. -/
theorem addPacket_refines_insertEvict (build : Build) (options : StreamDequeOptions)
    (calls : List Call) (hcalls : ∀ packet, .addPacket packet ∈ calls → EndsAfterStart packet) :
    RefinesInsertEvict build options.mMaximumNumberOfPackets
      (run build (StreamDequeImpl.construct options) calls) := by
  have h := (Reached.construct options).run build options.positive calls hcalls
  exact Reached.refinesInsertEvict build h options.positive

theorem addPacket_refines_insertEvict_three_packets :
    RefinesInsertEvict .debug 2 (run .debug (StreamDequeImpl.construct ⟨2, by decide⟩)
      [.addPacket (oneHertz 10 5), .addPacket (oneHertz 0 5), .addPacket (oneHertz 5 1)]) := by
  refine addPacket_refines_insertEvict .debug ⟨2, by decide⟩ _ ?_
  have h10 : EndsAfterStart (oneHertz 10 5) := by decide +kernel
  have h0 : EndsAfterStart (oneHertz 0 5) := by decide +kernel
  have h5 : EndsAfterStart (oneHertz 5 1) := by decide +kernel
  simp [h10, h0, h5]

end PacketCache.SortedInsert

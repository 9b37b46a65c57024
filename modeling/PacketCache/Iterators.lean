import PacketCache.DequeRuns
import PacketCache.Query
import Mathlib.Data.List.Infix

namespace PacketCache.Iterators

open PacketCache.DequeRuns PacketCache.Insertion PacketCache.Messages PacketCache.Platform
open PacketCache.Query PacketCache.SortedWindow PacketCache.StreamDeque PacketCache.Times

variable {build : Build} {maximum : Nat} {self : StreamDequeImpl} {t0 t1 : Int}

def firstPosition (mDeque : List PacketTime) (t0 : Int) : Option Nat :=
  mDeque[searchStart mDeque t0]?.bind
    (fun item => (stepBack mDeque t0 (searchStart mDeque t0) item).toOption)

def range (mDeque : List PacketTime) (t1 : Int) (it0 : Nat) : List PacketTime :=
  (mDeque.drop it0).take (searchEnd mDeque t1 - it0)

theorem stepBack_ok {mDeque : List PacketTime} {it0 : Nat} {item : PacketTime} (t0 : Int)
    (hitem : mDeque[it0]? = some item) :
    ∃ it, stepBack mDeque t0 it0 item = .ok it ∧ (it = it0 ∨ it + 1 = it0) := by
  rw [stepBack]
  split_ifs with hback
  · obtain ⟨it, rfl⟩ := Nat.exists_eq_succ_of_ne_zero hback.1
    have hlt := (List.getElem?_eq_some_iff.mp hitem).1
    have hprevious : mDeque[it]? = some mDeque[it] := List.getElem?_eq_getElem (by omega)
    simp only [prev, hprevious]
    split_ifs
    · exact ⟨it + 1, rfl, Or.inl rfl⟩
    · exact ⟨it, rfl, Or.inr rfl⟩
  · exact ⟨it0, rfl, Or.inl rfl⟩

theorem getPackets_positions (build : Build) (self : StreamDequeImpl) (t0 t1 : Int) :
    self.getPackets build (t0, t1) =
      match firstPosition self.mDeque t0 with
      | none => .ok []
      | some it0 =>
        if t0 = t1 then onePacket self.mDeque it0
        else if it0 = searchEnd self.mDeque t1 then onePacket self.mDeque it0
        else if build = .debug ∧ ¬ it0 < searchEnd self.mDeque t1 then .error .assertionFailed
        else if (searchEnd self.mDeque t1 : Int) - it0 < 1 then .ok []
        else if build = .debug ∧ (searchEnd self.mDeque t1 : Int) - it0 ≠
            (copyLoop t1 (range self.mDeque t1 it0)).length then .error .assertionFailed
        else .ok (copyLoop t1 (range self.mDeque t1 it0)) := by
  cases hm : self.mDeque with
  | nil => simp [StreamDequeImpl.getPackets, firstPosition, hm]
  | cons front rest =>
    cases hitem : (front :: rest)[searchStart (front :: rest) t0]? with
    | none => simp [StreamDequeImpl.getPackets, firstPosition, hm, hitem]
    | some item =>
      obtain ⟨it, hback, _⟩ := stepBack_ok t0 hitem
      simp only [StreamDequeImpl.getPackets, firstPosition, hm, hitem, hback, List.isEmpty_cons,
        Bool.false_eq_true, ↓reduceIte, Option.bind_some, Except.toOption, range]
      rfl

structure Safe (build : Build) (t0 t1 : Int) (deque : StreamDequeImpl) : Prop where
  inRange : ∀ it0 ∈ firstPosition deque.mDeque t0, it0 < deque.mDeque.length
  movesBack : ∀ item ∈ deque.mDeque[searchStart deque.mDeque t0]?, ∃ it0,
    stepBack deque.mDeque t0 (searchStart deque.mDeque t0) item = .ok it0 ∧
      (it0 = searchStart deque.mDeque t0 ∨ it0 + 1 = searchStart deque.mDeque t0)
  inOrder : ∀ it0 ∈ firstPosition deque.mDeque t0,
    it0 ≤ searchEnd deque.mDeque t1 ∧ searchEnd deque.mDeque t1 ≤ deque.mDeque.length
  guards : ∀ it0 ∈ firstPosition deque.mDeque t0, it0 ≠ searchEnd deque.mDeque t1 →
    it0 < searchEnd deque.mDeque t1 ∧ ¬ (searchEnd deque.mDeque t1 : Int) - it0 < 1
  fault : ∀ e, StreamDeque.getPackets build deque (t0, t1) = .error e →
    build = .debug ∧ e = .assertionFailed ∧ ∃ it0 ∈ firstPosition deque.mDeque t0,
      copyLoop t1 (range deque.mDeque t1 it0) ≠
        (range deque.mDeque t1 it0).map PacketTime.packet
  contiguous : ∀ r, StreamDeque.getPackets build deque (t0, t1) = .ok r →
    r <:+: deque.getAllPackets
  sorted : ∀ r, StreamDeque.getPackets build deque (t0, t1) = .ok r →
    r.Pairwise (fun a b => getStartTimeNanoSeconds a ≤ getStartTimeNanoSeconds b)

theorem getPackets_of_le (ht : t0 ≤ t1) :
    StreamDeque.getPackets build self (t0, t1) = self.getPackets build (t0, t1) :=
  if_neg (not_lt.mpr ht)

theorem exists_range (hs : Sorted PacketTime.startTime self.mDeque) (ht : t0 ≤ t1) {it0 : Nat}
    (hit : it0 ∈ firstPosition self.mDeque t0) :
    ∃ before first after, self.mDeque = before ++ first :: after ∧
      Opening t0 before first after ∧ it0 = before.length ∧
      searchEnd self.mDeque t1 = before.length + (selected t1 first after).length ∧
      range self.mDeque t1 it0 = selected t1 first after := by
  have hnew : ∃ item ∈ self.mDeque, t0 ≤ item.startTime := by
    by_contra hnone
    push Not at hnone
    have hsearch := searchStart_append t0 self.mDeque [] hnone (by simp)
    rw [List.append_nil] at hsearch
    simp [firstPosition, hsearch] at hit
  obtain ⟨before, first, after, item, hsplit, ho, hitem, hback⟩ := exists_opening hs hnew
  obtain rfl : before.length = it0 := by
    rw [firstPosition, hitem, Option.bind_some, hback] at hit
    exact Option.some.inj hit
  rw [hsplit] at hs
  obtain ⟨hend, hrun⟩ := searchEnd_selected hs ht ho
  refine ⟨before, first, after, hsplit, ho, rfl, by rw [hsplit, hend], ?_⟩
  rw [range, hsplit, hend, Nat.add_sub_cancel_left, hrun]

theorem positions (t1 : Int) (hs : Sorted PacketTime.startTime self.mDeque) (ht : t0 ≤ t1)
    {it0 : Nat} (hit : it0 ∈ firstPosition self.mDeque t0) :
    it0 < self.mDeque.length ∧ it0 ≤ searchEnd self.mDeque t1 ∧
      searchEnd self.mDeque t1 ≤ self.mDeque.length := by
  obtain ⟨before, first, after, hsplit, _, rfl, hend, _⟩ := exists_range hs ht hit
  have hlen : (selected t1 first after).length ≤ (first :: after).length :=
    List.length_filter_le _ _
  rw [hend, hsplit, List.length_append]
  simp only [List.length_cons] at hlen ⊢
  omega

theorem range_contiguous (mDeque : List PacketTime) (t1 : Int) (it0 : Nat) :
    range mDeque t1 it0 <:+: mDeque :=
  (List.take_prefix _ _).isInfix.trans (List.drop_suffix _ _).isInfix

theorem onePacket_of_lt {mDeque : List PacketTime} {it : Nat} (h : it < mDeque.length) :
    onePacket mDeque it = .ok [mDeque[it].packet] := by
  simp only [onePacket, List.getElem?_eq_getElem h]

theorem length_range {mDeque : List PacketTime} {it0 : Nat}
    (hle : it0 ≤ searchEnd mDeque t1) (hend : searchEnd mDeque t1 ≤ mDeque.length) :
    (range mDeque t1 it0).length = searchEnd mDeque t1 - it0 := by
  rw [range, List.length_take, List.length_drop]
  omega

theorem getPackets_range (hs : Sorted PacketTime.startTime self.mDeque) (ht : t0 ≤ t1)
    {it0 : Nat} (hit : it0 ∈ firstPosition self.mDeque t0) :
    self.getPackets build (t0, t1) =
      if t0 = t1 ∨ it0 = searchEnd self.mDeque t1 then onePacket self.mDeque it0
      else if build = .debug ∧
          (copyLoop t1 (range self.mDeque t1 it0)).length ≠ (range self.mDeque t1 it0).length then
        .error .assertionFailed
      else .ok (copyLoop t1 (range self.mDeque t1 it0)) := by
  obtain ⟨_, hle, hend⟩ := positions t1 hs ht hit
  rw [getPackets_positions, hit]
  simp only
  by_cases hone : t0 = t1
  · rw [if_pos hone, if_pos (Or.inl hone)]
  by_cases hsame : it0 = searchEnd self.mDeque t1
  · rw [if_neg hone, if_pos hsame, if_pos (Or.inr hsame)]
  have hlt : it0 < searchEnd self.mDeque t1 := by omega
  have hcount : (searchEnd self.mDeque t1 : Int) - it0 ≠
      (copyLoop t1 (range self.mDeque t1 it0)).length ↔
      (copyLoop t1 (range self.mDeque t1 it0)).length ≠ (range self.mDeque t1 it0).length := by
    rw [length_range hle hend]
    omega
  have hmany : ¬ (searchEnd self.mDeque t1 : Int) - it0 < 1 := by omega
  simp only [hone, hsame, hlt, hcount, hmany, or_self, not_true_eq_false, and_false, ↓reduceIte]

theorem getAllPackets_sorted (h : Reached maximum self) :
    self.getAllPackets.Pairwise
      (fun a b => getStartTimeNanoSeconds a ≤ getStartTimeNanoSeconds b) := by
  rw [StreamDequeImpl.getAllPackets, List.pairwise_map]
  apply h.wellFormed.sorted.imp_of_mem
  intro a b ha hb hle
  rwa [(h.timed a ha).1, (h.timed b hb).1]

theorem getPackets_contiguous (h : Reached maximum self) (ht : t0 ≤ t1) {r : List CacheApi.Packet}
    (hr : self.getPackets build (t0, t1) = .ok r) : r <:+: self.getAllPackets := by
  cases hfirst : firstPosition self.mDeque t0 with
  | none =>
    rw [getPackets_positions, hfirst] at hr
    obtain rfl := Except.ok.inj hr
    exact List.nil_infix
  | some it0 =>
    obtain ⟨hlt, _, _⟩ := positions t1 h.wellFormed.sorted ht hfirst
    rw [getPackets_range h.wellFormed.sorted ht hfirst] at hr
    split_ifs at hr
    · rw [onePacket_of_lt hlt] at hr
      obtain rfl := Except.ok.inj hr
      exact (List.singleton_infix_iff _ _).mpr (List.mem_map_of_mem (List.getElem_mem hlt))
    · obtain rfl := Except.ok.inj hr
      exact (copyLoop_isPrefixOf t1 _).isInfix.trans
        ((range_contiguous self.mDeque t1 it0).map PacketTime.packet)

theorem getPackets_fault (h : Reached maximum self) (ht : t0 ≤ t1) {e : Fault}
    (hr : self.getPackets build (t0, t1) = .error e) :
    build = .debug ∧ e = .assertionFailed ∧ ∃ it0 ∈ firstPosition self.mDeque t0,
      copyLoop t1 (range self.mDeque t1 it0) ≠
        (range self.mDeque t1 it0).map PacketTime.packet := by
  cases hfirst : firstPosition self.mDeque t0 with
  | none =>
    rw [getPackets_positions, hfirst] at hr
    cases hr
  | some it0 =>
    obtain ⟨hlt, _, _⟩ := positions t1 h.wellFormed.sorted ht hfirst
    rw [getPackets_range h.wellFormed.sorted ht hfirst] at hr
    split_ifs at hr with hone hcount
    · rw [onePacket_of_lt hlt] at hr
      cases hr
    · refine ⟨hcount.1, (Except.error.inj hr).symm, it0, rfl, fun hall => hcount.2 ?_⟩
      rw [hall, List.length_map]

theorem Reached.safe (h : Reached maximum self) (ht : t0 ≤ t1) : Safe build t0 t1 self := by
  refine ⟨?_, fun item hitem => stepBack_ok t0 hitem, ?_, ?_, ?_, ?_, ?_⟩
  · exact fun it0 hit => (positions t1 h.wellFormed.sorted ht hit).1
  · exact fun it0 hit => (positions t1 h.wellFormed.sorted ht hit).2
  · intro it0 hit hne
    obtain ⟨_, hle, _⟩ := positions t1 h.wellFormed.sorted ht hit
    omega
  · intro e hr
    rw [getPackets_of_le ht] at hr
    exact getPackets_fault h ht hr
  · intro r hr
    rw [getPackets_of_le ht] at hr
    exact getPackets_contiguous h ht hr
  · intro r hr
    rw [getPackets_of_le ht] at hr
    exact (getAllPackets_sorted h).sublist (getPackets_contiguous h ht hr).sublist

/-- After any run, a query keeps its iterators inside the buffer and answers with a run of
neighbouring packets. -/
theorem getPackets_safe (build : Build) (options : StreamDequeOptions) (calls : List Call)
    (hcalls : ∀ packet, .addPacket packet ∈ calls → EndsAfterStart packet) (t0 t1 : Int)
    (ht : t0 ≤ t1) : Safe build t0 t1 (run build (StreamDequeImpl.construct options) calls) :=
  Reached.safe ((Reached.construct options).run build options.positive calls hcalls) ht

theorem getPackets_safe_two_packets :
    Safe .debug 2 3 (run .debug (StreamDequeImpl.construct {})
      [.addPacket (oneHertz 10 5), .addPacket (oneHertz 0 5)]) :=
  getPackets_safe .debug {} _ oneHertz_endsAfterStart 2 3 (by decide)

end PacketCache.Iterators

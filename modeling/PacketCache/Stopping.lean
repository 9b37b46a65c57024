import PacketCache.Reconnects

namespace PacketCache.Stopping

open PacketCache.ClientOptions PacketCache.Platform PacketCache.Reconnects
open PacketCache.Subscriber

/-- The first stop comes with an attempt before which the loop has not given up. If it gives
up after that attempt, the stop is still seen at the end of `acquirePackets`. -/
def StopsFirst (n : ℕ) (attempts : List Attempt) : Prop :=
  ∃ before stopped after, attempts = before ++ stopped :: after ∧ Unstopped before ∧
    isStopped stopped = true ∧ ∀ history, history <+: before → ¬GivesUp n history

/-- The loop gives up, and by its last look at the flag no stop is requested. -/
def GivesUpFirst (n : ℕ) (attempts : List Attempt) : Prop :=
  ∃ before last after, attempts = before ++ last :: after ∧ Unstopped (before ++ [last]) ∧
    (∀ history, history <+: before → ¬GivesUp n history) ∧ GivesUp n (before ++ [last])

variable {schedule : List Int} {n : ℕ} {before history attempts : List Attempt}
variable {attempt stopped last : Attempt}

theorem unstopped_of_isPrefix (hs : Unstopped attempts) (hp : history <+: attempts) :
    Unstopped history :=
  fun attempt hm => hs attempt (hp.subset hm)

theorem loop_append (hn : n ≤ schedule.length) (hs : Unstopped history)
    (h : ∀ earlier, earlier <+: history → ¬GivesUp n (before ++ earlier))
    (attempts : List Attempt) :
    (loop schedule n (used before) true (history ++ attempts)).2 =
      (loop schedule n (used (before ++ history)) true attempts).2 := by
  induction history generalizing before with
  | nil => rw [List.nil_append, List.append_nil]
  | cons attempt history ih =>
    have hu := used_lt_of_not_givesUp (h [] List.nil_prefix)
    rw [List.append_nil] at hu
    obtain ⟨ho, _, hr⟩ := not_givesUp_cons h
    have hs' : Unstopped history := fun a ha => hs a (List.mem_cons_of_mem _ ha)
    rw [List.cons_append, loop_cons hn hu (hs attempt (by simp)) ho, ih hs' hr,
      List.append_assoc, List.singleton_append]

theorem loop_stopped (hn : n ≤ schedule.length) (hu : used before < n)
    (hs : isStopped stopped = true) (attempts : List Attempt) :
    (loop schedule n (used before) true (stopped :: attempts)).2 = .returned := by
  have hlater : (!stopped.stopInWait && !stopped.stopInCall && !stopped.stopAfterCall) = false := by
    rw [← Bool.not_or, ← Bool.not_or, ← isStopped, hs]
    rfl
  unfold loop
  rw [if_pos ⟨hu, rfl⟩, delay_used (by omega)]
  simp only [hlater]
  split
  · rfl
  · split
    · rfl
    · unfold loop
      simp [leave]

theorem loop_givenUp (hn : n ≤ schedule.length) (hu : used before < n)
    (hs : isStopped last = false)
    (hg : GivesUp n (before ++ [last])) (attempts : List Attempt) :
    (loop schedule n (used before) true (last :: attempts)).2 = prematureEnd := by
  by_cases ho : last.status = .other
  · rw [loop_fatal hn hu hs ho]
  · have he := ((givesUp_append before last).mp hg).resolve_left ho
    rw [loop_cons hn hu hs ho, loop_used_up he]

theorem unstopped_or_stops (attempts : List Attempt) :
    Unstopped attempts ∨ ∃ before stopped after, attempts = before ++ stopped :: after ∧
      Unstopped before ∧ isStopped stopped = true := by
  induction attempts with
  | nil => exact Or.inl (fun _ hm => by cases hm)
  | cons attempt attempts ih =>
    cases hs : isStopped attempt with
    | true => exact Or.inr ⟨[], attempt, attempts, rfl, (fun _ hm => by cases hm), hs⟩
    | false =>
      obtain hrest | ⟨before, stopped, after, rfl, hb, hstopped⟩ := ih
      · exact Or.inl (List.forall_mem_cons.mpr ⟨hs, hrest⟩)
      · exact Or.inr ⟨attempt :: before, stopped, after, rfl,
          List.forall_mem_cons.mpr ⟨hs, hb⟩, hstopped⟩

section Endings

variable {subscriber : SubscriberImpl}

theorem ending_append (hc : toInt32 (reconnectSchedule subscriber).length = n)
    (hn : n ≤ (reconnectSchedule subscriber).length) (hs : Unstopped history)
    (h : ∀ earlier, earlier <+: history → ¬GivesUp n earlier) (attempts : List Attempt) :
    (acquirePackets subscriber (history ++ attempts)).2 =
      (loop (reconnectSchedule subscriber) n (used history) true attempts).2 := by
  rw [acquirePackets_eq, hc, loop_append hn hs (by simpa using h), List.nil_append]

theorem ending_of_stopsFirst (hc : toInt32 (reconnectSchedule subscriber).length = n)
    (hn : n ≤ (reconnectSchedule subscriber).length) (h : StopsFirst n attempts) :
    (acquirePackets subscriber attempts).2 = .returned := by
  obtain ⟨before, stopped, after, rfl, hb, hs, hg⟩ := h
  rw [ending_append hc hn hb hg]
  exact loop_stopped hn (used_lt_of_not_givesUp (hg before List.prefix_rfl)) hs after

theorem ending_of_givesUpFirst (hc : toInt32 (reconnectSchedule subscriber).length = n)
    (hn : n ≤ (reconnectSchedule subscriber).length) (h : GivesUpFirst n attempts) :
    (acquirePackets subscriber attempts).2 = prematureEnd := by
  obtain ⟨before, last, after, rfl, hs, hb, hg⟩ := h
  rw [ending_append hc hn (fun attempt hm => hs attempt (List.mem_append_left _ hm)) hb]
  exact loop_givenUp hn (used_lt_of_not_givesUp (hb before List.prefix_rfl))
    (hs last (by simp)) hg after

theorem stops_or_givesUp_or_goesOn (n : ℕ) (attempts : List Attempt) :
    StopsFirst n attempts ∨ GivesUpFirst n attempts ∨
      Unstopped attempts ∧ ∀ history, history <+: attempts → ¬GivesUp n history := by
  obtain hs | ⟨before, stopped, after, rfl, hb, hs⟩ := unstopped_or_stops attempts
  · obtain hg | ⟨before, last, after, rfl, hb, hg⟩ := goesOn_or_givesUp n attempts
    · exact Or.inr (Or.inr ⟨hs, hg⟩)
    · exact Or.inr (Or.inl ⟨before, last, after, rfl, unstopped_of_isPrefix hs ⟨after, by simp⟩,
        hb, hg⟩)
  · obtain hg | ⟨earlier, last, later, rfl, he, hg⟩ := goesOn_or_givesUp n before
    · exact Or.inl ⟨before, stopped, after, rfl, hb, hs, hg⟩
    · exact Or.inr (Or.inl ⟨earlier, last, later ++ stopped :: after, by simp,
        unstopped_of_isPrefix hb ⟨later, by simp⟩, he, hg⟩)

theorem ending_of_stopped (subscriber : SubscriberImpl) (attempts : List Attempt) :
    (acquirePackets subscriber attempts false).2 = .returned := by
  obtain ⟨options, has_grpcOptions⟩ := subscriber
  obtain ⟨grpcOptions, hg⟩ := Option.isSome_iff_exists.mp has_grpcOptions
  simp only [acquirePackets, SubscriberOptions.getGRPCOptions, hg]
  unfold loop
  simp [leave]

/-- A stop always makes `acquirePackets` return, unless it has thrown before; it throws
exactly when it gives up and still sees no stop, and it goes on exactly when there is neither. -/
theorem acquirePackets_ending (subscriber : SubscriberImpl) (attempts : List Attempt)
    (mKeepRunning : Bool) (hfits : (reconnectSchedule subscriber).length < 2 ^ 31) :
    ((acquirePackets subscriber attempts mKeepRunning).2 = .returned ↔
        mKeepRunning = false ∨ StopsFirst (reconnectSchedule subscriber).length attempts) ∧
      ((acquirePackets subscriber attempts mKeepRunning).2 = prematureEnd ↔
        mKeepRunning = true ∧ GivesUpFirst (reconnectSchedule subscriber).length attempts) ∧
      ((acquirePackets subscriber attempts mKeepRunning).2 = .awaiting ↔
        mKeepRunning = true ∧ Unstopped attempts ∧ ∀ history, history <+: attempts →
          ¬GivesUp (reconnectSchedule subscriber).length history) := by
  have hreturned : Ending.returned ≠ prematureEnd := by simp [prematureEnd]
  have hawaiting : Ending.awaiting ≠ prematureEnd := by simp [prematureEnd]
  cases mKeepRunning with
  | false => simp [ending_of_stopped, hreturned]
  | true =>
    simp only [Bool.true_eq_false, false_or, true_and]
    have hc : toInt32 (reconnectSchedule subscriber).length =
        ((reconnectSchedule subscriber).length : Int) := toInt32_of_mem (by omega) (by omega)
    have hstops := @ending_of_stopsFirst _ attempts subscriber hc le_rfl
    have hgives := @ending_of_givesUpFirst _ attempts subscriber hc le_rfl
    have hgoes : Unstopped attempts ∧ (∀ history, history <+: attempts →
        ¬GivesUp (reconnectSchedule subscriber).length history) →
        (acquirePackets subscriber attempts).2 = .awaiting := by
      rintro ⟨hs, hg⟩
      rw [acquirePackets_goesOn hc le_rfl hs hg]
    refine ⟨⟨fun he => ?_, hstops⟩, ⟨fun he => ?_, hgives⟩, ⟨fun he => ?_, hgoes⟩⟩
    all_goals
      obtain h | h | h :=
        stops_or_givesUp_or_goesOn (reconnectSchedule subscriber).length attempts
    · exact h
    · exact absurd (he.symm.trans (hgives h)) hreturned
    · exact absurd (he.symm.trans (hgoes h)) (by simp)
    · exact absurd ((hstops h).symm.trans he) hreturned
    · exact h
    · exact absurd ((hgoes h).symm.trans he) hawaiting
    · exact absurd (he.symm.trans (hstops h)) (by simp)
    · exact absurd (he.symm.trans (hgives h)) hawaiting
    · exact h

/-- The stop comes between the end of the loop and the last look at the flag. -/
def fatalThenStopped : Attempt := { reads := [true], status := .other, stopAfterCall := true }

theorem acquirePackets_ending_fatalThenStopped : ∃ subscriber : SubscriberImpl,
    (acquirePackets subscriber [refusedAttempt, fatalThenStopped]).2 = .returned ∧
    (reconnectSchedule subscriber).length = 4 := by
  refine ⟨⟨SubscriberOptions.construct.setGRPCOptions GRPCClientOptions.construct, rfl⟩, ?_, rfl⟩
  refine (acquirePackets_ending _ _ true (by decide)).1.mpr (Or.inr
    ⟨List.replicate 1 refusedAttempt, _, [], rfl, unstopped_replicate 1, rfl, ?_⟩)
  exact fun history hp => not_givesUp_prefix_replicate (by decide) hp

end Endings

end PacketCache.Stopping

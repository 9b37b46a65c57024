import Mathlib.Data.List.DropRight
import Mathlib.Data.List.Infix
import PacketCache.Subscriber

namespace PacketCache.Reconnects

open PacketCache.ClientOptions PacketCache.Platform PacketCache.Subscriber

def reconnectSchedule (subscriber : SubscriberImpl) : List Int :=
  (subscriber.mOptions.mGRPCOptions.get subscriber.has_grpcOptions).mReconnectSchedule

def isStopped (attempt : Attempt) : Bool :=
  attempt.stopInWait || attempt.stopInCall || attempt.stopAfterCall

def Unstopped (attempts : List Attempt) : Prop :=
  ∀ attempt ∈ attempts, isStopped attempt = false

def fruitless (history : List Attempt) : ℕ :=
  (history.rtakeWhile (fun attempt => !attempt.hadSuccessfulRead)).length

/-- How much of the schedule is used up. The first attempt of all uses none of it, so the
count is one less until data is read. -/
def used (history : List Attempt) : Int :=
  if history.any Attempt.hadSuccessfulRead then fruitless history else fruitless history - 1

def GivesUp (n : ℕ) (history : List Attempt) : Prop :=
  (∃ last ∈ history.getLast?, last.status = .other) ∨ n ≤ used history

def nextWait (schedule : List Int) (history : List Attempt) : Option Int :=
  if 0 ≤ used history then schedule[(used history).toNat]? else none

def prematureEnd : Ending := .threw (.runtimeError "Premature end of subscriber thread")

/-- The reconnect policy, in every run in which no stop is requested. -/
structure Policy (subscriber : SubscriberImpl) : Prop where
  inRange : ∀ attempts, Unstopped attempts → (acquirePackets subscriber attempts).2 ≠ .outOfRange
  goesOn : ∀ attempts, Unstopped attempts →
    (∀ history, history <+: attempts → ¬GivesUp (reconnectSchedule subscriber).length history) →
    acquirePackets subscriber attempts =
      (attempts.inits.map (nextWait (reconnectSchedule subscriber)), .awaiting)
  givesUp : ∀ before last after, Unstopped (before ++ last :: after) →
    (∀ history, history <+: before → ¬GivesUp (reconnectSchedule subscriber).length history) →
    GivesUp (reconnectSchedule subscriber).length (before ++ [last]) →
    acquirePackets subscriber (before ++ last :: after) =
      (before.inits.map (nextWait (reconnectSchedule subscriber)), prematureEnd)
  restores : ∀ before reading idle, Unstopped (before ++ reading :: idle) →
    reading.hadSuccessfulRead = true → (∀ attempt ∈ idle, attempt.hadSuccessfulRead = false) →
    (acquirePackets subscriber (before ++ reading :: idle)).2 = .awaiting →
    ∃ time, (reconnectSchedule subscriber)[idle.length]? = some time ∧
      (acquirePackets subscriber (before ++ reading :: idle)).1.getLast? = some (some time)

section Used

variable {history : List Attempt} {attempt : Attempt}

theorem fruitless_append (h : attempt.hadSuccessfulRead = false) :
    fruitless (history ++ [attempt]) = fruitless history + 1 := by
  simp [fruitless, h]

theorem used_nil : used [] = -1 := rfl

theorem used_append_of_read (h : attempt.hadSuccessfulRead = true) :
    used (history ++ [attempt]) = 0 := by
  simp [used, fruitless, h]

theorem used_append_of_idle (h : attempt.hadSuccessfulRead = false) :
    used (history ++ [attempt]) = used history + 1 := by
  unfold used
  rw [fruitless_append h, List.any_append]
  cases hr : history.any Attempt.hadSuccessfulRead with
  | true => simp
  | false => simp [h]

theorem used_append (history : List Attempt) (attempt : Attempt) :
    used (history ++ [attempt]) =
      (if attempt.hadSuccessfulRead then -1 else used history) + 1 := by
  cases h : attempt.hadSuccessfulRead with
  | true => simpa using used_append_of_read h
  | false => simpa using used_append_of_idle h

theorem used_read_idle (before : List Attempt) {idle : List Attempt} {reading : Attempt}
    (hr : reading.hadSuccessfulRead = true)
    (hi : ∀ attempt ∈ idle, attempt.hadSuccessfulRead = false) :
    used (before ++ reading :: idle) = idle.length := by
  induction idle using List.reverseRecOn with
  | nil => exact used_append_of_read hr
  | append_singleton idle attempt ih =>
    have ih := ih fun a ha => hi a (List.mem_append_left _ ha)
    rw [← List.cons_append, ← List.append_assoc, used_append_of_idle (hi attempt (by simp)), ih]
    simp

end Used

section Runs

variable {schedule : List Int} {n : ℕ} {before : List Attempt}

theorem givesUp_append (history : List Attempt) (attempt : Attempt) :
    GivesUp n (history ++ [attempt]) ↔
      attempt.status = .other ∨ n ≤ used (history ++ [attempt]) := by
  simp [GivesUp]

theorem delay_used (hu : used before < schedule.length) :
    delay schedule (used before) = .ok (nextWait schedule before) := by
  unfold delay nextWait
  by_cases h : 0 ≤ used before
  · have hl : (used before).toNat < schedule.length := by omega
    rw [if_pos h, if_pos h, List.getElem?_eq_getElem hl]
  · rw [if_neg h, if_neg h]

theorem breaksOn_running (status : StatusCode) : breaksOn true status = true ↔ status = .other := by
  cases status <;> simp [breaksOn]

theorem loop_used_up (hu : n ≤ used before) (attempts : List Attempt) :
    loop schedule n (used before) true attempts = ([], prematureEnd) := by
  unfold loop
  rw [if_neg (by omega)]
  rfl

theorem loop_nil (hn : n ≤ schedule.length) (hu : used before < n) :
    loop schedule n (used before) true [] = ([nextWait schedule before], .awaiting) := by
  unfold loop
  rw [if_pos ⟨hu, rfl⟩, delay_used (by omega)]

theorem isStopped_eq_false {attempt : Attempt} : isStopped attempt = false ↔
    (attempt.stopInWait = false ∧ attempt.stopInCall = false) ∧ attempt.stopAfterCall = false := by
  simp [isStopped]

theorem loop_fatal (hn : n ≤ schedule.length) (hu : used before < n) {attempt : Attempt}
    (hs : isStopped attempt = false)
    (ho : attempt.status = .other) (attempts : List Attempt) :
    loop schedule n (used before) true (attempt :: attempts) =
      ([nextWait schedule before], prematureEnd) := by
  unfold loop
  rw [if_pos ⟨hu, rfl⟩, delay_used (by omega)]
  simp [isStopped_eq_false.mp hs, ho, breaksOn, leave, prematureEnd]

theorem loop_cons (hn : n ≤ schedule.length) (hu : used before < n) {attempt : Attempt}
    (hs : isStopped attempt = false)
    (ho : attempt.status ≠ .other) (attempts : List Attempt) :
    loop schedule n (used before) true (attempt :: attempts) =
      (nextWait schedule before ::
          (loop schedule n (used (before ++ [attempt])) true attempts).1,
        (loop schedule n (used (before ++ [attempt])) true attempts).2) := by
  have hb : breaksOn true attempt.status = false := by
    rw [← Bool.not_eq_true, breaksOn_running]
    exact ho
  rw [used_append]
  conv_lhs => unfold loop
  rw [if_pos ⟨hu, rfl⟩, delay_used (by omega)]
  simp [isStopped_eq_false.mp hs, hb]

theorem used_lt_of_not_givesUp {history : List Attempt} (h : ¬GivesUp n history) :
    used history < n :=
  not_le.mp fun hu => h (Or.inr hu)

theorem not_givesUp_cons {attempt : Attempt} {attempts : List Attempt}
    (h : ∀ history, history <+: attempt :: attempts → ¬GivesUp n (before ++ history)) :
    attempt.status ≠ .other ∧ used (before ++ [attempt]) < n ∧
      ∀ history, history <+: attempts → ¬GivesUp n (before ++ [attempt] ++ history) := by
  have h1 := h [attempt] (by simp)
  refine ⟨fun ho => h1 ((givesUp_append before attempt).mpr (Or.inl ho)),
    used_lt_of_not_givesUp h1, ?_⟩
  intro history hp
  rw [List.append_assoc]
  exact h (attempt :: history) ((List.prefix_cons_inj attempt).mpr hp)

theorem loop_goesOn (hn : n ≤ schedule.length) {attempts : List Attempt}
    (hs : Unstopped attempts) (hu : used before < n)
    (h : ∀ history, history <+: attempts → ¬GivesUp n (before ++ history)) :
    loop schedule n (used before) true attempts =
      (attempts.inits.map (fun history => nextWait schedule (before ++ history)), .awaiting) := by
  induction attempts generalizing before with
  | nil =>
    rw [loop_nil hn hu]
    simp
  | cons attempt attempts ih =>
    obtain ⟨ho, hu', hr⟩ := not_givesUp_cons h
    have hs' : Unstopped attempts := fun a ha => hs a (List.mem_cons_of_mem _ ha)
    rw [loop_cons hn hu (hs attempt (by simp)) ho, ih hs' hu' hr]
    simp [Function.comp_def]

theorem loop_givesUp (hn : n ≤ schedule.length) {history after : List Attempt} {last : Attempt}
    (hs : Unstopped (history ++ last :: after)) (hu : used before < n)
    (h : ∀ earlier, earlier <+: history → ¬GivesUp n (before ++ earlier))
    (hg : GivesUp n (before ++ (history ++ [last]))) :
    loop schedule n (used before) true (history ++ last :: after) =
      (history.inits.map (fun earlier => nextWait schedule (before ++ earlier)), prematureEnd) := by
  induction history generalizing before with
  | nil =>
    have hl := hs last (by simp)
    by_cases ho : last.status = .other
    · rw [List.nil_append, loop_fatal hn hu hl ho]
      simp
    · have he := ((givesUp_append before last).mp hg).resolve_left ho
      rw [List.nil_append, loop_cons hn hu hl ho, loop_used_up he]
      simp
  | cons attempt history ih =>
    obtain ⟨ho, hu', hr⟩ := not_givesUp_cons h
    have hs' : Unstopped (history ++ last :: after) := fun a ha => hs a (List.mem_cons_of_mem _ ha)
    rw [List.cons_append, loop_cons hn hu (hs attempt (by simp)) ho,
      ih hs' hu' hr (by simpa using hg)]
    simp [Function.comp_def]

theorem goesOn_or_givesUp (n : ℕ) (attempts : List Attempt) :
    (∀ history, history <+: attempts → ¬GivesUp n history) ∨
      ∃ before last after, attempts = before ++ last :: after ∧
        (∀ history, history <+: before → ¬GivesUp n history) ∧ GivesUp n (before ++ [last]) := by
  induction attempts using List.reverseRecOn with
  | nil =>
    left
    intro history hp
    rw [List.prefix_nil.mp hp]
    rintro (⟨last, hl, -⟩ | hu)
    · cases hl
    · rw [used_nil] at hu
      omega
  | append_singleton attempts last ih =>
    obtain h | ⟨before, first, after, rfl, h, hg⟩ := ih
    · by_cases hg : GivesUp n (attempts ++ [last])
      · exact Or.inr ⟨attempts, last, [], rfl, h, hg⟩
      · left
        intro history hp
        obtain rfl | hp := List.prefix_concat_iff.mp hp
        · exact hg
        · exact h history hp
    · exact Or.inr ⟨before, first, after ++ [last], by simp, h, hg⟩

end Runs

section Policies

variable {subscriber : SubscriberImpl} {n : ℕ}

theorem acquirePackets_eq (subscriber : SubscriberImpl) (attempts : List Attempt) :
    acquirePackets subscriber attempts =
      loop (reconnectSchedule subscriber) (toInt32 (reconnectSchedule subscriber).length)
        (used []) true attempts := by
  obtain ⟨options, has_grpcOptions⟩ := subscriber
  obtain ⟨grpcOptions, hg⟩ := Option.isSome_iff_exists.mp has_grpcOptions
  simp [acquirePackets, SubscriberOptions.getGRPCOptions, reconnectSchedule, hg, used_nil]

theorem nextWait_last (schedule : List Int) (attempts : List Attempt) :
    (attempts.inits.map (nextWait schedule)).getLast? = some (nextWait schedule attempts) := by
  induction attempts using List.reverseRecOn with
  | nil => rfl
  | append_singleton attempts last ih => simp [List.inits_append]

section Count

-- the length of the schedule as the loop has it, in an `int`
variable (hc : toInt32 (reconnectSchedule subscriber).length = n)
  (hn : n ≤ (reconnectSchedule subscriber).length)
include hc hn

theorem acquirePackets_goesOn {attempts : List Attempt} (hs : Unstopped attempts)
    (h : ∀ history, history <+: attempts → ¬GivesUp n history) :
    acquirePackets subscriber attempts =
      (attempts.inits.map (nextWait (reconnectSchedule subscriber)), .awaiting) := by
  have hu : used [] < n := used_lt_of_not_givesUp (h [] List.nil_prefix)
  rw [acquirePackets_eq, hc, loop_goesOn hn hs hu (by simpa using h)]
  simp

theorem acquirePackets_givesUp {before after : List Attempt} {last : Attempt}
    (hs : Unstopped (before ++ last :: after))
    (h : ∀ history, history <+: before → ¬GivesUp n history) (hg : GivesUp n (before ++ [last])) :
    acquirePackets subscriber (before ++ last :: after) =
      (before.inits.map (nextWait (reconnectSchedule subscriber)), prematureEnd) := by
  have hu : used [] < n := used_lt_of_not_givesUp (h [] List.nil_prefix)
  rw [acquirePackets_eq, hc, loop_givesUp hn hs hu (by simpa using h) (by simpa using hg)]
  simp

theorem acquirePackets_inRange {attempts : List Attempt} (hs : Unstopped attempts) :
    (acquirePackets subscriber attempts).2 ≠ .outOfRange := by
  obtain hg | ⟨before, last, after, rfl, hb, hg⟩ := goesOn_or_givesUp n attempts
  · rw [acquirePackets_goesOn hc hn hs hg]
    simp
  · rw [acquirePackets_givesUp hc hn hs hb hg]
    simp [prematureEnd]

theorem acquirePackets_restores {before idle : List Attempt} {reading : Attempt}
    (hs : Unstopped (before ++ reading :: idle)) (hr : reading.hadSuccessfulRead = true)
    (hi : ∀ attempt ∈ idle, attempt.hadSuccessfulRead = false)
    (ha : (acquirePackets subscriber (before ++ reading :: idle)).2 = .awaiting) :
    ∃ time, (reconnectSchedule subscriber)[idle.length]? = some time ∧
      (acquirePackets subscriber (before ++ reading :: idle)).1.getLast? = some (some time) := by
  obtain hg | ⟨earlier, last, after, he, hb, hg⟩ :=
    goesOn_or_givesUp n (before ++ reading :: idle)
  · have hp := used_lt_of_not_givesUp (hg _ List.prefix_rfl)
    have hk := used_read_idle before hr hi
    have hl : idle.length < (reconnectSchedule subscriber).length := by omega
    refine ⟨_, List.getElem?_eq_getElem hl, ?_⟩
    rw [acquirePackets_goesOn hc hn hs hg]
    show List.getLast? (List.map _ _) = _
    rw [nextWait_last]
    simp [nextWait, hk, hl]
  · rw [he] at hs ha
    rw [acquirePackets_givesUp hc hn hs hb hg] at ha
    cases ha

end Count

theorem policy_of_fits (h : (reconnectSchedule subscriber).length < 2 ^ 31) :
    Policy subscriber := by
  have hc : toInt32 (reconnectSchedule subscriber).length =
      ((reconnectSchedule subscriber).length : Int) := toInt32_of_mem (by omega) (by omega)
  exact ⟨fun _ => acquirePackets_inRange hc le_rfl, fun _ => acquirePackets_goesOn hc le_rfl,
    fun _ _ _ => acquirePackets_givesUp hc le_rfl, fun _ _ _ => acquirePackets_restores hc le_rfl⟩

def refusedAttempt : Attempt := { reads := [false], status := .unavailable }

theorem unstopped_replicate (k : ℕ) : Unstopped (List.replicate k refusedAttempt) := by
  intro attempt ha
  rw [List.eq_of_mem_replicate ha]
  rfl

theorem used_replicate (k : ℕ) : used (List.replicate k refusedAttempt) = k - 1 := by
  induction k with
  | zero => rfl
  | succ k ih =>
    rw [List.replicate_succ', used_append_of_idle rfl, ih]
    omega

theorem givesUp_replicate (k : ℕ) : GivesUp n (List.replicate k refusedAttempt) ↔ n < k := by
  unfold GivesUp
  rw [used_replicate]
  constructor
  · rintro (⟨last, hl, ho⟩ | hu)
    · rw [List.eq_of_mem_replicate (List.mem_of_getLast? hl)] at ho
      cases ho
    · omega
  · intro hk
    right
    omega

theorem not_givesUp_prefix_replicate {k : ℕ} (hk : k ≤ n) {history : List Attempt}
    (h : history <+: List.replicate k refusedAttempt) : ¬GivesUp n history := by
  rw [List.prefix_replicate_iff] at h
  rw [h.2, givesUp_replicate]
  omega

/-- The `int` that a longer length is cast to is smaller, so the loop gives up while there
are waits left. -/
theorem not_policy_of_overflows (h : 2 ^ 31 ≤ (reconnectSchedule subscriber).length) :
    ¬Policy subscriber := by
  intro policy
  have hlt : toInt32 (reconnectSchedule subscriber).length < 2 ^ 31 := by
    unfold toInt32
    have := Int.bmod_lt (x := ((reconnectSchedule subscriber).length : Int)) (m := 2 ^ 32)
      (by decide)
    omega
  by_cases hm : 0 ≤ toInt32 (reconnectSchedule subscriber).length
  · obtain ⟨m, hc⟩ := Int.eq_ofNat_of_zero_le hm
    have hn : m < (reconnectSchedule subscriber).length := by omega
    have hs := unstopped_replicate (m + 1)
    have hall := policy.goesOn _ hs fun history hp => not_givesUp_prefix_replicate hn hp
    rw [List.replicate_succ'] at hs hall
    rw [acquirePackets_givesUp hc hn.le hs
      (fun history hp => not_givesUp_prefix_replicate le_rfl hp)
      (by rw [← List.replicate_succ', givesUp_replicate]; omega)] at hall
    cases congrArg Prod.snd hall
  · have hall := policy.goesOn [] (by simp [Unstopped]) fun history hp =>
      not_givesUp_prefix_replicate (k := 0) (Nat.zero_le _) hp
    rw [acquirePackets_eq] at hall
    unfold loop at hall
    rw [if_neg (by rw [used_nil]; omega)] at hall
    cases congrArg Prod.snd hall

/-- The policy is kept exactly when the length of the schedule fits in the `int` that the
loop counts with. -/
theorem policy_iff_fits (subscriber : SubscriberImpl) :
    Policy subscriber ↔ (reconnectSchedule subscriber).length < 2 ^ 31 :=
  ⟨fun policy => not_le.mp fun h => not_policy_of_overflows h policy, policy_of_fits⟩

/-- Cast to an `int`, a length of 2^31 is negative: with that many waits left the loop gives
up before the first attempt. -/
theorem long_schedule_unused : ∃ options subscriber,
    GRPCClientOptions.construct.setReconnectSchedule (List.replicate (2 ^ 31) 0) = .ok options ∧
    construct (SubscriberOptions.construct.setGRPCOptions options) = .ok subscriber ∧
    acquirePackets subscriber [] = ([], prematureEnd) ∧ ¬Policy subscriber := by
  have h0 : ∀ time ∈ List.replicate (2 ^ 31) (0 : Int), 0 ≤ time := by
    intro time ht
    rw [List.eq_of_mem_replicate ht]
  obtain ⟨options, ho, hs⟩ := GRPCClientOptions.construct.setReconnectSchedule_ok h0
  have hl : options.mReconnectSchedule.length = 2 ^ 31 := by rw [hs, List.length_replicate]
  refine ⟨options, ⟨SubscriberOptions.construct.setGRPCOptions options, rfl⟩, ho, rfl, ?_, ?_⟩
  · have hc : toInt32 ((2 ^ 31 : ℕ) : Int) = -2 ^ 31 := by decide
    rw [acquirePackets_eq]
    show loop _ (toInt32 options.mReconnectSchedule.length) _ _ _ = _
    rw [hl, hc]
    rfl
  · exact not_policy_of_overflows hl.ge

end Policies

end PacketCache.Reconnects

import PacketCache.Transitions
import Mathlib.Algebra.BigOperators.Group.List.Basic
import Mathlib.Algebra.Order.Group.Int
import Mathlib.Algebra.Ring.Int.Defs
import Mathlib.Logic.Function.Basic

namespace PacketCache.Reporting

inductive Counter
  | packetsReceived
  | packetsRemoved
  | invalidPacketsReceived
  | importOverflowPacket
  | invalidAccess
  | successfulRPC
  | invalidRequests
  | serverError
deriving DecidableEq

def readOrder : List Counter :=
  [.packetsReceived, .packetsRemoved, .invalidPacketsReceived, .importOverflowPacket,
    .invalidAccess, .successfulRPC, .invalidRequests, .serverError]

inductive Entry
  | packetsReceived
  | invalidPackets
  | overflow
  | packetsRemoved
  | rejected
  | totalRequests
  | successfulRequests
  | invalidRequests
  | serverErrors
deriving DecidableEq

def total (values : Counter → Int) : Entry → Int
  | .packetsReceived => values .packetsReceived
  | .invalidPackets => values .invalidPacketsReceived
  | .overflow => values .importOverflowPacket
  | .packetsRemoved => values .packetsRemoved
  | .rejected => values .invalidAccess
  | .totalRequests => values .successfulRPC + values .invalidRequests + values .serverError
  | .successfulRequests => values .successfulRPC
  | .invalidRequests => values .invalidRequests
  | .serverErrors => values .serverError

/-- Where the main thread stands: outside of a summary, or at the next of its loads. -/
inductive PrintSummary
  | idle
  | loading (rest : List Counter) (values : Counter → Int)

structure Summary where
  time : Int
  entries : Entry → Int

/-- The counters, which the other threads increment while the main thread loads them. -/
structure State where
  counters : Counter → Int := fun _ => 0
  mLastReport : Int
  lastReport : Entry → Int := fun _ => 0
  printSummary : PrintSummary := .idle
  printed : List Summary := []

inductive Event
  | increment (counter : Counter) (amount : Nat)
  | printSummary (now : Int)

variable (printSummaryInterval : Int)

def stepPrintSummary (s : State) (now : Int) : State :=
  match s.printSummary with
  | .idle =>
    if printSummaryInterval ≤ 0 then s
    else if now < s.mLastReport + printSummaryInterval then s
    else { s with mLastReport := now, printSummary := .loading readOrder (fun _ => 0) }
  | .loading (counter :: rest) values =>
    { s with
      printSummary := .loading rest (Function.update values counter (s.counters counter)) }
  | .loading [] values =>
    { s with
      printed := s.printed ++
        [⟨s.mLastReport, fun entry => total values entry - s.lastReport entry⟩]
      lastReport := total values
      printSummary := .idle }

def step (s : State) : Event → Option State
  | .increment counter amount =>
    some { s with
      counters := Function.update s.counters counter (s.counters counter + amount) }
  | .printSummary now => some (stepPrintSummary printSummaryInterval s now)

def run (start : Int) (events : List Event) : Option State :=
  Transitions.run (step printSummaryInterval) { mLastReport := start } events

def counted (events : List Event) (counter : Counter) : Int :=
  (events.map fun
    | .increment incremented amount => if incremented = counter then (amount : Int) else 0
    | .printSummary _ => 0).sum

theorem mem_readOrder (counter : Counter) : counter ∈ readOrder := by
  cases counter <;> decide

theorem total_le {values values' : Counter → Int} (h : ∀ counter, values counter ≤ values' counter)
    (entry : Entry) : total values entry ≤ total values' entry := by
  cases entry with
  | totalRequests =>
    exact Int.add_le_add (Int.add_le_add (h _) (h _)) (h _)
  | _ => exact h _

def Loaded (last counters : Counter → Int) : PrintSummary → Prop
  | .idle => True
  | .loading rest values => ∀ counter, counter ∉ rest →
      last counter ≤ values counter ∧ values counter ≤ counters counter

def Timed (printed : List Summary) (mLastReport : Int) : PrintSummary → Prop
  | .idle => ∀ summary ∈ printed, summary.time ≤ mLastReport
  | .loading _ _ => 0 < printSummaryInterval ∧
      ∀ summary ∈ printed, summary.time + printSummaryInterval ≤ mLastReport

/-- `last` are the values of the counters that the last summary loaded. -/
structure Sound (last : Counter → Int) (s : State) : Prop where
  lastReport : s.lastReport = total last
  below : ∀ counter, last counter ≤ s.counters counter
  loaded : Loaded last s.counters s.printSummary
  sum : ∀ entry, (s.printed.map fun summary => summary.entries entry).sum = s.lastReport entry
  nonneg : ∀ summary ∈ s.printed, ∀ entry, 0 ≤ summary.entries entry
  requests : ∀ summary ∈ s.printed, summary.entries .totalRequests =
    summary.entries .successfulRequests + summary.entries .invalidRequests +
      summary.entries .serverErrors
  timed : Timed printSummaryInterval s.printed s.mLastReport s.printSummary
  apart : s.printed.Pairwise fun earlier later =>
    earlier.time + printSummaryInterval ≤ later.time

variable {printSummaryInterval} {s s' : State} {last : Counter → Int} {events : List Event}

theorem le_update {counters : Counter → Int} (counter other : Counter) (amount : Nat) :
    counters other ≤ Function.update counters counter (counters counter + amount) other := by
  by_cases h : other = counter
  · subst h
    rw [Function.update_self]
    omega
  · rw [Function.update_of_ne h]

theorem Sound.increment (h : Sound printSummaryInterval last s) (counter : Counter)
    (amount : Nat) : Sound printSummaryInterval last { s with
      counters := Function.update s.counters counter (s.counters counter + amount) } := by
  have hgrow := fun other => @le_update s.counters counter other amount
  refine ⟨h.lastReport, fun other => (h.below other).trans (hgrow other), ?_, h.sum, h.nonneg,
    h.requests, h.timed, h.apart⟩
  have hloaded := h.loaded
  cases hp : s.printSummary with
  | idle => trivial
  | loading rest values =>
    rw [hp] at hloaded
    exact fun other hr => ⟨(hloaded other hr).1, (hloaded other hr).2.trans (hgrow other)⟩

theorem Sound.begin {now : Int} (h : Sound printSummaryInterval last s)
    (hp : s.printSummary = .idle) (hi : 0 < printSummaryInterval) (hlate : ¬now < s.mLastReport + printSummaryInterval) :
    Sound printSummaryInterval last { s with
      mLastReport := now, printSummary := .loading readOrder (fun _ => 0) } := by
  have htimed := h.timed
  rw [hp] at htimed
  refine ⟨h.lastReport, h.below, fun counter hr => absurd (mem_readOrder counter) hr, h.sum,
    h.nonneg, h.requests, ⟨hi, fun summary hm => ?_⟩, h.apart⟩
  have hle := htimed summary hm
  show summary.time + printSummaryInterval ≤ now
  omega

theorem Sound.load {counter : Counter} {rest : List Counter} {values : Counter → Int}
    (h : Sound printSummaryInterval last s)
    (hp : s.printSummary = .loading (counter :: rest) values) :
    Sound printSummaryInterval last { s with
      printSummary := .loading rest (Function.update values counter (s.counters counter)) } := by
  have hloaded := h.loaded
  have htimed := h.timed
  rw [hp] at hloaded htimed
  refine ⟨h.lastReport, h.below, fun other hr => ?_, h.sum, h.nonneg, h.requests, htimed, h.apart⟩
  by_cases hother : other = counter
  · subst hother
    rw [Function.update_self]
    exact ⟨h.below other, Int.le_refl _⟩
  · rw [Function.update_of_ne hother]
    exact hloaded other (fun hm => hr ((List.mem_cons.mp hm).resolve_left hother))

theorem Sound.print {values : Counter → Int} (h : Sound printSummaryInterval last s)
    (hp : s.printSummary = .loading [] values) :
    Sound printSummaryInterval values { s with
      printed := s.printed ++
        [⟨s.mLastReport, fun entry => total values entry - s.lastReport entry⟩]
      lastReport := total values
      printSummary := .idle } := by
  have hloaded := h.loaded
  have htimed := h.timed
  rw [hp] at hloaded htimed
  obtain ⟨hi, htimed⟩ := htimed
  refine ⟨rfl, fun counter => (hloaded counter (by simp)).2, trivial, fun entry => ?_, ?_, ?_,
    fun summary hm => ?_, ?_⟩
  · have hsum := h.sum entry
    simp only [List.map_append, List.sum_append, List.map_cons, List.map_nil, List.sum_cons,
      List.sum_nil, hsum]
    omega
  · intro summary hm entry
    cases List.mem_append.mp hm with
    | inl hm => exact h.nonneg summary hm entry
    | inr hm =>
      obtain rfl := List.mem_singleton.mp hm
      have hle := total_le (fun counter => (hloaded counter (by simp)).1) entry
      have hlast := congrFun h.lastReport entry
      show 0 ≤ total values entry - s.lastReport entry
      omega
  · intro summary hm
    cases List.mem_append.mp hm with
    | inl hm => exact h.requests summary hm
    | inr hm =>
      obtain rfl := List.mem_singleton.mp hm
      simp only [h.lastReport, total]
      omega
  · cases List.mem_append.mp hm with
    | inl hm =>
      have hle := htimed summary hm
      show summary.time ≤ s.mLastReport
      omega
    | inr hm =>
      obtain rfl := List.mem_singleton.mp hm
      exact Int.le_refl _
  · refine List.pairwise_append.mpr ⟨h.apart, List.pairwise_singleton _ _, ?_⟩
    intro summary hm later hl
    obtain rfl := List.mem_singleton.mp hl
    exact htimed summary hm

theorem stepPrintSummary_cases (printSummaryInterval : Int) (s : State) (now : Int) :
    (s.printSummary = .idle ∧ stepPrintSummary printSummaryInterval s now = s) ∨
    (s.printSummary = .idle ∧ 0 < printSummaryInterval ∧
      ¬now < s.mLastReport + printSummaryInterval ∧
      stepPrintSummary printSummaryInterval s now =
        { s with mLastReport := now, printSummary := .loading readOrder (fun _ => 0) }) ∨
    (∃ counter rest values, s.printSummary = .loading (counter :: rest) values ∧
      stepPrintSummary printSummaryInterval s now = { s with
        printSummary := .loading rest (Function.update values counter (s.counters counter)) }) ∨
    ∃ values, s.printSummary = .loading [] values ∧
      stepPrintSummary printSummaryInterval s now = { s with
        printed := s.printed ++
          [⟨s.mLastReport, fun entry => total values entry - s.lastReport entry⟩]
        lastReport := total values
        printSummary := .idle } := by
  cases hp : s.printSummary with
  | idle =>
    by_cases hi : printSummaryInterval ≤ 0
    · exact Or.inl ⟨rfl, by simp only [stepPrintSummary, hp, if_pos hi]⟩
    by_cases hearly : now < s.mLastReport + printSummaryInterval
    · exact Or.inl ⟨rfl, by simp only [stepPrintSummary, hp, if_neg hi, if_pos hearly]⟩
    · exact Or.inr (Or.inl ⟨rfl, by omega, hearly,
        by simp only [stepPrintSummary, hp, if_neg hi, if_neg hearly]⟩)
  | loading rest values =>
    cases rest with
    | nil => exact Or.inr (Or.inr (Or.inr ⟨values, rfl, by simp only [stepPrintSummary, hp]⟩))
    | cons counter rest =>
      exact Or.inr (Or.inr (Or.inl
        ⟨counter, rest, values, rfl, by simp only [stepPrintSummary, hp]⟩))

theorem Sound.step {event : Event} (h : ∃ last, Sound printSummaryInterval last s)
    (hstep : Reporting.step printSummaryInterval s event = some s') :
    ∃ last, Sound printSummaryInterval last s' := by
  obtain ⟨last, h⟩ := h
  cases event with
  | increment counter amount =>
    obtain rfl := Option.some.inj hstep
    exact ⟨last, h.increment counter amount⟩
  | printSummary now =>
    obtain rfl := Option.some.inj hstep
    obtain ⟨_, he⟩ | ⟨hp, hi, hlate, he⟩ | ⟨_, _, _, hp, he⟩ | ⟨values, hp, he⟩ :=
      stepPrintSummary_cases printSummaryInterval s now
    all_goals simp only [he]
    · exact ⟨last, h⟩
    · exact ⟨last, h.begin hp hi hlate⟩
    · exact ⟨last, h.load hp⟩
    · exact ⟨values, h.print hp⟩

theorem Sound.start (printSummaryInterval start : Int) :
    Sound printSummaryInterval (fun _ => 0) { mLastReport := start } := by
  refine ⟨?_, fun _ => Int.le_refl _, trivial, fun _ => rfl, by simp, by simp, by simp [Timed],
    List.Pairwise.nil⟩
  funext entry
  cases entry <;> rfl

theorem Sound.run {start : Int} (hrun : Reporting.run printSummaryInterval start events = some s) :
    ∃ last, Sound printSummaryInterval last s :=
  Transitions.run_invariant (I := fun s => ∃ last, Sound printSummaryInterval last s)
    (fun _ _ _ h hstep => Sound.step h hstep) ⟨_, Sound.start printSummaryInterval start⟩ hrun

theorem counters_run {start : Int}
    (hrun : Reporting.run printSummaryInterval start events = some s) :
    s.counters = counted events := by
  induction events using List.reverseRecOn generalizing s with
  | nil =>
    obtain rfl := Transitions.run_nil.mp hrun
    rfl
  | append_singleton events event ih =>
    obtain ⟨mid, hmid, hstep⟩ := Transitions.run_snoc.mp hrun
    have hcounters := ih hmid
    funext other
    cases event with
    | increment counter amount =>
      obtain rfl := Option.some.inj hstep
      by_cases hother : other = counter
      · subst hother
        simp [counted, hcounters]
      · simp [counted, hcounters, Function.update_of_ne hother, Ne.symm hother]
    | printSummary now =>
      obtain rfl := Option.some.inj hstep
      have hsame : (stepPrintSummary printSummaryInterval mid now).counters = mid.counters := by
        obtain ⟨_, he⟩ | ⟨_, _, _, he⟩ | ⟨_, _, _, _, he⟩ | ⟨_, _, he⟩ :=
          stepPrintSummary_cases printSummaryInterval mid now
        all_goals rw [he]
      simp [hsame, hcounters, counted]

section Complete

def Covers (base : Counter → Int) (s : State) : Prop :=
  (∀ counter, base counter ≤ s.counters counter) ∧
    match s.printSummary with
    | .idle => ∀ entry, total base entry ≤ s.lastReport entry
    | .loading rest values => ∀ counter, counter ∉ rest → base counter ≤ values counter

def stepsToPrint (s : State) : Nat :=
  match s.printSummary with
  | .idle => 0
  | .loading rest _ => rest.length + 1

def isPrintSummary : Event → Bool
  | .printSummary _ => true
  | .increment _ _ => false

variable {base : Counter → Int} {event : Event}

theorem Covers.step (h : Covers base s)
    (hstep : Reporting.step printSummaryInterval s event = some s') :
    Covers base s' ∧
      ((∀ entry, total base entry ≤ s.lastReport entry) →
        ∀ entry, total base entry ≤ s'.lastReport entry) ∧
      ((∀ entry, total base entry ≤ s'.lastReport entry) ∨
        stepsToPrint s' + (if isPrintSummary event then 1 else 0) ≤ stepsToPrint s) := by
  obtain ⟨hbelow, hcovers⟩ := h
  cases event with
  | increment counter amount =>
    obtain rfl := Option.some.inj hstep
    exact ⟨⟨fun other => (hbelow other).trans (le_update counter other amount), hcovers⟩, id,
      Or.inr (Nat.le_refl _)⟩
  | printSummary now =>
    obtain rfl := Option.some.inj hstep
    obtain ⟨hp, he⟩ | ⟨hp, _, _, he⟩ | ⟨counter, rest, values, hp, he⟩ | ⟨values, hp, he⟩ :=
      stepPrintSummary_cases printSummaryInterval s now
    all_goals
      rw [he]
      rw [hp] at hcovers
    · refine ⟨⟨hbelow, ?_⟩, id, Or.inl hcovers⟩
      rw [hp]
      exact hcovers
    · exact ⟨⟨hbelow, fun counter hr => absurd (mem_readOrder counter) hr⟩, id, Or.inl hcovers⟩
    · refine ⟨⟨hbelow, fun other hr => ?_⟩, id, Or.inr ?_⟩
      · by_cases hother : other = counter
        · subst hother
          rw [Function.update_self]
          exact hbelow other
        · rw [Function.update_of_ne hother]
          exact hcovers other (fun hm => hr ((List.mem_cons.mp hm).resolve_left hother))
      · simp [stepsToPrint, hp, isPrintSummary]
    · have hprinted := total_le (fun counter => hcovers counter (by simp))
      exact ⟨⟨hbelow, hprinted⟩, fun _ => hprinted, Or.inl hprinted⟩

theorem covered_run (h : Covers base s) (hsteps : stepsToPrint s ≤ 9)
    (hrun : Transitions.run (step printSummaryInterval) s events = some s')
    (hcount : 9 ≤ events.countP isPrintSummary) (entry : Entry) :
    total base entry ≤ s'.lastReport entry := by
  refine Transitions.reached_of_rank (I := Covers base) isPrintSummary
    (fun s => ∀ entry, total base entry ≤ s.lastReport entry) stepsToPrint
    (fun s event s' hc hstep => ⟨(hc.step hstep).1, (hc.step hstep).2.1⟩)
    (fun s event s' hc hstep => (hc.step hstep).2.2) (fun s hc hzero => ?_) h hrun
    (Nat.le_trans hsteps hcount) entry
  have hcovers := hc.2
  cases hp : s.printSummary with
  | idle =>
    rw [hp] at hcovers
    exact hcovers
  | loading rest values => simp [stepsToPrint, hp] at hzero

end Complete

/-- Whatever is counted while the main thread loads the counters, the entries of the summaries
are never negative, they add up to no more than what was counted, and a summary that is begun
makes them add up to at least what was counted before it. The requests of each summary are the
sum of its three kinds, and summaries are begun at least the interval apart. -/
theorem summaries_add_up {start : Int}
    (hrun : Reporting.run printSummaryInterval start events = some s) :
    (∀ entry, (s.printed.map fun summary => summary.entries entry).sum ≤
        total (counted events) entry) ∧
      (∀ summary ∈ s.printed, (∀ entry, 0 ≤ summary.entries entry) ∧
        summary.entries .totalRequests = summary.entries .successfulRequests +
          summary.entries .invalidRequests + summary.entries .serverErrors) ∧
      (s.printed.Pairwise fun earlier later =>
        earlier.time + printSummaryInterval ≤ later.time) ∧
      ∀ before now after mid, events = before ++ .printSummary now :: after →
        Reporting.run printSummaryInterval start before = some mid →
        mid.printSummary = .idle → 0 < printSummaryInterval →
        mid.mLastReport + printSummaryInterval ≤ now → 9 ≤ after.countP isPrintSummary →
        ∀ entry, total (counted before) entry ≤
          (s.printed.map fun summary => summary.entries entry).sum := by
  obtain ⟨last, h⟩ := Sound.run hrun
  refine ⟨fun entry => ?_, fun summary hm => ⟨h.nonneg summary hm, h.requests summary hm⟩,
    h.apart, ?_⟩
  · rw [h.sum, h.lastReport, ← counters_run hrun]
    exact total_le h.below entry
  · rintro before now after mid rfl hmid hidle hi hlate hcount entry
    obtain ⟨_, hbefore, hrest⟩ := Transitions.run_append.mp hrun
    obtain rfl := Option.some.inj (hmid.symm.trans hbefore)
    obtain ⟨_, hbegin, hafter⟩ := Transitions.run_cons.mp hrest
    obtain rfl := Option.some.inj hbegin
    have hbegun : stepPrintSummary printSummaryInterval mid now =
        { mid with mLastReport := now, printSummary := .loading readOrder (fun _ => 0) } := by
      simp only [stepPrintSummary, hidle]
      rw [if_neg (by omega), if_neg (by omega)]
    rw [hbegun] at hafter
    rw [h.sum, ← counters_run hmid]
    refine covered_run ⟨fun _ => Int.le_refl _, ?_⟩ (Nat.le_refl _) hafter hcount entry
    exact fun counter hr => absurd (mem_readOrder counter) hr

def twoSummaries : List Event :=
  [.increment .packetsReceived 3, .printSummary 60, .printSummary 60,
    .increment .packetsReceived 2] ++ List.replicate 8 (.printSummary 61) ++
    List.replicate 10 (.printSummary 120)

theorem summaries_add_up_twoSummaries : ∃ s, run 60 0 twoSummaries = some s ∧
    s.printed.map (fun summary => summary.entries .packetsReceived) = [3, 2] ∧
    total (counted twoSummaries) .packetsReceived ≥ 3 + 2 := by
  refine ⟨_, rfl, rfl, ?_⟩
  exact (@summaries_add_up 60 _ twoSummaries 0 rfl).1 .packetsReceived

end PacketCache.Reporting

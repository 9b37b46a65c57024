import Mathlib.Logic.Relation
import PacketCache.MapRuns
import PacketCache.Reactors

namespace PacketCache.Accounting

open PacketCache.MapRuns PacketCache.Messages PacketCache.Platform PacketCache.Reactors
open PacketCache.Service PacketCache.StreamDequeMap

inductive Stage
  | constructing
  | constructed
  | finishing
  | ended
deriving DecidableEq

structure Progress where
  rpc : Rpc
  stage : Stage
  log : List Action
  remaining : List Action

/-- The client gauge is an `int`. The counters are the logs of the calls. -/
structure State where
  mNumberOfClients : Int := 0
  rpcs : List Progress := []

def perform (mNumberOfClients : Int) : Action → Int × List Action
  | .incrementNumberOfClients => (toInt32 (mNumberOfClients + 1), [])
  | .fetchSubNumberOfClients =>
    (toInt32 (mNumberOfClients - 1),
      if mNumberOfClients ≤ 0 then [.storeZeroNumberOfClients] else [])
  | .storeZeroNumberOfClients => (0, [])
  | _ => (mNumberOfClients, [])

/-- The moves of one call. A reactor that was constructed gets its `OnDone` once; where an
exception leaves the constructor there is no reactor, and the call is over. -/
inductive Move (build : Build) (service : ServiceImpl) (mNumberOfClients : Int) :
    Progress → Int → Progress → Prop
  | perform {rpc stage log action rest} :
    Move build service mNumberOfClients ⟨rpc, stage, log, action :: rest⟩
      (perform mNumberOfClients action).1
      ⟨rpc, stage, log ++ [action], (perform mNumberOfClients action).2 ++ rest⟩
  | construct {rpc log} (h : (rpc.construct build service).thrown = none) :
    Move build service mNumberOfClients ⟨rpc, .constructing, log, []⟩ mNumberOfClients
      ⟨rpc, .constructed, log, []⟩
  | escape {rpc log e} (h : (rpc.construct build service).thrown = some e)
    (he : e.isException = true) :
    Move build service mNumberOfClients ⟨rpc, .constructing, log, []⟩ mNumberOfClients
      ⟨rpc, .ended, log, []⟩
  | onDone {rpc log} :
    Move build service mNumberOfClients ⟨rpc, .constructed, log, []⟩ mNumberOfClients
      ⟨rpc, .finishing, log, onDone (rpc.construct build service).mSuccess⟩
  | ended {rpc log} :
    Move build service mNumberOfClients ⟨rpc, .finishing, log, []⟩ mNumberOfClients
      ⟨rpc, .ended, log, []⟩

inductive Step (build : Build) (service : ServiceImpl) : State → State → Prop
  | begin {mNumberOfClients rpcs} (rpc : Rpc) :
    Step build service ⟨mNumberOfClients, rpcs⟩ ⟨mNumberOfClients,
      rpcs ++ [⟨rpc, .constructing, [], (rpc.construct build service).actions⟩]⟩
  | move {mNumberOfClients mNumberOfClients' before progress progress' after}
    (h : Move build service mNumberOfClients progress mNumberOfClients' progress') :
    Step build service ⟨mNumberOfClients, before ++ progress :: after⟩
      ⟨mNumberOfClients', before ++ progress' :: after⟩

def Progress.opened (progress : Progress) : Bool :=
  progress.log.contains .incrementNumberOfClients &&
    !progress.log.contains .fetchSubNumberOfClients

/-- The call has begun, with the first action of its constructor, and is not over: no
exception has left the constructor, and its `OnDone` has not made its first action. -/
def Progress.inProgress (build : Build) (service : ServiceImpl) (progress : Progress) : Bool :=
  match progress.stage with
  | .constructing => progress.log ≠ []
  | .constructed => true
  | .finishing => progress.log.length = (progress.rpc.construct build service).actions.length
  | .ended => false

/-- What the accounts promise in one state of a run. -/
structure Accounted (build : Build) (service : ServiceImpl) (s : State) : Prop where
  finish : ∀ p ∈ s.rpcs, p.stage = .ended → p.log.countP Action.isFinish = 1
  outcome : ∀ p ∈ s.rpcs, p.stage = .ended → p.log.countP Action.isOutcome = 1
  response : ∀ p ∈ s.rpcs, p.stage = .ended → (p.rpc.construct build service).response ≠ [] →
    .finish ⟨.ok, ""⟩ ∈ p.log
  first : ∀ p ∈ s.rpcs, ∀ action ∈ p.log.head?, action = .incrementNumberOfClients
  gauge : s.mNumberOfClients = s.rpcs.countP (Progress.inProgress build service)

/-- Fewer increments of the gauge are outstanding than an `int` can count. -/
def Fits (s : State) : Prop := s.rpcs.countP Progress.opened < 2 ^ 31

def Run (build : Build) (service : ServiceImpl) (s : State) : Prop :=
  Relation.ReflTransGen (fun s s' => Step build service s s' ∧ Fits s') {} s

variable {build : Build} {service : ServiceImpl} {progress progress' : Progress} {s : State}
variable {mNumberOfClients mNumberOfClients' : Int}

def Planned (build : Build) (service : ServiceImpl) (p : Progress) : Prop :=
  let construction := p.rpc.construct build service
  match p.stage with
  | .constructing => p.log ++ p.remaining = construction.actions
  | .constructed => p.log = construction.actions ∧ p.remaining = [] ∧ construction.thrown = none
  | .finishing => ∃ done, p.log = construction.actions ++ done ∧
      done ++ p.remaining = onDone construction.mSuccess ∧ construction.thrown = none
  | .ended => p.remaining = [] ∧
      (p.log = construction.actions ++ onDone construction.mSuccess ∧ construction.thrown = none ∨
        p.log = construction.actions ∧
          ∃ e, construction.thrown = some e ∧ e.isException = true)

theorem construct_actions (build : Build) (service : ServiceImpl) (rpc : Rpc) :
    ∃ rest, (rpc.construct build service).actions = .incrementNumberOfClients :: rest ∧
      ∀ action ∈ rest, Action.isGauge action = false := by
  obtain ⟨rest, hc⟩ := construct_constructs build service rpc
  refine ⟨rest, hc.actions, ?_⟩
  cases hc.spec with
  | inl hreturns => exact hreturns.1.gauge
  | inr hescapes =>
    obtain ⟨e, ⟨hnil, _⟩, _⟩ := hescapes
    have hnone : rest = [] := hnil
    simp [hnone]

theorem onDone_tail (mSuccess : Bool) :
    ∃ rest, onDone mSuccess = .fetchSubNumberOfClients :: rest ∧
      ∀ action ∈ rest, Action.isGauge action = false := by
  cases mSuccess with
  | false => exact ⟨[], rfl, by simp⟩
  | true => exact ⟨[.incrementSuccessfulRPCCounter], rfl, by simp [Action.isGauge]⟩

theorem isGauge_ne {action : Action} (h : Action.isGauge action = false) :
    action ≠ .incrementNumberOfClients ∧ action ≠ .fetchSubNumberOfClients := by
  constructor <;> rintro rfl <;> cases h

theorem perform_of_not_gauge {action : Action} (h : Action.isGauge action = false) :
    perform mNumberOfClients action = (mNumberOfClients, []) := by
  cases action <;> first | rfl | cases h

theorem opened_snoc {rpc : Rpc} {stage : Stage} {log rest rest' : List Action} {action : Action}
    (h : Action.isGauge action = false) :
    (Progress.mk rpc stage (log ++ [action]) rest').opened =
      (Progress.mk rpc stage log rest).opened := by
  obtain ⟨hi, hf⟩ := isGauge_ne h
  simp [Progress.opened, hi.symm, hf.symm]

theorem opened_actions (build : Build) (service : ServiceImpl) (rpc : Rpc) (stage : Stage)
    (remaining : List Action) :
    (Progress.mk rpc stage (rpc.construct build service).actions remaining).opened = true := by
  obtain ⟨rest, ha, hr⟩ := construct_actions build service rpc
  have hnot : Action.fetchSubNumberOfClients ∉ rest :=
    fun hm => (isGauge_ne (hr _ hm)).2 rfl
  simp [Progress.opened, ha, hnot]

theorem opened_of_fetchSub {p : Progress} (h : .fetchSubNumberOfClients ∈ p.log) :
    p.opened = false := by
  simp [Progress.opened, h]

theorem Planned.head (h : Planned build service progress) {action : Action}
    (ha : action ∈ progress.log.head?) : action = .incrementNumberOfClients := by
  obtain ⟨rpc, stage, log, remaining⟩ := progress
  obtain ⟨rest, hactions, _⟩ := construct_actions build service rpc
  cases log with
  | nil => cases ha
  | cons first log =>
    obtain rfl := Option.some.inj ha
    have hfirst : ∃ later, first :: log ++ later = (rpc.construct build service).actions ∨
        first :: log = (rpc.construct build service).actions ++ later := by
      cases stage with
      | constructing => exact ⟨remaining, Or.inl h⟩
      | constructed => exact ⟨[], Or.inl (by rw [List.append_nil]; exact h.1)⟩
      | finishing =>
        obtain ⟨done, hlog, _⟩ := h
        exact ⟨done, Or.inr hlog⟩
      | ended =>
        obtain ⟨_, ⟨hlog, _⟩ | ⟨hlog, _⟩⟩ := h
        · exact ⟨_, Or.inr hlog⟩
        · exact ⟨[], Or.inl (by rw [List.append_nil]; exact hlog)⟩
    rw [hactions] at hfirst
    obtain ⟨later, he | he⟩ := hfirst
    · exact (List.cons.inj he).1
    · exact (List.cons.inj he).1

/-- An increment is open exactly while its call is in progress, unless an exception has left
the constructor. -/
theorem Planned.opened_eq (h : Planned build service progress)
    (hended : progress.stage = .ended → progress.opened = false) :
    progress.opened = progress.inProgress build service := by
  obtain ⟨rpc, stage, log, remaining⟩ := progress
  cases stage with
  | constructing =>
    obtain ⟨rest, hactions, hrest⟩ := construct_actions build service rpc
    have hlog : log ++ remaining = .incrementNumberOfClients :: rest := h.trans hactions
    cases log with
    | nil => rfl
    | cons first log =>
      obtain ⟨rfl, htail⟩ := List.cons.inj hlog
      have hnot : Action.fetchSubNumberOfClients ∉ log := fun hm =>
        (isGauge_ne (hrest _ (htail ▸ List.mem_append_left _ hm))).2 rfl
      simp [Progress.opened, Progress.inProgress, hnot]
  | constructed =>
    obtain ⟨hlog, _⟩ := h
    simp only at hlog
    rw [hlog, opened_actions]
    rfl
  | finishing =>
    obtain ⟨done, hlog, hdone, _⟩ := h
    simp only at hlog hdone
    cases done with
    | nil => simp [hlog, opened_actions, Progress.inProgress]
    | cons first done =>
      obtain ⟨tail, htail, _⟩ := onDone_tail (rpc.construct build service).mSuccess
      obtain rfl : first = .fetchSubNumberOfClients := by
        rw [htail] at hdone
        exact (List.cons.inj hdone).1
      rw [opened_of_fetchSub (by simp [hlog])]
      simp [Progress.inProgress, hlog]
  | ended => exact hended rfl

inductive Moved (mNumberOfClients mNumberOfClients' : Int) (opened opened' : Bool) : Prop
  | kept (hg : mNumberOfClients' = mNumberOfClients) (ho : opened' = opened)
  | up (hg : mNumberOfClients' = toInt32 (mNumberOfClients + 1)) (ho : opened = false)
    (ho' : opened' = true)
  | down (hg : mNumberOfClients' = toInt32 (mNumberOfClients - 1)) (ho : opened = true)
    (ho' : opened' = false)

theorem perform_constructing {rpc : Rpc} {log rest : List Action} {action : Action}
    (h : Planned build service ⟨rpc, .constructing, log, action :: rest⟩) :
    Planned build service ⟨rpc, .constructing, log ++ [action],
        (perform mNumberOfClients action).2 ++ rest⟩ ∧
      Moved mNumberOfClients (perform mNumberOfClients action).1
        (Progress.mk rpc .constructing log (action :: rest)).opened
        (Progress.mk rpc .constructing (log ++ [action])
          ((perform mNumberOfClients action).2 ++ rest)).opened := by
  obtain ⟨body, ha, hb⟩ := construct_actions build service rpc
  change log ++ action :: rest = (rpc.construct build service).actions at h
  rw [ha] at h
  cases log with
  | nil =>
    obtain ⟨rfl, rfl⟩ := List.cons.inj h
    exact ⟨ha.symm, .up rfl rfl rfl⟩
  | cons first log =>
    obtain ⟨rfl, htail⟩ := List.cons.inj h
    have hgauge : Action.isGauge action = false := hb action (by rw [← htail]; simp)
    rw [perform_of_not_gauge hgauge]
    refine ⟨?_, .kept rfl (opened_snoc hgauge)⟩
    change .incrementNumberOfClients :: log ++ [action] ++ rest = _
    rw [ha, ← htail]
    simp

/-- An `OnDone` that performs its next action. The gauge counts the call, so there is
nothing to clamp. -/
theorem perform_finishing {rpc : Rpc} {log rest : List Action} {action : Action}
    (h : Planned build service ⟨rpc, .finishing, log, action :: rest⟩)
    (hg : (Progress.mk rpc .finishing log (action :: rest)).opened = true →
      0 < mNumberOfClients) :
    Planned build service ⟨rpc, .finishing, log ++ [action],
        (perform mNumberOfClients action).2 ++ rest⟩ ∧
      Moved mNumberOfClients (perform mNumberOfClients action).1
        (Progress.mk rpc .finishing log (action :: rest)).opened
        (Progress.mk rpc .finishing (log ++ [action])
          ((perform mNumberOfClients action).2 ++ rest)).opened := by
  obtain ⟨done, hlog, hdone, hthrown⟩ := h
  obtain ⟨tail, ht, hb⟩ := onDone_tail (rpc.construct build service).mSuccess
  change log = (rpc.construct build service).actions ++ done at hlog
  change done ++ action :: rest = onDone (rpc.construct build service).mSuccess at hdone
  subst hlog
  rw [ht] at hdone
  cases done with
  | nil =>
    obtain ⟨rfl, rfl⟩ := List.cons.inj hdone
    have hopened := opened_actions build service rpc .finishing (.fetchSubNumberOfClients :: rest)
    rw [List.append_nil] at hg ⊢
    have hperform : perform mNumberOfClients .fetchSubNumberOfClients =
        (toInt32 (mNumberOfClients - 1), []) := by
      rw [perform, if_neg (not_le.mpr (hg hopened))]
    rw [hperform]
    exact ⟨⟨[.fetchSubNumberOfClients], rfl, ht.symm, hthrown⟩,
      .down rfl hopened (opened_of_fetchSub (by simp))⟩
  | cons first done =>
    obtain ⟨rfl, htail⟩ := List.cons.inj hdone
    have hgauge : Action.isGauge action = false := hb action (by rw [← htail]; simp)
    rw [perform_of_not_gauge hgauge]
    refine ⟨⟨.fetchSubNumberOfClients :: done ++ [action], by simp, ?_, hthrown⟩,
      .kept rfl (opened_snoc hgauge)⟩
    rw [ht, ← htail]
    simp

theorem Move.planned (hm : Move build service mNumberOfClients progress mNumberOfClients' progress')
    (h : Planned build service progress) (hg : progress.opened = true → 0 < mNumberOfClients) :
    Planned build service progress' ∧
      Moved mNumberOfClients mNumberOfClients' progress.opened progress'.opened := by
  cases hm with
  | @perform rpc stage log action rest =>
    cases stage with
    | constructing => exact perform_constructing h
    | finishing => exact perform_finishing h hg
    | constructed => cases h.2.1
    | ended => cases h.1
  | construct hthrown =>
    have hlog : _ ++ [] = _ := h
    rw [List.append_nil] at hlog
    exact ⟨⟨hlog, rfl, hthrown⟩, .kept rfl rfl⟩
  | escape hthrown he =>
    have hlog : _ ++ [] = _ := h
    rw [List.append_nil] at hlog
    exact ⟨⟨rfl, Or.inr ⟨hlog, _, hthrown, he⟩⟩, .kept rfl rfl⟩
  | onDone => exact ⟨⟨[], by simpa using h.1, rfl, h.2.2⟩, .kept rfl rfl⟩
  | ended =>
    obtain ⟨done, hlog, hdone, hthrown⟩ := h
    refine ⟨⟨rfl, Or.inl ⟨?_, hthrown⟩⟩, .kept rfl rfl⟩
    rw [← hdone, List.append_nil]
    exact hlog

/-- The invariant of the runs. -/
structure Counted (build : Build) (service : ServiceImpl) (s : State) : Prop where
  planned : ∀ p ∈ s.rpcs, Planned build service p
  gauge : s.mNumberOfClients = s.rpcs.countP Progress.opened

theorem Moved.gauge {opened opened' : Bool} {others : Nat}
    (h : Moved mNumberOfClients mNumberOfClients' opened opened')
    (hg : mNumberOfClients = (others + if opened then 1 else 0 : Nat))
    (hf : (others + if opened' then 1 else 0) < 2 ^ 31) :
    mNumberOfClients' = (others + if opened' then 1 else 0 : Nat) := by
  cases h with
  | kept hg' ho => rw [hg', ho, hg]
  | up hg' ho ho' =>
    simp only [ho, ho', Bool.false_eq_true, ↓reduceIte] at hg hf ⊢
    rw [hg', toInt32_of_mem (by omega) (by omega)]
    omega
  | down hg' ho ho' =>
    simp only [ho, ho', Bool.false_eq_true, ↓reduceIte] at hg hf ⊢
    rw [hg', toInt32_of_mem (by omega) (by omega)]
    omega

theorem Counted.step {s' : State} (h : Counted build service s) (hs : Step build service s s')
    (hf : Fits s') : Counted build service s' := by
  cases hs with
  | @begin mNumberOfClients rpcs rpc =>
    refine ⟨fun p hp => ?_, ?_⟩
    · cases List.mem_append.mp hp with
      | inl hp => exact h.planned p hp
      | inr hp =>
        obtain rfl := List.mem_singleton.mp hp
        rfl
    · have hg := h.gauge
      simpa [List.countP_append, Progress.opened] using hg
  | @move mNumberOfClients mNumberOfClients' before progress progress' after hm =>
    have hg := h.gauge
    have hfits := hf
    simp only [Fits, List.countP_append, List.countP_cons, ← Nat.add_assoc] at hg hfits
    obtain ⟨hplanned, hmoved⟩ := hm.planned (h.planned progress (by simp))
      (fun ho => by simp only [ho, ↓reduceIte] at hg; omega)
    refine ⟨fun p hp => ?_, ?_⟩
    · cases List.mem_append.mp hp with
      | inl hp => exact h.planned p (by simp [hp])
      | inr hp =>
        cases List.mem_cons.mp hp with
        | inl he => rwa [he]
        | inr hp => exact h.planned p (by simp [hp])
    · simp only [List.countP_append, List.countP_cons, ← Nat.add_assoc]
      exact hmoved.gauge hg hfits

theorem Run.counted (h : Run build service s) : Counted build service s := by
  induction h with
  | refl => exact ⟨by simp, rfl⟩
  | tail _ hstep ih => exact ih.step hstep.1 hstep.2

structure Settled (build : Build) (service : ServiceImpl) (p : Progress) : Prop where
  finish : p.log.countP Action.isFinish = 1
  outcome : p.log.countP Action.isOutcome = 1
  response : (p.rpc.construct build service).response ≠ [] → .finish ⟨.ok, ""⟩ ∈ p.log
  closed : p.opened = false

theorem countP_isFinish_onDone (mSuccess : Bool) :
    (onDone mSuccess).countP Action.isFinish = 0 := by
  cases mSuccess <;> rfl

theorem settled_of_returned {rpc : Rpc} (hthrown : (rpc.construct build service).thrown = none) :
    ¬ Malformed service rpc ∧ Settled build service ⟨rpc, .ended,
      (rpc.construct build service).actions ++ onDone (rpc.construct build service).mSuccess,
      []⟩ := by
  obtain ⟨rest, hactions, hspec⟩ := construct_constructs build service rpc
  cases hspec with
  | inr hescapes =>
    obtain ⟨e, ⟨_, he⟩, _⟩ := hescapes
    simp only [hthrown, reduceCtorEq] at he
  | inl hreturns =>
    obtain ⟨⟨_, hfinish, houtcome, _, hseries⟩, hm⟩ := hreturns
    simp only at hfinish houtcome hseries
    refine ⟨hm, ?_, ?_, fun hne => ?_, opened_of_fetchSub ?_⟩
    · rw [List.countP_append, countP_isFinish_onDone, hactions]
      exact hfinish
    · rw [hactions]
      exact houtcome
    · rw [hactions]
      exact List.mem_append_left _ (List.mem_cons_of_mem _ (hseries hne))
    · exact List.mem_append_right _ List.mem_cons_self

theorem missed_of_escaped {rpc : Rpc} {e : Fault}
    (hthrown : (rpc.construct build service).thrown = some e) (he : e.isException = true) :
    Malformed service rpc ∧
      (rpc.construct build service).actions.countP Action.isFinish = 0 := by
  obtain ⟨rest, hactions, hspec⟩ := construct_constructs build service rpc
  cases hspec with
  | inl hreturns =>
    have hnone := hreturns.1.thrown
    simp only [hthrown, reduceCtorEq] at hnone
  | inr hescapes =>
    obtain ⟨e', ⟨hnil, he'⟩, hiff⟩ := hescapes
    simp only [hthrown, Option.some.injEq] at he'
    subst he'
    have hrest : rest = [] := hnil
    refine ⟨hiff.mp he, ?_⟩
    rw [hactions, hrest]
    rfl

theorem Planned.ended (h : Planned build service progress) (hended : progress.stage = .ended) :
    ¬ Malformed service progress.rpc ∧ Settled build service progress ∨
      Malformed service progress.rpc ∧ progress.log.countP Action.isFinish = 0 := by
  obtain ⟨rpc, stage, log, remaining⟩ := progress
  obtain rfl : stage = .ended := hended
  obtain ⟨hnil, hlog⟩ := h
  simp only at hnil hlog ⊢
  obtain ⟨rfl, hthrown⟩ | ⟨rfl, e, hthrown, he⟩ := hlog
  · rw [hnil]
    exact Or.inl (settled_of_returned hthrown)
  · exact Or.inr (missed_of_escaped hthrown he)

/-- In every run the accounts are right as long as no call is over whose request was
accepted and reached an empty code, and no longer. -/
theorem accounted_iff_not_malformed (build : Build) (service : ServiceImpl) (s : State)
    (h : Run build service s) :
    Accounted build service s ↔ ∀ p ∈ s.rpcs, p.stage = .ended → ¬ Malformed service p.rpc := by
  have hcounted := h.counted
  constructor
  · intro ha p hp hended hm
    cases (hcounted.planned p hp).ended hended with
    | inl hsettled => exact hsettled.1 hm
    | inr hmissed =>
      have hone := ha.finish p hp hended
      rw [hmissed.2] at hone
      cases hone
  · intro hm
    have hsettled : ∀ p ∈ s.rpcs, p.stage = .ended → Settled build service p := by
      intro p hp hended
      cases (hcounted.planned p hp).ended hended with
      | inl hs => exact hs.2
      | inr hmissed => exact absurd hmissed.1 (hm p hp hended)
    refine ⟨fun p hp ho => (hsettled p hp ho).finish, fun p hp ho => (hsettled p hp ho).outcome,
      fun p hp ho => (hsettled p hp ho).response,
      fun p hp action ha => (hcounted.planned p hp).head ha, ?_⟩
    rw [hcounted.gauge]
    refine congrArg Nat.cast (List.countP_congr (fun p hp => ?_))
    rw [(hcounted.planned p hp).opened_eq (fun ho => (hsettled p hp ho).closed)]

theorem Run.begin (h : Run build service s) (hlen : s.rpcs.length < 2 ^ 31 - 1) (rpc : Rpc) :
    Run build service ⟨s.mNumberOfClients,
      s.rpcs ++ [⟨rpc, .constructing, [], (rpc.construct build service).actions⟩]⟩ := by
  refine h.tail ⟨.begin rpc, List.countP_le_length.trans_lt ?_⟩
  rw [List.length_append, List.length_singleton]
  omega

theorem Run.move (before after : List Progress)
    (h : Run build service ⟨mNumberOfClients, before ++ progress :: after⟩)
    (hlen : (before ++ progress :: after).length < 2 ^ 31)
    (hm : Move build service mNumberOfClients progress mNumberOfClients' progress') :
    Run build service ⟨mNumberOfClients', before ++ progress' :: after⟩ := by
  refine h.tail ⟨.move hm, List.countP_le_length.trans_lt ?_⟩
  simpa using hlen

def lookedUp : Rpc :=
  .getTimeSeries [] ⟨none, [⟨some (named "UU" "FTU" "HHZ" "01"), some ⟨0, 0⟩, some ⟨9, 0⟩⟩]⟩
    (run .debug [.addPacket (fiveSamples (named "UU" "FTU" "HHZ" "01") 0)])

def nothingAsked : Rpc := .getTimeSeries [] {} StreamDequeMapImpl.construct

theorem construct_lookedUp :
    (lookedUp.construct .debug (start {})).actions =
        [.incrementNumberOfClients, .incrementSuccessfulRPCCounter, .finish ⟨.ok, ""⟩] ∧
      (lookedUp.construct .debug (start {})).thrown = none := by
  decide +kernel

def oneOfTwo : State :=
  ⟨1, [⟨lookedUp, .constructed,
      [.incrementNumberOfClients, .incrementSuccessfulRPCCounter, .finish ⟨.ok, ""⟩], []⟩,
    ⟨nothingAsked, .ended,
      [.incrementNumberOfClients, .incrementInvalidRequestCounter,
        .finish ⟨.invalidArgument, "No streams specified in request"⟩, .fetchSubNumberOfClients],
      []⟩]⟩

theorem run_oneOfTwo : Run .debug (start {}) oneOfTwo := by
  obtain ⟨hactions, hthrown⟩ := construct_lookedUp
  have hempty : Run .debug (start {}) {} := .refl
  have hfirst := hempty.begin (by decide) lookedUp
  rw [hactions] at hfirst
  have hbegun := Run.begin hfirst (by decide) nothingAsked
  have hup := Run.move [_] [] (Run.move [] [_] hbegun (by decide) .perform) (by decide) .perform
  have hcounted := Run.move [] [_] (Run.move [_] [] hup (by decide) .perform) (by decide) .perform
  have hfinished := Run.move [] [_] (Run.move [_] [] hcounted (by decide) .perform) (by decide)
    .perform
  have hconstructed := Run.move [] [_] (Run.move [_] [] hfinished (by decide) (.construct rfl))
    (by decide) (.construct hthrown)
  have hdone := Run.move [_] [] (Run.move [_] [] hconstructed (by decide) .onDone) (by decide)
    .perform
  exact Run.move [_] [] hdone (by decide) .ended

theorem accounted_iff_not_malformed_oneOfTwo : Accounted .debug (start {}) oneOfTwo := by
  refine (accounted_iff_not_malformed .debug (start {}) oneOfTwo run_oneOfTwo).mpr ?_
  intro p hp hended
  obtain rfl | hp := List.mem_cons.mp hp
  · cases hended
  · obtain rfl := List.mem_singleton.mp hp
    exact fun hm => hm.2

def networkEmpty : Rpc :=
  .getTimeSeries [] ⟨none, [⟨some (named "" "FTU" "HHZ" "01"), some ⟨0, 0⟩, some ⟨9, 0⟩⟩]⟩
    StreamDequeMapImpl.construct

/-- A call for a stream with an empty network ends without `Finish`, without a count, and
with the gauge one too high. -/
theorem empty_network_not_accounted :
    Run .release (start {})
        ⟨1, [⟨networkEmpty, .ended, [.incrementNumberOfClients], []⟩]⟩ ∧
      ¬ Accounted .release (start {})
        ⟨1, [⟨networkEmpty, .ended, [.incrementNumberOfClients], []⟩]⟩ := by
  constructor
  · have hempty : Run .release (start {}) {} := .refl
    have hbegun := hempty.begin (by decide) networkEmpty
    have hthrown : (networkEmpty.construct .release (start {})).thrown =
        some (.invalidArgument "Network is empty") := rfl
    have hup := Run.move [] [] hbegun (by decide) .perform
    exact Run.move [] [] hup (by decide) (.escape hthrown rfl)
  · intro h
    have hone := h.finish _ (List.mem_singleton.mpr rfl) rfl
    cases hone

end PacketCache.Accounting

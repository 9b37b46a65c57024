import Mathlib.Data.List.Induction

namespace PacketCache.Transitions

variable {σ τ ε ι : Type*}

/-- The events taken one after another, as long as each of them is enabled. -/
def run (step : σ → ε → Option σ) (s : σ) (events : List ε) : Option σ := events.foldlM step s

variable {step : σ → ε → Option σ} {s s' : σ} {event : ε} {events : List ε}

theorem run_nil : run step s [] = some s' ↔ s = s' := Option.some_inj

theorem run_cons : run step s (event :: events) = some s' ↔
    ∃ mid, step s event = some mid ∧ run step mid events = some s' :=
  Option.bind_eq_some_iff

theorem run_append {later : List ε} : run step s (events ++ later) = some s' ↔
    ∃ mid, run step s events = some mid ∧ run step mid later = some s' := by
  rw [run, List.foldlM_append]
  exact Option.bind_eq_some_iff

theorem run_snoc : run step s (events ++ [event]) = some s' ↔
    ∃ mid, run step s events = some mid ∧ step mid event = some s' := by
  simp only [run_append, run_cons, run_nil, exists_eq_right]

theorem run_invariant {I : σ → Prop}
    (hstep : ∀ s event s', I s → step s event = some s' → I s') (hs : I s)
    (hrun : run step s events = some s') : I s' := by
  induction events generalizing s with
  | nil => exact run_nil.mp hrun ▸ hs
  | cons event events ih =>
    obtain ⟨mid, hmid, hrest⟩ := run_cons.mp hrun
    exact ih (hstep s event mid hs hmid) hrest

def After (step : σ → ε → Option σ) (start : σ) (P : List ε → Prop) (s : σ) : Prop :=
  ∃ events, run step start events = some s ∧ P events

theorem After.next {start : σ} {P : List ε → Prop}
    (hkeep : ∀ events event, P events → P (events ++ [event])) (h : After step start P s)
    (hstep : step s event = some s') : After step start P s' := by
  obtain ⟨events, hrun, hp⟩ := h
  exact ⟨events ++ [event], run_snoc.mpr ⟨s, hrun, hstep⟩, hkeep events event hp⟩

/-- If the view of every step is a run of another system, so is the view of every run. -/
theorem run_view {step' : τ → ι → Option τ} (view : σ → τ)
    (hstep : ∀ s event s', step s event = some s' →
      ∃ seen, run step' (view s) seen = some (view s'))
    (hrun : run step s events = some s') : ∃ seen, run step' (view s) seen = some (view s') := by
  induction events generalizing s with
  | nil =>
    obtain rfl := run_nil.mp hrun
    exact ⟨[], rfl⟩
  | cons event events ih =>
    obtain ⟨mid, hmid, hrest⟩ := run_cons.mp hrun
    obtain ⟨first, hfirst⟩ := hstep s event mid hmid
    obtain ⟨rest, hview⟩ := ih hrest
    exact ⟨first ++ rest, run_append.mpr ⟨view mid, hfirst, hview⟩⟩

/-- Where no step takes the goal away, none raises the rank before it and the counted ones
lower it, the goal is reached after as many counted events as the rank at the start. -/
theorem reached_of_rank {I : σ → Prop} (counted : ε → Bool) (goal : σ → Prop)
    (rank : σ → ℕ)
    (hkeep : ∀ s event s', I s → step s event = some s' → I s' ∧ (goal s → goal s'))
    (hrank : ∀ s event s', I s → step s event = some s' →
      goal s' ∨ rank s' + (if counted event then 1 else 0) ≤ rank s)
    (hzero : ∀ s, I s → rank s = 0 → goal s) (hs : I s)
    (hrun : run step s events = some s') (h : rank s ≤ events.countP counted) : goal s' := by
  have hreach : ∀ events s, I s → run step s events = some s' →
      I s' ∧ (goal s → goal s') ∧ (goal s' ∨ rank s' + events.countP counted ≤ rank s) := by
    intro events
    induction events with
    | nil =>
      intro s hs hrun
      obtain rfl := run_nil.mp hrun
      exact ⟨hs, id, Or.inr (Nat.le_refl _)⟩
    | cons event events ih =>
      intro s hs hrun
      obtain ⟨mid, hmid, hrest⟩ := run_cons.mp hrun
      obtain ⟨hi, hgoal⟩ := hkeep s event mid hs hmid
      obtain ⟨hi', hgoal', hreached⟩ := ih mid hi hrest
      refine ⟨hi', fun hg => hgoal' (hgoal hg), ?_⟩
      cases hrank s event mid hs hmid with
      | inl hg => exact Or.inl (hgoal' hg)
      | inr hle =>
        refine hreached.imp_right (fun hle' => ?_)
        rw [List.countP_cons]
        omega
  obtain ⟨hi, _, hg | hle⟩ := hreach events s hs hrun
  · exact hg
  · exact hzero s' hi (by omega)

section Since

variable {P : List ε → Prop} {drops : ε → Prop}

/-- What holds after a history came about with one of its events, and no event since then is
one that puts an end to it. -/
theorem since_of_holds (hnil : ¬ P []) (hdrop : ∀ before event, drops event →
      ¬ P (before ++ [event])) (h : P events) :
    ∃ before event after, events = before ++ event :: after ∧ ¬ P before ∧
      P (before ++ [event]) ∧ ∀ later ∈ after, ¬ drops later := by
  induction events using List.reverseRecOn with
  | nil => exact absurd h hnil
  | append_singleton events event ih =>
    by_cases hp : P events
    · obtain ⟨before, first, after, rfl, hnot, hfirst, hafter⟩ := ih hp
      refine ⟨before, first, after ++ [event], by simp, hnot, hfirst, fun later hm => ?_⟩
      cases List.mem_append.mp hm with
      | inl hm => exact hafter later hm
      | inr hm =>
        obtain rfl := List.mem_singleton.mp hm
        exact fun hd => hdrop _ later hd h
    · exact ⟨events, event, [], rfl, hp, h, by simp⟩

theorem holds_of_since {before after : List ε} (h : P before)
    (hafter : ∀ later ∈ after, ¬ drops later)
    (hkeep : ∀ events event, events ++ [event] <+: before ++ after → ¬ drops event → P events →
      P (events ++ [event])) : P (before ++ after) := by
  induction after using List.reverseRecOn with
  | nil => rwa [List.append_nil]
  | append_singleton after later ih =>
    rw [← List.append_assoc] at hkeep ⊢
    refine hkeep _ later List.prefix_rfl (hafter later (by simp)) (ih ?_ ?_)
    · exact fun l hm => hafter l (by simp [hm])
    · exact fun events event hp => hkeep events event (hp.trans (List.prefix_append _ _))

end Since

end PacketCache.Transitions

import PacketCache.Discovery

namespace PacketCache.RoundTrip

open PacketCache.Discovery PacketCache.Identifiers PacketCache.MapRuns PacketCache.Messages
open PacketCache.Platform PacketCache.StreamNames

variable {identifier : StreamIdentifier} {field code : String}

structure WellFormedCode (code : String) : Prop where
  dotless : '.' ∉ code.toList
  nonblank : ∃ c ∈ code.toList, isspace c = false

/-- The codes are set, apart from the location code, which may also be empty. -/
structure WellFormed (identifier : StreamIdentifier) : Prop where
  network : ∃ code, identifier.network = some code ∧ WellFormedCode code
  station : ∃ code, identifier.station = some code ∧ WellFormedCode code
  channel : ∃ code, identifier.channel = some code ∧ WellFormedCode code
  locationCode : ∀ code, identifier.locationCode = some code → code ≠ "" → WellFormedCode code

theorem WellFormedCode.ne_empty (h : WellFormedCode code) : code ≠ "" := by
  rintro rfl
  obtain ⟨c, hc, -⟩ := h.nonblank
  cases hc

theorem dashes_wellFormed : WellFormedCode "--" := ⟨by decide, '-', by decide, by decide⟩

theorem WellFormed.appendedLocation (h : WellFormed identifier) :
    WellFormedCode (appendedLocation identifier.locationCode) := by
  cases hl : identifier.locationCode with
  | none => exact dashes_wellFormed
  | some code =>
    by_cases he : code = ""
    · subst he
      exact dashes_wellFormed
    · rw [appendedLocation_some he]
      exact h.locationCode code hl he

theorem WellFormed.discoverable (h : WellFormed identifier) : Discoverable identifier := by
  obtain ⟨network, hn, hn'⟩ := h.network
  obtain ⟨station, hs, hs'⟩ := h.station
  obtain ⟨channel, hc, hc'⟩ := h.channel
  have hl := h.appendedLocation
  intro code hm
  rw [codes, hn, hs, hc] at hm
  simp only [Option.getD_some, List.mem_cons, List.not_mem_nil, or_false] at hm
  obtain rfl | rfl | rfl | rfl := hm
  · exact ⟨hn'.dotless, hn'.nonblank⟩
  · exact ⟨hs'.dotless, hs'.nonblank⟩
  · exact ⟨hc'.dotless, hc'.nonblank⟩
  · exact ⟨hl.dotless, hl.nonblank⟩

theorem WellFormed.toString (h : WellFormed identifier) :
    Identifiers.toString identifier = .ok (streamName identifier) := by
  obtain ⟨network, hn, hn'⟩ := h.network
  obtain ⟨station, hs, hs'⟩ := h.station
  obtain ⟨channel, hc, hc'⟩ := h.channel
  exact toString_present ⟨⟨hn, hn'.ne_empty⟩, ⟨hs, hs'.ne_empty⟩, ⟨hc, hc'.ne_empty⟩⟩

theorem convertCode_of_wellFormed (h : WellFormedCode code) :
    convertCode field (some code) = .ok (normalize code) := by
  have he : eraseSpaces code ≠ "" := by
    rw [ne_eq, eraseSpaces_eq_empty_iff]
    exact normalize_ne_of_nonblank h.nonblank
  rw [convertCode, if_neg he]
  rfl

theorem WellFormed.convertIdentifier (h : WellFormed identifier) :
    Identifiers.convertIdentifier identifier = .ok (listed identifier) := by
  obtain ⟨network, hn, hn'⟩ := h.network
  obtain ⟨station, hs, hs'⟩ := h.station
  obtain ⟨channel, hc, hc'⟩ := h.channel
  have hl : convertLocation identifier.locationCode =
      normalize (Identifiers.appendedLocation identifier.locationCode) := by
    rw [convertLocation_eq, if_neg (normalize_ne_of_nonblank h.appendedLocation.nonblank)]
  rw [Identifiers.convertIdentifier, hn, hs, hc, convertCode_of_wellFormed hn',
    convertCode_of_wellFormed hs', convertCode_of_wellFormed hc', hl, listed, hn, hs, hc]
  rfl

theorem fromString_toString (h : WellFormed identifier) : ∃ name canonical,
    Identifiers.toString identifier = .ok name ∧ fromString name = .ok canonical ∧
      convertIdentifier identifier = .ok canonical ∧
      Identifiers.toString canonical = .ok name :=
  ⟨streamName identifier, listed identifier, h.toString, fromString_streamName h.discoverable,
    h.convertIdentifier, toString_listed h.discoverable⟩

theorem fromString_toString_padded : ∃ name canonical,
    Identifiers.toString (named " uu" "ftu " "HH Z" "") = .ok name ∧
      fromString name = .ok canonical ∧
      convertIdentifier (named " uu" "ftu " "HH Z" "") = .ok canonical ∧
      Identifiers.toString canonical = .ok name := by
  apply fromString_toString
  refine ⟨⟨_, rfl, by decide, 'u', by decide, by decide⟩,
    ⟨_, rfl, by decide, 'f', by decide, by decide⟩,
    ⟨_, rfl, by decide, 'H', by decide, by decide⟩, ?_⟩
  intro code hl he
  exact absurd (Option.some.inj hl).symm he

end PacketCache.RoundTrip

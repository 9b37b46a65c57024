import PacketCache.MapRuns

namespace PacketCache.StreamIdentity

open PacketCache.Identifiers PacketCache.MapRuns PacketCache.Messages PacketCache.Platform
open PacketCache.StreamDequeMap PacketCache.StreamNames

variable {build : Build} {a b canonical : StreamIdentifier}

/-- A location code that is set and not empty, but holds nothing besides white space. -/
def BlankLocation (identifier : StreamIdentifier) : Prop :=
  ∃ code, identifier.locationCode = some code ∧ code ≠ "" ∧ ∀ c ∈ code.toList, isspace c

theorem blankLocation_iff (identifier : StreamIdentifier) :
    BlankLocation identifier ↔ normalize (appendedLocation identifier.locationCode) = "" := by
  rw [BlankLocation]
  cases identifier.locationCode with
  | none => simp [appendedLocation]
  | some code =>
    by_cases he : code = ""
    · simp [appendedLocation, he]
    · simp [appendedLocation, he, normalize_eq_empty_iff]

structure SharesDeque (build : Build) (a b : StreamIdentifier) : Prop where
  name : toString a = toString b
  served : ∀ calls key startAndEndTime, startAndEndTime.1 ≤ startAndEndTime.2 →
    toString a = .ok key →
    getPackets build (run build calls) b startAndEndTime =
      answerOf build (run build calls) key startAndEndTime

structure Isolated (build : Build) (a b : StreamIdentifier) : Prop where
  name : toString a ≠ toString b
  frame : ∀ calls packet final startAndEndTime, packet.streamIdentifier = some a →
    (run build calls).addPacket build packet = .ok () final →
    getPackets build final b startAndEndTime =
      getPackets build (run build calls) b startAndEndTime

theorem toString_eq_iff {canonical' : StreamIdentifier}
    (ha : convertIdentifier a = .ok canonical) (hb : convertIdentifier b = .ok canonical') :
    toString a = toString b ↔ codePieces a = codePieces b := by
  rw [toString_of_convertIdentifier ha, toString_of_convertIdentifier hb, Except.ok.injEq,
    streamName_eq_iff]

theorem streamName_eq_iff_location (ha : convertIdentifier a = .ok canonical)
    (hb : convertIdentifier b = .ok canonical) :
    streamName a = streamName b ↔
      normalize (appendedLocation a.locationCode) =
        normalize (appendedLocation b.locationCode) := by
  have hsame := (convertIdentifier_fields ha).symm.trans (convertIdentifier_fields hb)
  simp only [StreamIdentifier.mk.injEq, Option.some.injEq] at hsame
  obtain ⟨hn, hs, hc, _⟩ := hsame
  rw [streamName, streamName, hn, hs, hc, String.append_right_inj]

theorem location_eq_iff (ha : convertIdentifier a = .ok canonical)
    (hb : convertIdentifier b = .ok canonical) :
    normalize (appendedLocation a.locationCode) = normalize (appendedLocation b.locationCode) ↔
      (BlankLocation a ↔ BlankLocation b) := by
  have hsame := (convertIdentifier_fields ha).symm.trans (convertIdentifier_fields hb)
  simp only [StreamIdentifier.mk.injEq, Option.some.injEq] at hsame
  have hlocation := hsame.2.2.2
  rw [convertLocation_eq, convertLocation_eq] at hlocation
  rw [blankLocation_iff, blankLocation_iff]
  constructor
  · intro h
    rw [h]
  · intro h
    by_cases hblank : normalize (appendedLocation a.locationCode) = ""
    · rw [hblank, h.mp hblank]
    · rwa [if_neg hblank, if_neg (h.not.mp hblank)] at hlocation

/-- Of two identifiers with one canonical form, a query under the second finds the packets
of the first unless just one of them has a blank location code. -/
theorem sharesDeque_iff_blankLocation (build : Build) (a b canonical : StreamIdentifier)
    (ha : convertIdentifier a = .ok canonical) (hb : convertIdentifier b = .ok canonical)
    (hlocation : b.locationCode ≠ none) :
    SharesDeque build a b ↔ (BlankLocation a ↔ BlankLocation b) := by
  have hname : toString a = toString b ↔ (BlankLocation a ↔ BlankLocation b) := by
    rw [toString_of_convertIdentifier ha, toString_of_convertIdentifier hb, Except.ok.injEq,
      streamName_eq_iff_location ha hb, location_eq_iff ha hb]
  rw [← hname]
  refine ⟨SharesDeque.name, fun h => ⟨h, fun calls key w hw hkey => ?_⟩⟩
  rw [h] at hkey
  exact getPackets_name build hkey hlocation hw

theorem sharesDeque_iff_blankLocation_padded :
    SharesDeque .debug (named "uu" " FTU" "hhz" "") (named "UU" "FTU" "HHZ" "--") ↔
      (BlankLocation (named "uu" " FTU" "hhz" "") ↔
        BlankLocation (named "UU" "FTU" "HHZ" "--")) :=
  sharesDeque_iff_blankLocation .debug _ _ (named "UU" "FTU" "HHZ" "--") (by decide) (by decide)
    (by decide)

/-- A packet stored under a blank location code is not found under `--`. -/
theorem blank_location_not_served :
    convertIdentifier (named "UU" "FTU" "HHZ" " ") = .ok (named "UU" "FTU" "HHZ" "--") ∧
      convertIdentifier (named "UU" "FTU" "HHZ" "--") = .ok (named "UU" "FTU" "HHZ" "--") ∧
      toString (named "UU" "FTU" "HHZ" " ") ≠ toString (named "UU" "FTU" "HHZ" "--") ∧
      (run .release [.addPacket (fiveSamples (named "UU" "FTU" "HHZ" " ") 0)]).mStreamDequeMap.size
        = 1 ∧
      getPackets .release (run .release [.addPacket (fiveSamples (named "UU" "FTU" "HHZ" " ") 0)])
        (named "UU" "FTU" "HHZ" "--") (0, 4000000000) = .ok [] := by
  refine ⟨by decide, by decide, by decide, by decide +kernel, by decide +kernel⟩

/-- Two streams are kept apart exactly when their normalized codes do not fall into the
same pieces at the dots. -/
theorem isolated_iff_codePieces (build : Build) (a b canonicalA canonicalB : StreamIdentifier)
    (ha : convertIdentifier a = .ok canonicalA) (hb : convertIdentifier b = .ok canonicalB) :
    Isolated build a b ↔ codePieces a ≠ codePieces b := by
  rw [ne_eq, ← toString_eq_iff ha hb]
  refine ⟨Isolated.name, fun h => ⟨h, fun calls packet final w hid hadd => ?_⟩⟩
  apply getPackets_congr build
  intro key hkey
  cases addPacket_cases build (Keyed.run build calls) packet with
  | inl herror =>
    obtain ⟨e, final', hf, _⟩ := herror
    rw [hf] at hadd
    cases hadd
  | inr hok =>
    obtain ⟨name, item, placed, final', haccept, _, hf, hu⟩ := hok
    rw [hf] at hadd
    obtain ⟨_, rfl⟩ := EStateM.Result.ok.inj hadd
    have hname := (accept_ok haccept).1
    rw [hid, Option.getD_some] at hname
    have hne : key ≠ name := fun he => h (by rw [hname, hkey, he])
    rw [hu key, if_neg hne]

theorem isolated_iff_codePieces_channels :
    Isolated .debug (named "UU" "FTU" "HHZ" "01") (named "UU" "FTU" "HHN" "01") ↔
      codePieces (named "UU" "FTU" "HHZ" "01") ≠ codePieces (named "UU" "FTU" "HHN" "01") :=
  isolated_iff_codePieces .debug _ _ (named "UU" "FTU" "HHZ" "01") (named "UU" "FTU" "HHN" "01")
    (by decide) (by decide)

/-- A dot that moves from one code to the next changes the stream but not its name. -/
theorem dotted_codes_not_isolated :
    convertIdentifier (named "A.B" "C" "D" "00") = .ok (named "A.B" "C" "D" "00") ∧
      convertIdentifier (named "A" "B.C" "D" "00") = .ok (named "A" "B.C" "D" "00") ∧
      toString (named "A.B" "C" "D" "00") = toString (named "A" "B.C" "D" "00") ∧
      getPackets .release (run .release []) (named "A" "B.C" "D" "00") (0, 4000000000) = .ok [] ∧
      ∃ packet, getPackets .release
        (run .release [.addPacket (fiveSamples (named "A.B" "C" "D" "00") 0)])
        (named "A" "B.C" "D" "00") (0, 4000000000) = .ok [packet] := by
  refine ⟨by decide, by decide, by decide, by decide +kernel,
    ⟨some ⟨0, 0⟩, some 1, some .unknown, some 5, some []⟩, by decide +kernel⟩

end PacketCache.StreamIdentity

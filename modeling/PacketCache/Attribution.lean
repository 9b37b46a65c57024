import PacketCache.MultiStream
import PacketCache.Reactors

namespace PacketCache.Attribution

open PacketCache.MapRuns PacketCache.Messages PacketCache.MultiStream PacketCache.Packets
open PacketCache.Platform PacketCache.Reactors PacketCache.Service PacketCache.StreamDequeMap

variable {build : Build} {map : StreamDequeMapImpl} {service : ServiceImpl} {context : Metadata}
variable {identifier : Option String} {streamRequest : CacheApi.StreamRequest}
variable {packets : List CacheApi.Packet} {request : Request}

def Attributable (streamRequest : CacheApi.StreamRequest) (packets : List CacheApi.Packet)
    (response : CacheApi.DataResponse) : Prop :=
  response.timeSeries = [{ streamIdentifier := streamRequest.streamIdentifier, packets }]

theorem Answered.identifier_eq
    (h : Answered build map service context streamRequest packets request) :
    streamRequest.streamIdentifier = some request.identifier := by
  obtain ⟨identifier, _, _, hid, _⟩ := isValidRequest_fields h.valid
  obtain ⟨name, _, hrequest⟩ := Request.construct_eq_ok.mp h.constructed
  rw [← hrequest, hid, Option.getD_some]

theorem setDataPackets_attributable (identifier : Option StreamIdentifier)
    (hid : identifier ≠ none) :
    setDataPackets packets { streamIdentifier := identifier } =
      { streamIdentifier := identifier, packets } ↔ packets ≠ [] := by
  cases packets with
  | nil => simpa [setDataPackets, CacheApi.TimeSeries.mk.injEq] using fun h => hid h.symm
  | cons packet packets => simp [setDataPackets]

/-- Only a stream request that is sent alone is looked up: the others' list of requests is
empty. Its time series is attributable exactly when the map has a packet for it. -/
theorem reply_attributable_iff (build : Build) (map : StreamDequeMapImpl) (service : ServiceImpl)
    (context : Metadata) (identifier : Option String) :
    (∀ streamRequest response,
      alone build map service context identifier streamRequest = some (⟨.ok, ""⟩, response) →
      ∃ packets, packetsOf build map streamRequest = .ok packets ∧
        (Attributable streamRequest packets response ↔ packets ≠ [])) ∧
    ∀ streamRequests requests hasDuplicates,
      buildRequests 0 [] false streamRequests = .built requests hasDuplicates → requests = [] := by
  constructor
  · intro streamRequest response h
    obtain ⟨packets, request, ha⟩ := exists_answered h
    refine ⟨packets, ha.found, ?_⟩
    rw [ha.reply, Option.some.injEq, Prod.mk.injEq] at h
    rw [Attributable, ← h.2, Answered.identifier_eq ha, List.cons.injEq]
    simpa using setDataPackets_attributable (some request.identifier) (by simp)
  · intro streamRequests requests hasDuplicates hb
    obtain ⟨reason, hrefused, _⟩ | ⟨e, hthrew, _, _⟩ | ⟨hbuilt, _⟩ :=
      buildRequests_cases 0 streamRequests
    · simp [hrefused] at hb
    · simp [hthrew] at hb
    · simp only [hbuilt, Built.built.injEq] at hb
      exact hb.1.symm

theorem reply_attributable_iff_one_packet :
    ∃ packets, packetsOf .release
        (run .release [.addPacket (fiveSamples (named "UU" "FTU" "HHZ" "01") 0)])
        (windowed (named "UU" "FTU" "HHZ" "01") 0 9) = .ok packets ∧
      (Attributable (windowed (named "UU" "FTU" "HHZ" "01") 0 9) packets
        ⟨none, [⟨some (named "UU" "FTU" "HHZ" "01"),
          [⟨some ⟨0, 0⟩, some 1, some .unknown, some 5, some []⟩]⟩]⟩ ↔ packets ≠ []) :=
  (reply_attributable_iff .release
    (run .release [.addPacket (fiveSamples (named "UU" "FTU" "HHZ" "01") 0)]) (start {}) []
    none).1 _ _ (by decide +kernel)

theorem unknown_stream_not_attributable :
    alone .release StreamDequeMapImpl.construct (start {}) [] (some "client")
        (windowed (named "UU" "FTU" "HHZ" "01") 0 9) =
      some (⟨.ok, ""⟩, ⟨some "client", [{}]⟩) ∧
    packetsOf .release StreamDequeMapImpl.construct
      (windowed (named "UU" "FTU" "HHZ" "01") 0 9) = .ok [] ∧
    ¬ Attributable (windowed (named "UU" "FTU" "HHZ" "01") 0 9) [] ⟨some "client", [{}]⟩ := by
  refine ⟨by decide +kernel, by decide +kernel, ?_⟩
  simp [Attributable, windowed]

end PacketCache.Attribution

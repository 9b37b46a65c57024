import PacketCache.MultiStream
import PacketCache.Reactors

namespace PacketCache.Deduplication

open PacketCache.MapRuns PacketCache.Messages PacketCache.MultiStream PacketCache.Packets
open PacketCache.Platform PacketCache.Reactors PacketCache.Service PacketCache.StreamDequeMap

variable {streamRequests : List CacheApi.StreamRequest} {requests : List Request}

def Asks (streamRequests : List CacheApi.StreamRequest) (i : Nat) (request : Request) : Prop :=
  ∃ streamRequest, streamRequests[i]? = some streamRequest ∧
    Request.construct streamRequest = .ok request

def Same (a b : Request) : Prop :=
  a.identifierString = b.identifierString ∧ a.startAndEndTime = b.startAndEndTime

instance : DecidableRel Same := fun a b =>
  inferInstanceAs (Decidable (a.identifierString = b.identifierString ∧
    a.startAndEndTime = b.startAndEndTime))

def Repeats (streamRequests : List CacheApi.StreamRequest) (request : Request) (j : Nat) : Prop :=
  ∃ earlier, Asks streamRequests j earlier ∧ Same earlier request

def Marked (request : Request) : Prop := request.duplicateRequestIndex ≠ -1

def lookups : List Request → List Request
  | [] => []
  | request :: rest =>
    if request.duplicateRequestIndex = -1 then request :: lookups rest else lookups rest

/-- What the build loop leaves to the query and the copy loops. -/
structure Deduplicated (streamRequests : List CacheApi.StreamRequest) (requests : List Request)
    (hasDuplicates : Bool) : Prop where
  marked : ∀ i request, Asks streamRequests i request →
    ((∃ kept, requests[i]? = some kept ∧ Marked kept) ↔
      ∃ j < i, Repeats streamRequests request j)
  first : ∀ i request kept, Asks streamRequests i request → requests[i]? = some kept →
    Marked kept → ∃ j : Nat, kept.duplicateRequestIndex = j ∧ j < i ∧
      Repeats streamRequests request j ∧ ∀ k < j, ¬ Repeats streamRequests request k
  flagged : hasDuplicates = true ↔ ∃ kept ∈ requests, Marked kept
  lookedUp : ∀ i request, Asks streamRequests i request →
    (lookups requests).countP (fun kept => decide (Same kept request)) = 1
  copied : ∀ timeSeries filled, copyDuplicates requests timeSeries = .ok filled →
    ∀ (i : Nat) kept, requests[i]? = some kept → Marked kept →
      filled[i]? = timeSeries[kept.duplicateRequestIndex.toNat]?

def Exact (streamRequests : List CacheApi.StreamRequest) : Prop :=
  ∃ requests hasDuplicates,
    buildRequests 0 [] false streamRequests = .built requests hasDuplicates ∧
      Deduplicated streamRequests requests hasDuplicates

/-- Why `lookups` are what is looked up: the query loop depends on the map through them alone. -/
theorem queryRequests_congr {build : Build} {map map' : StreamDequeMapImpl}
    (h : ∀ request ∈ lookups requests,
      queryTimeSeries build map request = queryTimeSeries build map' request)
    (timeSeries : List CacheApi.TimeSeries) :
    queryRequests build map requests timeSeries = queryRequests build map' requests timeSeries := by
  induction requests generalizing timeSeries with
  | nil => rfl
  | cons request rest ih =>
    by_cases hd : request.duplicateRequestIndex = -1
    · simp only [lookups, hd, ↓reduceIte, List.mem_cons, forall_eq_or_imp] at h
      obtain ⟨hfirst, hrest⟩ := h
      simp only [queryRequests, hd, ↓reduceIte, hfirst]
      cases queryTimeSeries build map' request with
      | error e => rfl
      | ok found =>
        simp only
        cases assign timeSeries request.globalRequestIndex found with
        | error e => rfl
        | ok timeSeries => exact ih hrest timeSeries
    · simp only [lookups, hd, ↓reduceIte] at h
      simp only [queryRequests, hd, ↓reduceIte]
      exact ih h timeSeries

/-- The build loop keeps no request, so that the one that comes first is never looked up. -/
theorem not_exact (streamRequests : List CacheApi.StreamRequest)
    (hn : 2 ≤ streamRequests.length)
    (hv : ∀ streamRequest ∈ streamRequests, isValidRequest streamRequest = .ok ()) :
    ¬ Exact streamRequests := by
  rintro ⟨requests, hasDuplicates, hbuilt, h⟩
  obtain ⟨streamRequest, rest, rfl⟩ : ∃ streamRequest rest, streamRequests = streamRequest :: rest :=
    List.exists_cons_of_length_pos (by omega)
  have hvalid := hv streamRequest (by simp)
  obtain ⟨reason, hrefused, _⟩ | ⟨e, hthrew, _, _⟩ | ⟨hnone, hreaches⟩ :=
    buildRequests_cases 0 (streamRequest :: rest)
  · simp [hrefused] at hbuilt
  · simp [hthrew] at hbuilt
  · rw [hnone, Built.built.injEq] at hbuilt
    obtain ⟨rfl, rfl⟩ := hbuilt
    cases hc : Request.construct streamRequest with
    | error e => exact hreaches ⟨hvalid, Or.inl (construct_error hvalid hc).2⟩
    | ok request => exact absurd (h.lookedUp 0 request ⟨streamRequest, rfl, hc⟩) (by simp [lookups])

theorem not_exact_two_streams :
    ¬ Exact [windowed (named "UU" "FTU" "HHZ" "01") 0 9,
      windowed (named "UU" "FTU" "HHN" "01") 0 9] :=
  not_exact _ (by decide) (by decide +kernel)

/-- Two equal requests: neither is marked, and neither is kept for the look-up. -/
theorem equal_requests_not_exact :
    isValidRequest (windowed (named "UU" "FTU" "HHZ" "01") 0 9) = .ok () ∧
      buildRequests 0 [] false [windowed (named "UU" "FTU" "HHZ" "01") 0 9,
        windowed (named "UU" "FTU" "HHZ" "01") 0 9] = .built [] false ∧
      ¬ Exact [windowed (named "UU" "FTU" "HHZ" "01") 0 9,
        windowed (named "UU" "FTU" "HHZ" "01") 0 9] := by
  have hbuilt : buildRequests 0 [] false [windowed (named "UU" "FTU" "HHZ" "01") 0 9,
      windowed (named "UU" "FTU" "HHZ" "01") 0 9] = .built [] false := by rfl
  refine ⟨by decide +kernel, hbuilt, ?_⟩
  rintro ⟨requests, hasDuplicates, hb, h⟩
  rw [hbuilt, Built.built.injEq] at hb
  obtain ⟨rfl, rfl⟩ := hb
  obtain ⟨request, hc⟩ : ∃ request,
      Request.construct (windowed (named "UU" "FTU" "HHZ" "01") 0 9) = .ok request := ⟨_, rfl⟩
  have hmarked := (h.marked 1 request ⟨_, rfl, hc⟩).mpr
    ⟨0, by decide, request, ⟨_, rfl, hc⟩, rfl, rfl⟩
  simp at hmarked

end PacketCache.Deduplication

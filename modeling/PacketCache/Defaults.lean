import PacketCache.IniFile

namespace PacketCache.Defaults

open PacketCache.ClientOptions PacketCache.IniFile PacketCache.Identifiers PacketCache.Platform
open PacketCache.ServerOptions

variable {files : FileSystem} {propertyTree : IniTree} {options result : ProgramOptions}

/-- The options whose keys are not set are those that a missing file gives. -/
structure KeepsDefaults (propertyTree : IniTree) (options : ProgramOptions) : Prop where
  printSummaryInterval :
    propertyTree.getString "General.printSummaryIntervalInMinutes" = none →
    options.printSummaryInterval = ProgramOptions.construct.printSummaryInterval
  maximumPacketLatency :
    propertyTree.getString "DataPacketSubscriber.maximumLatencyInSeconds" = none →
    options.maximumPacketLatency = ProgramOptions.construct.maximumPacketLatency
  maximumPacketFutureTime :
    propertyTree.getString "DataPacketSubscriber.maximumFutureTimeInMilliseconds" = none →
    options.maximumPacketFutureTime = ProgramOptions.construct.maximumPacketFutureTime
  maximumImportQueueSize :
    propertyTree.getString "DataPacketSubscriber.maximumImportQueueSize" = none →
    options.maximumImportQueueSize = ProgramOptions.construct.maximumImportQueueSize
  maximumDuration :
    propertyTree.getString "Service.maximumPacketRetentionDurationInSeconds" = none →
    options.streamDequeMapOptions.mMaximumDuration =
      ProgramOptions.construct.streamDequeMapOptions.mMaximumDuration
  maximumConnectionAge :
    propertyTree.getString "Service.maximumConnectionAgeInMilliSeconds" = none →
    options.serviceOptions.mMaximumConnectionAge =
      ProgramOptions.construct.serviceOptions.mMaximumConnectionAge
  maximumGracePeriod :
    propertyTree.getString "Service.maximumConnectionAgeGracePeriodInMilliSeconds" = none →
    options.serviceOptions.mMaximumGracePeriod =
      ProgramOptions.construct.serviceOptions.mMaximumGracePeriod
  maximumConcurrentStreams :
    propertyTree.getString "Service.maximumNumberOfConcurrentStreams" = none →
    options.serviceOptions.mMaximumConcurrentStreams =
      ProgramOptions.construct.serviceOptions.mMaximumConcurrentStreams

structure WithoutOTel (propertyTree : IniTree) : Prop where
  httpLog : propertyTree.getString "OTelHTTPLogOptions" = none
  grpcLog : propertyTree.getString "OTelGRPCLogOptions" = none
  httpMetrics : propertyTree.getString "OTelHTTPMetricsOptions" = none
  grpcMetrics : propertyTree.getString "OTelGRPCMetricsOptions" = none

def Loadable (files : FileSystem) (path : String) : Prop :=
  files.pathExists path = true ∧ ∃ text, files.read path = some text ∧ text ≠ ""

structure ClientAccepts (files : FileSystem) (propertyTree : PropertyTree) (pathSection : String) :
    Prop where
  host : ∀ host, propertyTree.getString (pathSection ++ ".host") = some host → eraseSpaces host ≠ ""
  port : ∀ port, propertyTree.getUInt16 (pathSection ++ ".port") = some port → port ≠ 0
  serverCertificate : ∀ path, propertyTree.getString (pathSection ++ ".serverCertificate") =
    some path → path ≠ "" → Loadable files path
  accessToken : ∀ token, propertyTree.getString (pathSection ++ ".accessToken") = some token →
    token ≠ "" ∧ (propertyTree.getString (pathSection ++ ".serverCertificate")).getD "" ≠ ""
  keyAndCertificate : ∀ key certificate,
    propertyTree.getString (pathSection ++ ".clientKey") = some key →
    propertyTree.getString (pathSection ++ ".clientCertificate") = some certificate →
    key ≠ "" → certificate ≠ "" → Loadable files key ∧ Loadable files certificate

structure ServerAccepts (files : FileSystem) (propertyTree : PropertyTree) (pathSection : String) :
    Prop where
  host : ∀ host, propertyTree.getString (pathSection ++ ".host") = some host → host ≠ ""
  port : ∀ port, propertyTree.getUInt16 (pathSection ++ ".port") = some port → port ≠ 0
  keyAndCertificate : ∀ key certificate,
    propertyTree.getString (pathSection ++ ".clientKey") = some key →
    propertyTree.getString (pathSection ++ ".serverCertificate") = some certificate →
    key ≠ "" → certificate ≠ "" → Loadable files key ∧ Loadable files certificate
  accessToken : ∀ token, propertyTree.getString (pathSection ++ ".accessToken") = some token →
    token ≠ "" ∧ (propertyTree.getString (pathSection ++ ".clientKey")).getD "" ≠ "" ∧
      (propertyTree.getString (pathSection ++ ".serverCertificate")).getD "" ≠ ""
  clientCertificate : ∀ path, propertyTree.getString (pathSection ++ ".clientCertificate") =
    some path → path ≠ "" → Loadable files path

structure Accepted (files : FileSystem) (propertyTree : IniTree) : Prop where
  client : ClientAccepts files propertyTree.toPropertyTree "DataPacketSubscriber"
  server : ServerAccepts files propertyTree.toPropertyTree "Service"
  maximumImportQueueSize : ∀ value : Int32, propertyTree.getInt
    "DataPacketSubscriber.maximumImportQueueSize" = some value → 1 ≤ value.toInt
  maximumConnectionAge : ∀ value : Int32, propertyTree.getInt
    "Service.maximumConnectionAgeInMilliSeconds" = some value → 1 ≤ value.toInt
  maximumGracePeriod : ∀ value : Int32, propertyTree.getInt
    "Service.maximumConnectionAgeGracePeriodInMilliSeconds" = some value → 0 ≤ value.toInt
  maximumConcurrentStreams : ∀ value : Int32, propertyTree.getInt
    "Service.maximumNumberOfConcurrentStreams" = some value → 1 ≤ value.toInt
  maximumDuration : ∀ value : Int32, propertyTree.getInt
    "Service.maximumPacketRetentionDurationInSeconds" = some value → 1 ≤ value.toInt

/-- The options that a successful parse reads, each from its key and its default. -/
structure Reads (propertyTree : IniTree) (options : ProgramOptions) : Prop where
  printSummaryInterval : options.printSummaryInterval =
    60 * getCount propertyTree "General.printSummaryIntervalInMinutes" 900
  maximumPacketLatency : options.maximumPacketLatency =
    getCount propertyTree "DataPacketSubscriber.maximumLatencyInSeconds" 360
  maximumPacketFutureTime : options.maximumPacketFutureTime =
    getCount propertyTree "DataPacketSubscriber.maximumFutureTimeInMilliseconds" 0
  maximumImportQueueSize : options.maximumImportQueueSize =
    getCount propertyTree "DataPacketSubscriber.maximumImportQueueSize" 4096
  maximumDuration : options.streamDequeMapOptions.mMaximumDuration = 1000000000 *
    getCount propertyTree "Service.maximumPacketRetentionDurationInSeconds" 300000000000
  maximumConnectionAge : options.serviceOptions.mMaximumConnectionAge =
    getCount propertyTree "Service.maximumConnectionAgeInMilliSeconds" 30000
  maximumGracePeriod : options.serviceOptions.mMaximumGracePeriod =
    getCount propertyTree "Service.maximumConnectionAgeGracePeriodInMilliSeconds" 1000
  maximumConcurrentStreams : options.serviceOptions.mMaximumConcurrentStreams =
    (propertyTree.getInt "Service.maximumNumberOfConcurrentStreams").getD 64

section Counts

variable {path : String} {count : Int}

theorem getInt_of_unset (h : propertyTree.getString path = none) :
    propertyTree.getInt path = none :=
  (propertyTree.unset path h).2.2.1

theorem getCount_set {value : Int32} (h : propertyTree.getInt path = some value) :
    getCount propertyTree path count = value.toInt := by
  rw [getCount, h]
  rfl

theorem getCount_unset (h : propertyTree.getInt path = none) :
    getCount propertyTree path count = (Int32.ofInt count).toInt := by
  rw [getCount, h]
  rfl

/-- A default that fits in an `int` comes back from the cast. -/
theorem getCount_default (h : propertyTree.getString path = none) (hl : -2 ^ 31 ≤ count)
    (hu : count < 2 ^ 31) : getCount propertyTree path count = count := by
  rw [getCount_unset (getInt_of_unset h), Int32.toInt_ofInt]
  exact Int.bmod_eq_of_le (by simpa using hl) (by simpa using hu)

theorem le_getCount (count : Int) {lower : Int}
    (h : ∀ value : Int32, propertyTree.getInt path = some value → lower ≤ value.toInt)
    (hc : lower ≤ (Int32.ofInt count).toInt) : lower ≤ getCount propertyTree path count := by
  cases hv : propertyTree.getInt path with
  | none => rwa [getCount_unset hv]
  | some value =>
    rw [getCount_set hv]
    exact h value hv

end Counts

section Parsed

variable {withOTLPGRPC : Bool}

theorem readSubscriber_ok (h : readSubscriber files propertyTree options = .ok result) :
    result.printSummaryInterval = options.printSummaryInterval ∧
      result.streamDequeMapOptions = options.streamDequeMapOptions ∧
      result.maximumImportQueueSize = getCount propertyTree
        "DataPacketSubscriber.maximumImportQueueSize" options.maximumImportQueueSize ∧
      result.maximumPacketLatency = getCount propertyTree
        "DataPacketSubscriber.maximumLatencyInSeconds" options.maximumPacketLatency ∧
      result.maximumPacketFutureTime = getCount propertyTree
        "DataPacketSubscriber.maximumFutureTimeInMilliseconds"
        options.maximumPacketFutureTime := by
  obtain ⟨grpcOptions, _, h⟩ := bind_eq_ok h
  obtain ⟨subscriberOptions, _, h⟩ := bind_eq_ok h
  simp only at h
  split_ifs at h
  obtain rfl := Except.ok.inj h
  exact ⟨rfl, rfl, rfl, rfl, rfl⟩

theorem setMaximumConnectionAge_ok {options result : ServiceOptions} {duration : Int}
    (h : options.setMaximumConnectionAge duration = .ok result) :
    result.mMaximumConnectionAge = duration ∧
      result.mMaximumGracePeriod = options.mMaximumGracePeriod ∧
      result.mMaximumConcurrentStreams = options.mMaximumConcurrentStreams := by
  rw [ServiceOptions.setMaximumConnectionAge] at h
  split_ifs at h
  obtain rfl := Except.ok.inj h
  exact ⟨rfl, rfl, rfl⟩

theorem setMaximumConnectionAgeGracePeriod_ok {options result : ServiceOptions} {period : Int}
    (h : options.setMaximumConnectionAgeGracePeriod period = .ok result) :
    result.mMaximumGracePeriod = period ∧
      result.mMaximumConnectionAge = options.mMaximumConnectionAge ∧
      result.mMaximumConcurrentStreams = options.mMaximumConcurrentStreams := by
  rw [ServiceOptions.setMaximumConnectionAgeGracePeriod] at h
  split_ifs at h
  obtain rfl := Except.ok.inj h
  exact ⟨rfl, rfl, rfl⟩

theorem setMaximumNumberOfConcurrentStreams_ok {options result : ServiceOptions}
    {maxStreams : Int32} (h : options.setMaximumNumberOfConcurrentStreams maxStreams = .ok result) :
    result.mMaximumConcurrentStreams = maxStreams ∧
      result.mMaximumConnectionAge = options.mMaximumConnectionAge ∧
      result.mMaximumGracePeriod = options.mMaximumGracePeriod := by
  rw [ServiceOptions.setMaximumNumberOfConcurrentStreams] at h
  split_ifs at h
  obtain rfl := Except.ok.inj h
  exact ⟨rfl, rfl, rfl⟩

theorem setCompressionAlgorithm_fields (options : ServiceOptions)
    (algorithm : CompressionAlgorithm) :
    (options.setCompressionAlgorithm algorithm).mMaximumConnectionAge =
        options.mMaximumConnectionAge ∧
      (options.setCompressionAlgorithm algorithm).mMaximumGracePeriod =
        options.mMaximumGracePeriod ∧
      (options.setCompressionAlgorithm algorithm).mMaximumConcurrentStreams =
        options.mMaximumConcurrentStreams :=
  ⟨rfl, rfl, rfl⟩

theorem construct_setGRPCOptions (grpcOptions : GRPCServerOptions) :
    (ServiceOptions.construct.setGRPCOptions grpcOptions).mMaximumConnectionAge = 30000 ∧
      (ServiceOptions.construct.setGRPCOptions grpcOptions).mMaximumGracePeriod = 1000 ∧
      (ServiceOptions.construct.setGRPCOptions grpcOptions).mMaximumConcurrentStreams = 64 :=
  ⟨rfl, rfl, rfl⟩

theorem getPublishServiceOptions_ok {serviceOptions : ServiceOptions}
    (h : getPublishServiceOptions files propertyTree = .ok serviceOptions) :
    serviceOptions.mMaximumConnectionAge =
        getCount propertyTree "Service.maximumConnectionAgeInMilliSeconds" 30000 ∧
      serviceOptions.mMaximumGracePeriod =
        getCount propertyTree "Service.maximumConnectionAgeGracePeriodInMilliSeconds" 1000 ∧
      serviceOptions.mMaximumConcurrentStreams =
        (propertyTree.getInt "Service.maximumNumberOfConcurrentStreams").getD 64 := by
  obtain ⟨grpcOptions, _, h⟩ := bind_eq_ok h
  obtain ⟨hage, hgrace, hstreams⟩ := construct_setGRPCOptions grpcOptions
  obtain ⟨aged, ha, h⟩ := bind_eq_ok h
  obtain ⟨graced, hg, h⟩ := bind_eq_ok h
  obtain ⟨streamed, hs, h⟩ := bind_eq_ok h
  obtain rfl := Except.ok.inj h
  obtain ⟨ha, hag, has⟩ := setMaximumConnectionAge_ok ha
  obtain ⟨hg, hga, hgs⟩ := setMaximumConnectionAgeGracePeriod_ok hg
  obtain ⟨hs, hsa, hsg⟩ := setMaximumNumberOfConcurrentStreams_ok hs
  rw [hage] at ha
  rw [hag, hgrace] at hg
  rw [hgs, has, hstreams] at hs
  obtain ⟨hca, hcg, hcs⟩ := setCompressionAlgorithm_fields streamed (compressionAlgorithm
    ((propertyTree.getString "Service.compressionAlgorithm").getD "deflate"))
  exact ⟨hca.trans (hsa.trans (hga.trans ha)), hcg.trans (hsg.trans hg), hcs.trans hs⟩

theorem setMaximumDuration_ok {options result : StreamDequeMapOptions} {duration : Int}
    (h : options.setMaximumDuration duration = .ok result) :
    result.mMaximumDuration = duration := by
  rw [StreamDequeMapOptions.setMaximumDuration] at h
  split_ifs at h
  obtain rfl := Except.ok.inj h
  rfl

theorem readLogs_ok (h : readLogs files propertyTree withOTLPGRPC options = .ok result)
    (hr : Reads propertyTree options) : Reads propertyTree result := by
  unfold readLogs at h
  split_ifs at h
  · obtain rfl := Except.ok.inj h
    simp only [readHTTPLog]
    split
    · exact hr
    · exact { hr with }
  · obtain rfl := Except.ok.inj h
    simp only [readGRPCLog]
    split
    · exact hr
    · exact { hr with }
  · obtain rfl := Except.ok.inj h
    exact hr

theorem readMetrics_ok (h : readMetrics files propertyTree withOTLPGRPC options = .ok result)
    (hr : Reads propertyTree options) : Reads propertyTree result := by
  unfold readMetrics at h
  split_ifs at h
  · simp only [readHTTPMetrics] at h
    split at h
    · obtain rfl := Except.ok.inj h
      exact hr
    · obtain ⟨times, _, h⟩ := bind_eq_ok h
      obtain rfl := Except.ok.inj h
      exact { hr with }
  · obtain ⟨times, _, h⟩ := bind_eq_ok h
    simp only at h
    split at h
    · obtain rfl := Except.ok.inj h
      exact hr
    · obtain rfl := Except.ok.inj h
      exact { hr with }
  · obtain rfl := Except.ok.inj h
    exact hr

theorem readService_ok (h : readService files propertyTree options = .ok result) :
    ∃ serviceOptions streamDequeMapOptions,
      getPublishServiceOptions files propertyTree = .ok serviceOptions ∧
      options.streamDequeMapOptions.setMaximumDuration (1000000000 *
        getCount propertyTree "Service.maximumPacketRetentionDurationInSeconds"
          options.streamDequeMapOptions.mMaximumDuration) = .ok streamDequeMapOptions ∧
      result = { options with serviceOptions, streamDequeMapOptions } := by
  obtain ⟨serviceOptions, hp, h⟩ := bind_eq_ok h
  obtain ⟨streamDequeMapOptions, hm, h⟩ := bind_eq_ok h
  exact ⟨serviceOptions, streamDequeMapOptions, hp, hm, (Except.ok.inj h).symm⟩

theorem parsePropertyTree_ok (h : parsePropertyTree files propertyTree withOTLPGRPC = .ok result) :
    Reads propertyTree result := by
  obtain ⟨subscribed, hs, hrest⟩ := bind_eq_ok h
  obtain ⟨served, hv, hexport⟩ := bind_eq_ok hrest
  obtain ⟨logged, hl, hmetrics⟩ := bind_eq_ok hexport
  obtain ⟨hsummary, hmap, hqueue, hlatency, hfuture⟩ := readSubscriber_ok hs
  obtain ⟨serviceOptions, mapOptions, hp, hm, rfl⟩ := readService_ok hv
  obtain ⟨hage, hgrace, hstreams⟩ := getPublishServiceOptions_ok hp
  rw [hmap] at hm
  have hr : Reads propertyTree { subscribed with
      serviceOptions, streamDequeMapOptions := mapOptions } :=
    ⟨hsummary, hlatency, hfuture, hqueue, setMaximumDuration_ok hm, hage, hgrace, hstreams⟩
  have hr := readLogs_ok hl { hr with }
  exact readMetrics_ok hmetrics { hr with }

end Parsed

section Succeeds

variable {pathSection : String} {withOTLPGRPC : Bool}

theorem loadStringFromFile_ok {path : String} (h : Loadable files path) :
    ∃ text, loadStringFromFile files path = .ok text ∧ text ≠ "" := by
  obtain ⟨hexists, text, hread, hne⟩ := h
  refine ⟨text, ?_, hne⟩
  rw [loadStringFromFile, hexists, hread]
  rfl

theorem bind_of_ok {α β : Type} {x : Except Fault α} {f : α → Except Fault β} {a : α} {b : β}
    (hx : x = .ok a) (hf : f a = .ok b) : x >>= f = .ok b := by
  rw [hx]
  exact hf

theorem getD_of_set {value : Option String} {P : String → Prop}
    (h : ∀ path, value = some path → path ≠ "" → P path) (hne : value.getD "" ≠ "") :
    P (value.getD "") := by
  cases value with
  | none => exact absurd rfl hne
  | some path => exact h path rfl hne

theorem getD_of_set_pair {value value' : Option String} {P : String → String → Prop}
    (h : ∀ path path', value = some path → value' = some path' → path ≠ "" → path' ≠ "" →
      P path path') (hne : value.getD "" ≠ "") (hne' : value'.getD "" ≠ "") :
    P (value.getD "") (value'.getD "") := by
  cases value with
  | none => exact absurd rfl hne
  | some path => exact getD_of_set (fun path' hv' hp' => h path path' rfl hv' hne hp') hne'

section Client

theorem readServerCertificate_succeeds (options : GRPCClientOptions) {path : String}
    (h : path ≠ "" → Loadable files path) :
    ∃ result, readServerCertificate files path options = .ok result ∧
      (path ≠ "" → result.mServerCertificate ≠ none) := by
  unfold readServerCertificate
  by_cases hp : path = ""
  · rw [if_neg (not_not.mpr hp)]
    exact ⟨options, rfl, fun hne => absurd hp hne⟩
  · obtain ⟨text, hload, hne⟩ := loadStringFromFile_ok (h hp)
    rw [if_pos hp, (h hp).1, hload]
    refine ⟨{ options with mServerCertificate := some text }, ?_, fun _ => by simp⟩
    show options.setServerCertificate text = _
    rw [GRPCClientOptions.setServerCertificate, if_neg hne]

theorem clientToken_succeeds (options : GRPCClientOptions) {accessToken : Option String}
    (h : ∀ token, accessToken = some token → token ≠ "" ∧ options.mServerCertificate ≠ none) :
    ∃ result, ClientOptions.readAccessToken accessToken options = .ok result := by
  cases accessToken with
  | none => exact ⟨options, rfl⟩
  | some token =>
    obtain ⟨hne, hset⟩ := h token rfl
    rw [ClientOptions.readAccessToken]
    simp only [hset, ↓reduceIte, GRPCClientOptions.setAccessToken, hne, ↓reduceDIte]
    exact ⟨_, rfl⟩

theorem clientKey_succeeds (options : GRPCClientOptions) {key certificate : String}
    (h : key ≠ "" → certificate ≠ "" → Loadable files key ∧ Loadable files certificate) :
    ∃ result, ClientOptions.readKeyAndCertificate files key certificate options = .ok result := by
  unfold ClientOptions.readKeyAndCertificate
  by_cases hne : key ≠ "" ∧ certificate ≠ ""
  · obtain ⟨hkey, hcertificate⟩ := h hne.1 hne.2
    obtain ⟨keyText, hk, hkne⟩ := loadStringFromFile_ok hkey
    obtain ⟨certificateText, hc, hcne⟩ := loadStringFromFile_ok hcertificate
    rw [if_pos hne, hkey.1, hcertificate.1, hk, hc]
    exact ⟨{ options with mClientKey := some keyText, mClientCertificate := some certificateText },
      by simp [bind, Except.bind, GRPCClientOptions.setClientKey,
        GRPCClientOptions.setClientCertificate, hkne, hcne]⟩
  · rw [if_neg hne]
    exact ⟨options, rfl⟩

theorem clientPort_ne {tree : PropertyTree} (h : ClientAccepts files tree pathSection)
    (options : GRPCClientOptions) :
    (tree.getUInt16 (pathSection ++ ".port")).getD options.mPort ≠ 0 := by
  cases hv : tree.getUInt16 (pathSection ++ ".port") with
  | none => exact options.port_ne
  | some port => exact h.port port hv

theorem clientHost_ne {tree : PropertyTree} (h : ClientAccepts files tree pathSection) :
    eraseSpaces ((tree.getString (pathSection ++ ".host")).getD
      GRPCClientOptions.construct.mHost) ≠ "" := by
  cases hv : tree.getString (pathSection ++ ".host") with
  | none => decide
  | some host => exact h.host host hv

theorem getGRPCClientOptions_succeeds {tree : PropertyTree}
    (h : ClientAccepts files tree pathSection) :
    ∃ result, getGRPCClientOptions files tree pathSection = .ok result := by
  have hhost := clientHost_ne h
  have hne : (tree.getString (pathSection ++ ".host")).getD GRPCClientOptions.construct.mHost ≠
      "" := by
    intro he
    rw [he] at hhost
    exact hhost (by decide)
  obtain ⟨hosted, hh⟩ : ∃ hosted, GRPCClientOptions.construct.setHost _ = .ok hosted :=
    ⟨_, dif_neg hhost⟩
  obtain ⟨first, hf⟩ : ∃ first, hosted.setPort 50000 = .ok first := ⟨_, dif_neg (by decide)⟩
  obtain ⟨ported, hp⟩ : ∃ ported, first.setPort _ = .ok ported :=
    ⟨_, dif_neg (clientPort_ne h first)⟩
  obtain ⟨certified, hc, hset⟩ :=
    readServerCertificate_succeeds ported (getD_of_set h.serverCertificate)
  obtain ⟨tokened, ht⟩ := clientToken_succeeds certified
    fun token ht => ⟨(h.accessToken token ht).1, hset (h.accessToken token ht).2⟩
  obtain ⟨result, hk⟩ := clientKey_succeeds tokened (getD_of_set_pair h.keyAndCertificate)
  refine ⟨result, (if_neg hne).trans ?_⟩
  exact bind_of_ok hh (bind_of_ok hf (bind_of_ok hp (bind_of_ok hc (bind_of_ok ht hk))))

end Client

section Server

theorem serverKey_succeeds (options : GRPCServerOptions) {key certificate : String}
    (h : key ≠ "" → certificate ≠ "" → Loadable files key ∧ Loadable files certificate) :
    ∃ result, ServerOptions.readKeyAndCertificate files key certificate options = .ok result ∧
      (key ≠ "" → certificate ≠ "" → result.mServerCertificate ≠ none) := by
  unfold ServerOptions.readKeyAndCertificate
  by_cases hne : key ≠ "" ∧ certificate ≠ ""
  · obtain ⟨hkey, hcertificate⟩ := h hne.1 hne.2
    obtain ⟨keyText, hk, hkne⟩ := loadStringFromFile_ok hkey
    obtain ⟨certificateText, hc, hcne⟩ := loadStringFromFile_ok hcertificate
    rw [if_pos hne, hkey.1, hcertificate.1, hk, hc]
    exact ⟨{ options with mServerKey := some keyText, mServerCertificate := some certificateText },
      by simp [bind, Except.bind, GRPCServerOptions.setServerKey,
        GRPCServerOptions.setServerCertificate, hkne, hcne], fun _ _ => by simp⟩
  · rw [if_neg hne]
    exact ⟨options, rfl, fun hk hc => absurd ⟨hk, hc⟩ hne⟩

theorem serverToken_succeeds (options : GRPCServerOptions) {accessToken : Option String}
    (h : ∀ token, accessToken = some token → token ≠ "" ∧ options.mServerCertificate ≠ none) :
    ∃ result, ServerOptions.readAccessToken accessToken options = .ok result := by
  cases accessToken with
  | none => exact ⟨options, rfl⟩
  | some token =>
    obtain ⟨hne, hset⟩ := h token rfl
    rw [ServerOptions.readAccessToken]
    simp only [hset, ↓reduceIte, GRPCServerOptions.setAccessToken, hne, ↓reduceDIte]
    exact ⟨_, rfl⟩

theorem readClientCertificate_succeeds (options : GRPCServerOptions) {path : String}
    (h : path ≠ "" → Loadable files path) :
    ∃ result, readClientCertificate files path options = .ok result := by
  unfold readClientCertificate
  by_cases hp : path = ""
  · rw [if_neg (not_not.mpr hp)]
    exact ⟨options, rfl⟩
  · obtain ⟨text, hload, hne⟩ := loadStringFromFile_ok (h hp)
    rw [if_pos hp, (h hp).1, hload]
    refine ⟨{ options with mClientCertificate := some text }, ?_⟩
    show options.setClientCertificate text = _
    rw [GRPCServerOptions.setClientCertificate, if_neg hne]

theorem serverPort_ne {tree : PropertyTree} (h : ServerAccepts files tree pathSection)
    (options : GRPCServerOptions) :
    (tree.getUInt16 (pathSection ++ ".port")).getD options.mPort ≠ 0 := by
  cases hv : tree.getUInt16 (pathSection ++ ".port") with
  | none => exact options.port_ne
  | some port => exact h.port port hv

theorem serverHost_ne {tree : PropertyTree} (h : ServerAccepts files tree pathSection) :
    (tree.getString (pathSection ++ ".host")).getD GRPCServerOptions.construct.mHost ≠ "" := by
  cases hv : tree.getString (pathSection ++ ".host") with
  | none => exact GRPCServerOptions.construct.host_ne
  | some host => exact h.host host hv

theorem getGRPCServerOptions_succeeds {tree : PropertyTree}
    (h : ServerAccepts files tree pathSection) :
    ∃ result, getGRPCServerOptions files tree pathSection = .ok result := by
  have hhost := serverHost_ne h
  obtain ⟨hosted, hh⟩ : ∃ hosted, GRPCServerOptions.construct.setHost _ = .ok hosted :=
    ⟨_, dif_neg hhost⟩
  obtain ⟨first, hf⟩ : ∃ first, hosted.setPort 50000 = .ok first := ⟨_, dif_neg (by decide)⟩
  obtain ⟨ported, hp⟩ : ∃ ported, first.setPort _ = .ok ported :=
    ⟨_, dif_neg (serverPort_ne h first)⟩
  obtain ⟨keyed, hk, hset⟩ :=
    serverKey_succeeds ported (getD_of_set_pair h.keyAndCertificate)
  obtain ⟨tokened, ht⟩ := serverToken_succeeds keyed fun token ht =>
    have hnames := (h.accessToken token ht).2
    ⟨(h.accessToken token ht).1, hset hnames.1 hnames.2⟩
  obtain ⟨certified, hc⟩ :=
    readClientCertificate_succeeds tokened (getD_of_set h.clientCertificate)
  refine ⟨{ certified with mReflectionEnabled :=
    (tree.getBool (pathSection ++ ".enableReflection")).getD false }, (if_neg hhost).trans ?_⟩
  exact bind_of_ok hh (bind_of_ok hf (bind_of_ok hp (bind_of_ok hk (bind_of_ok ht
    (bind_of_ok hc rfl)))))

end Server

section Service

variable {options : ServiceOptions}

theorem setMaximumConnectionAge_succeeds {duration : Int} (h : 1 ≤ duration) :
    ∃ result, options.setMaximumConnectionAge duration = .ok result :=
  ⟨_, dif_neg (not_lt.mpr h)⟩

theorem setMaximumConnectionAgeGracePeriod_succeeds {period : Int} (h : 0 ≤ period) :
    ∃ result, options.setMaximumConnectionAgeGracePeriod period = .ok result :=
  ⟨_, dif_neg (not_lt.mpr h)⟩

theorem setMaximumNumberOfConcurrentStreams_succeeds {maxStreams : Int32}
    (h : 1 ≤ maxStreams.toInt) :
    ∃ result, options.setMaximumNumberOfConcurrentStreams maxStreams = .ok result :=
  ⟨_, dif_neg (by rw [Int32.lt_iff_toInt_lt]; exact not_lt.mpr h)⟩

theorem getPublishServiceOptions_succeeds (ha : Accepted files propertyTree) :
    ∃ result, getPublishServiceOptions files propertyTree = .ok result := by
  obtain ⟨grpcOptions, hg⟩ := getGRPCServerOptions_succeeds ha.server
  obtain ⟨hage, hgrace, hstreams⟩ := construct_setGRPCOptions grpcOptions
  have h1 := le_getCount 30000 ha.maximumConnectionAge (by decide)
  rw [← hage] at h1
  obtain ⟨aged, h1⟩ := setMaximumConnectionAge_succeeds h1
  obtain ⟨-, hage, has⟩ := setMaximumConnectionAge_ok h1
  have h2 := le_getCount 1000 ha.maximumGracePeriod (by decide)
  rw [← hgrace, ← hage] at h2
  obtain ⟨graced, h2⟩ := setMaximumConnectionAgeGracePeriod_succeeds h2
  obtain ⟨-, -, hgs⟩ := setMaximumConnectionAgeGracePeriod_ok h2
  have h3 : 1 ≤ ((propertyTree.getInt "Service.maximumNumberOfConcurrentStreams").getD
      graced.mMaximumConcurrentStreams).toInt := by
    cases hv : propertyTree.getInt "Service.maximumNumberOfConcurrentStreams" with
    | none =>
      rw [Option.getD_none, hgs, has, hstreams]
      decide
    | some value => exact ha.maximumConcurrentStreams value hv
  obtain ⟨streamed, h3⟩ := setMaximumNumberOfConcurrentStreams_succeeds h3
  exact ⟨_, bind_of_ok hg (bind_of_ok h1 (bind_of_ok h2 (bind_of_ok h3 rfl)))⟩

end Service

/-- The retention is the one default that does not come back from the cast as a duration that
its setter accepts. -/
theorem one_le_retention_iff (ha : Accepted files propertyTree) :
    1 ≤ 1000000000 * getCount propertyTree "Service.maximumPacketRetentionDurationInSeconds"
        300000000000 ↔
      (propertyTree.getInt "Service.maximumPacketRetentionDurationInSeconds").isSome := by
  cases hv : propertyTree.getInt "Service.maximumPacketRetentionDurationInSeconds" with
  | none =>
    rw [getCount_unset hv]
    decide
  | some value =>
    have hpos := ha.maximumDuration value hv
    rw [getCount_set hv]
    simp only [Option.isSome_some, iff_true]
    omega

theorem readSubscriber_succeeds (ha : Accepted files propertyTree) :
    ∃ result, readSubscriber files propertyTree
      (readGeneral propertyTree ProgramOptions.construct) = .ok result := by
  obtain ⟨grpcOptions, hg⟩ := getGRPCClientOptions_succeeds ha.client
  have hname : (readGeneral propertyTree ProgramOptions.construct).applicationName ≠ "" := by
    simp only [readGeneral]
    split
    · decide
    · assumption
  have hqueue : ¬getCount propertyTree "DataPacketSubscriber.maximumImportQueueSize" 4096 < 1 :=
    not_lt.mpr (le_getCount 4096 ha.maximumImportQueueSize (by decide))
  exact ⟨_, bind_of_ok hg (bind_of_ok (dif_neg hname) (if_neg hqueue))⟩

theorem readExporters_of_withoutOTel (ho : WithoutOTel propertyTree) (options : ProgramOptions) :
    readLogs files propertyTree withOTLPGRPC options = .ok options ∧
      readMetrics files propertyTree withOTLPGRPC options = .ok options := by
  constructor
  · simp [readLogs, ho.httpLog, ho.grpcLog]
  · simp [readMetrics, ho.httpMetrics, ho.grpcMetrics]

theorem parsePropertyTree_succeeds_iff (ho : WithoutOTel propertyTree)
    (ha : Accepted files propertyTree) :
    (∃ result, parsePropertyTree files propertyTree withOTLPGRPC = .ok result) ↔
      (propertyTree.getInt "Service.maximumPacketRetentionDurationInSeconds").isSome := by
  rw [← one_le_retention_iff ha]
  constructor
  · rintro ⟨result, h⟩
    rw [← (parsePropertyTree_ok h).maximumDuration]
    exact result.streamDequeMapOptions.duration_pos
  · intro hpos
    obtain ⟨subscribed, hs⟩ := readSubscriber_succeeds ha
    obtain ⟨-, hmap, -⟩ := readSubscriber_ok hs
    obtain ⟨serviceOptions, hp⟩ := getPublishServiceOptions_succeeds ha
    have hm : subscribed.streamDequeMapOptions.setMaximumDuration (1000000000 *
        getCount propertyTree "Service.maximumPacketRetentionDurationInSeconds"
          subscribed.streamDequeMapOptions.mMaximumDuration) = .ok ⟨_, hpos⟩ := by
      rw [hmap]
      exact dif_neg (not_lt.mpr hpos)
    have hv : readService files propertyTree subscribed = .ok { subscribed with
        serviceOptions, streamDequeMapOptions := ⟨_, hpos⟩ } := bind_of_ok hp (bind_of_ok hm rfl)
    exact ⟨_, bind_of_ok hs (bind_of_ok hv (bind_of_ok (readExporters_of_withoutOTel ho _).1
      (readExporters_of_withoutOTel ho _).2))⟩

end Succeeds

theorem Reads.not_keepsDefaults (h : Reads propertyTree options)
    (hnone : propertyTree.getString "General.printSummaryIntervalInMinutes" = none) :
    ¬KeepsDefaults propertyTree options := by
  intro hk
  have hsummary := hk.printSummaryInterval hnone
  rw [h.printSummaryInterval, getCount_default hnone (by decide) (by decide)] at hsummary
  exact absurd hsummary (by decide)

theorem Reads.keepsDefaults_iff (h : Reads propertyTree options)
    (hr : (propertyTree.getInt "Service.maximumPacketRetentionDurationInSeconds").isSome) :
    KeepsDefaults propertyTree options ↔
      (propertyTree.getString "General.printSummaryIntervalInMinutes").isSome := by
  constructor
  · intro hk
    by_contra hnone
    exact h.not_keepsDefaults (Option.not_isSome_iff_eq_none.mp hnone) hk
  · intro hs
    refine ⟨?_, ?_, ?_, ?_, ?_, ?_, ?_, ?_⟩
    · intro hnone
      rw [hnone] at hs
      cases hs
    · intro hnone
      rw [h.maximumPacketLatency, getCount_default hnone (by decide) (by decide)]
      rfl
    · intro hnone
      rw [h.maximumPacketFutureTime, getCount_default hnone (by decide) (by decide)]
      rfl
    · intro hnone
      rw [h.maximumImportQueueSize, getCount_default hnone (by decide) (by decide)]
      rfl
    · intro hnone
      rw [getInt_of_unset hnone] at hr
      cases hr
    · intro hnone
      rw [h.maximumConnectionAge, getCount_default hnone (by decide) (by decide)]
      rfl
    · intro hnone
      rw [h.maximumGracePeriod, getCount_default hnone (by decide) (by decide)]
      rfl
    · intro hnone
      rw [h.maximumConcurrentStreams, getInt_of_unset hnone]
      rfl

section Files

variable {readIni : String → Except Fault IniTree} {iniFile : String} {withOTLPGRPC : Bool}

theorem parseIniFile_of_read (hf : files.pathExists iniFile = true)
    (hr : readIni iniFile = .ok propertyTree) :
    parseIniFile files withOTLPGRPC readIni iniFile =
      parsePropertyTree files propertyTree withOTLPGRPC := by
  rw [parseIniFile, hf, hr]
  rfl

/-- A file that is missing gives the defaults. The defaults are kept for the keys that are not
set exactly when the summary interval is set and the retention is set to an integer. -/
theorem keepsDefaults_iff_set (files : FileSystem) (withOTLPGRPC : Bool)
    (readIni : String → Except Fault IniTree) :
    (∀ iniFile, files.pathExists iniFile = false →
      parseIniFile files withOTLPGRPC readIni iniFile = .ok ProgramOptions.construct) ∧
    ∀ iniFile propertyTree, files.pathExists iniFile = true →
      readIni iniFile = .ok propertyTree → WithoutOTel propertyTree →
      Accepted files propertyTree →
      ((∃ options, parseIniFile files withOTLPGRPC readIni iniFile = .ok options ∧
          KeepsDefaults propertyTree options) ↔
        (propertyTree.getString "General.printSummaryIntervalInMinutes").isSome ∧
          (propertyTree.getInt "Service.maximumPacketRetentionDurationInSeconds").isSome) := by
  refine ⟨fun iniFile hf => by rw [parseIniFile, hf]; rfl, ?_⟩
  intro iniFile propertyTree hf hr ho ha
  rw [parseIniFile_of_read hf hr]
  constructor
  · rintro ⟨options, hok, hk⟩
    have hset := (parsePropertyTree_succeeds_iff ho ha).mp ⟨options, hok⟩
    exact ⟨((parsePropertyTree_ok hok).keepsDefaults_iff hset).mp hk, hset⟩
  · rintro ⟨hsummary, hset⟩
    obtain ⟨options, hok⟩ := (parsePropertyTree_succeeds_iff ho ha).mpr hset
    exact ⟨options, hok, ((parsePropertyTree_ok hok).keepsDefaults_iff hset).mpr hsummary⟩

end Files

section Given

def given (summary retention : Option Int32) (path : String) : Option Int32 :=
  if path = "General.printSummaryIntervalInMinutes" then summary
  else if path = "Service.maximumPacketRetentionDurationInSeconds" then retention
  else none

def givenTree (summary retention : Option Int32) : IniTree where
  getString path := (given summary retention path).map fun value => value.toInt.repr
  getUInt16 _ := none
  getBool _ := none
  getInt := given summary retention
  getInt64 path := (given summary retention path).map Int32.toInt64
  unset _ h :=
    have hnone := Option.map_eq_none_iff.mp h
    ⟨rfl, rfl, hnone, Option.map_eq_none_iff.mpr hnone⟩

def serviceIni : FileSystem := ⟨fun path => path = "service.ini", fun _ => none⟩

variable {summary retention : Option Int32}

theorem given_of_ne {path : String} (hs : path ≠ "General.printSummaryIntervalInMinutes")
    (hr : path ≠ "Service.maximumPacketRetentionDurationInSeconds") :
    given summary retention path = none := by
  rw [given, if_neg hs, if_neg hr]

theorem givenTree_getString {path : String} (hs : path ≠ "General.printSummaryIntervalInMinutes")
    (hr : path ≠ "Service.maximumPacketRetentionDurationInSeconds") :
    (givenTree summary retention).getString path = none := by
  show (given summary retention path).map _ = none
  rw [given_of_ne hs hr]
  rfl

theorem givenTree_withoutOTel (summary retention : Option Int32) :
    WithoutOTel (givenTree summary retention) :=
  ⟨givenTree_getString (by decide) (by decide), givenTree_getString (by decide) (by decide),
    givenTree_getString (by decide) (by decide), givenTree_getString (by decide) (by decide)⟩

theorem givenTree_accepted (summary : Option Int32)
    (h : ∀ value : Int32, retention = some value → 1 ≤ value.toInt) :
    Accepted serviceIni (givenTree summary retention) := by
  have hunset : ∀ {path value}, path ≠ "General.printSummaryIntervalInMinutes" →
      path ≠ "Service.maximumPacketRetentionDurationInSeconds" →
      (givenTree summary retention).getString path ≠ some value := by
    intro path value hs hr hv
    rw [givenTree_getString hs hr] at hv
    cases hv
  have hunset' : ∀ {path value}, path ≠ "General.printSummaryIntervalInMinutes" →
      path ≠ "Service.maximumPacketRetentionDurationInSeconds" →
      (givenTree summary retention).getInt path ≠ some value := by
    intro path value hs hr hv
    rw [getInt_of_unset (givenTree_getString hs hr)] at hv
    cases hv
  refine ⟨⟨?_, ?_, ?_, ?_, ?_⟩, ⟨?_, ?_, ?_, ?_, ?_⟩, ?_, ?_, ?_, ?_, ?_⟩
  · exact fun _ hv => absurd hv (hunset (by decide) (by decide))
  · exact fun _ hv => by cases hv
  · exact fun _ hv => absurd hv (hunset (by decide) (by decide))
  · exact fun _ hv => absurd hv (hunset (by decide) (by decide))
  · exact fun _ _ hv => absurd hv (hunset (by decide) (by decide))
  · exact fun _ hv => absurd hv (hunset (by decide) (by decide))
  · exact fun _ hv => by cases hv
  · exact fun _ _ hv => absurd hv (hunset (by decide) (by decide))
  · exact fun _ hv => absurd hv (hunset (by decide) (by decide))
  · exact fun _ hv => absurd hv (hunset (by decide) (by decide))
  · exact fun _ hv => absurd hv (hunset' (by decide) (by decide))
  · exact fun _ hv => absurd hv (hunset' (by decide) (by decide))
  · exact fun _ hv => absurd hv (hunset' (by decide) (by decide))
  · exact fun _ hv => absurd hv (hunset' (by decide) (by decide))
  · exact h

theorem given_retention : ∀ value : Int32, some 300 = some value → 1 ≤ value.toInt := by
  intro value hv
  rw [← Option.some.inj hv]
  decide

end Given

theorem keepsDefaults_both_set :
    ∃ options, parseIniFile serviceIni false
        (fun _ => .ok (givenTree (some 15) (some 300))) "service.ini" = .ok options ∧
      KeepsDefaults (givenTree (some 15) (some 300)) options := by
  apply ((keepsDefaults_iff_set serviceIni false _).2 "service.ini" _ rfl rfl
    (givenTree_withoutOTel _ _) (givenTree_accepted _ given_retention)).mpr
  exact ⟨by decide, by decide⟩

/-- A file without any key is rejected, and one with the retention alone makes the quarter of
an hour between two summaries fifteen hours. -/
theorem defaults_not_kept :
    (WithoutOTel (givenTree none none) ∧ Accepted serviceIni (givenTree none none) ∧
      (parseIniFile serviceIni false (fun _ => .ok (givenTree none none)) "service.ini").map
        ProgramOptions.printSummaryInterval =
        .error (.invalidArgument "Duration must be positive") ∧
      ¬∃ options, parseIniFile serviceIni false (fun _ => .ok (givenTree none none))
        "service.ini" = .ok options ∧ KeepsDefaults (givenTree none none) options) ∧
    (WithoutOTel (givenTree none (some 300)) ∧ Accepted serviceIni (givenTree none (some 300)) ∧
      (parseIniFile serviceIni false (fun _ => .ok (givenTree none (some 300))) "service.ini").map
        ProgramOptions.printSummaryInterval = .ok 54000 ∧
      ¬∃ options, parseIniFile serviceIni false (fun _ => .ok (givenTree none (some 300)))
        "service.ini" = .ok options ∧ KeepsDefaults (givenTree none (some 300)) options) := by
  refine ⟨⟨givenTree_withoutOTel _ _, givenTree_accepted _ nofun, by decide +kernel, ?_⟩,
    ⟨givenTree_withoutOTel _ _, givenTree_accepted _ given_retention, by decide +kernel, ?_⟩⟩
  · rintro ⟨options, hok, hk⟩
    rw [parseIniFile_of_read rfl rfl] at hok
    exact (parsePropertyTree_ok hok).not_keepsDefaults (by decide) hk
  · rintro ⟨options, hok, hk⟩
    rw [parseIniFile_of_read rfl rfl] at hok
    exact (parsePropertyTree_ok hok).not_keepsDefaults (by decide) hk

end PacketCache.Defaults

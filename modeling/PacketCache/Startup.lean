import PacketCache.AccessControl
import PacketCache.Defaults
import PacketCache.Process
import PacketCache.Reconnects

namespace PacketCache.Startup

open PacketCache.ClientOptions PacketCache.Defaults PacketCache.IniFile PacketCache.Platform
open PacketCache.Process PacketCache.Reconnects PacketCache.ServerOptions PacketCache.Service
open PacketCache.Subscriber

inductive Credentials
  | insecure
  | ssl (pemRootCerts : String)
  | sslWithToken (pemRootCerts apiKey : String)
deriving DecidableEq

def Credentials.metadata : Credentials → Metadata
  | .insecure | .ssl _ => []
  | .sslWithToken _ mToken => [("x-custom-auth-token", mToken)]

structure Channel where
  address : String
  credentials : Credentials
deriving DecidableEq

def makeAddress (options : GRPCClientOptions) : String :=
  options.mHost ++ ":" ++ options.mPort.toNat.repr

def createChannel (build : Build) (options : GRPCClientOptions) : Except Fault Channel :=
  let address := makeAddress options
  match options.mServerCertificate with
  | some serverCertificate =>
    if build = .debug ∧ serverCertificate = "" then .error .assertionFailed
    else
      match options.mAccessToken with
      | some apiKey =>
        if build = .debug ∧ apiKey = "" then .error .assertionFailed
        else .ok ⟨address, .sslWithToken serverCertificate apiKey⟩
      | none => .ok ⟨address, .ssl serverCertificate⟩
  | none => .ok ⟨address, .insecure⟩

/-- The check of the constructor of a `Service`. The map that it is given is never null. -/
def constructService (options : ServiceOptions) : Except Fault ServiceOptions :=
  if options.mGRPCOptions.isNone then .error (.invalidArgument "gRPC options not set for server")
  else .ok options

/-- The check of the metrics, which keep the value for an exporter. -/
def setMaximumNumberOfClients (maxClients : Int32) : Except Fault Unit :=
  if maxClients < 1 then .error (.invalidArgument "Max clients must be positive")
  else .ok ()

def constructProcess (mOptions : ProgramOptions) : Except Fault (SubscriberImpl × ServiceOptions) :=
  do
    let mDataPacketSubscriber ← Subscriber.construct mOptions.dataPacketSubscriberOptions
    let mService ← constructService mOptions.serviceOptions
    if mOptions.exportMetrics then
      setMaximumNumberOfClients mOptions.serviceOptions.mMaximumConcurrentStreams
    return (mDataPacketSubscriber, mService)

section ClientOptions

variable {files : FileSystem} {options result : GRPCClientOptions}

/-- Client options that a channel can be created with: the certificate is not empty, and
there is no token without it. The parse leaves the reconnect schedule alone. -/
structure Connectable (options : GRPCClientOptions) : Prop where
  certificate : options.mServerCertificate ≠ some ""
  token : options.mAccessToken ≠ none → options.mServerCertificate ≠ none
  schedule : options.mReconnectSchedule = [0, 5000, 15000, 30000]

theorem connectable_setHost {host : String} (h : options.setHost host = .ok result)
    (hc : Connectable options) : Connectable result := by
  simp only [GRPCClientOptions.setHost] at h
  split_ifs at h
  obtain rfl := Except.ok.inj h
  exact ⟨hc.certificate, hc.token, hc.schedule⟩

theorem connectable_setPort {port : UInt16} (h : options.setPort port = .ok result)
    (hc : Connectable options) : Connectable result := by
  rw [GRPCClientOptions.setPort] at h
  split_ifs at h
  obtain rfl := Except.ok.inj h
  exact ⟨hc.certificate, hc.token, hc.schedule⟩

theorem connectable_readServerCertificate {path : String}
    (h : readServerCertificate files path options = .ok result) (hc : Connectable options) :
    Connectable result := by
  rw [readServerCertificate] at h
  split_ifs at h
  · obtain ⟨certificate, _, h⟩ := bind_eq_ok h
    rw [GRPCClientOptions.setServerCertificate] at h
    split_ifs at h with hne
    obtain rfl := Except.ok.inj h
    exact ⟨by simpa using hne, fun _ => by simp, hc.schedule⟩
  · exact Except.ok.inj h ▸ hc

theorem connectable_readAccessToken {token : Option String}
    (h : ClientOptions.readAccessToken token options = .ok result) (hc : Connectable options) :
    Connectable result := by
  cases token with
  | none => exact Except.ok.inj h ▸ hc
  | some token =>
    simp only [ClientOptions.readAccessToken, GRPCClientOptions.setAccessToken] at h
    split_ifs at h with hcertificate
    obtain rfl := Except.ok.inj h
    exact ⟨hc.certificate, fun _ => hcertificate, hc.schedule⟩

theorem clientKeyAndCertificate_ok {key certificate : String}
    (h : ClientOptions.readKeyAndCertificate files key certificate options = .ok result) :
    result.mServerCertificate = options.mServerCertificate ∧
      result.mAccessToken = options.mAccessToken ∧
      result.mReconnectSchedule = options.mReconnectSchedule := by
  rw [ClientOptions.readKeyAndCertificate] at h
  split_ifs at h
  · obtain ⟨key, _, h⟩ := bind_eq_ok h
    obtain ⟨keyed, hkey, h⟩ := bind_eq_ok h
    obtain ⟨certificate, _, h⟩ := bind_eq_ok h
    rw [GRPCClientOptions.setClientKey] at hkey
    rw [GRPCClientOptions.setClientCertificate] at h
    split_ifs at hkey
    split_ifs at h
    obtain rfl := Except.ok.inj hkey
    obtain rfl := Except.ok.inj h
    exact ⟨rfl, rfl, rfl⟩
  · obtain rfl := Except.ok.inj h
    exact ⟨rfl, rfl, rfl⟩

theorem readAccessToken_sets {token : String}
    (h : ClientOptions.readAccessToken (some token) options = .ok result) :
    result.mAccessToken = some token := by
  simp only [ClientOptions.readAccessToken, GRPCClientOptions.setAccessToken] at h
  split_ifs at h
  obtain rfl := Except.ok.inj h
  rfl

theorem getGRPCClientOptions_ok {propertyTree : PropertyTree} {pathSection : String}
    (h : getGRPCClientOptions files propertyTree pathSection = .ok result) :
    Connectable result ∧ ∀ token,
      propertyTree.getString (pathSection ++ ".accessToken") = some token →
      result.mAccessToken = some token := by
  simp only [getGRPCClientOptions] at h
  split_ifs at h
  obtain ⟨hosted, hhost, h⟩ := bind_eq_ok h
  obtain ⟨ported, hport, h⟩ := bind_eq_ok h
  obtain ⟨reported, hport', h⟩ := bind_eq_ok h
  obtain ⟨certified, hcertified, h⟩ := bind_eq_ok h
  obtain ⟨guarded, hguarded, h⟩ := bind_eq_ok h
  have hstart : Connectable GRPCClientOptions.construct :=
    ⟨by decide, fun hne => absurd rfl hne, rfl⟩
  have hreported := connectable_setPort hport' (connectable_setPort hport
    (connectable_setHost hhost hstart))
  have hc := connectable_readAccessToken hguarded
    (connectable_readServerCertificate hcertified hreported)
  obtain ⟨hcertificate, htoken, hschedule⟩ := clientKeyAndCertificate_ok h
  refine ⟨⟨by rw [hcertificate]; exact hc.certificate, ?_, by rw [hschedule]; exact hc.schedule⟩, ?_⟩
  · rw [htoken, hcertificate]
    exact hc.token
  · intro token hset
    rw [hset] at hguarded
    rw [htoken, readAccessToken_sets hguarded]

theorem createChannel_ok (build : Build) (hc : Connectable options) :
    ∃ channel, createChannel build options = .ok channel ∧
      ∀ token, options.mAccessToken = some token →
        channel.credentials.metadata = [("x-custom-auth-token", token)] := by
  cases hcertificate : options.mServerCertificate with
  | none =>
    have hnone : options.mAccessToken = none := by
      by_contra hne
      exact hc.token hne hcertificate
    exact ⟨⟨makeAddress options, .insecure⟩, by simp only [createChannel, hcertificate],
      by simp [hnone]⟩
  | some serverCertificate =>
    have hne : serverCertificate ≠ "" := fun he => hc.certificate (by rw [hcertificate, he])
    cases htoken : options.mAccessToken with
    | none =>
      exact ⟨⟨makeAddress options, .ssl serverCertificate⟩,
        by simp only [createChannel, hcertificate, htoken, hne, and_false, ↓reduceIte],
        by simp⟩
    | some apiKey =>
      have hkey : apiKey ≠ "" := fun he => options.accessToken_ne (by rw [htoken, he])
      refine ⟨⟨makeAddress options, .sslWithToken serverCertificate apiKey⟩,
        by simp only [createChannel, hcertificate, htoken, hne, hkey, and_false, ↓reduceIte],
        ?_⟩
      simp [Credentials.metadata]

end ClientOptions

section Parsed

variable {files : FileSystem} {propertyTree : IniTree} {withOTLPGRPC : Bool}
variable {options result : ProgramOptions}

structure SameParts (options result : ProgramOptions) : Prop where
  queue : result.maximumImportQueueSize = options.maximumImportQueueSize
  subscriber : result.dataPacketSubscriberOptions = options.dataPacketSubscriberOptions
  service : result.serviceOptions = options.serviceOptions

theorem readLogs_sameParts (h : readLogs files propertyTree withOTLPGRPC options = .ok result) :
    SameParts options result := by
  unfold readLogs at h
  split_ifs at h
  · obtain rfl := Except.ok.inj h
    simp only [readHTTPLog]
    split <;> exact ⟨rfl, rfl, rfl⟩
  · obtain rfl := Except.ok.inj h
    simp only [readGRPCLog]
    split <;> exact ⟨rfl, rfl, rfl⟩
  · obtain rfl := Except.ok.inj h
    exact ⟨rfl, rfl, rfl⟩

theorem readMetrics_sameParts
    (h : readMetrics files propertyTree withOTLPGRPC options = .ok result) :
    SameParts options result := by
  unfold readMetrics at h
  split_ifs at h
  · simp only [readHTTPMetrics] at h
    split at h
    · obtain rfl := Except.ok.inj h
      exact ⟨rfl, rfl, rfl⟩
    · obtain ⟨times, _, h⟩ := bind_eq_ok h
      obtain rfl := Except.ok.inj h
      exact ⟨rfl, rfl, rfl⟩
  · obtain ⟨times, _, h⟩ := bind_eq_ok h
    simp only at h
    split at h <;>
    · obtain rfl := Except.ok.inj h
      exact ⟨rfl, rfl, rfl⟩
  · obtain rfl := Except.ok.inj h
    exact ⟨rfl, rfl, rfl⟩

theorem readSubscriber_parts (h : readSubscriber files propertyTree options = .ok result) :
    1 ≤ result.maximumImportQueueSize ∧ ∃ grpcOptions,
      getGRPCClientOptions files propertyTree.toPropertyTree "DataPacketSubscriber" =
        .ok grpcOptions ∧
      result.dataPacketSubscriberOptions.mGRPCOptions = some grpcOptions := by
  obtain ⟨grpcOptions, hgrpc, h⟩ := bind_eq_ok h
  obtain ⟨subscriberOptions, hidentifier, h⟩ := bind_eq_ok h
  simp only at h
  split_ifs at h with hsize
  obtain rfl := Except.ok.inj h
  refine ⟨not_lt.mp hsize, grpcOptions, hgrpc, ?_⟩
  simp only [SubscriberOptions.setIdentifier] at hidentifier
  split_ifs at hidentifier
  obtain rfl := Except.ok.inj hidentifier
  rfl

theorem getPublishServiceOptions_parts {serviceOptions : ServiceOptions}
    (h : getPublishServiceOptions files propertyTree = .ok serviceOptions) :
    serviceOptions.mGRPCOptions.isNone = false := by
  obtain ⟨grpcOptions, _, h⟩ := bind_eq_ok h
  obtain ⟨aged, ha, h⟩ := bind_eq_ok h
  obtain ⟨graced, hg, h⟩ := bind_eq_ok h
  obtain ⟨streamed, hs, h⟩ := bind_eq_ok h
  obtain rfl := Except.ok.inj h
  rw [ServiceOptions.setMaximumConnectionAge] at ha
  rw [ServiceOptions.setMaximumConnectionAgeGracePeriod] at hg
  rw [ServiceOptions.setMaximumNumberOfConcurrentStreams] at hs
  split_ifs at ha hg hs
  obtain rfl := Except.ok.inj ha
  obtain rfl := Except.ok.inj hg
  obtain rfl := Except.ok.inj hs
  rfl

theorem setMaximumNumberOfClients_ok (serviceOptions : ServiceOptions) :
    setMaximumNumberOfClients serviceOptions.mMaximumConcurrentStreams = .ok () :=
  if_neg serviceOptions.streams_pos

structure Startable (files : FileSystem) (propertyTree : IniTree) (options : ProgramOptions) :
    Prop where
  queue : 1 ≤ options.maximumImportQueueSize
  subscriber : ∃ grpcOptions,
    getGRPCClientOptions files propertyTree.toPropertyTree "DataPacketSubscriber" =
      .ok grpcOptions ∧
    options.dataPacketSubscriberOptions.mGRPCOptions = some grpcOptions
  service : options.serviceOptions.mGRPCOptions.isNone = false

theorem Startable.same (h : Startable files propertyTree options) (hs : SameParts options result) :
    Startable files propertyTree result :=
  ⟨hs.queue ▸ h.queue, by rw [hs.subscriber]; exact h.subscriber,
    by rw [hs.service]; exact h.service⟩

theorem parsePropertyTree_startable
    (h : parsePropertyTree files propertyTree withOTLPGRPC = .ok result) :
    Startable files propertyTree result := by
  obtain ⟨subscribed, hs, hrest⟩ := bind_eq_ok h
  obtain ⟨served, hv, hexport⟩ := bind_eq_ok hrest
  obtain ⟨logged, hl, hmetrics⟩ := bind_eq_ok hexport
  obtain ⟨hqueue, hsubscriber⟩ := readSubscriber_parts hs
  obtain ⟨serviceOptions, mapOptions, hp, _, rfl⟩ := readService_ok hv
  have hserved : Startable files propertyTree { subscribed with
      serviceOptions, streamDequeMapOptions := mapOptions } :=
    ⟨hqueue, hsubscriber, getPublishServiceOptions_parts hp⟩
  have hlogs := readLogs_sameParts hl
  have hlogged : Startable files propertyTree logged :=
    hserved.same ⟨hlogs.queue, hlogs.subscriber, hlogs.service⟩
  have hexported := readMetrics_sameParts hmetrics
  exact hlogged.same ⟨hexported.queue, hexported.subscriber, hexported.service⟩

structure Started (propertyTree : IniTree) (mOptions : ProgramOptions)
    (subscriber : SubscriberImpl) : Prop where
  queue : 1 ≤ mMaximumImportQueueSize mOptions
  policy : Policy subscriber
  schedule : reconnectSchedule subscriber = [0, 5000, 15000, 30000]
  channel : ∀ build, ∃ grpcOptions channel,
    subscriber.mOptions.getGRPCOptions = .ok grpcOptions ∧
    createChannel build grpcOptions = .ok channel ∧
    ∀ token, propertyTree.getString "DataPacketSubscriber.accessToken" = some token →
      channel.credentials.metadata = [("x-custom-auth-token", token)]

theorem Startable.constructs (h : Startable files propertyTree options) :
    ∃ subscriber service, constructProcess options = .ok (subscriber, service) ∧
      Started propertyTree options subscriber := by
  obtain ⟨grpcOptions, hgrpc, hset⟩ := h.subscriber
  obtain ⟨hconnectable, htoken⟩ := getGRPCClientOptions_ok hgrpc
  have hhas : options.dataPacketSubscriberOptions.hasGRPCOptions = true := by
    rw [SubscriberOptions.hasGRPCOptions, hset]
    rfl
  refine ⟨⟨options.dataPacketSubscriberOptions, hhas⟩, options.serviceOptions, ?_, ?_⟩
  · have hclients := setMaximumNumberOfClients_ok options.serviceOptions
    simp only [constructProcess, Subscriber.construct, hhas, ↓reduceDIte, constructService,
      h.service, Bool.false_eq_true, ↓reduceIte, hclients]
    cases options.exportMetrics <;> rfl
  · have hschedule : reconnectSchedule ⟨options.dataPacketSubscriberOptions, hhas⟩ =
        [0, 5000, 15000, 30000] := by
      simp only [reconnectSchedule, hset, Option.get_some, hconnectable.schedule]
    refine ⟨?_, policy_of_fits (by rw [hschedule]; decide), hschedule, fun build => ?_⟩
    · have hqueue := h.queue
      rw [mMaximumImportQueueSize]
      omega
    · obtain ⟨channel, hc, hmetadata⟩ := createChannel_ok build hconnectable
      refine ⟨grpcOptions, channel, by rw [SubscriberOptions.getGRPCOptions, hset], hc, ?_⟩
      exact fun token htree => hmetadata token (htoken token htree)

/-- The options that are parsed start a process exactly if the file is there. The queue then
has room, the reconnect policy holds with its four waits, and every channel to the broadcast
service is secured and carries the token that the file sets. -/
theorem parsed_options_start (files : FileSystem) (withOTLPGRPC : Bool)
    (readIni : String → Except Fault IniTree) (iniFile : String) (options : ProgramOptions)
    (h : parseIniFile files withOTLPGRPC readIni iniFile = .ok options) :
    ((∃ parts, constructProcess options = .ok parts) ↔ files.pathExists iniFile = true) ∧
      ∀ propertyTree subscriber service, files.pathExists iniFile = true →
        readIni iniFile = .ok propertyTree →
        constructProcess options = .ok (subscriber, service) →
        Started propertyTree options subscriber := by
  rw [parseIniFile] at h
  cases hexists : files.pathExists iniFile with
  | false =>
    simp only [hexists, Bool.not_false, ↓reduceIte, Except.ok.injEq] at h
    have hfails : constructProcess options = .error (.runtimeError "GRPC client options not set") := by
      rw [← h]
      rfl
    refine ⟨iff_of_false ?_ (by simp), by simp⟩
    rintro ⟨parts, hparts⟩
    rw [hfails] at hparts
    cases hparts
  | true =>
    simp only [hexists, Bool.not_true, Bool.false_eq_true, ↓reduceIte] at h
    obtain ⟨propertyTree, hread, hparsed⟩ := bind_eq_ok h
    obtain ⟨subscriber, service, hc, hstarted⟩ := (parsePropertyTree_startable hparsed).constructs
    refine ⟨iff_of_true ⟨_, hc⟩ rfl, fun tree subscriber' service' _ htree hc' => ?_⟩
    obtain rfl := Except.ok.inj (hread.symm.trans htree)
    rw [hc, Except.ok.injEq, Prod.mk.injEq] at hc'
    exact hc'.1 ▸ hstarted

end Parsed

def tokenTree : IniTree :=
  { givenTree (some 15) (some 300) with
    getString := fun path =>
      if path = "DataPacketSubscriber.serverCertificate" then some "broadcast.pem"
      else if path = "DataPacketSubscriber.accessToken" then some "secret"
      else (givenTree (some 15) (some 300)).getString path
    unset := fun path h => by
      apply (givenTree (some 15) (some 300)).unset path
      split_ifs at h
      exact h }

def tokenFiles : FileSystem :=
  ⟨fun path => path = "service.ini" || path = "broadcast.pem", fun _ => some "certificate"⟩

theorem parsed_options_start_token :
    ∃ options subscriber service,
      parseIniFile tokenFiles false (fun _ => .ok tokenTree) "service.ini" = .ok options ∧
      constructProcess options = .ok (subscriber, service) ∧
      Started tokenTree options subscriber := by
  have hparsed : (parseIniFile tokenFiles false (fun _ => .ok tokenTree) "service.ini").map
      ProgramOptions.maximumImportQueueSize = .ok 4096 := by
    decide +kernel
  cases h : parseIniFile tokenFiles false (fun _ => .ok tokenTree) "service.ini" with
  | error e =>
    rw [h] at hparsed
    cases hparsed
  | ok options =>
    obtain ⟨hiff, hstarted⟩ := parsed_options_start tokenFiles false _ "service.ini" options h
    obtain ⟨⟨subscriber, service⟩, hc⟩ := hiff.mpr rfl
    exact ⟨options, subscriber, service, rfl, hc, hstarted tokenTree subscriber service rfl rfl hc⟩

end PacketCache.Startup

import PacketCache.ClientOptions

namespace PacketCache.IniFile

open PacketCache.ClientOptions PacketCache.Identifiers PacketCache.Platform
open PacketCache.ServerOptions

inductive CompressionAlgorithm
  | none
  | deflate
  | gzip
deriving DecidableEq

/-- The connection age and its grace period are in milliseconds. -/
structure ServiceOptions where
  mGRPCOptions : Option GRPCServerOptions := Option.none
  mMaximumConnectionAge : Int := 30000
  mMaximumGracePeriod : Int := 1000
  mCompressionAlgorithm : CompressionAlgorithm := .deflate
  mMaximumConcurrentStreams : Int32 := 64
  connectionAge_pos : 1 ≤ mMaximumConnectionAge := by decide
  gracePeriod_nonneg : 0 ≤ mMaximumGracePeriod := by decide
  streams_pos : ¬mMaximumConcurrentStreams < 1 := by decide

namespace ServiceOptions

def construct : ServiceOptions := {}

def setGRPCOptions (options : ServiceOptions) (grpcOptions : GRPCServerOptions) : ServiceOptions :=
  { options with mGRPCOptions := some grpcOptions }

def setMaximumConnectionAge (options : ServiceOptions) (duration : Int) :
    Except Fault ServiceOptions :=
  if h : duration < 1 then .error (.invalidArgument "Max connection duration must be positive")
  else .ok { options with mMaximumConnectionAge := duration, connectionAge_pos := not_lt.mp h }

def setMaximumConnectionAgeGracePeriod (options : ServiceOptions) (period : Int) :
    Except Fault ServiceOptions :=
  if h : period < 0 then .error (.invalidArgument "Grace period must be non-negative")
  else .ok { options with mMaximumGracePeriod := period, gracePeriod_nonneg := not_lt.mp h }

def setMaximumNumberOfConcurrentStreams (options : ServiceOptions) (maxStreams : Int32) :
    Except Fault ServiceOptions :=
  if h : maxStreams < 1 then
    .error (.invalidArgument "Max number of concurrent streams must be positive")
  else .ok { options with mMaximumConcurrentStreams := maxStreams, streams_pos := h }

def setCompressionAlgorithm (options : ServiceOptions) (algorithm : CompressionAlgorithm) :
    ServiceOptions :=
  { options with mCompressionAlgorithm := algorithm }

end ServiceOptions

/-- The duration for which packets are retained, in nanoseconds. -/
structure StreamDequeMapOptions where
  mMaximumDuration : Int := 300000000000
  duration_pos : 1 ≤ mMaximumDuration := by decide

def StreamDequeMapOptions.construct : StreamDequeMapOptions := {}

def StreamDequeMapOptions.setMaximumDuration (_ : StreamDequeMapOptions) (duration : Int) :
    Except Fault StreamDequeMapOptions :=
  if h : duration < 1 then .error (.invalidArgument "Duration must be positive")
  else .ok ⟨duration, not_lt.mp h⟩

structure HTTPLog where
  url : String := "localhost:4318"
  suffix : String := "/v1/logs"

structure GRPCLog where
  url : String := "localhost:4317"
  certificatePath : String := ""

/-- The export interval and time out are in milliseconds. -/
structure HTTPMetrics where
  url : String := "localhost:4318"
  exportInterval : Int := 15000
  exportTimeOut : Int := 500
  suffix : String := "/v1/metrics"

def HTTPMetrics.construct : HTTPMetrics := {}

structure GRPCMetrics where
  url : String := "localhost:4317"
  exportInterval : Int := 15000
  exportTimeOut : Int := 500
  certificatePath : String := ""

def GRPCMetrics.construct : GRPCMetrics := {}

/-- The summary interval and the latency are in seconds, the future time in milliseconds. -/
structure ProgramOptions where
  serviceOptions : ServiceOptions := ServiceOptions.construct
  streamDequeMapOptions : StreamDequeMapOptions := StreamDequeMapOptions.construct
  dataPacketSubscriberOptions : SubscriberOptions := SubscriberOptions.construct
  otelHTTPMetricsOptions : HTTPMetrics := {}
  otelHTTPLogOptions : HTTPLog := {}
  otelGRPCMetricsOptions : GRPCMetrics := {}
  otelGRPCLogOptions : GRPCLog := {}
  applicationName : String := "uDataPacketCacheService"
  printSummaryInterval : Int := 900
  maximumPacketLatency : Int := 360
  maximumPacketFutureTime : Int := 0
  maximumImportQueueSize : Int := 4096
  verbosity : Int32 := 3
  exportLogs : Bool := false
  exportLogsWithHTTP : Bool := true
  exportMetrics : Bool := false
  exportMetricsWithHTTP : Bool := true

def ProgramOptions.construct : ProgramOptions := {}

/-- The tree of an initialization file, which is also asked for integers. A path that is set
always reads as a string. -/
structure IniTree extends PropertyTree where
  getInt : String → Option Int32
  getInt64 : String → Option Int64
  unset : ∀ path, getString path = Option.none → getUInt16 path = Option.none ∧
    getBool path = Option.none ∧ getInt path = Option.none ∧ getInt64 path = Option.none

variable (files : FileSystem) (propertyTree : IniTree)

/-- `get<int>` with a default that is cast to an `int`. -/
def getCount (path : String) (count : Int) : Int :=
  ((propertyTree.getInt path).getD (Int32.ofInt count)).toInt

def compressionAlgorithm (compression : String) : CompressionAlgorithm :=
  let compression := eraseSpaces (String.ofList (compression.toList.map Char.toLower))
  if compression = "deflate" then .deflate
  else if compression = "gzip" then .gzip
  else .none

def getPublishServiceOptions : Except Fault ServiceOptions := do
  let grpcOptions ← getGRPCServerOptions files propertyTree.toPropertyTree "Service"
  let options := ServiceOptions.construct.setGRPCOptions grpcOptions
  let options ← options.setMaximumConnectionAge
    (getCount propertyTree "Service.maximumConnectionAgeInMilliSeconds"
      options.mMaximumConnectionAge)
  let options ← options.setMaximumConnectionAgeGracePeriod
    (getCount propertyTree "Service.maximumConnectionAgeGracePeriodInMilliSeconds"
      options.mMaximumGracePeriod)
  let options ← options.setMaximumNumberOfConcurrentStreams
    ((propertyTree.getInt "Service.maximumNumberOfConcurrentStreams").getD
      options.mMaximumConcurrentStreams)
  return options.setCompressionAlgorithm (compressionAlgorithm
    ((propertyTree.getString "Service.compressionAlgorithm").getD "deflate"))

def getOTelMetricsIntervalAndTimeOut (pathSection : String)
    (defaultExportInterval defaultExportTimeOut : Int) : Except Fault (Int × Int) :=
  let exportInterval := ((propertyTree.getInt64
    (pathSection ++ ".exportIntervalInMilliSeconds")).map Int64.toInt).getD defaultExportInterval
  if exportInterval ≤ 0 then .error (.runtimeError "Export interval must be positive")
  else
    let exportTimeOut := ((propertyTree.getInt64
      (pathSection ++ ".exportTimeOutInMilliSeconds")).map Int64.toInt).getD defaultExportTimeOut
    if exportTimeOut ≤ 0 then .error (.invalidArgument "Export time out must be positive")
    else .ok (exportInterval, exportTimeOut)

def getOTelCollectorURL (pathSection : String) : String :=
  let otelCollectorHost := (propertyTree.getString (pathSection ++ ".host")).getD ""
  let otelCollectorPort := (propertyTree.getUInt16 (pathSection ++ ".port")).getD 4218
  if otelCollectorHost ≠ "" then otelCollectorHost ++ ":" ++ otelCollectorPort.toNat.repr else ""

def withSlash (url suffix : String) : String :=
  if url ≠ "" ∧ suffix ≠ "" ∧ url.toList.getLast? ≠ some '/' ∧ suffix.toList.head? ≠ some '/' then
    "/" ++ suffix
  else suffix

def certificatePath (path : String) : String :=
  match propertyTree.getString path with
  | Option.none => ""
  | some certificatePath => if files.pathExists certificatePath then certificatePath else ""

def readGeneral (options : ProgramOptions) : ProgramOptions :=
  let applicationName :=
    (propertyTree.getString "General.applicationName").getD options.applicationName
  { options with
    applicationName := if applicationName = "" then "uDataPacketCacheService" else applicationName
    verbosity := (propertyTree.getInt "General.verbosity").getD options.verbosity
    printSummaryInterval := 60 * getCount propertyTree "General.printSummaryIntervalInMinutes"
      options.printSummaryInterval }

def readSubscriber (options : ProgramOptions) : Except Fault ProgramOptions := do
  let grpcDataPacketClientOptions ←
    getGRPCClientOptions files propertyTree.toPropertyTree "DataPacketSubscriber"
  let dataPacketSubscriberOptions ← (options.dataPacketSubscriberOptions.setGRPCOptions
    grpcDataPacketClientOptions).setIdentifier options.applicationName
  let maximumImportQueueSize := getCount propertyTree "DataPacketSubscriber.maximumImportQueueSize"
    options.maximumImportQueueSize
  if maximumImportQueueSize < 1 then
    .error (.invalidArgument "DataPacketSubscriber.maximumImportQueueSize must be positive")
  else
    return { options with
      dataPacketSubscriberOptions
      maximumImportQueueSize
      maximumPacketLatency := getCount propertyTree "DataPacketSubscriber.maximumLatencyInSeconds"
        options.maximumPacketLatency
      maximumPacketFutureTime := getCount propertyTree
        "DataPacketSubscriber.maximumFutureTimeInMilliseconds" options.maximumPacketFutureTime }

def readService (options : ProgramOptions) : Except Fault ProgramOptions := do
  let serviceOptions ← getPublishServiceOptions files propertyTree
  let streamDequeMapOptions ← options.streamDequeMapOptions.setMaximumDuration
    (1000000000 * getCount propertyTree "Service.maximumPacketRetentionDurationInSeconds"
      options.streamDequeMapOptions.mMaximumDuration)
  return { options with serviceOptions, streamDequeMapOptions }

def readHTTPLog (options : ProgramOptions) : ProgramOptions :=
  let url := getOTelCollectorURL propertyTree "OTelHTTPLogOptions"
  let suffix := withSlash url
    ((propertyTree.getString "OTelHTTPLogOptions.suffix").getD "/v1/logs")
  if url = "" then options
  else { options with
    exportLogs := true, exportLogsWithHTTP := true, otelHTTPLogOptions := ⟨url, suffix⟩ }

def readGRPCLog (options : ProgramOptions) : ProgramOptions :=
  let url := getOTelCollectorURL propertyTree "OTelGRPCLogOptions"
  let certificatePath := certificatePath files propertyTree "OTelGRPCLogOptions.certificate"
  if url = "" then options
  else { options with
    exportLogs := true, exportLogsWithHTTP := false, otelGRPCLogOptions := ⟨url, certificatePath⟩ }

def readHTTPMetrics (options : ProgramOptions) : Except Fault ProgramOptions :=
  let url := getOTelCollectorURL propertyTree "OTelHTTPMetricsOptions"
  let suffix := withSlash url
    ((propertyTree.getString "OTelHTTPMetricsOptions.suffix").getD "/v1/metrics")
  if url = "" then .ok options
  else do
    let times ← getOTelMetricsIntervalAndTimeOut propertyTree "OTelHTTPMetricsOptions"
      HTTPMetrics.construct.exportInterval HTTPMetrics.construct.exportTimeOut
    return { options with
      exportMetrics := true, exportMetricsWithHTTP := true,
      otelHTTPMetricsOptions := ⟨url, times.1, times.2, suffix⟩ }

/-- The times are checked whether there is a URL or not. -/
def readGRPCMetrics (options : ProgramOptions) : Except Fault ProgramOptions := do
  let url := getOTelCollectorURL propertyTree "OTelGRPCMetricsOptions"
  let times ← getOTelMetricsIntervalAndTimeOut propertyTree "OTelGRPCMetricsOptions"
    GRPCMetrics.construct.exportInterval GRPCMetrics.construct.exportTimeOut
  let certificatePath := certificatePath files propertyTree "OTelGRPCMetricsOptions.certificate"
  if url = "" then .ok options
  else
    return { options with
      exportMetrics := true, exportMetricsWithHTTP := false,
      otelGRPCMetricsOptions := ⟨url, times.1, times.2, certificatePath⟩ }

variable (withOTLPGRPC : Bool)

def readLogs (options : ProgramOptions) : Except Fault ProgramOptions :=
  if (propertyTree.getString "OTelHTTPLogOptions").isSome then
    .ok (readHTTPLog propertyTree options)
  else if (propertyTree.getString "OTelGRPCLogOptions").isSome then
    if !withOTLPGRPC then
      .error (.runtimeError "Recompile with Conan to use gRPC logs exporter option")
    else .ok (readGRPCLog files propertyTree options)
  else .ok options

def readMetrics (options : ProgramOptions) : Except Fault ProgramOptions :=
  if (propertyTree.getString "OTelHTTPMetricsOptions").isSome then
    readHTTPMetrics propertyTree options
  else if (propertyTree.getString "OTelGRPCMetricsOptions").isSome then
    if !withOTLPGRPC then
      .error (.runtimeError "Recompile with Conan to use gRPC metrics exporter option")
    else readGRPCMetrics files propertyTree options
  else .ok options

def parsePropertyTree : Except Fault ProgramOptions := do
  let options := readGeneral propertyTree ProgramOptions.construct
  let options ← readSubscriber files propertyTree options
  let options ← readService files propertyTree options
  let options ← readLogs files propertyTree withOTLPGRPC { options with exportLogs := false }
  readMetrics files propertyTree withOTLPGRPC { options with exportMetrics := false }

/-- The reader of the file's syntax is a parameter. -/
def parseIniFile (readIni : String → Except Fault IniTree) (iniFile : String) :
    Except Fault ProgramOptions :=
  if !files.pathExists iniFile then .ok ProgramOptions.construct
  else do parsePropertyTree files (← readIni iniFile) withOTLPGRPC

end PacketCache.IniFile

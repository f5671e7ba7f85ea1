import NetHop.Checked
import NetHop.Json
import NetHop.Words

/-!
# Messages of the control protocol

Requests, responses and stream frames with the documents they carry, as the protocol
crate declares them, and the names their enumerations have on the wire.
-/

namespace NetHop.Wire

open Text Words

inductive ProtocolError where
  | frameTooLarge
  | invalidFrameLength
  | invalidUtf8
  | invalidEnvelope
  | unsupportedVersion
  | invalidRequestId
  | invalidErrorCode
  | invalidMessage
  | io

def protocolVersion : UInt8 := 6

def maxFrameBytes : Nat := 1024 * 1024

def maxWebuiArrayItems : Nat := 10000

def maxWebuiStringBytes : Nat := 64 * 1024

def maxRequestIdBytes : Nat := 64

def maxErrorDetailBytes : Nat := 48

def maxMessageBytes : Nat := 512

/-! ## Identifiers -/

/-- `is_ascii_alphanumeric`, or one of `-`, `_` and `.`. -/
def tokenChar (c : Char) : Bool := c.isAlphanum || c == '-' || c == '_' || c == '.'

def validRequestId (value : String) : Bool :=
  value != "" && value.utf8ByteSize ≤ maxRequestIdBytes && value.toList.all tokenChar

structure RequestId where
  value : String
  valid : validRequestId value = true

def RequestId.new (value : String) : Except ProtocolError RequestId :=
  if h : validRequestId value = true then .ok ⟨value, h⟩ else .error .invalidRequestId

/-! ## Errors -/

inductive ErrorDomain where
  | config
  | source
  | subscription
  | capability
  | network
  | core
  | node
  | stats
  | auth

def ErrorDomain.asStr : ErrorDomain → String
  | .config => "CONFIG"
  | .source => "SOURCE"
  | .subscription => "SUB"
  | .capability => "CAP"
  | .network => "NET"
  | .core => "CORE"
  | .node => "NODE"
  | .stats => "STATS"
  | .auth => "AUTH"

def ErrorDomain.all : List ErrorDomain :=
  [.config, .source, .subscription, .capability, .network, .core, .node, .stats, .auth]

/-- Upper case letters and digits, with single dashes between them. -/
def validDetail (detail : String) : Bool :=
  detail != "" && detail.utf8ByteSize ≤ maxErrorDetailBytes &&
    (detail.toList.all fun c => c.isUpper || c.isDigit || c == '-') &&
    !startsWith detail "-" && !endsWith detail "-" && !contains detail "--"

def errorText (domain : ErrorDomain) (detail : String) : String :=
  "NH-" ++ domain.asStr ++ "-" ++ detail

/-- A code is only made from a domain and a valid detail. -/
structure ErrorCode where
  text : String
  made : ∃ domain detail, validDetail detail = true ∧ errorText domain detail = text

def ErrorCode.new (domain : ErrorDomain) (detail : String) : Except ProtocolError ErrorCode :=
  if h : validDetail detail = true then .ok ⟨errorText domain detail, domain, detail, h, rfl⟩
  else .error .invalidErrorCode

/-- `str::strip_prefix`. -/
def stripFront (front : String) (t : String) : Option (List Char) :=
  if startsWith t front then some (t.toList.drop front.toList.length) else none

def ErrorCode.parse (value : String) : Except ProtocolError ErrorCode := do
  let rest ← okOr (stripFront "NH-" value) .invalidErrorCode
  let parts ← okOr (splitOnce '-' rest) .invalidErrorCode
  let domain ← okOr (ErrorDomain.all.find? fun d => d.asStr.toList == parts.1) .invalidErrorCode
  let parsed ← ErrorCode.new domain (String.ofList parts.2)
  ensure (parsed.text == value) .invalidErrorCode
  return parsed

structure ControlError where
  code : ErrorCode
  message : String
  details : Option Json

/-! ## Methods -/

inductive ControlMethod where
  | protocolHello
  | statusGet
  | serviceStart
  | serviceStop
  | serviceRestart
  | captureEnable
  | captureDisable
  | captureStatus
  | coreStart
  | coreStop
  | coreStatus
  | resourceStatus
  | capabilityProbe
  | subscriptionUpdate
  | subscriptionInspect
  | subscriptionDiagnose
  | subscriptionHistory
  | subscriptionImportPreview
  | subscriptionImportApply
  | subscriptionModeGet
  | subscriptionModeSet
  | subscriptionSelect
  | subscriptionSetEnabled
  | configReload
  | configGet
  | configExport
  | coreVersionCheck
  | ruleSetStatus
  | ruleSetUpdate
  | configValidate
  | configCheck
  | configApply
  | configSchema
  | capabilityGet
  | configMutate
  | eventsSubscribe
  | nodeList
  | nodeTest
  | nodeTestAll
  | nodeTestOperationGet
  | nodeSelectionGet
  | nodeSelectAuto
  | nodeSelectManual
  | nodeExport
  | nodeOverrideGet
  | nodeOverrideApply
  | nodeOverrideRemove
  | connectionsGet
  | connectionClose
  | connectionsCloseAll
  | logsGet
  | logsClear
  | diagnosticsBundle
  | topologyGet
  | trafficGet
  | metricsGet
  | webUiPayloadCreate
  | webUiPayloadAppend
  | webUiPayloadCommit
  | webUiPayloadRemove
  deriving DecidableEq

def ControlMethod.wireName : ControlMethod → String
  | .protocolHello => "protocol.hello"
  | .statusGet => "status.get"
  | .serviceStart => "service.start"
  | .serviceStop => "service.stop"
  | .serviceRestart => "service.restart"
  | .captureEnable => "capture.enable"
  | .captureDisable => "capture.disable"
  | .captureStatus => "capture.status"
  | .coreStart => "core.start"
  | .coreStop => "core.stop"
  | .coreStatus => "core.status"
  | .resourceStatus => "resource.status"
  | .capabilityProbe => "capability.probe"
  | .subscriptionUpdate => "subscription.update"
  | .subscriptionInspect => "subscription.inspect"
  | .subscriptionDiagnose => "subscription.diagnose"
  | .subscriptionHistory => "subscription.history"
  | .subscriptionImportPreview => "subscription.import_preview"
  | .subscriptionImportApply => "subscription.import_apply"
  | .subscriptionModeGet => "subscription.mode_get"
  | .subscriptionModeSet => "subscription.mode_set"
  | .subscriptionSelect => "subscription.select"
  | .subscriptionSetEnabled => "subscription.set_enabled"
  | .configReload => "config.reload"
  | .configGet => "config.get"
  | .configExport => "config.export"
  | .coreVersionCheck => "core.version_check"
  | .ruleSetStatus => "ruleset.status"
  | .ruleSetUpdate => "ruleset.update"
  | .configValidate => "config.validate"
  | .configCheck => "config.check"
  | .configApply => "config.apply"
  | .configSchema => "config.schema"
  | .capabilityGet => "capability.get"
  | .configMutate => "config.mutate"
  | .eventsSubscribe => "events.subscribe"
  | .nodeList => "node.list"
  | .nodeTest => "node.test"
  | .nodeTestAll => "node.test_all"
  | .nodeTestOperationGet => "node.test_operation_get"
  | .nodeSelectionGet => "node.selection_get"
  | .nodeSelectAuto => "node.select_auto"
  | .nodeSelectManual => "node.select_manual"
  | .nodeExport => "node.export"
  | .nodeOverrideGet => "node.override_get"
  | .nodeOverrideApply => "node.override_apply"
  | .nodeOverrideRemove => "node.override_remove"
  | .connectionsGet => "connections.get"
  | .connectionClose => "connection.close"
  | .connectionsCloseAll => "connections.close_all"
  | .logsGet => "logs.get"
  | .logsClear => "logs.clear"
  | .diagnosticsBundle => "diagnostics.bundle"
  | .topologyGet => "topology.get"
  | .trafficGet => "traffic.get"
  | .metricsGet => "metrics.get"
  | .webUiPayloadCreate => "webui.payload.create"
  | .webUiPayloadAppend => "webui.payload.append"
  | .webUiPayloadCommit => "webui.payload.commit"
  | .webUiPayloadRemove => "webui.payload.remove"

def ControlMethod.all : List ControlMethod :=
  [.protocolHello, .statusGet, .serviceStart, .serviceStop, .serviceRestart, .captureEnable,
   .captureDisable, .captureStatus, .coreStart, .coreStop, .coreStatus, .resourceStatus,
   .capabilityProbe, .subscriptionUpdate, .subscriptionInspect, .subscriptionDiagnose,
   .subscriptionHistory, .subscriptionImportPreview, .subscriptionImportApply,
   .subscriptionModeGet, .subscriptionModeSet, .subscriptionSelect, .subscriptionSetEnabled,
   .configReload, .configGet, .configExport, .coreVersionCheck, .ruleSetStatus, .ruleSetUpdate,
   .configValidate, .configCheck, .configApply, .configSchema, .capabilityGet, .configMutate,
   .eventsSubscribe, .nodeList, .nodeTest, .nodeTestAll, .nodeTestOperationGet, .nodeSelectionGet,
   .nodeSelectAuto, .nodeSelectManual, .nodeExport, .nodeOverrideGet, .nodeOverrideApply,
   .nodeOverrideRemove, .connectionsGet, .connectionClose, .connectionsCloseAll, .logsGet,
   .logsClear, .diagnosticsBundle, .topologyGet, .trafficGet, .metricsGet, .webUiPayloadCreate,
   .webUiPayloadAppend, .webUiPayloadCommit, .webUiPayloadRemove]

/-! ## Configuration mutations -/

inductive SubscriptionRequestProfile where
  | generic
  | mihomo
  | clashStandard
  | surfboard
  | singBox
  | singBoxAndroid
  deriving DecidableEq

def SubscriptionRequestProfile.wireName : SubscriptionRequestProfile → String
  | .generic => "generic"
  | .mihomo => "mihomo"
  | .clashStandard => "clash_standard"
  | .surfboard => "surfboard"
  | .singBox => "sing_box"
  | .singBoxAndroid => "sing_box_android"

def SubscriptionRequestProfile.all : List SubscriptionRequestProfile :=
  [.generic, .mihomo, .clashStandard, .surfboard, .singBox, .singBoxAndroid]

inductive SubscriptionFormatHint where
  | auto
  | uriList
  | base64List
  | clashYaml
  | singboxJson
  | surfboardIni
  deriving DecidableEq

def SubscriptionFormatHint.wireName : SubscriptionFormatHint → String
  | .auto => "auto"
  | .uriList => "uri_list"
  | .base64List => "base64_list"
  | .clashYaml => "clash_yaml"
  | .singboxJson => "singbox_json"
  | .surfboardIni => "surfboard_ini"

def SubscriptionFormatHint.all : List SubscriptionFormatHint :=
  [.auto, .uriList, .base64List, .clashYaml, .singboxJson, .surfboardIni]

structure SubscriptionSourceFilter where
  includeNames : List String := []
  excludeNames : List String := []
  protocols : List String := []

structure SubscriptionSourceSettings where
  requestProfile : SubscriptionRequestProfile := .singBoxAndroid
  formatHint : SubscriptionFormatHint := .auto
  mirrors : List String := []
  filter : SubscriptionSourceFilter := {}

structure SubscriptionSourcePatch where
  requestProfile : Option SubscriptionRequestProfile := none
  formatHint : Option SubscriptionFormatHint := none
  mirrors : Option (List String) := none
  filter : Option SubscriptionSourceFilter := none

inductive ApplicationTarget where
  | package (androidUserId : UInt32) (package : String)
  | uid (uid : UInt32)

inductive ApplicationPolicyMode where
  | all
  | blacklist
  | whitelist
  deriving DecidableEq

def ApplicationPolicyMode.wireName : ApplicationPolicyMode → String
  | .all => "all"
  | .blacklist => "blacklist"
  | .whitelist => "whitelist"

def ApplicationPolicyMode.modes : List ApplicationPolicyMode :=
  [.all, .blacklist, .whitelist]

inductive RoutingCidrList where
  | forceProxy
  | bypass
  deriving DecidableEq

def RoutingCidrList.wireName : RoutingCidrList → String
  | .forceProxy => "force_proxy"
  | .bypass => "bypass"

def RoutingCidrList.all : List RoutingCidrList :=
  [.forceProxy, .bypass]

inductive ConfigMutation where
  | setServiceEnabled (enabled : Bool)
  | addSource (name url : String) (settings : Option SubscriptionSourceSettings)
  | updateSource (sourceId : String) (name url : Option String) (enabled : Option Bool)
      (settings : Option SubscriptionSourcePatch)
  | removeSource (sourceId : String)
  | moveSource (sourceId : String) (beforeSourceId : Option String)
  | addApplicationTarget (target : ApplicationTarget)
  | removeApplicationTarget (target : ApplicationTarget)
  | replaceApplicationTargets (targets : List ApplicationTarget)
  | setApplicationPolicy (mode : ApplicationPolicyMode) (targets : List ApplicationTarget)
  | addRoutingCidr (list : RoutingCidrList) (cidr : String)
  | removeRoutingCidr (list : RoutingCidrList) (cidr : String)
  | removeNode (nodeId : String)
  | setScalarField (fieldId : String) (value : Json)

/-! ## Requests -/

inductive SubscriptionMode where
  | single
  | merge
  deriving DecidableEq

def SubscriptionMode.wireName : SubscriptionMode → String
  | .single => "single"
  | .merge => "merge"

def SubscriptionMode.all : List SubscriptionMode :=
  [.single, .merge]

inductive EventKind where
  | config
  | runtime
  | subscription
  | generation
  | network
  | traffic
  | subscriptionMode
  | subscriptionActiveSet
  | nodeSelection
  | nodeActive
  | nodeTest
  deriving DecidableEq

def EventKind.wireName : EventKind → String
  | .config => "config"
  | .runtime => "runtime"
  | .subscription => "subscription"
  | .generation => "generation"
  | .network => "network"
  | .traffic => "traffic"
  | .subscriptionMode => "subscription_mode"
  | .subscriptionActiveSet => "subscription_active_set"
  | .nodeSelection => "node_selection"
  | .nodeActive => "node_active"
  | .nodeTest => "node_test"

def EventKind.all : List EventKind :=
  [.config, .runtime, .subscription, .generation, .network, .traffic, .subscriptionMode,
   .subscriptionActiveSet, .nodeSelection, .nodeActive, .nodeTest]

inductive LogChannel where
  | service
  | subscription
  | core
  deriving DecidableEq

def LogChannel.wireName : LogChannel → String
  | .service => "service"
  | .subscription => "subscription"
  | .core => "core"

def LogChannel.all : List LogChannel :=
  [.service, .subscription, .core]

inductive WebUiPayloadNamespace where
  | config
  | subscription
  | backup
  | node
  deriving DecidableEq

def WebUiPayloadNamespace.wireName : WebUiPayloadNamespace → String
  | .config => "config"
  | .subscription => "subscription"
  | .backup => "backup"
  | .node => "node"

def WebUiPayloadNamespace.all : List WebUiPayloadNamespace :=
  [.config, .subscription, .backup, .node]

inductive WebUiPayloadOperation where
  | configValidate
  | configApply
  | configMutate
  | subscriptionImportPreview
  | subscriptionImportApply
  | backupRestore
  | nodeOverrideApply
  deriving DecidableEq

def WebUiPayloadOperation.wireName : WebUiPayloadOperation → String
  | .configValidate => "config_validate"
  | .configApply => "config_apply"
  | .configMutate => "config_mutate"
  | .subscriptionImportPreview => "subscription_import_preview"
  | .subscriptionImportApply => "subscription_import_apply"
  | .backupRestore => "backup_restore"
  | .nodeOverrideApply => "node_override_apply"

def WebUiPayloadOperation.all : List WebUiPayloadOperation :=
  [.configValidate, .configApply, .configMutate, .subscriptionImportPreview,
   .subscriptionImportApply, .backupRestore, .nodeOverrideApply]

structure WebUiPayloadParams where
  space : WebUiPayloadNamespace
  handle : Option String := none
  chunk : Option String := none
  operation : Option WebUiPayloadOperation := none

structure NodeOverrideDocument where
  displayName : String
  outbound : Json

structure ControlParams where
  wait : Bool := false
  ifNeeded : Bool := false
  expectedConfigDigest : Option String := none
  candidateDigest : Option String := none
  document : Option Json := none
  managerVersion : Option String := none
  managerProtocolMin : Option UInt8 := none
  managerProtocolMax : Option UInt8 := none
  mutation : Option ConfigMutation := none
  eventKinds : Option (List EventKind) := none
  target : Option String := none
  query : Option String := none
  limit : Option UInt8 := none
  logChannel : Option LogChannel := none
  sourceId : Option String := none
  subscriptionMode : Option SubscriptionMode := none
  enabled : Option Bool := none
  nodeOverride : Option NodeOverrideDocument := none
  payload : Option WebUiPayloadParams := none
  expectedGeneration : Option UInt64 := none
  operationId : Option String := none

structure ControlRequest where
  version : UInt8
  requestId : RequestId
  method : ControlMethod
  params : ControlParams

/-! ## Responses and streams -/

structure ControlResponse where
  version : UInt8
  requestId : RequestId
  ok : Bool
  generation : Option UInt64
  result : Option Json
  error : Option ControlError

inductive StreamKind where
  | item
  | ended
  | error
  deriving DecidableEq

def StreamKind.wireName : StreamKind → String
  | .item => "item"
  | .ended => "end"
  | .error => "error"

def StreamKind.all : List StreamKind :=
  [.item, .ended, .error]

structure StreamFrame where
  version : UInt8
  requestId : RequestId
  sequence : UInt64
  kind : StreamKind
  payload : Option Json
  error : Option ControlError

inductive WireFrame where
  | request (frame : ControlRequest)
  | response (frame : ControlResponse)
  | stream (frame : StreamFrame)

end NetHop.Wire

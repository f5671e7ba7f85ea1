import NetHop.Benchmark.Protocol
import NetHop.Wire.Types

/-!
# Checks of a message

What the protocol crate checks of a message before it sends one and after it has
read one.  The checks are the same on both sides.
-/

namespace NetHop.Wire

open Text Words

def bounded (value : String) (max : Nat) : Bool :=
  value != "" && value.utf8ByteSize ≤ max && !value.toList.any isControl

/-- A fixed text followed by lower case hexadecimal digits, of a given length. -/
def hexId (front : String) (length : Nat) (value : String) : Bool :=
  value.utf8ByteSize == length && startsWith value front &&
    (value.toList.drop front.toList.length).all Benchmark.lowerHexDigit

def validSourceId : String → Bool := hexId "src_" 36

def validPayloadHandle : String → Bool := hexId "p_" 34

def validStableNodeId : String → Bool := hexId "nh1s-" 21

def validBenchmarkOperationId : String → Bool := hexId "bench_" 35

def validDigest : String → Bool := hexId "" 64

def validOperationId (value : String) : Bool :=
  value != "" && value.utf8ByteSize ≤ 64 && value.toList.all tokenChar

def validPayloadChunk (value : String) : Bool :=
  value != "" && value.utf8ByteSize ≤ 16 * 1024 &&
    value.toList.all fun c =>
      c.isAlphanum || c == '+' || c == '/' || c == '=' || c == '-' || c == '_'

def validateMessage (message : String) : Except ProtocolError Unit :=
  ensure (message != "" && message.utf8ByteSize ≤ maxMessageBytes &&
    !message.toList.any fun c => isControl c && c != '\n' && c != '\t') .invalidMessage

/-! ## JSON payloads -/

mutual

def validateWebuiValue (depth : Nat) : Json → Except ProtocolError Unit
  | .string text => do
    ensure (depth ≤ 32) .invalidEnvelope
    ensure (text.utf8ByteSize ≤ maxWebuiStringBytes) .invalidEnvelope
  | .array values => do
    ensure (depth ≤ 32) .invalidEnvelope
    ensure (values.length ≤ maxWebuiArrayItems) .invalidEnvelope
    validateWebuiValues (depth + 1) values
  | .object members => do
    ensure (depth ≤ 32) .invalidEnvelope
    ensure (members.length ≤ 2048) .invalidEnvelope
    validateWebuiMembers (depth + 1) members
  | _ => ensure (depth ≤ 32) .invalidEnvelope

def validateWebuiValues (depth : Nat) : List Json → Except ProtocolError Unit
  | [] => .ok ()
  | value :: values => do
    validateWebuiValue depth value
    validateWebuiValues depth values

def validateWebuiMembers (depth : Nat) : List (String × Json) → Except ProtocolError Unit
  | [] => .ok ()
  | (_, value) :: members => do
    validateWebuiValue depth value
    validateWebuiMembers depth members

end

/-! ## Mutations -/

def unique (values : List String) : Bool := decide values.Nodup

def boundedUnique (values : List String) (limit maxBytes : Nat) : Bool :=
  values.length ≤ limit && (values.all fun value => bounded value maxBytes) && unique values

def knownProtocols : List String :=
  ["vless", "vmess", "shadowsocks", "trojan", "hysteria2", "tuic", "anytls", "http", "socks"]

def validSourceFields (mirrors includeNames excludeNames protocols : List String) : Bool :=
  mirrors.length ≤ 4 && (mirrors.all fun value => bounded value (16 * 1024)) &&
    boundedUnique includeNames 64 128 && boundedUnique excludeNames 64 128 &&
    protocols.length ≤ 16 && protocols.all knownProtocols.contains && unique protocols

def validSourceSettings (settings : SubscriptionSourceSettings) : Bool :=
  validSourceFields settings.mirrors settings.filter.includeNames settings.filter.excludeNames
    settings.filter.protocols

def validSourcePatch (settings : SubscriptionSourcePatch) : Bool :=
  (settings.requestProfile.isSome || settings.formatHint.isSome || settings.mirrors.isSome ||
      settings.filter.isSome) &&
    validSourceFields (settings.mirrors.getD [])
      ((settings.filter.map (·.includeNames)).getD [])
      ((settings.filter.map (·.excludeNames)).getD [])
      ((settings.filter.map (·.protocols)).getD [])

def applicationTarget : ApplicationTarget → Bool
  | .package androidUserId package => androidUserId ≤ 21474 && bounded package 255
  | .uid uid => 0 < uid

def isScalar : Json → Bool
  | .bool _ => true
  | .number _ => true
  | .string _ => true
  | _ => false

def validMutation : ConfigMutation → Bool
  | .setServiceEnabled _ => true
  | .addSource name url settings =>
    bounded name 128 && url.utf8ByteSize ≤ 16 * 1024 && settings.all validSourceSettings
  | .updateSource id name url enabled settings =>
    validSourceId id &&
      (name.isSome || url.isSome || enabled.isSome || settings.isSome) &&
      name.all (bounded · 128) && (url.all fun value => value.utf8ByteSize ≤ 16 * 1024) &&
      settings.all validSourcePatch
  | .removeSource id => validSourceId id
  | .moveSource id beforeSourceId =>
    validSourceId id && beforeSourceId.all fun value => validSourceId value && value != id
  | .addApplicationTarget target => applicationTarget target
  | .removeApplicationTarget target => applicationTarget target
  | .replaceApplicationTargets targets =>
    targets.length ≤ 2000 && targets.all applicationTarget
  | .setApplicationPolicy mode targets =>
    targets.length ≤ 2000 && targets.all applicationTarget &&
      (mode == .all) == targets.isEmpty
  | .addRoutingCidr _ cidr => bounded cidr 64
  | .removeRoutingCidr _ cidr => bounded cidr 64
  | .removeNode nodeId => validStableNodeId nodeId
  | .setScalarField fieldId value => bounded fieldId 128 && isScalar value

/-! ## Requests -/

section

variable (T : JsonText)

def validNodeOverride (value : NodeOverrideDocument) : Bool :=
  bounded value.displayName 128 && value.outbound.isObject &&
    (T.render value.outbound).utf8ByteSize ≤ 64 * 1024

namespace ControlMethod

def lifecycle : ControlMethod → Bool
  | captureEnable | captureDisable | captureStatus | coreStart | coreStop | coreStatus
  | resourceStatus => true
  | _ => false

def mutatingLifecycle : ControlMethod → Bool
  | captureEnable | captureDisable | coreStart | coreStop => true
  | _ => false

def waitAllowed : ControlMethod → Bool
  | serviceStart | serviceStop | serviceRestart | subscriptionUpdate | ruleSetUpdate
  | configReload => true
  | method => method.lifecycle

def document : ControlMethod → Bool
  | configValidate | configApply | subscriptionImportPreview | subscriptionImportApply => true
  | _ => false

def subscriptionTransaction : ControlMethod → Bool
  | subscriptionModeSet | subscriptionSelect | subscriptionSetEnabled => true
  | _ => false

def target : ControlMethod → Bool
  | nodeTest | nodeTestOperationGet | nodeSelectManual | nodeExport | nodeOverrideGet
  | nodeOverrideApply | nodeOverrideRemove | connectionClose => true
  | _ => false

def nodeOverride : ControlMethod → Bool
  | nodeOverrideGet | nodeOverrideApply | nodeOverrideRemove => true
  | _ => false

def query : ControlMethod → Bool
  | nodeList | connectionsGet => true
  | _ => false

def payload : ControlMethod → Bool
  | webUiPayloadCreate | webUiPayloadAppend | webUiPayloadCommit | webUiPayloadRemove => true
  | _ => false

end ControlMethod

namespace ControlParams

variable (params : ControlParams)

def payloadNamespace : Option WebUiPayloadNamespace :=
  params.payload.map (·.space)

def payloadHandle : Option String := params.payload.bind (·.handle)

def payloadChunk : Option String := params.payload.bind (·.chunk)

def payloadOperation : Option WebUiPayloadOperation :=
  params.payload.bind (·.operation)

/-- A source is named exactly where the method needs one. -/
def sourcePresenceValid : ControlMethod → Bool
  | .subscriptionUpdate => true
  | .subscriptionInspect | .subscriptionDiagnose | .subscriptionHistory | .subscriptionSelect
  | .subscriptionSetEnabled => params.sourceId.isSome
  | .subscriptionModeSet =>
    match params.subscriptionMode with
    | some .single => params.sourceId.isSome
    | some .merge => params.sourceId.isNone
    | none => false
  | _ => params.sourceId.isNone

def validPayloadShape : ControlMethod → Bool
  | .webUiPayloadCreate =>
    params.payloadHandle.isNone && params.payloadChunk.isNone && params.payloadOperation.isNone
  | .webUiPayloadAppend =>
    params.payloadHandle.any validPayloadHandle && params.payloadChunk.any validPayloadChunk &&
      params.payloadOperation.isNone
  | .webUiPayloadCommit =>
    params.payloadHandle.any validPayloadHandle && params.payloadChunk.isNone &&
      params.payloadOperation.isSome
  | .webUiPayloadRemove =>
    params.payloadHandle.any validPayloadHandle && params.payloadChunk.isNone &&
      params.payloadOperation.isNone
  | _ => params.payload.isNone

/-- The operation of a committed payload belongs to its name space. -/
def validPayloadOperation : Bool :=
  match params.payloadNamespace, params.payloadOperation with
  | some .config, some .configValidate => true
  | some .config, some .configApply => true
  | some .config, some .configMutate => true
  | some .subscription, some .subscriptionImportPreview => true
  | some .subscription, some .subscriptionImportApply => true
  | some .backup, some .backupRestore => true
  | some .node, some .nodeOverrideApply => true
  | _, _ => false

def validHello : Bool :=
  let min := params.managerProtocolMin.getD 0
  let max := params.managerProtocolMax.getD 0
  bounded (params.managerVersion.getD "") 64 && min != 0 && min ≤ max

end ControlParams

def ControlRequest.validate (r : ControlRequest) : Except ProtocolError Unit := do
  let params := r.params
  let method := r.method
  ensure (r.version == protocolVersion) .unsupportedVersion
  ensure ((!params.wait || method.waitAllowed) &&
    (!params.ifNeeded || method == .subscriptionUpdate)) .invalidEnvelope
  ensure ((params.expectedGeneration.isNone || method.lifecycle) &&
    (params.operationId.isNone || method.mutatingLifecycle) &&
    params.expectedGeneration != some 0 && params.operationId.all validOperationId)
    .invalidEnvelope
  ensure (params.sourceId.all validSourceId) .invalidEnvelope
  ensure (params.document.isSome == method.document &&
    params.mutation.isSome == (method == .configMutate) &&
    params.expectedConfigDigest.isSome ==
      (method.document || method == .configMutate || method.subscriptionTransaction) &&
    params.candidateDigest.isSome == (method == .subscriptionImportApply)) .invalidEnvelope
  ensure (params.expectedConfigDigest.all validDigest) .invalidEnvelope
  ensure (params.document.all Json.isObject) .invalidEnvelope
  ensure (params.candidateDigest.all validDigest) .invalidEnvelope
  ensure (params.mutation.all validMutation) .invalidEnvelope
  ensure (params.subscriptionMode.isSome == (method == .subscriptionModeSet) &&
    params.enabled.isSome == (method == .subscriptionSetEnabled) &&
    params.sourcePresenceValid method && params.sourceId.all validSourceId) .invalidEnvelope
  -- the kinds are sorted and deduplicated, and none may be lost
  ensure (params.eventKinds.isSome == (method == .eventsSubscribe) &&
    params.eventKinds.all fun kinds => kinds.length ≤ 11 && decide kinds.Nodup) .invalidEnvelope
  ensure (params.target.isSome == method.target && params.target.all (bounded · 128))
    .invalidEnvelope
  ensure (method != .nodeSelectManual || params.target.any validStableNodeId) .invalidEnvelope
  ensure (!method.nodeOverride || params.target.any validStableNodeId) .invalidEnvelope
  ensure (params.nodeOverride.isSome == (method == .nodeOverrideApply) &&
    params.nodeOverride.all (validNodeOverride T)) .invalidEnvelope
  ensure (method != .nodeTestOperationGet || params.target.any validBenchmarkOperationId)
    .invalidEnvelope
  ensure ((method.query || params.query.isNone) &&
    (method.query || method == .logsGet || params.limit.isNone) &&
    (params.query.all fun query =>
      query.utf8ByteSize ≤ 128 && !query.toList.any isControl) &&
    params.limit.all fun limit => 1 ≤ limit && limit ≤ 128) .invalidEnvelope
  ensure (method == .logsGet || params.logChannel.isNone) .invalidEnvelope
  ensure (params.managerVersion.isSome == (method == .protocolHello) &&
    params.managerProtocolMin.isSome == (method == .protocolHello) &&
    params.managerProtocolMax.isSome == (method == .protocolHello)) .invalidEnvelope
  ensure (method != .protocolHello || params.validHello) .invalidEnvelope
  ensure (params.payload.isSome == method.payload) .invalidEnvelope
  ensure (params.validPayloadShape method) .invalidEnvelope
  ensure (method != .webUiPayloadCommit || params.validPayloadOperation) .invalidEnvelope

end

/-! ## Responses, streams and frames -/

def ControlError.validate (e : ControlError) : Except ProtocolError Unit :=
  validateMessage e.message

def ControlResponse.validate (r : ControlResponse) : Except ProtocolError Unit := do
  ensure (r.version == protocolVersion) .unsupportedVersion
  ensure (r.generation != some 0) .invalidEnvelope
  match r.ok, r.result, r.error with
  | true, some result, none => validateWebuiValue 0 result
  | false, none, some error => error.validate
  | _, _, _ => .error .invalidEnvelope

def StreamFrame.validate (s : StreamFrame) : Except ProtocolError Unit := do
  ensure (s.version == protocolVersion && s.sequence != 0) .invalidEnvelope
  match s.kind, s.payload, s.error with
  | .item, some payload, none => validateWebuiValue 0 payload
  | .ended, none, none => .ok ()
  | .error, none, some error => error.validate
  | _, _, _ => .error .invalidEnvelope

def WireFrame.validate (T : JsonText) : WireFrame → Except ProtocolError Unit
  | .request frame => frame.validate T
  | .response frame => frame.validate
  | .stream frame => frame.validate

end NetHop.Wire

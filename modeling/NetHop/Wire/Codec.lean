import NetHop.Serde
import NetHop.Wire.Types

/-!
# Messages as JSON

How each message is written as JSON and read back, member by member.  Enumerations are
their names, mutations and application targets are objects that name their variant, and
a frame is whichever of the three kinds its object can be read as.
-/

namespace NetHop.Wire

open Text Words List Codec ApplicationTarget SubscriptionSourceSettings ErrorDomain

/-! ## Enumerations -/

def ControlMethod.codec : Codec ControlMethod := .enum all wireName

def SubscriptionRequestProfile.codec : Codec SubscriptionRequestProfile := .enum all wireName

def SubscriptionFormatHint.codec : Codec SubscriptionFormatHint := .enum all wireName

def ApplicationPolicyMode.codec : Codec ApplicationPolicyMode := .enum modes wireName

def RoutingCidrList.codec : Codec RoutingCidrList := .enum all wireName

def SubscriptionMode.codec : Codec SubscriptionMode := .enum all wireName

def EventKind.codec : Codec EventKind := .enum all wireName

def LogChannel.codec : Codec LogChannel := .enum all wireName

def WebUiPayloadNamespace.codec : Codec WebUiPayloadNamespace := .enum all wireName

def WebUiPayloadOperation.codec : Codec WebUiPayloadOperation := .enum all wireName

def StreamKind.codec : Codec StreamKind := .enum all wireName

@[simp] theorem ControlMethod.codec_lawful : ControlMethod.codec.Lawful :=
  enum_lawful (fun m => by cases m <;> decide) (by decide)

@[simp] theorem SubscriptionRequestProfile.codec_lawful : SubscriptionRequestProfile.codec.Lawful :=
  enum_lawful (fun p => by cases p <;> decide) (by decide)

@[simp] theorem SubscriptionFormatHint.codec_lawful : SubscriptionFormatHint.codec.Lawful :=
  enum_lawful (fun h => by cases h <;> decide) (by decide)

@[simp] theorem ApplicationPolicyMode.codec_lawful : ApplicationPolicyMode.codec.Lawful :=
  enum_lawful (fun m => by cases m <;> decide) (by decide)

@[simp] theorem RoutingCidrList.codec_lawful : RoutingCidrList.codec.Lawful :=
  enum_lawful (fun l => by cases l <;> decide) (by decide)

@[simp] theorem SubscriptionMode.codec_lawful : SubscriptionMode.codec.Lawful :=
  enum_lawful (fun m => by cases m <;> decide) (by decide)

@[simp] theorem EventKind.codec_lawful : EventKind.codec.Lawful :=
  enum_lawful (fun k => by cases k <;> decide) (by decide)

@[simp] theorem LogChannel.codec_lawful : LogChannel.codec.Lawful :=
  enum_lawful (fun c => by cases c <;> decide) (by decide)

@[simp] theorem WebUiPayloadNamespace.codec_lawful : WebUiPayloadNamespace.codec.Lawful :=
  enum_lawful (fun n => by cases n <;> decide) (by decide)

@[simp] theorem WebUiPayloadOperation.codec_lawful : WebUiPayloadOperation.codec.Lawful :=
  enum_lawful (fun o => by cases o <;> decide) (by decide)

@[simp] theorem StreamKind.codec_lawful : StreamKind.codec.Lawful :=
  enum_lawful (fun k => by cases k <;> decide) (by decide)

/-! ## Identifiers and error codes -/

attribute [local simp] List.lookup_cons

def RequestId.codec : Codec RequestId where
  write id := .string id.value
  read j := (string.read j).bind fun value => (RequestId.new value).toOption

@[simp] theorem RequestId.codec_lawful : RequestId.codec.Lawful := by
  intro id
  refine ⟨?_, nofun⟩
  change (RequestId.new id.value).toOption = some id
  rw [RequestId.new, dif_pos id.valid]
  rfl

def ErrorCode.codec : Codec ErrorCode where
  write code := .string code.text
  read j := (string.read j).bind fun value => (ErrorCode.parse value).toOption

theorem ErrorDomain.find_asStr (domain : ErrorDomain) :
    (all.find? fun d => d.asStr.toList == domain.asStr.toList) = some domain := by
  cases domain <;> simp [all, asStr]

theorem errorText_split (domain : ErrorDomain) (detail : String) :
    (stripFront "NH-" (errorText domain detail)).bind (splitOnce '-') =
      some (domain.asStr.toList, detail.toList) := by
  have htext : (errorText domain detail).toList =
      "NH-".toList ++ (domain.asStr.toList ++ '-' :: detail.toList) := by
    simp [errorText]
  have hstarts : startsWith (errorText domain detail) "NH-" = true := by
    unfold startsWith
    rw [htext, isPrefixOf_iff_prefix]
    exact prefix_append _ _
  unfold stripFront
  rw [if_pos hstarts, htext]
  exact splitOnce_append (by cases domain <;> decide)

theorem ErrorCode.parse_text (code : ErrorCode) : ErrorCode.parse code.text = .ok code := by
  obtain ⟨text, domain, detail, hvalid, rfl⟩ := code
  obtain ⟨rest, hrest, hparts⟩ := Option.bind_eq_some_iff.mp (errorText_split domain detail)
  have hdetail : String.ofList detail.toList = detail := String.ofList_toList
  have hnew : ErrorCode.new domain detail =
      .ok ⟨errorText domain detail, domain, detail, hvalid, rfl⟩ := by
    unfold ErrorCode.new
    rw [dif_pos hvalid]
  unfold ErrorCode.parse
  rw [hrest]
  simp only [okOr, hparts, find_asStr, hdetail, hnew, bind, Except.bind, ensure, BEq.rfl, if_true]
  rfl

@[simp] theorem ErrorCode.codec_lawful : ErrorCode.codec.Lawful := by
  intro code
  refine ⟨?_, nofun⟩
  change (ErrorCode.parse code.text).toOption = some code
  rw [ErrorCode.parse_text]
  rfl

/-! ## Mutations -/

def SubscriptionSourceFilter.record : Record SubscriptionSourceFilter where
  known := ["include_names", "exclude_names", "protocols"]
  members f :=
    [("include_names", some (string.list.write f.includeNames)),
     ("exclude_names", some (string.list.write f.excludeNames)),
     ("protocols", some (string.list.write f.protocols))]
  build m := do
    return {
      includeNames := ← defaulted string.list [] (m "include_names")
      excludeNames := ← defaulted string.list [] (m "exclude_names")
      protocols := ← defaulted string.list [] (m "protocols") }

@[simp] theorem SubscriptionSourceFilter.lawful : SubscriptionSourceFilter.record.codec.Lawful := by
  refine Record.lawful (by decide) (fun f => rfl) fun f => ?_
  simp [record]

def SubscriptionSourceSettings.record : Record SubscriptionSourceSettings where
  known := ["request_profile", "format_hint", "mirrors", "filter"]
  members s :=
    [("request_profile", some (SubscriptionRequestProfile.codec.write s.requestProfile)),
     ("format_hint", some (SubscriptionFormatHint.codec.write s.formatHint)),
     ("mirrors", some (string.list.write s.mirrors)),
     ("filter", some (SubscriptionSourceFilter.record.codec.write s.filter))]
  build m := do
    return {
      requestProfile := ← defaulted SubscriptionRequestProfile.codec .singBoxAndroid
        (m "request_profile")
      formatHint := ← defaulted SubscriptionFormatHint.codec .auto (m "format_hint")
      mirrors := ← defaulted string.list [] (m "mirrors")
      filter := ← defaulted SubscriptionSourceFilter.record.codec {} (m "filter") }

@[simp] theorem SubscriptionSourceSettings.lawful : record.codec.Lawful := by
  refine Record.lawful (by decide) (fun s => rfl) fun s => ?_
  simp [record]

def SubscriptionSourcePatch.record : Record SubscriptionSourcePatch where
  known := ["request_profile", "format_hint", "mirrors", "filter"]
  members s :=
    [("request_profile", skipNone SubscriptionRequestProfile.codec s.requestProfile),
     ("format_hint", skipNone SubscriptionFormatHint.codec s.formatHint),
     ("mirrors", skipNone string.list s.mirrors),
     ("filter", skipNone SubscriptionSourceFilter.record.codec s.filter)]
  build m := do
    return {
      requestProfile := ← optional SubscriptionRequestProfile.codec (m "request_profile")
      formatHint := ← optional SubscriptionFormatHint.codec (m "format_hint")
      mirrors := ← optional string.list (m "mirrors")
      filter := ← optional SubscriptionSourceFilter.record.codec (m "filter") }

@[simp] theorem SubscriptionSourcePatch.lawful : SubscriptionSourcePatch.record.codec.Lawful := by
  refine Record.lawful (by decide) (fun s => rfl) fun s => ?_
  simp [record]

def ApplicationTarget.write : ApplicationTarget → Json
  | .package androidUserId name => Members.write
      [("kind", some (.string "package")),
       ("android_user_id", some (u32.write androidUserId)),
       ("package", some (string.write name))]
  | .uid id => Members.write
      [("kind", some (.string "uid")), ("uid", some (u32.write id))]

def ApplicationTarget.read (j : Json) : Option ApplicationTarget :=
  match tagOf "kind" j with
  | some "package" => do
    let m ← readObject ["kind", "android_user_id", "package"] j
    return .package (← required u32 (m "android_user_id"))
      (← required string (m "package"))
  | some "uid" => do
    let m ← readObject ["kind", "uid"] j
    return .uid (← required u32 (m "uid"))
  | _ => none

def ApplicationTarget.codec : Codec ApplicationTarget where
  write := write
  read := read

theorem ApplicationTarget.read_write (target : ApplicationTarget) :
    read (write target) = some target := by
  cases target with
  | package androidUserId name | uid id =>
    simp only [read, write, tagOf_write]
    rw [readObject_write (by rfl) (by simp)]
    simp

@[simp] theorem ApplicationTarget.codec_lawful : codec.Lawful := by
  intro target
  refine ⟨read_write target, ?_⟩
  cases target <;> exact Members.write_ne_null _

def ConfigMutation.write : ConfigMutation → Json
  | .setServiceEnabled enabled => Members.write
      [("type", some (.string "set_service_enabled")),
       ("enabled", some (bool.write enabled))]
  | .addSource name url settings => Members.write
      [("type", some (.string "add_source")),
       ("name", some (string.write name)),
       ("url", some (string.write url)),
       ("settings", skipNone record.codec settings)]
  | .updateSource sourceId name url enabled settings => Members.write
      [("type", some (.string "update_source")),
       ("source_id", some (string.write sourceId)),
       ("name", skipNone string name),
       ("url", skipNone string url),
       ("enabled", skipNone bool enabled),
       ("settings", skipNone SubscriptionSourcePatch.record.codec settings)]
  | .removeSource sourceId => Members.write
      [("type", some (.string "remove_source")),
       ("source_id", some (string.write sourceId))]
  | .moveSource sourceId beforeSourceId => Members.write
      [("type", some (.string "move_source")),
       ("source_id", some (string.write sourceId)),
       ("before_source_id", skipNone string beforeSourceId)]
  | .addApplicationTarget target => Members.write
      [("type", some (.string "add_application_target")),
       ("target", some (codec.write target))]
  | .removeApplicationTarget target => Members.write
      [("type", some (.string "remove_application_target")),
       ("target", some (codec.write target))]
  | .replaceApplicationTargets targets => Members.write
      [("type", some (.string "replace_application_targets")),
       ("targets", some (codec.list.write targets))]
  | .setApplicationPolicy mode targets => Members.write
      [("type", some (.string "set_application_policy")),
       ("mode", some (ApplicationPolicyMode.codec.write mode)),
       ("targets", some (codec.list.write targets))]
  | .addRoutingCidr list cidr => Members.write
      [("type", some (.string "add_routing_cidr")),
       ("list", some (RoutingCidrList.codec.write list)),
       ("cidr", some (string.write cidr))]
  | .removeRoutingCidr list cidr => Members.write
      [("type", some (.string "remove_routing_cidr")),
       ("list", some (RoutingCidrList.codec.write list)),
       ("cidr", some (string.write cidr))]
  | .removeNode nodeId => Members.write
      [("type", some (.string "remove_node")),
       ("node_id", some (string.write nodeId))]
  | .setScalarField fieldId value => Members.write
      [("type", some (.string "set_scalar_field")),
       ("field_id", some (string.write fieldId)),
       ("value", some (Codec.value.write value))]

def ConfigMutation.read (j : Json) : Option ConfigMutation :=
  match tagOf "type" j with
  | some "set_service_enabled" => do
    let m ← readObject ["type", "enabled"] j
    return .setServiceEnabled (← required bool (m "enabled"))
  | some "add_source" => do
    let m ← readObject ["type", "name", "url", "settings"] j
    return .addSource (← required string (m "name")) (← required string (m "url"))
      (← optional record.codec (m "settings"))
  | some "update_source" => do
    let m ← readObject ["type", "source_id", "name", "url", "enabled", "settings"] j
    return .updateSource (← required string (m "source_id"))
      (← optional string (m "name")) (← optional string (m "url"))
      (← optional bool (m "enabled"))
      (← optional SubscriptionSourcePatch.record.codec (m "settings"))
  | some "remove_source" => do
    let m ← readObject ["type", "source_id"] j
    return .removeSource (← required string (m "source_id"))
  | some "move_source" => do
    let m ← readObject ["type", "source_id", "before_source_id"] j
    return .moveSource (← required string (m "source_id"))
      (← optional string (m "before_source_id"))
  | some "add_application_target" => do
    let m ← readObject ["type", "target"] j
    return .addApplicationTarget (← required codec (m "target"))
  | some "remove_application_target" => do
    let m ← readObject ["type", "target"] j
    return .removeApplicationTarget (← required codec (m "target"))
  | some "replace_application_targets" => do
    let m ← readObject ["type", "targets"] j
    return .replaceApplicationTargets (← required codec.list (m "targets"))
  | some "set_application_policy" => do
    let m ← readObject ["type", "mode", "targets"] j
    return .setApplicationPolicy (← required ApplicationPolicyMode.codec (m "mode"))
      (← required codec.list (m "targets"))
  | some "add_routing_cidr" => do
    let m ← readObject ["type", "list", "cidr"] j
    return .addRoutingCidr (← required RoutingCidrList.codec (m "list"))
      (← required string (m "cidr"))
  | some "remove_routing_cidr" => do
    let m ← readObject ["type", "list", "cidr"] j
    return .removeRoutingCidr (← required RoutingCidrList.codec (m "list"))
      (← required string (m "cidr"))
  | some "remove_node" => do
    let m ← readObject ["type", "node_id"] j
    return .removeNode (← required string (m "node_id"))
  | some "set_scalar_field" => do
    let m ← readObject ["type", "field_id", "value"] j
    return .setScalarField (← required string (m "field_id"))
      (← required Codec.value (m "value"))
  | _ => none

def ConfigMutation.codec : Codec ConfigMutation where
  write := write
  read := read

theorem ConfigMutation.read_write (mutation : ConfigMutation) :
    read (write mutation) = some mutation := by
  cases mutation <;>
    · simp only [read, write, tagOf_write]
      rw [readObject_write (by rfl) (by simp)]
      simp

@[simp] theorem ConfigMutation.codec_lawful : ConfigMutation.codec.Lawful := by
  intro mutation
  refine ⟨read_write mutation, ?_⟩
  cases mutation <;> exact Members.write_ne_null _

/-! ## Requests -/

def WebUiPayloadParams.record : Record WebUiPayloadParams where
  known := ["namespace", "handle", "chunk", "operation"]
  members r :=
    [("namespace", some (WebUiPayloadNamespace.codec.write r.space)),
     ("handle", skipNone string r.handle),
     ("chunk", skipNone string r.chunk),
     ("operation", skipNone WebUiPayloadOperation.codec r.operation)]
  build m := do
    return {
      space := ← required WebUiPayloadNamespace.codec (m "namespace")
      handle := ← optional string (m "handle")
      chunk := ← optional string (m "chunk")
      operation := ← optional WebUiPayloadOperation.codec (m "operation") }

@[simp] theorem WebUiPayloadParams.lawful : WebUiPayloadParams.record.codec.Lawful := by
  refine Record.lawful (by decide) (fun p => rfl) fun p => ?_
  simp [record]

def NodeOverrideDocument.record : Record NodeOverrideDocument where
  known := ["display_name", "outbound"]
  members r :=
    [("display_name", some (string.write r.displayName)),
     ("outbound", some (Codec.value.write r.outbound))]
  build m := do
    return {
      displayName := ← required string (m "display_name")
      outbound := ← required Codec.value (m "outbound") }

@[simp] theorem NodeOverrideDocument.lawful : NodeOverrideDocument.record.codec.Lawful := by
  refine Record.lawful (by decide) (fun d => rfl) fun d => ?_
  simp [record]

def ControlParams.record : Record ControlParams where
  known := ["wait", "if_needed", "expected_config_digest", "candidate_digest", "document",
    "manager_version", "manager_protocol_min", "manager_protocol_max", "mutation", "event_kinds",
    "target", "query", "limit", "log_channel", "source_id", "subscription_mode", "enabled",
    "node_override", "payload", "expected_generation", "operation_id"]
  members r :=
    [("wait", skipFalse r.wait),
     ("if_needed", skipFalse r.ifNeeded),
     ("expected_config_digest", skipNone string r.expectedConfigDigest),
     ("candidate_digest", skipNone string r.candidateDigest),
     ("document", skipNone Codec.value r.document),
     ("manager_version", skipNone string r.managerVersion),
     ("manager_protocol_min", skipNone u8 r.managerProtocolMin),
     ("manager_protocol_max", skipNone u8 r.managerProtocolMax),
     ("mutation", skipNone ConfigMutation.codec r.mutation),
     ("event_kinds", skipNone EventKind.codec.list r.eventKinds),
     ("target", skipNone string r.target),
     ("query", skipNone string r.query),
     ("limit", skipNone u8 r.limit),
     ("log_channel", skipNone LogChannel.codec r.logChannel),
     ("source_id", skipNone string r.sourceId),
     ("subscription_mode", skipNone SubscriptionMode.codec r.subscriptionMode),
     ("enabled", skipNone bool r.enabled),
     ("node_override", skipNone NodeOverrideDocument.record.codec r.nodeOverride),
     ("payload", skipNone WebUiPayloadParams.record.codec r.payload),
     ("expected_generation", skipNone u64 r.expectedGeneration),
     ("operation_id", skipNone string r.operationId)]
  build m := do
    return {
      wait := ← defaulted bool false (m "wait")
      ifNeeded := ← defaulted bool false (m "if_needed")
      expectedConfigDigest := ← optional string (m "expected_config_digest")
      candidateDigest := ← optional string (m "candidate_digest")
      document := ← optional Codec.value (m "document")
      managerVersion := ← optional string (m "manager_version")
      managerProtocolMin := ← optional u8 (m "manager_protocol_min")
      managerProtocolMax := ← optional u8 (m "manager_protocol_max")
      mutation := ← optional ConfigMutation.codec (m "mutation")
      eventKinds := ← optional EventKind.codec.list (m "event_kinds")
      target := ← optional string (m "target")
      query := ← optional string (m "query")
      limit := ← optional u8 (m "limit")
      logChannel := ← optional LogChannel.codec (m "log_channel")
      sourceId := ← optional string (m "source_id")
      subscriptionMode := ← optional SubscriptionMode.codec (m "subscription_mode")
      enabled := ← optional bool (m "enabled")
      nodeOverride := ← optional NodeOverrideDocument.record.codec (m "node_override")
      payload := ← optional WebUiPayloadParams.record.codec (m "payload")
      expectedGeneration := ← optional u64 (m "expected_generation")
      operationId := ← optional string (m "operation_id") }

/-- The parameters as they are read back: a document that is `null` is none. -/
def ControlParams.asRead (params : ControlParams) : ControlParams :=
  { params with document := params.document.filter fun v => !v.isNull }

theorem ControlParams.read_write (params : ControlParams) :
    record.codec.read (record.codec.write params) = some params.asRead := by
  refine Record.read_write (by decide) rfl ?_
  simp only [record, lookup_cons, BEq.rfl, String.reduceBEq, Option.join_some]
  simp [asRead]

def ControlRequest.record : Record ControlRequest where
  known := ["version", "request_id", "method", "params"]
  members r :=
    [("version", some (u8.write r.version)),
     ("request_id", some (RequestId.codec.write r.requestId)),
     ("method", some (ControlMethod.codec.write r.method)),
     ("params", some (ControlParams.record.codec.write r.params))]
  build m := do
    return {
      version := ← required u8 (m "version")
      requestId := ← required RequestId.codec (m "request_id")
      method := ← required ControlMethod.codec (m "method")
      params := ← required ControlParams.record.codec (m "params") }

def ControlRequest.asRead (r : ControlRequest) : ControlRequest :=
  { r with params := r.params.asRead }

theorem ControlRequest.read_write (r : ControlRequest) :
    record.codec.read (record.codec.write r) = some r.asRead := by
  have hparams : required ControlParams.record.codec
      (some (ControlParams.record.codec.write r.params)) = some r.params.asRead :=
    r.params.read_write
  refine Record.read_write (by decide) rfl ?_
  simp [record, hparams, asRead]

/-! ## Responses and streams -/

def ControlError.record : Record ControlError where
  known := ["code", "message", "details"]
  members r :=
    [("code", some (ErrorCode.codec.write r.code)),
     ("message", some (string.write r.message)),
     ("details", skipNone Codec.value r.details)]
  build m := do
    return {
      code := ← required ErrorCode.codec (m "code")
      message := ← required string (m "message")
      details := ← optional Codec.value (m "details") }

/-- Details that are `null` are read as none. -/
def ControlError.asRead (e : ControlError) : ControlError :=
  { e with details := e.details.filter fun v => !v.isNull }

theorem ControlError.read_write (e : ControlError) :
    record.codec.read (record.codec.write e) = some e.asRead := by
  refine Record.read_write (by decide) rfl ?_
  simp [record, asRead]

@[simp] theorem ControlError.optional_write (o : Option ControlError) :
    optional record.codec (skipNone record.codec o) = some (o.map asRead) :=
  optional_skipNone_map (fun e => ⟨e.read_write, Members.write_ne_null _⟩) o

def ControlResponse.record : Record ControlResponse where
  known := ["version", "request_id", "ok", "generation", "result", "error"]
  members r :=
    [("version", some (u8.write r.version)),
     ("request_id", some (RequestId.codec.write r.requestId)),
     ("ok", some (bool.write r.ok)),
     ("generation", some (u64.option.write r.generation)),
     ("result", skipNone Codec.value r.result),
     ("error", skipNone ControlError.record.codec r.error)]
  build m := do
    return {
      version := ← required u8 (m "version")
      requestId := ← required RequestId.codec (m "request_id")
      ok := ← required bool (m "ok")
      generation := ← optional u64 (m "generation")
      result := ← optional Codec.value (m "result")
      error := ← optional ControlError.record.codec (m "error") }

def ControlResponse.asRead (r : ControlResponse) : ControlResponse :=
  { r with result := r.result.filter fun v => !v.isNull, error := r.error.map (·.asRead) }

theorem ControlResponse.read_write (r : ControlResponse) :
    record.codec.read (record.codec.write r) = some r.asRead := by
  refine Record.read_write (by decide) rfl ?_
  simp [record, asRead]

def StreamFrame.record : Record StreamFrame where
  known := ["version", "request_id", "sequence", "kind", "payload", "error"]
  members r :=
    [("version", some (u8.write r.version)),
     ("request_id", some (RequestId.codec.write r.requestId)),
     ("sequence", some (u64.write r.sequence)),
     ("kind", some (StreamKind.codec.write r.kind)),
     ("payload", skipNone Codec.value r.payload),
     ("error", skipNone ControlError.record.codec r.error)]
  build m := do
    return {
      version := ← required u8 (m "version")
      requestId := ← required RequestId.codec (m "request_id")
      sequence := ← required u64 (m "sequence")
      kind := ← required StreamKind.codec (m "kind")
      payload := ← optional Codec.value (m "payload")
      error := ← optional ControlError.record.codec (m "error") }

def StreamFrame.asRead (s : StreamFrame) : StreamFrame :=
  { s with payload := s.payload.filter fun v => !v.isNull, error := s.error.map (·.asRead) }

theorem StreamFrame.read_write (s : StreamFrame) :
    record.codec.read (record.codec.write s) = some s.asRead := by
  refine Record.read_write (by decide) rfl ?_
  simp [record, asRead]

/-! ## Frames -/

def WireFrame.write : WireFrame → Json
  | .request frame => ControlRequest.record.codec.write frame
  | .response frame => ControlResponse.record.codec.write frame
  | .stream frame => StreamFrame.record.codec.write frame

/-- An untagged union is the first kind the object can be read as. -/
def WireFrame.read (j : Json) : Option WireFrame :=
  ((ControlRequest.record.codec.read j).map .request).or
    (((ControlResponse.record.codec.read j).map .response).or
      ((StreamFrame.record.codec.read j).map .stream))

def WireFrame.asRead : WireFrame → WireFrame
  | .request frame => .request frame.asRead
  | .response frame => .response frame.asRead
  | .stream frame => .stream frame.asRead

/-- A frame is read as the kind it was written as: each kind has a member that the kinds
tried before do not know. -/
theorem WireFrame.read_write (frame : WireFrame) : read frame.write = some frame.asRead := by
  cases frame with
  | request r =>
    unfold read write
    rw [ControlRequest.read_write]
    rfl
  | response r =>
    unfold read write
    rw [ControlResponse.read_write]
    rfl
  | stream s =>
    unfold read write
    rw [StreamFrame.read_write]
    rfl

end NetHop.Wire

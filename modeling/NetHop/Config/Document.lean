import NetHop.Config.Registry
import NetHop.JsonEdit
import NetHop.Wire.Codec

/-!
# Mutations of the configuration document

A mutation edits the configuration as a JSON document.  Beside it the list of the
identifiers the sources are to keep is edited, position by position, so that the registry
can be told which source is which.
-/

namespace NetHop.Config

open Json Wire ApplicationTarget

inductive ConfigError where
  | missing
  | invalidPath
  | tooLarge
  | unstableSnapshot
  | invalidUtf8
  | invalidToml
  | unknownField
  | invalidValue
  | unsupportedSchema
  | invalidSourceCount
  | singleSourceNotUnique
  | noActiveSource
  | invalidSourceName
  | duplicateSourceName
  | duplicateSourceUrl
  | invalidSourceUrl
  | sourceUrlNonHttps
  | invalidCapture
  | invalidUpdateSchedule
  | invalidSourceOptions
  | invalidProxy
  | invalidApplications
  | applicationCatalogUnavailable
  | invalidNetwork
  | unsupportedNetwork
  | invalidRouting
  | unsupportedRouting
  | invalidLogging
  | invalidAdvanced
  | conflict
  | writeFailed

inductive ConfigRuntimeError where
  | config (error : ConfigError)
  | registry (error : RegistryError)
  | moduleEntry
  | rollback

/-- The result of a mutation: the document, where a source was added, and the identifiers the
sources keep. -/
structure Mutated where
  document : Json
  addedIndex : Option Nat := none
  preferredIds : List (Option SourceId)

def sourcesPath : List String := ["subscriptions", "sources"]

def SourceDefinition.active (source : SourceDefinition) : Bool :=
  source.enabled && source.url != ""

/-! ## Edits -/

/-- `array_mut`, for reading. -/
def arrayAt (path : List String) (document : Json) : Except ConfigRuntimeError (List Json) :=
  match getAt path document with
  | some (.array values) => .ok values
  | _ => .error (.config .invalidToml)

def setValue (path : List String) (value : Json) (document : Json) :
    Except ConfigRuntimeError Json :=
  okOr (setAt value path document) (.config .invalidToml)

def sourceIndex (sources : SourceConfig) (sourceId : String) : Except ConfigRuntimeError Nat :=
  okOr (sources.sources.findIdx? fun source => source.id.value == sourceId)
    (.config .invalidValue)

def objectMembers : Json → Except ConfigRuntimeError (List (String × Json))
  | .object members => .ok members
  | _ => .error (.config .invalidToml)

/-- `entry(key).or_insert(value)`. -/
def entryOr (key : String) (value : Json) (members : List (String × Json)) : Json :=
  (members.lookup key).getD value

def stringArray (values : List String) : Json := .array (values.map .string)

def setMembers (edits : List (String × Json)) (members : List (String × Json)) :
    List (String × Json) :=
  edits.foldl (fun members edit => setMember edit.1 edit.2 members) members

def applySourceFilter (filter : SubscriptionSourceFilter) (source : List (String × Json)) :
    Except ConfigRuntimeError (List (String × Json)) := do
  let members ← objectMembers (entryOr "filter" (.object []) source)
  return setMember "filter" (.object (setMembers
    [("include_names", stringArray filter.includeNames),
     ("exclude_names", stringArray filter.excludeNames),
     ("protocols", stringArray filter.protocols)] members)) source

def applySourceSettings (settings : SubscriptionSourceSettings) (source : List (String × Json)) :
    Except ConfigRuntimeError (List (String × Json)) :=
  applySourceFilter settings.filter (setMembers
    [("request_profile", SubscriptionRequestProfile.codec.write settings.requestProfile),
     ("format_hint", SubscriptionFormatHint.codec.write settings.formatHint),
     ("mirrors", stringArray settings.mirrors)] source)

def given (edits : List (String × Option Json)) : List (String × Json) :=
  edits.filterMap fun edit => edit.2.map fun value => (edit.1, value)

def applySourcePatch (patch : SubscriptionSourcePatch) (source : List (String × Json)) :
    Except ConfigRuntimeError (List (String × Json)) :=
  let source := setMembers (given
    [("request_profile", patch.requestProfile.map SubscriptionRequestProfile.codec.write),
     ("format_hint", patch.formatHint.map SubscriptionFormatHint.codec.write),
     ("mirrors", patch.mirrors.map stringArray)]) source
  match patch.filter with
  | some filter => applySourceFilter filter source
  | none => .ok source

/-- `as_object_mut` and an insertion; other values stay as they are. -/
def disableSource : Json → Json
  | .object members => .object (setMember "enabled" (.bool false) members)
  | j => j

def newSource (name url : String) (enabled : Bool) (settings : Option SubscriptionSourceSettings) :
    Except ConfigRuntimeError Json := do
  let source := [("name", .string name), ("url", .string url), ("enabled", .bool enabled)]
  let source ←
    match settings with
    | some settings => applySourceSettings settings source
    | none => .ok source
  return .object source

def updatedSource (name url : Option String) (enabled : Option Bool)
    (settings : Option SubscriptionSourcePatch) (source : Json) :
    Except ConfigRuntimeError Json := do
  let members ← objectMembers source
  let members := setMembers (given
    [("name", name.map .string), ("url", url.map .string), ("enabled", enabled.map .bool)]) members
  let members ←
    match settings with
    | some patch => applySourcePatch patch members
    | none => .ok members
  return .object members

def excludeNode (nodeId : String) (source : Json) : Except ConfigRuntimeError Json := do
  let members ← objectMembers source
  let filter ← objectMembers (entryOr "filter" (.object []) members)
  let excluded ←
    match entryOr "excluded_node_ids" (.array []) filter with
    | .array values => .ok values
    | _ => .error (ConfigRuntimeError.config .invalidToml)
  let excluded := if excluded.any (·.beq (.string nodeId)) then excluded
    else excluded ++ [.string nodeId]
  return .object (setMember "filter"
    (.object (setMember "excluded_node_ids" (.array excluded) filter)) members)

def removeFirst (holds : Json → Bool) (values : List Json) :
    Except ConfigRuntimeError (List Json) := do
  let index ← okOr (values.findIdx? holds) (.config .invalidValue)
  return values.eraseIdx index

def routingPath : RoutingCidrList → List String
  | .forceProxy => ["routing", "force_proxy_cidrs"]
  | .bypass => ["routing", "bypass_cidrs"]

/-- The scalar fields a mutation may set; a field is named by its path. -/
def scalarPaths : List (List String) :=
  [["service", "enabled"], ["subscriptions", "auto_update"],
   ["subscriptions", "update_interval_hours"], ["proxy", "outbound_mode"],
   ["proxy", "urltest", "interval_minutes"], ["proxy", "urltest", "tolerance_ms"],
   ["proxy", "urltest", "max_candidates"], ["applications", "mode"],
   ["network", "capture_mode"], ["network", "proxy_tcp"], ["network", "proxy_udp"],
   ["network", "ipv6_mode"], ["network", "dns_mode"], ["network", "tun_stack"],
   ["network", "interfaces", "mobile"], ["network", "interfaces", "wifi"],
   ["network", "interfaces", "hotspot"], ["network", "interfaces", "usb"],
   ["network", "wifi_scenes", "enabled"], ["network", "wifi_scenes", "probe_interval_seconds"],
   ["routing", "bypass_private"], ["routing", "bypass_cn"], ["routing", "block_quic"],
   ["logging", "level"], ["logging", "retention_days"], ["advanced", "inbound_port"],
   ["advanced", "bypass_mark"], ["advanced", "ipv6_guard"], ["advanced", "dry_run"],
   ["advanced", "health_timeout_seconds"], ["advanced", "reconcile_interval_seconds"]]

def scalarPointer (fieldId : String) : Option (List String) :=
  scalarPaths.find? fun path => ".".intercalate path == fieldId

/-! ## Mutations -/

def moveTarget (start count : Nat) : Option Nat → Nat
  | some index => if start < index then index - 1 else index
  | none => count - 1

/-- `Vec::remove` followed by `Vec::insert`. -/
def moveTo {α : Type} (start target : Nat) (l : List α) : List α :=
  match l[start]? with
  | some a => (l.eraseIdx start).insertIdx target a
  | none => l

def applyMutation (document : Json) (mutation : ConfigMutation) (sources : SourceConfig)
    (preferredIds : List (Option SourceId)) : Except ConfigRuntimeError Mutated :=
  match mutation with
  | .setServiceEnabled enabled => do
    let document ← setValue ["service", "enabled"] (.bool enabled) document
    return ⟨document, none, preferredIds⟩
  | .addSource name url settings => do
    let enabled := !sources.sources.any (·.active)
    let list ← arrayAt sourcesPath document
    let source ← newSource name url enabled settings
    let list' := (if enabled then list.map disableSource else list) ++ [source]
    let document ← setValue sourcesPath (.array list') document
    return ⟨document, some list.length, preferredIds ++ [none]⟩
  | .updateSource sourceId name url enabled settings => do
    let index ← sourceIndex sources sourceId
    let list ← arrayAt sourcesPath document
    let source ← okOr list[index]? (.config .invalidToml)
    let source ← updatedSource name url enabled settings source
    let document ← setValue sourcesPath (.array (list.set index source)) document
    return ⟨document, none, preferredIds⟩
  | .removeSource sourceId => do
    let index ← sourceIndex sources sourceId
    let list ← arrayAt sourcesPath document
    let document ← setValue sourcesPath (.array (list.eraseIdx index)) document
    return ⟨document, none, preferredIds.eraseIdx index⟩
  | .moveSource sourceId beforeSourceId => do
    let start ← sourceIndex sources sourceId
    let before ← beforeSourceId.mapM (sourceIndex sources)
    let list ← arrayAt sourcesPath document
    let target := moveTarget start list.length before
    let document ← setValue sourcesPath (.array (moveTo start target list)) document
    return ⟨document, none, moveTo start target preferredIds⟩
  | .addApplicationTarget target => do
    let list ← arrayAt ["applications", "targets"] document
    let document ← setValue ["applications", "targets"]
      (.array (list ++ [codec.write target])) document
    return ⟨document, none, preferredIds⟩
  | .removeApplicationTarget target => do
    let list ← arrayAt ["applications", "targets"] document
    let list ← removeFirst (·.beq (codec.write target)) list
    let document ← setValue ["applications", "targets"] (.array list) document
    return ⟨document, none, preferredIds⟩
  | .replaceApplicationTargets targets => do
    let document ← setValue ["applications", "targets"]
      (codec.list.write targets) document
    return ⟨document, none, preferredIds⟩
  | .setApplicationPolicy mode targets => do
    let document ← setValue ["applications", "mode"] (ApplicationPolicyMode.codec.write mode)
      document
    let document ← setValue ["applications", "targets"]
      (codec.list.write targets) document
    return ⟨document, none, preferredIds⟩
  | .addRoutingCidr list cidr => do
    let values ← arrayAt (routingPath list) document
    let document ← setValue (routingPath list) (.array (values ++ [.string cidr])) document
    return ⟨document, none, preferredIds⟩
  | .removeRoutingCidr list cidr => do
    let values ← arrayAt (routingPath list) document
    let values ← removeFirst (·.beq (.string cidr)) values
    let document ← setValue (routingPath list) (.array values) document
    return ⟨document, none, preferredIds⟩
  | .removeNode nodeId => do
    let list ← arrayAt sourcesPath document
    let list ← list.mapM (excludeNode nodeId)
    let document ← setValue sourcesPath (.array list) document
    return ⟨document, none, preferredIds⟩
  | .setScalarField fieldId value => do
    let path ← okOr (scalarPointer fieldId) (.config .unknownField)
    let document ← setValue path value document
    return ⟨document, none, preferredIds⟩

end NetHop.Config

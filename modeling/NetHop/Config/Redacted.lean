import NetHop.Config.Document

/-!
# The redacted configuration

What is shown of the configuration: its document without the addresses of sources and the
names of Wi-Fi networks.  In their places stand whether there is one, and how many mirrors a
source has.
-/

namespace NetHop.Config

open Json

/-! ## The configuration file -/

def validateSsid (value : String) : Bool :=
  value != "" && value.utf8ByteSize ≤ 32 && !value.toList.any Text.isControl

def parseBssid (value : String) : Option (List Nat) :=
  let parts := value.toList.splitOn ':'
  if parts.length = 6 ∧ parts.all fun part => (String.ofList part).utf8ByteSize == 2 then
    parts.mapM Text.parseHexU32
  else
    none

structure WifiSceneRuleWire where
  id : String
  ssid : Option String
  bssid : Option String
  action : Json
  validSsid : ssid.all validateSsid = true
  validBssid : bssid.all (fun value => (parseBssid value).isSome) = true

/-- A source; what redaction does not look at is kept as it is written. -/
structure SubscriptionSourceWire where
  name : String
  enabled : Bool
  url : String
  requestProfile : Json
  formatHint : Json
  mirrors : List String
  filter : Json

structure SubscriptionsWire where
  mode : Json
  autoUpdate : Json
  updateIntervalHours : Json
  sources : List SubscriptionSourceWire

structure WifiScenesWire where
  enabled : Json
  probeIntervalSeconds : Json
  rules : List WifiSceneRuleWire

structure NetworkWire where
  (captureMode proxyTcp proxyUdp ipv6Mode dnsMode tunStack interfaces : Json)
  wifiScenes : WifiScenesWire

structure UserConfigWire where
  (schemaVersion service proxy applications routing logging advanced : Json)
  subscriptions : SubscriptionsWire
  network : NetworkWire

def SubscriptionSourceWire.toValue (s : SubscriptionSourceWire) : Json :=
  .object [("name", .string s.name), ("enabled", .bool s.enabled), ("url", .string s.url),
    ("request_profile", s.requestProfile), ("format_hint", s.formatHint),
    ("mirrors", .array (s.mirrors.map .string)), ("filter", s.filter)]

def WifiSceneRuleWire.toValue (r : WifiSceneRuleWire) : Json :=
  .object [("id", .string r.id), ("ssid", (r.ssid.map .string).getD .null),
    ("bssid", (r.bssid.map .string).getD .null), ("action", r.action)]

/-- The document of a configuration with these sources and scene rules. -/
def UserConfigWire.document (w : UserConfigWire) (sources rules : List Json) : Json :=
  let network := w.network
  .object [("schema_version", w.schemaVersion), ("service", w.service),
    ("subscriptions", .object [("mode", w.subscriptions.mode),
      ("auto_update", w.subscriptions.autoUpdate),
      ("update_interval_hours", w.subscriptions.updateIntervalHours), ("sources", .array sources)]),
    ("proxy", w.proxy), ("applications", w.applications),
    ("network", .object [("capture_mode", network.captureMode),
      ("proxy_tcp", network.proxyTcp), ("proxy_udp", network.proxyUdp),
      ("ipv6_mode", network.ipv6Mode), ("dns_mode", network.dnsMode),
      ("tun_stack", network.tunStack), ("interfaces", network.interfaces),
      ("wifi_scenes", .object [("enabled", network.wifiScenes.enabled),
        ("probe_interval_seconds", network.wifiScenes.probeIntervalSeconds),
        ("rules", .array rules)])]),
    ("routing", w.routing), ("logging", w.logging), ("advanced", w.advanced)]

def UserConfigWire.toValue (w : UserConfigWire) : Json :=
  w.document (w.subscriptions.sources.map (·.toValue)) (w.network.wifiScenes.rules.map (·.toValue))

/-! ## Redaction -/

def isConfigured : Option Json → Bool
  | some (.string text) => text != ""
  | _ => false

/-- Leaves of a text only whether there is one. -/
def hideText (members : List (String × Json)) (key : String) : List (String × Json) :=
  setMember (key ++ "_configured") (.bool (isConfigured (members.lookup key)))
    (setMember key .null members)

def arrayLength : Json → Nat
  | .array values => values.length
  | _ => 0

def redactedSource : Json → Json
  | .object members =>
    let members := hideText members "url"
    match members.lookup "mirrors" with
    | some mirrors =>
      let count := .number (.unsigned (arrayLength mirrors))
      .object (setMember "mirrors" (.object [("configured_count", count)]) members)
    | none => .object members
  | value => value

def redactedRule : Json → Json
  | .object members => .object (["ssid", "bssid"].foldl hideText members)
  | value => value

/-- Edits the elements of the array at a place, if there is one. -/
def mapArrayAt (path : List String) (edit : Json → Json) (document : Json) : Json :=
  match getAt path document with
  | some (.array values) => (setAt (.array (values.map edit)) path document).getD document
  | _ => document

def redactedDocument (w : UserConfigWire) : Json :=
  mapArrayAt ["network", "wifi_scenes", "rules"] redactedRule
    (mapArrayAt sourcesPath redactedSource w.toValue)

/-! ## What it does not depend on -/

def SubscriptionSourceWire.Alike (s s' : SubscriptionSourceWire) : Prop :=
  s' = { s with url := s'.url, mirrors := s'.mirrors } ∧ (s'.url = "" ↔ s.url = "") ∧
    s'.mirrors.length = s.mirrors.length

def WifiSceneRuleWire.Alike (r r' : WifiSceneRuleWire) : Prop :=
  r'.id = r.id ∧ r'.action = r.action ∧ r'.ssid.isSome = r.ssid.isSome ∧
    r'.bssid.isSome = r.bssid.isSome

structure UserConfigWire.Alike (w w' : UserConfigWire) : Prop where
  sources : w.subscriptions.sources.Forall₂ SubscriptionSourceWire.Alike w'.subscriptions.sources
  rules : List.Forall₂ WifiSceneRuleWire.Alike w.network.wifiScenes.rules
    w'.network.wifiScenes.rules
  rest : w' = { w with
    subscriptions.sources := w'.subscriptions.sources
    network.wifiScenes.rules := w'.network.wifiScenes.rules }

theorem redactedSource_alike {s s' : SubscriptionSourceWire} (h : s.Alike s') :
    redactedSource s'.toValue = redactedSource s.toValue := by
  obtain ⟨hrest, hurl, hmirrors⟩ := h
  have hshape : ∀ s : SubscriptionSourceWire, redactedSource s.toValue =
      .object [("name", .string s.name), ("enabled", .bool s.enabled), ("url", .null),
        ("request_profile", s.requestProfile), ("format_hint", s.formatHint), ("mirrors", .object
          [("configured_count", .number (.unsigned (s.mirrors.map Json.string).length))]),
        ("filter", s.filter), ("url_configured", .bool (s.url != ""))] := fun s => rfl
  have hconfigured : (s'.url != "") = (s.url != "") := by
    rw [Bool.eq_iff_iff, bne_iff_ne, bne_iff_ne]
    exact not_congr hurl
  rw [hshape, hshape, hconfigured, List.length_map, hmirrors, List.length_map, hrest]

theorem isConfigured_text {check : String → Bool} (hcheck : check "" = false) {o : Option String}
    (h : o.all check = true) : isConfigured (some ((o.map Json.string).getD .null)) = o.isSome := by
  cases o with
  | none => rfl
  | some text =>
    refine bne_iff_ne.mpr fun htext => ?_
    rw [htext, Option.all_some, hcheck] at h
    cases h

theorem redactedRule_toValue (r : WifiSceneRuleWire) :
    redactedRule r.toValue = .object [("id", .string r.id), ("ssid", .null), ("bssid", .null),
      ("action", r.action), ("ssid_configured", .bool r.ssid.isSome),
      ("bssid_configured", .bool r.bssid.isSome)] := by
  rw [← isConfigured_text (by decide) r.validSsid, ← isConfigured_text (by decide) r.validBssid]
  rfl

theorem redactedRule_alike {r r' : WifiSceneRuleWire} (h : r.Alike r') :
    redactedRule r'.toValue = redactedRule r.toValue := by
  rw [redactedRule_toValue, redactedRule_toValue, h.1, h.2.1, h.2.2.1, h.2.2.2]

/-- Configurations that differ in addresses and network names only are shown alike. -/
theorem redactedDocument_alike {w w' : UserConfigWire} (h : w.Alike w') :
    redactedDocument w' = redactedDocument w := by
  have hshape : ∀ w : UserConfigWire, redactedDocument w = w.document
      (w.subscriptions.sources.map fun s => redactedSource s.toValue)
      (w.network.wifiScenes.rules.map fun r => redactedRule r.toValue) := by
    intro w
    rw [← Function.comp_def, ← Function.comp_def, ← List.map_map, ← List.map_map]
    rfl
  rw [hshape, hshape, map_eq_of_forall₂ (h.sources.imp fun _ _ => redactedSource_alike),
    map_eq_of_forall₂ (h.rules.imp fun _ _ => redactedRule_alike), h.rest]
  rfl

def sampleWire (url ssid : String) (h : validateSsid ssid = true) : UserConfigWire :=
  let source : SubscriptionSourceWire := ⟨"A", true, url, .null, .null, [url], .null⟩
  let rule : WifiSceneRuleWire := ⟨"home", some ssid, none, .null, h, rfl⟩
  ⟨.null, .null, .null, .null, .null, .null, .null, ⟨.null, .null, .null, [source]⟩,
    ⟨.null, .null, .null, .null, .null, .null, .null, .null, .null, [rule]⟩⟩

theorem sampleWire_shown :
    redactedDocument (sampleWire "https://two.example" "Office" (by decide)) =
      redactedDocument (sampleWire "https://one.example" "Home" (by decide)) := by
  refine redactedDocument_alike ⟨.cons ⟨rfl, ?_, rfl⟩ .nil, .cons ⟨rfl, rfl, rfl, rfl⟩ .nil, rfl⟩
  decide

end NetHop.Config

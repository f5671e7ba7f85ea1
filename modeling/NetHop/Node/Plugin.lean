import NetHop.Node.Canonical

/-!
# Options of a plugin

The options of a Shadowsocks plugin are handed to the plugin as one text, and the plugin
takes the text apart again.  It finds the options that were checked exactly when no value
has a semicolon in it.  The adapters that take the options from such a text themselves can
give no such value; those that read them as separate fields can.
-/

namespace NetHop.Node

open Words List SortedMap

/-- The text taken apart: at every semicolon, each part at its first equals sign. -/
def readOptions (t : String) : List (Option (String × String)) :=
  (t.toList.splitOn ';').map fun part =>
    (splitOnce '=' part).map fun p => (String.ofList p.1, String.ofList p.2)

def pluginKeys : List String := ["obfs", "obfs-host", "mode", "host", "path", "tls", "mux"]

theorem plain_of_mem_pluginKeys {key : String} (h : key ∈ pluginKeys) :
    ';' ∉ key.toList ∧ '=' ∉ key.toList := by
  revert key
  decide

/-! ## Accepted plugins -/

variable {plugin : PluginSpec}

section

variable {options : SortedMap String String}

theorem mem_pluginKeys_of_accepts {allowed : List String} {key : String} {values : List String}
    (hsub : ∀ k ∈ allowed, k ∈ pluginKeys) (h : (options.keys.all (allowed.contains ·) &&
      (options.get? key).any (values.contains ·)) = true) :
    (∀ k ∈ options.keys, k ∈ pluginKeys) ∧ options.entries ≠ [] := by
  rw [Bool.and_eq_true] at h
  obtain ⟨hkeys, hvalue⟩ := h
  refine ⟨fun k hk => hsub k ?_, fun hempty => ?_⟩
  · exact contains_iff_mem.mp (all_eq_true.mp hkeys k hk)
  · rw [get?, hempty] at hvalue
    exact absurd hvalue (by simp)

theorem namedPlugin_eq_ok {name : String} (h : namedPlugin name options = .ok plugin) :
    plugin.options.mapValues (·.value) = options := by
  obtain ⟨bounded, hbounded, h⟩ := bind_eq_ok.mp h
  obtain ⟨text, -, h⟩ := bind_eq_ok.mp h
  cases h
  exact boundedOptions_eq_ok hbounded

end

variable {spec : NodeSpec}

theorem makePlugin_eq_ok (h : makePlugin spec = .ok (some plugin)) :
    plugin.options.mapValues (·.value) = spec.pluginOptions ∧
      (∀ k ∈ spec.pluginOptions.keys, k ∈ pluginKeys) ∧ spec.pluginOptions.entries ≠ [] := by
  unfold makePlugin at h
  cases hname : spec.plugin with
  | none =>
    simp only [hname, bind_eq_ok] at h
    obtain ⟨-, -, h⟩ := h
    cases h
  | some name =>
    simp only [hname] at h
    split_ifs at h
    · simp only [bind_eq_ok, ensure_eq_ok] at h
      obtain ⟨-, haccepts, plugin, hplugin, h⟩ := h
      cases h
      exact ⟨namedPlugin_eq_ok hplugin, mem_pluginKeys_of_accepts (by decide) haccepts⟩
    · simp only [bind_eq_ok, ensure_eq_ok] at h
      obtain ⟨-, haccepts, -, -, -, -, plugin, hplugin, h⟩ := h
      cases h
      exact ⟨namedPlugin_eq_ok hplugin, mem_pluginKeys_of_accepts (by decide) haccepts⟩

/-! ## Taking the text apart -/

theorem toList_pluginOptions (plugin : PluginSpec) : (pluginOptions plugin).toList =
      [';'].intercalate
        (plugin.options.entries.map fun e => e.1.toList ++ '=' :: e.2.value.toList) := by
  rw [pluginOptions_eq, String.toList_intercalate, map_map]
  congr 1
  simp

theorem not_mem_of_mem_readOptions {t key value : String} (h : some (key, value) ∈ readOptions t) :
    ';' ∉ value.toList := by
  obtain ⟨part, hpart, h⟩ := mem_map.mp h
  obtain ⟨p, hp, h⟩ := Option.map_eq_some_iff.mp h
  have hsplit : part = p.1 ++ '=' :: p.2 := splitOnce_eq_some hp
  have hvalue : value = String.ofList p.2 := (Prod.ext_iff.mp h).2.symm
  have hnone := not_mem_of_mem_splitOn hpart
  rw [hsplit, mem_append, mem_cons] at hnone
  rw [hvalue, String.toList_ofList]
  exact fun hmem => hnone (.inr (.inr hmem))

theorem readOptions_pluginOptions (hne : plugin.options.entries ≠ [])
    (hkeys : ∀ k ∈ plugin.options.keys, k ∈ pluginKeys)
    (hvalues : ∀ e ∈ plugin.options.entries, ';' ∉ e.2.value.toList) :
    readOptions (pluginOptions plugin) =
      plugin.options.entries.map fun e => some (e.1, e.2.value) := by
  have hplain : ∀ e ∈ plugin.options.entries, ';' ∉ e.1.toList ∧ '=' ∉ e.1.toList := fun e he =>
    plain_of_mem_pluginKeys (hkeys e.1 (mem_map_of_mem he))
  have hparts : ∀ part ∈ plugin.options.entries.map
      (fun e => e.1.toList ++ '=' :: e.2.value.toList), ';' ∉ part := by
    intro part hpart
    obtain ⟨e, he, rfl⟩ := mem_map.mp hpart
    rw [mem_append, mem_cons]
    rintro (hmem | heq | hmem)
    · exact (hplain e he).1 hmem
    · exact absurd heq (by decide)
    · exact hvalues e he hmem
  rw [readOptions, toList_pluginOptions, splitOn_intercalate ';' hparts (by simpa using hne),
    map_map]
  apply map_congr_left
  intro e he
  rw [Function.comp_apply, splitOnce_append (hplain e he).2, Option.map_some, String.ofList_toList,
    String.ofList_toList]

def acceptedPlugin (uuids : UuidCrate) (spec : NodeSpec) (matrix : CapabilityMatrix) :
    Option PluginSpec :=
  match validateNodeSpec uuids spec matrix with
  | .error _ => none
  | .ok outcome =>
    match outcome.node.inner.credentials with
    | .shadowsocks _ _ plugin => plugin
    | _ => none

variable {uuids : UuidCrate} {matrix : CapabilityMatrix}

theorem exists_of_acceptedPlugin (h : acceptedPlugin uuids spec matrix = some plugin) :
    ∃ outcome method password, validateNodeSpec uuids spec matrix = .ok outcome ∧
      outcome.node.inner.credentials = .shadowsocks method password (some plugin) := by
  unfold acceptedPlugin at h
  split at h
  · cases h
  next outcome houtcome =>
    split at h
    next method password _ hcredentials =>
      rw [h] at hcredentials
      exact ⟨outcome, method, password, houtcome, hcredentials⟩
    · cases h

/-! ## Where the options come from -/

/-- A part of an option text put among the options read before it. -/
def insertOption (accepts : String → String → Bool) (options : SortedMap String String)
    (part : List Char) : Option (SortedMap String String) :=
  (splitOnce '=' part).bind fun p =>
    let key := String.ofList p.1
    let value := String.ofList p.2
    if accepts key value && (options.get? key).isNone then some (options.insert key value) else none

def parseUriPluginValue (value : String) :
    Except SemanticError (String × SortedMap String String) := do
  let parts := value.toList.splitOn ';'
  let name ← okOr (parts.head?.filter (!·.isEmpty)) .unsupportedSemantics
  let options ← okOr (parts.tail.foldlM
    (insertOption fun key value => key != "" && value != "") .empty) .unsupportedSemantics
  return (String.ofList name, options)

/-- `parse_plugin_options` of the sing-box adapter. -/
def parsePluginOptions (input : String) : Option (SortedMap String String) :=
  if input = "" then some .empty
  else
    (input.toList.splitOn ';').foldlM
      (insertOption fun key value => key != "" && key.utf8ByteSize ≤ 64 && value != "" &&
        value.utf8ByteSize ≤ 256) .empty

structure ClashPluginOptions where
  mode : Option String
  host : Option String
  path : Option String
  tls : Option Bool
  mux : Option UInt16
  unknown : List String

/-- What `clash_node_spec` does with the plugin of a node and its options. -/
def withClashPlugin (spec : NodeSpec) (plugin : Option String)
    (options : Option ClashPluginOptions) : NodeSpec :=
  let plugin := plugin.map fun plugin => if plugin = "obfs" then "obfs-local" else plugin
  let spec := { spec with plugin := plugin }
  match options with
  | none => spec
  | some options =>
    let obfs := plugin == some "obfs-local"
    { spec with
      pluginOptions := .collect
        ((options.mode.map fun mode => (if obfs then "obfs" else "mode", mode)).toList ++
         (options.host.map fun host => (if obfs then "obfs-host" else "host", host)).toList ++
         (options.path.map fun path => ("path", path)).toList ++
         (options.tls.map fun tls => ("tls", toString tls)).toList ++
         (options.mux.map fun mux => ("mux", toString mux.toNat)).toList)
      unknownCriticalField :=
        (options.unknown.head?.map ("plugin-opts." ++ ·)).or spec.unknownCriticalField }

/-- What `surfboard_node_spec` does with the field `obfs` or `obfs_host` of a Shadowsocks node. -/
def withSurfboardObfs (spec : NodeSpec) (key value : String) : NodeSpec :=
  { spec with
    plugin := some "obfs-local"
    pluginOptions := spec.pluginOptions.insert key value }

variable {accepts : String → String → Bool} {options options' : SortedMap String String}

theorem insertOption_plain {part : List Char}
    (hpart : ';' ∉ part) (hold : ∀ e ∈ options.entries, ';' ∉ e.2.toList)
    (h : insertOption accepts options part = some options') :
    ∀ e ∈ options'.entries, ';' ∉ e.2.toList := by
  obtain ⟨p, hp, h⟩ := Option.bind_eq_some_iff.mp h
  have hvalue : ';' ∉ p.2 := by
    have hsplit : part = p.1 ++ '=' :: p.2 := splitOnce_eq_some hp
    rw [hsplit, mem_append, mem_cons] at hpart
    exact fun hmem => hpart (.inr (.inr hmem))
  simp only at h
  split_ifs at h
  · cases h
    intro e he
    rcases mem_insertEntry he with rfl | he
    · simpa using hvalue
    · exact hold e he

theorem foldlM_insertOption_plain {parts : List (List Char)}
    (hparts : ∀ part ∈ parts, ';' ∉ part)
    (hold : ∀ e ∈ options.entries, ';' ∉ e.2.toList)
    (h : parts.foldlM (insertOption accepts) options = some options') :
    ∀ e ∈ options'.entries, ';' ∉ e.2.toList := by
  induction parts generalizing options with
  | nil =>
    cases h
    exact hold
  | cons part parts ih =>
    obtain ⟨next, hnext, h⟩ := Option.bind_eq_some_iff.mp h
    obtain ⟨hpart, hparts⟩ := forall_mem_cons.mp hparts
    exact ih hparts (insertOption_plain hpart hold hnext) h

variable {options : SortedMap String String}

/-- Options read from the plugin text of a link have no semicolon in them. -/
theorem parseUriPluginValue_plain {value name : String}
    (h : parseUriPluginValue value = .ok (name, options)) :
    ∀ e ∈ options.entries, ';' ∉ e.2.toList := by
  simp only [parseUriPluginValue, bind_eq_ok, okOr_eq_ok] at h
  obtain ⟨_, -, read, hread, h⟩ := h
  cases h
  refine foldlM_insertOption_plain (fun part hpart => ?_) (fun e he => absurd he not_mem_nil) hread
  exact not_mem_of_mem_splitOn (mem_of_mem_tail hpart)

/-- Options read from the `plugin_opts` of a sing-box outbound have no semicolon in them. -/
theorem parsePluginOptions_plain {input : String}
    (h : parsePluginOptions input = some options) : ∀ e ∈ options.entries, ';' ∉ e.2.toList := by
  unfold parsePluginOptions at h
  split_ifs at h
  · cases h
    exact fun e he => absurd he not_mem_nil
  · exact foldlM_insertOption_plain (fun part hpart => not_mem_of_mem_splitOn hpart)
      (fun e he => absurd he not_mem_nil) h

/-! ## What a plugin finds -/

/-- A plugin finds the options that were checked exactly when no value that was given has a
semicolon in it. -/
theorem readOptions_pluginOptions_iff {outcome : SemanticOutcome} {method : BoundedText 64}
    {password : SecretString} {plugin : PluginSpec}
    (h : validateNodeSpec uuids spec matrix = .ok outcome)
    (hcredentials : outcome.node.inner.credentials = .shadowsocks method password (some plugin)) :
    readOptions (pluginOptions plugin) =
        plugin.options.entries.map (fun e => some (e.1, e.2.value)) ↔
      ∀ value ∈ spec.pluginOptions.values, ';' ∉ value.toList := by
  have hmade := (makeCredentials_eq_ok (validateNodeSpec_eq_ok h).1.credentials).1
  rw [hcredentials] at hmade
  have hplugin : makePlugin spec = .ok (some plugin) := by
    generalize outcome.node.inner.protocol = protocol at hmade
    cases hmade with
    | shadowsocks _ hplugin _ => exact hplugin
  obtain ⟨hoptions, hkeys, hne⟩ := makePlugin_eq_ok hplugin
  have hentries : plugin.options.entries.map (fun e => (e.1, e.2.value)) =
      spec.pluginOptions.entries := congrArg entries hoptions
  have hsame : spec.pluginOptions.values = plugin.options.entries.map (·.2.value) := by
    rw [values, ← hentries, map_map]
    rfl
  have hsameKeys : spec.pluginOptions.keys = plugin.options.keys := by
    rw [SortedMap.keys, ← hentries, map_map]
    rfl
  rw [hsame, forall_mem_map]
  constructor
  · intro hread e he
    apply @not_mem_of_mem_readOptions (pluginOptions plugin) e.1
    rw [hread]
    exact mem_map_of_mem he
  · intro hvalues
    refine readOptions_pluginOptions (fun hempty => hne ?_) (hsameKeys ▸ hkeys) hvalues
    rw [← hentries, hempty]
    rfl

/-- The options that an adapter took from a text are the options the plugin takes from the text
it is handed. -/
theorem readOptions_of_parsed {input name : String}
    (hparsed : parseUriPluginValue input = .ok (name, spec.pluginOptions) ∨
      parsePluginOptions input = some spec.pluginOptions)
    (hplugin : makePlugin spec = .ok (some plugin)) :
    readOptions (pluginOptions plugin) = spec.pluginOptions.entries.map some := by
  have hplain : ∀ e ∈ spec.pluginOptions.entries, ';' ∉ e.2.toList := by
    rcases hparsed with huri | hoptions
    · exact parseUriPluginValue_plain huri
    · exact parsePluginOptions_plain hoptions
  obtain ⟨hsame, hkeys, hne⟩ := makePlugin_eq_ok hplugin
  rw [← hsame] at hplain hkeys hne ⊢
  have hentries : (plugin.options.mapValues (·.value)).entries =
      plugin.options.entries.map fun e => (e.1, e.2.value) := rfl
  rw [readOptions_pluginOptions, hentries, map_map]
  · rfl
  · exact fun hempty => hne (by rw [hentries, hempty]; rfl)
  · intro k hk
    refine hkeys k ?_
    rw [SortedMap.keys, hentries, map_map]
    exact hk
  · intro e he
    exact hplain (e.1, e.2.value) (hentries ▸ mem_map_of_mem he)

def parsedObfs : NodeSpec :=
  { NodeSpec.minimal "ss" "node.example" 443 with
    plugin := some "obfs-local"
    pluginOptions := (parsePluginOptions "obfs=http;obfs-host=a.com").getD .empty }

theorem parsedObfs_reads_back : ∃ plugin, makePlugin parsedObfs = .ok (some plugin) ∧
      readOptions (pluginOptions plugin) = parsedObfs.pluginOptions.entries.map some := by
  obtain ⟨plugin, hplugin⟩ : ∃ plugin, makePlugin parsedObfs = .ok (some plugin) := ⟨_, rfl⟩
  exact ⟨plugin, hplugin,
    @readOptions_of_parsed _ _ "obfs=http;obfs-host=a.com" "" (.inr rfl) hplugin⟩

/-- A Shadowsocks node of a Clash file that hides its traffic behind the given host. -/
def clashObfs (host : String) : NodeSpec :=
  withClashPlugin
    { NodeSpec.minimal "ss" "node.example" 443 with
      method := some "aes-128-gcm", password := some "secret" }
    (some "obfs")
    (some { mode := some "http", host := some host, path := none, tls := none, mux := none,
            unknown := [] })

/-- The same node as a line of a Surfboard profile. -/
def surfboardObfs (host : String) : NodeSpec :=
  withSurfboardObfs
    (withSurfboardObfs
      { NodeSpec.minimal "ss" "node.example" 443 with
        method := some "aes-128-gcm", password := some "secret" } "obfs" "http")
    "obfs-host" host

theorem clashObfs_reads_back : ∃ outcome method password plugin,
      validateNodeSpec plainUuids (clashObfs "edge.example") .default = .ok outcome ∧
        outcome.node.inner.credentials = .shadowsocks method password (some plugin) ∧
        readOptions (pluginOptions plugin) =
          plugin.options.entries.map fun e => some (e.1, e.2.value) := by
  have hsome : (acceptedPlugin plainUuids (clashObfs "edge.example") .default).isSome = true := by
    decide +kernel
  obtain ⟨plugin, hplugin⟩ := Option.isSome_iff_exists.mp hsome
  obtain ⟨outcome, method, password, houtcome, hcredentials⟩ := exists_of_acceptedPlugin hplugin
  exact ⟨outcome, method, password, plugin, houtcome, hcredentials,
    (readOptions_pluginOptions_iff houtcome hcredentials).mpr (by decide +kernel)⟩

/-- A host with a semicolon in it gives the plugin an option that was never checked. -/
theorem obfs_host_adds_option :
    [clashObfs "a.com;obfs=tls", surfboardObfs "a.com;obfs=tls"].Forall fun spec =>
      ∃ outcome method password plugin, validateNodeSpec plainUuids spec .default = .ok outcome ∧
        outcome.node.inner.credentials = .shadowsocks method password (some plugin) ∧
        plugin.options.entries.map (fun e => (e.1, e.2.value)) =
          [("obfs", "http"), ("obfs-host", "a.com;obfs=tls")] ∧ readOptions (pluginOptions plugin) =
          [some ("obfs", "http"), some ("obfs-host", "a.com"), some ("obfs", "tls")] := by
  have hplugins : ∀ spec ∈ [clashObfs "a.com;obfs=tls", surfboardObfs "a.com;obfs=tls"],
      (acceptedPlugin plainUuids spec .default).map (fun plugin =>
        (plugin.options.entries.map (fun e => (e.1, e.2.value)),
          readOptions (pluginOptions plugin))) =
        some ([("obfs", "http"), ("obfs-host", "a.com;obfs=tls")],
          [some ("obfs", "http"), some ("obfs-host", "a.com"), some ("obfs", "tls")]) := by
    decide +kernel
  refine forall_iff_forall_mem.mpr fun spec hspec => ?_
  obtain ⟨plugin, hplugin, hvalue⟩ := Option.map_eq_some_iff.mp (hplugins spec hspec)
  obtain ⟨outcome, method, password, houtcome, hcredentials⟩ := exists_of_acceptedPlugin hplugin
  exact ⟨outcome, method, password, plugin, houtcome, hcredentials, (Prod.ext_iff.mp hvalue).1,
    (Prod.ext_iff.mp hvalue).2⟩

end NetHop.Node

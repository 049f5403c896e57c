import EndpointAtlas.Settings.Resolved

/-!
Where the values of settings come from. Each layer gives values to some of the settings by rules of
its own, which are stated here apart from the layers themselves. The highest layer that gives a
value to a setting is the one that is recorded for it, and its value is the one the setting has.
-/

namespace EndpointAtlas

inductive SettingValue where
  | absent
  | text (text : String)
  | texts (items : List String)
  | switch (on : Bool)
  | path (path : Path)
  deriving DecidableEq, Repr

namespace SettingValue

def ofText? (text : Option String) : SettingValue := (text.map .text).getD .absent

def ofItems? (items : List String) : Option SettingValue :=
  if items = [] then none else some (.texts items)

/-- A switch that can only be turned on. -/
def ofSwitch? (on : Bool) : Option SettingValue := if on then some (.switch true) else none

end SettingValue

open SettingValue (ofText? ofItems? ofSwitch?)

def Settings.value (settings : Settings) : Setting → SettingValue
  | .module => ofText? settings.module
  | .inclusions => .texts settings.inclusions
  | .exclusions => .texts settings.exclusions
  | .includeTests => .switch settings.includeTests
  | .contextType => .text settings.contextType
  | .format => .text settings.format
  | .plugin => ofText? settings.plugin
  | .shell => .switch settings.shell
  | .output => (settings.output.map .path).getD .absent

def Setting.defaultValue : Setting → SettingValue
  | module | plugin | output => .absent
  | inclusions | exclusions => .texts []
  | includeTests | shell => .switch false
  | contextType => .text "context Context"
  | format => .text "json"

/-- What a file at a path gives. A relative output path is seen from the directory of the file. -/
def FileSettings.value? (path : Path) (file : FileSettings) : Setting → Option SettingValue
  | .module => file.module.map .text
  | .inclusions => ofItems? file.inclusions
  | .exclusions => ofItems? file.exclusions
  | .includeTests => file.includeTests.map .switch
  | .contextType => file.contextType.map .text
  | .format => file.format.map .text
  | .plugin => file.plugin.map .text
  | .shell => file.shell.map .switch
  | .output => file.output.map fun output =>
      .path (if output.isAbsolute then output else (path.parent?.getD ⟨""⟩).join output)

/-- What the variables give: the one of a setting sets it whenever it is there, a list to the
trimmed pieces between its commas that are not empty. -/
def Environment.value? (environment : Environment) (setting : Setting) : Option SettingValue :=
  let given := environment.get? setting.variableName
  match setting with
  | .module | .contextType | .format | .plugin => given.map .text
  | .inclusions | .exclusions => given.map fun text =>
      .texts ((((text.toList.splitOn ',').map Text.trim).filter (!·.isEmpty)).map String.ofList)
  | .includeTests => given.map fun text => .switch (isYes text)
  | .shell | .output => none

def Overrides.value? (overrides : Overrides) : Setting → Option SettingValue
  | .module => overrides.module.map .text
  | .inclusions => ofItems? overrides.inclusions
  | .exclusions => ofItems? overrides.exclusions
  | .includeTests => ofSwitch? overrides.includeTests
  | .contextType => overrides.contextType.map .text
  | .format => overrides.format.map fun format => .text format.name
  | .plugin => overrides.plugin.map .text
  | .shell => ofSwitch? overrides.shell
  | .output => overrides.output.map .path

inductive Origin where
  | default
  | userFile (path : Path) (file : FileSettings)
  | projectFile (path : Path) (file : FileSettings)
  | environment (given : Environment)
  | commandLine (overrides : Overrides)

namespace Origin

def value? : Origin → Setting → Option SettingValue
  | .default, setting => some setting.defaultValue
  | .userFile path file, setting | .projectFile path file, setting => file.value? path setting
  | .environment given, setting => given.value? setting
  | .commandLine overrides, setting => overrides.value? setting

def source : Origin → Setting → Source
  | .default, _ => .default
  | .userFile path _, _ => .userFile path
  | .projectFile path _, _ => .projectFile path
  | .environment _, setting => .environment setting.variableName
  | .commandLine _, setting => .commandLine setting.flag

end Origin

/-- Of some origins, the lowest first, the highest that gives a setting a value is recorded for it,
and the value is the one the setting has. -/
def Explains (origins : List Origin) (settings : Settings) : Prop :=
  ∀ setting, ∃ below origin above, origins = below ++ origin :: above ∧
    (∀ other ∈ above, other.value? setting = none) ∧
    origin.value? setting = some (settings.value setting) ∧
    settings.provenance.get? setting.name = some (origin.source setting)

inductive Consults (place : Place) (origin : Path → FileSettings → Origin) :
    Option Path → List Origin → Prop where
  | nothing : Consults place origin none []
  | file {path : Path} {text : String} {file : FileSettings}
      (held : place.text? path = some text) (read : FileSettings.read? text = some file) :
      Consults place origin (some path) [origin path file]

namespace Setting

theorem mem_all (setting : Setting) : setting ∈ all := by
  cases setting <;> decide

theorem name_injective {first second : Setting} (same : first.name = second.name) :
    first = second := by
  revert first second
  have checked : ∀ first ∈ all, ∀ second ∈ all, first.name = second.name → first = second := by
    decide
  intro first second
  exact checked first first.mem_all second second.mem_all

end Setting

namespace Layer

def value? (layer : Layer) : Setting → Option SettingValue
  | .module => layer.module.map .text
  | .inclusions => layer.inclusions.map .texts
  | .exclusions => layer.exclusions.map .texts
  | .includeTests => layer.includeTests.map .switch
  | .contextType => layer.contextType.map .text
  | .format => layer.format.map .text
  | .plugin => layer.plugin.map .text
  | .shell => layer.shell.map .switch
  | .output => layer.output.map .path

theorem sets_eq (layer : Layer) (setting : Setting) :
    layer.sets setting = (layer.value? setting).isSome := by
  cases setting <;> exact Option.isSome_map.symm

theorem map_given_list (items : List String) :
    (givenList items).map SettingValue.texts = ofItems? items := by
  unfold givenList ofItems?
  cases items <;> rfl

theorem map_given_switch (on : Bool) :
    (givenSwitch on).map SettingValue.switch = ofSwitch? on := by
  cases on <;> rfl

theorem beside_file_eq (path output : Path) :
    besideFile path output =
      if output.isAbsolute then output else (path.parent?.getD ⟨""⟩).join output := by
  unfold besideFile
  cases parent : path.parent? with
  | none => cases absolute : output.isAbsolute <;> simp [Path.join, absolute]
  | some directory => cases absolute : output.isAbsolute <;> simp [Path.join, absolute]

theorem value_of_file (path : Path) (file : FileSettings) (setting : Setting) :
    (ofFile path file).value? setting = FileSettings.value? path file setting := by
  cases setting with
  | inclusions => exact map_given_list _
  | exclusions => exact map_given_list _
  | output =>
      show (file.output.map (besideFile path)).map SettingValue.path = _
      rw [Option.map_map]
      simp only [FileSettings.value?, ← beside_file_eq]
      rfl
  | module | includeTests | contextType | format | plugin | shell => rfl

theorem value_of_environment (environment : Environment) (setting : Setting) :
    (ofEnvironment environment).value? setting = environment.value? setting := by
  cases setting with
  | inclusions | exclusions | includeTests => exact Option.map_map ..
  | module | contextType | format | plugin | shell | output => rfl

theorem value_of_overrides (overrides : Overrides) (setting : Setting) :
    (ofOverrides overrides).value? setting = overrides.value? setting := by
  cases setting with
  | inclusions | exclusions => exact map_given_list _
  | includeTests | shell => exact map_given_switch _
  | format => exact Option.map_map ..
  | module | contextType | plugin | output => rfl

end Layer

namespace Settings

variable {settings : Settings} {layer : Layer} {source : Setting → Source}

theorem get_record_layer (provenance : Provenance) (setting : Setting) :
    (recordLayer layer source provenance).get? setting.name =
      if layer.sets setting then some (source setting) else provenance.get? setting.name := by
  have within : ∀ (listed : List Setting) (provenance : Provenance),
      (listed.foldl (fun provenance setting => provenance.insert setting.name (source setting))
        provenance).get? setting.name =
          if setting ∈ listed then some (source setting) else provenance.get? setting.name := by
    intro listed
    induction listed with
    | nil => intro provenance; rfl
    | cons head rest ih =>
        intro provenance
        rw [List.foldl_cons, ih, Table.get_insert]
        by_cases later : setting ∈ rest
        · simp [later]
        · by_cases same : setting = head
          · simp [same]
          · have distinct : setting.name ≠ head.name :=
              fun names => same (Setting.name_injective names)
            simp [later, same, distinct]
  rw [recordLayer, within]
  simp [List.mem_filter, setting.mem_all]

theorem value_overlay (setting : Setting) :
    (settings.overlay layer source).value setting =
      (layer.value? setting).getD (settings.value setting) := by
  cases setting with
  | module => cases given : layer.module <;> simp [value, overlay, Layer.value?, given, ofText?]
  | plugin => cases given : layer.plugin <;> simp [value, overlay, Layer.value?, given, ofText?]
  | output => cases given : layer.output <;> simp [value, overlay, Layer.value?, given]
  | inclusions | exclusions | includeTests | contextType | format | shell =>
      exact (Option.getD_map _ _ _).symm

end Settings

namespace Explains

theorem default : Explains [.default] .default := by
  intro setting
  refine ⟨[], .default, [], rfl, by simp, ?_, ?_⟩
  · cases setting <;> rfl
  · cases setting <;> decide +kernel

theorem overlay {origins : List Origin} {settings : Settings}
    (explained : Explains origins settings) {layer : Layer} (origin : Origin)
    (gives : ∀ setting, layer.value? setting = origin.value? setting) :
    Explains (origins ++ [origin]) (settings.overlay layer origin.source) := by
  intro setting
  have recorded : (settings.overlay layer origin.source).provenance.get? setting.name =
      if layer.sets setting then some (origin.source setting)
      else settings.provenance.get? setting.name := Settings.get_record_layer _ _
  rw [Layer.sets_eq, gives] at recorded
  rw [recorded, Settings.value_overlay, gives]
  cases given : origin.value? setting with
  | some value => exact ⟨origins, origin, [], rfl, by simp, given, rfl⟩
  | none =>
      obtain ⟨below, lower, above, split, unset, has, known⟩ := explained setting
      refine ⟨below, lower, above ++ [origin], by simp [split], ?_, has, known⟩
      intro other member
      rcases List.mem_append.1 member with between | top
      · exact unset other between
      · exact List.mem_singleton.1 top ▸ given

end Explains

theorem load_file_eq_ok_iff {place : Place} {owner : ConfigOwner} {path : Path}
    {file : FileSettings} : loadFile place owner path = .ok file ↔
      ∃ text, place.text? path = some text ∧ FileSettings.read? text = some file := by
  unfold loadFile
  cases held : place.text? path with
  | none => simp
  | some text => cases read : FileSettings.read? text <;> simp [read]

theorem Explains.overlay_file {place : Place} {owner : ConfigOwner} {recorded : Path → Source}
    {path : Option Path} {origins : List Origin} {settings after : Settings}
    (explained : Explains origins settings) (origin : Path → FileSettings → Origin)
    (gives : ∀ path file setting, (origin path file).value? setting = file.value? path setting)
    (records : ∀ path file, (origin path file).source = fun _ => recorded path)
    (succeeds : settings.overlayFile place owner recorded path = .ok after) :
    ∃ own, Consults place origin path own ∧ Explains (origins ++ own) after := by
  cases path with
  | none =>
      obtain rfl := Except.ok.inj succeeds
      exact ⟨[], .nothing, by simpa using explained⟩
  | some path =>
      unfold Settings.overlayFile at succeeds
      cases loaded : loadFile place owner path with
      | error failure =>
          simp only [loaded] at succeeds
          cases succeeds
      | ok file =>
          simp only [loaded] at succeeds
          obtain rfl := Except.ok.inj succeeds
          obtain ⟨text, held, read⟩ := load_file_eq_ok_iff.1 loaded
          have overlaid := explained.overlay (origin path file) fun setting =>
            (Layer.value_of_file path file setting).trans (gives path file setting).symm
          rw [records] at overlaid
          exact ⟨_, .file held read, overlaid⟩

/-- Value and provenance of every setting come from the same layer: of the defaults, the file of the
user, that of the project, the environment and the command line the last one that sets it. -/
theorem explains_of_resolve {place : Place} {environment : Environment} {directory : Path}
    {userFile : Option Path} {overrides : Overrides} {settings : Settings}
    (succeeds : Settings.resolve place environment directory userFile overrides = .ok settings) :
    ∃ user project, Consults place .userFile (userFile.filter place.contains) user ∧
      Consults place .projectFile (projectFilePath? place directory) project ∧
        Explains (.default :: user ++ project ++
          [.environment environment, .commandLine overrides]) settings := by
  unfold Settings.resolve at succeeds
  cases first : Settings.default.overlayFile place .user .userFile
      (userFile.filter place.contains) with
  | error failure =>
      rw [first] at succeeds
      cases succeeds
  | ok below =>
      cases second : below.overlayFile place .project .projectFile
          (projectFilePath? place directory) with
      | error failure =>
          simp only [first, bind, Except.bind, second] at succeeds
          cases succeeds
      | ok files =>
          simp only [first, bind, Except.bind, second] at succeeds
          obtain rfl := Except.ok.inj succeeds
          obtain ⟨user, consultsUser, byUser⟩ :=
            Explains.default.overlay_file .userFile (fun _ _ _ => rfl) (fun _ _ => rfl) first
          obtain ⟨project, consultsProject, byFiles⟩ :=
            byUser.overlay_file .projectFile (fun _ _ _ => rfl) (fun _ _ => rfl) second
          have byVariables := byFiles.overlay (.environment environment)
            (Layer.value_of_environment environment)
          have byOverrides := byVariables.overlay (.commandLine overrides)
            (Layer.value_of_overrides overrides)
          refine ⟨user, project, consultsUser, consultsProject, ?_⟩
          rwa [List.append_assoc] at byOverrides

def layeredUserText : String :=
  "[analysis]\nexclude = [\"a\"]\n[generate]\nplugin = \"u\"\nshell = true\n"

def layeredProjectText : String :=
  "[analysis]\nexclude = []\n[generate]\nplugin = \"p\"\noutput = \"out\"\n"

def layeredPlace : Place where
  tree := ⟨[([".restc.toml"], .file (Text.Glyph.ofString layeredProjectText) false),
    (["home"], .directory),
    (["home", "u.toml"], .file (Text.Glyph.ofString layeredUserText) false),
    (["work"], .directory)], by decide⟩
  working := []

def layeredEnvironment : Environment :=
  .ofList [("RESTC_INCLUDE", " x , ,y"), ("RESTC_FORMAT", "xml")]

/-- Every layer sets something there, and something that a lower layer sets as well. -/
theorem explains_layered_place : ∃ settings,
    Settings.resolve layeredPlace layeredEnvironment ⟨"/work"⟩ (some ⟨"/home/u.toml"⟩)
      { format := some .text } = .ok settings ∧
    ∃ user project,
      Consults layeredPlace .userFile (some ⟨"/home/u.toml"⟩) user ∧
      Consults layeredPlace .projectFile (some ⟨"/.restc.toml"⟩) project ∧
      Explains (.default :: user ++ project ++
        [.environment layeredEnvironment, .commandLine { format := some .text }]) settings := by
  have user : (some ⟨"/home/u.toml"⟩ : Option Path).filter layeredPlace.contains =
      some ⟨"/home/u.toml"⟩ := by decide +kernel
  have project : projectFilePath? layeredPlace ⟨"/work"⟩ = some ⟨"/.restc.toml"⟩ := by
    decide +kernel
  have userLoads : loadFile layeredPlace .user ⟨"/home/u.toml"⟩ =
      .ok ⟨none, [], ["a"], none, none, none, some "u", some true, none⟩ :=
    load_file_eq_ok_iff.2 ⟨layeredUserText, by decide +kernel, by decide +kernel⟩
  have projectLoads : loadFile layeredPlace .project ⟨"/.restc.toml"⟩ =
      .ok ⟨none, [], [], none, none, none, some "p", none, some ⟨"out"⟩⟩ :=
    load_file_eq_ok_iff.2 ⟨layeredProjectText, by decide +kernel, by decide +kernel⟩
  have resolves : ∃ settings, Settings.resolve layeredPlace layeredEnvironment ⟨"/work"⟩
      (some ⟨"/home/u.toml"⟩) { format := some .text } = .ok settings := by
    simp only [Settings.resolve, Settings.overlayFile, user, project, userLoads, projectLoads]
    exact ⟨_, rfl⟩
  obtain ⟨settings, succeeds⟩ := resolves
  have explained := explains_of_resolve succeeds
  rw [user, project] at explained
  exact ⟨settings, succeeds, explained⟩

end EndpointAtlas

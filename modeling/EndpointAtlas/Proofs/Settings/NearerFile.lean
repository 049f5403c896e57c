import Mathlib
import EndpointAtlas.Proofs.Settings.Origins

/-!
What a configuration file says of a setting, and when that outweighs the files below it. A key that
occurs in the file of a project gives its setting the value and the source, whatever the file of the
user says, exactly if it does not hold an empty list. With an empty list the setting stays as the
lower layers leave it.
-/

namespace EndpointAtlas

namespace Setting

def sectionName : Setting → String
  | module | inclusions | exclusions | includeTests | contextType => "analysis"
  | format => "output"
  | plugin | shell | output => "generate"

def keyName : Setting → String
  | module => "module"
  | inclusions => "include"
  | exclusions => "exclude"
  | includeTests => "include_tests"
  | contextType => "context_type"
  | format => "format"
  | plugin => "plugin"
  | shell => "shell"
  | output => "output"

/-- The place of a setting in a section that is written as the list of its values. -/
def rank : Setting → Nat
  | module | format | plugin => 0
  | inclusions | shell => 1
  | exclusions | output => 2
  | includeTests => 3
  | contextType => 4

def siblings (setting : Setting) : List String :=
  (all.filter (·.sectionName == setting.sectionName)).map keyName

theorem nodup_siblings (setting : Setting) : setting.siblings.Nodup := by
  cases setting <;> decide

theorem siblings_rank (setting : Setting) :
    setting.siblings[setting.rank]? = some setting.keyName := by
  cases setting <;> decide

/-- The value that stands in a file at a path for a setting, if it is of the right type. A relative
output path is seen from the directory of the file. -/
def meaning? (path : Path) : Setting → Toml.Value → Option SettingValue
  | module, .text text | contextType, .text text | format, .text text | plugin, .text text =>
      some (.text text)
  | inclusions, .list items | exclusions, .list items =>
      (items.mapM FileSettings.itemText?).map .texts
  | includeTests, .flag on | shell, .flag on => some (.switch on)
  | output, .text text =>
      some (.path (if (Path.mk text).isAbsolute then ⟨text⟩
        else (path.parent?.getD ⟨""⟩).join ⟨text⟩))
  | _, _ => none

end Setting

inductive MentionsSetting (document : Toml.Entries) (setting : Setting)
    (value : Toml.Value) : Prop where
  | keyed {origin : Toml.Origin} {entries : Toml.Entries}
      (found : document.lookup setting.sectionName = some (.table origin entries))
      (given : entries.lookup setting.keyName = some value)
  | listed {items : List Toml.Value}
      (found : document.lookup setting.sectionName = some (.list items))
      (given : items[setting.rank]? = some value)

namespace FileSettings

section

variable {entries : Toml.Entries} {key : String} {value : Toml.Value}

theorem lookup_zip {names : List String} {items : List Toml.Value} {index : Nat}
    (distinct : names.Nodup) (name : names[index]? = some key) (item : items[index]? = some value) :
    (names.zip items).lookup key = some value := by
  induction names generalizing items index with
  | nil => simp at name
  | cons first others ih =>
      obtain ⟨fresh, distinct⟩ := List.nodup_cons.1 distinct
      cases items with
      | nil => simp at item
      | cons head rest =>
          rw [List.zip_cons_cons]
          cases index with
          | zero =>
              obtain rfl := Option.some.inj name
              obtain rfl := Option.some.inj item
              exact List.lookup_cons_self
          | succ index =>
              rw [List.getElem?_cons_succ] at name item
              have other : key ≠ first := fun same => fresh (same ▸ List.mem_of_getElem? name)
              rw [List.lookup_cons, beq_eq_false_iff_ne.2 other]
              exact ih distinct name item

theorem lookup_of_section {document : Toml.Entries} {setting : Setting}
    (read : section? document setting.sectionName setting.siblings = some entries)
    (mentioned : MentionsSetting document setting value) :
    entries.lookup setting.keyName = some value := by
  unfold section? at read
  cases mentioned with
  | keyed found given =>
      simp only [found, sectionEntries?] at read
      split at read
      · obtain rfl := Option.some.inj read
        exact given
      · cases read
  | listed found given =>
      simp only [found, sectionEntries?] at read
      split at read
      · cases read
      · obtain rfl := Option.some.inj read
        exact lookup_zip setting.nodup_siblings setting.siblings_rank given

theorem eq_text_of_text {text : Option String} (read : text? entries key = some text)
    (given : entries.lookup key = some value) : ∃ own, value = .text own ∧ text = some own := by
  unfold text? at read
  rw [given] at read
  split at read <;> simp_all

theorem eq_flag_of_flag {flag : Option Bool} (read : flag? entries key = some flag)
    (given : entries.lookup key = some value) : ∃ own, value = .flag own ∧ flag = some own := by
  unfold flag? at read
  rw [given] at read
  split at read <;> simp_all

theorem eq_list_of_texts {texts : List String} (read : texts? entries key = some texts)
    (given : entries.lookup key = some value) :
    ∃ items, value = .list items ∧ items.mapM itemText? = some texts := by
  unfold texts? at read
  rw [given] at read
  split at read <;> simp_all

end

theorem eq_nil_iff_of_map_m {items : List Toml.Value} {texts : List String}
    (read : items.mapM itemText? = some texts) : texts = [] ↔ items = [] := by
  cases items with
  | nil => simp_all
  | cons head rest =>
      simp only [List.mapM_cons, Option.bind_eq_bind, Option.bind_eq_some_iff,
        Option.pure_def] at read
      obtain ⟨_, _, _, _, same⟩ := read
      obtain rfl := Option.some.inj same
      simp

/-- What a file gives for a setting is what its key stands for, unless that is an empty list. -/
def Gives (path : Path) (file : FileSettings) (setting : Setting) (value : Toml.Value) : Prop :=
  ∃ given, setting.meaning? path value = some given ∧
    (value = .list [] → file.value? path setting = none) ∧
    (value ≠ .list [] → file.value? path setting = some given)

section

variable {path : Path} {file : FileSettings} {setting : Setting} {value : Toml.Value}

theorem gives_of_meaning {given : SettingValue} (meant : setting.meaning? path value = some given)
    (single : value ≠ .list []) (held : file.value? path setting = some given) :
    Gives path file setting value :=
  ⟨given, meant, fun empty => absurd empty single, fun _ => held⟩

theorem gives_of_items {items : List Toml.Value} {texts : List String}
    (read : items.mapM itemText? = some texts)
    (meant : setting.meaning? path (.list items) = (items.mapM itemText?).map .texts)
    (held : file.value? path setting = SettingValue.ofItems? texts) :
    Gives path file setting (.list items) := by
  refine ⟨.texts texts, by rw [meant, read]; rfl, fun empty => ?_, fun filled => ?_⟩
  · have none : texts = [] := (eq_nil_iff_of_map_m read).2 (Toml.Value.list.inj empty)
    rw [held, SettingValue.ofItems?, if_pos none]
  · have some : texts ≠ [] := fun empty => filled (congrArg _ ((eq_nil_iff_of_map_m read).1 empty))
    rw [held, SettingValue.ofItems?, if_neg some]

theorem gives_of_mentions {document : Toml.Entries} (read : ofEntries? document = some file)
    (mentioned : MentionsSetting document setting value) : Gives path file setting value := by
  obtain ⟨-, -, read⟩ := Option.bind_eq_some_iff.1 read
  obtain ⟨analysis, inAnalysis, read⟩ := Option.bind_eq_some_iff.1 read
  obtain ⟨output, inOutput, read⟩ := Option.bind_eq_some_iff.1 read
  obtain ⟨generate, inGenerate, read⟩ := Option.bind_eq_some_iff.1 read
  obtain ⟨module, readModule, read⟩ := Option.bind_eq_some_iff.1 read
  obtain ⟨inclusions, readInclusions, read⟩ := Option.bind_eq_some_iff.1 read
  obtain ⟨exclusions, readExclusions, read⟩ := Option.bind_eq_some_iff.1 read
  obtain ⟨includeTests, readTests, read⟩ := Option.bind_eq_some_iff.1 read
  obtain ⟨contextType, readContext, read⟩ := Option.bind_eq_some_iff.1 read
  obtain ⟨format, readFormat, read⟩ := Option.bind_eq_some_iff.1 read
  obtain ⟨plugin, readPlugin, read⟩ := Option.bind_eq_some_iff.1 read
  obtain ⟨shell, readShell, read⟩ := Option.bind_eq_some_iff.1 read
  obtain ⟨path, readPath, read⟩ := Option.bind_eq_some_iff.1 read
  obtain rfl := Option.some.inj read
  cases setting with
  | module =>
      obtain ⟨own, rfl, rfl⟩ := eq_text_of_text readModule (lookup_of_section inAnalysis mentioned)
      exact gives_of_meaning rfl nofun rfl
  | inclusions =>
      obtain ⟨items, rfl, texts⟩ :=
        eq_list_of_texts readInclusions (lookup_of_section inAnalysis mentioned)
      exact gives_of_items texts rfl rfl
  | exclusions =>
      obtain ⟨items, rfl, texts⟩ :=
        eq_list_of_texts readExclusions (lookup_of_section inAnalysis mentioned)
      exact gives_of_items texts rfl rfl
  | includeTests =>
      obtain ⟨own, rfl, rfl⟩ := eq_flag_of_flag readTests (lookup_of_section inAnalysis mentioned)
      exact gives_of_meaning rfl nofun rfl
  | contextType =>
      obtain ⟨own, rfl, rfl⟩ := eq_text_of_text readContext (lookup_of_section inAnalysis mentioned)
      exact gives_of_meaning rfl nofun rfl
  | format =>
      obtain ⟨own, rfl, rfl⟩ := eq_text_of_text readFormat (lookup_of_section inOutput mentioned)
      exact gives_of_meaning rfl nofun rfl
  | plugin =>
      obtain ⟨own, rfl, rfl⟩ := eq_text_of_text readPlugin (lookup_of_section inGenerate mentioned)
      exact gives_of_meaning rfl nofun rfl
  | shell =>
      obtain ⟨own, rfl, rfl⟩ := eq_flag_of_flag readShell (lookup_of_section inGenerate mentioned)
      exact gives_of_meaning rfl nofun rfl
  | output =>
      obtain ⟨own, rfl, rfl⟩ := eq_text_of_text readPath (lookup_of_section inGenerate mentioned)
      exact gives_of_meaning rfl nofun rfl

end

end FileSettings

namespace Settings

def standing (settings : Settings) (setting : Setting) : SettingValue × Option Source :=
  (settings.value setting, settings.provenance.get? setting.name)

theorem standing_overlay (settings : Settings) (layer : Layer) (source : Setting → Source)
    (setting : Setting) : (settings.overlay layer source).standing setting =
      match layer.value? setting with
      | some value => (value, some (source setting))
      | none => settings.standing setting := by
  have recorded : (settings.overlay layer source).provenance.get? setting.name =
      if layer.sets setting then some (source setting)
      else settings.provenance.get? setting.name := get_record_layer _ _
  rw [Layer.sets_eq] at recorded
  rw [standing, recorded, value_overlay]
  cases given : layer.value? setting <;> rfl

theorem standing_overlay_of_none {settings : Settings} {layer : Layer} {source : Setting → Source}
    {setting : Setting} (unset : layer.value? setting = none) :
    (settings.overlay layer source).standing setting = settings.standing setting := by
  rw [standing_overlay, unset]

theorem standing_default (setting : Setting) :
    Settings.default.standing setting = (setting.defaultValue, some .default) := by
  cases setting <;> decide +kernel

def withFile (settings : Settings) (source : Path → Source) (path : Path) (file : FileSettings) :
    Settings :=
  { settings.overlay (.ofFile path file) fun _ => source path with
    loadedFiles := settings.loadedFiles ++ [path] }

theorem standing_with_file (settings : Settings) (source : Path → Source) (path : Path)
    (file : FileSettings) (setting : Setting) :
    (settings.withFile source path file).standing setting =
      match file.value? path setting with
      | some value => (value, some (source path))
      | none => settings.standing setting := by
  rw [← Layer.value_of_file]
  exact standing_overlay settings (.ofFile path file) (fun _ => source path) setting

theorem overlay_file_of_load {settings : Settings} {place : Place} {owner : ConfigOwner}
    {source : Path → Source} {path : Path} {file : FileSettings}
    (loaded : loadFile place owner path = .ok file) :
    settings.overlayFile place owner source (some path) =
      .ok (settings.withFile source path file) := by
  simp only [overlayFile, loaded]
  rfl

end Settings

def UserFileReads (place : Place) (userFile : Option Path) : Prop :=
  ∀ path, userFile.filter place.contains = some path →
    ∃ text file, place.text? path = some text ∧ FileSettings.read? text = some file

namespace Settings

theorem exists_overlay_file_user {place : Place} {userFile : Option Path}
    (reads : UserFileReads place userFile) : ∃ below,
      Settings.default.overlayFile place .user .userFile (userFile.filter place.contains) =
        .ok below ∧
      ∀ setting path, (below.standing setting).2 ≠ some (.projectFile path) := by
  cases there : userFile.filter place.contains with
  | none =>
      refine ⟨.default, rfl, fun setting path => ?_⟩
      rw [standing_default]
      nofun
  | some path =>
      obtain ⟨text, file, held, read⟩ := reads path there
      refine ⟨_, overlay_file_of_load (load_file_eq_ok_iff.2 ⟨text, held, read⟩),
        fun setting other => ?_⟩
      rw [standing_with_file, standing_default]
      cases file.value? path setting <;> nofun

theorem resolve_eq {place : Place} {environment : Environment} {directory : Path}
    {userFile : Option Path} {overrides : Overrides} {below : Settings} {path : Path}
    {file : FileSettings}
    (lower : Settings.default.overlayFile place .user .userFile (userFile.filter place.contains) =
      .ok below)
    (nearest : projectFilePath? place directory = some path)
    (loaded : loadFile place .project path = .ok file) :
    resolve place environment directory userFile overrides =
      .ok (((below.withFile .projectFile path file).overlay (.ofEnvironment environment)
        fun setting => .environment setting.variableName).overlay (.ofOverrides overrides)
          fun setting => .commandLine setting.flag) := by
  simp only [resolve, lower, nearest, bind, Except.bind, overlay_file_of_load loaded]
  rfl

end Settings

/-- If the file of the project and that of the user, if there is one, can be read, there are settings.
Each key that occurs in the file of the project, and for whose setting there is neither a variable
nor a flag, stands for a value there; it decides the value and the source of the setting exactly if
it does not hold an empty list, and with an empty list the setting stays as the defaults and the file
of the user leave it. -/
theorem standing_of_mentions {place : Place} {environment : Environment} {directory path : Path}
    {userFile : Option Path} {overrides : Overrides} {text : String} {document : Toml.Entries}
    {file : FileSettings} (userReads : UserFileReads place userFile)
    (nearest : projectFilePath? place directory = some path)
    (held : place.text? path = some text) (parsed : Toml.read? text = some document)
    (read : FileSettings.ofEntries? document = some file) :
    ∃ below settings,
      Settings.default.overlayFile place .user .userFile (userFile.filter place.contains) =
        .ok below ∧
      Settings.resolve place environment directory userFile overrides = .ok settings ∧
      ∀ setting value, MentionsSetting document setting value →
        environment.value? setting = none → overrides.value? setting = none →
          ∃ given, setting.meaning? path value = some given ∧
            (settings.standing setting = (given, some (.projectFile path)) ↔ value ≠ .list []) ∧
            (value = .list [] → settings.standing setting = below.standing setting) := by
  obtain ⟨below, lower, foreign⟩ := Settings.exists_overlay_file_user userReads
  have loaded : loadFile place .project path = .ok file :=
    load_file_eq_ok_iff.2 ⟨text, held, by rw [FileSettings.read?, parsed]; exact read⟩
  refine ⟨below, _, lower, Settings.resolve_eq lower nearest loaded, ?_⟩
  intro setting value mentioned noVariable noFlag
  have gives : FileSettings.Gives path file setting value :=
    FileSettings.gives_of_mentions read mentioned
  obtain ⟨given, meant, ofEmpty, ofFilled⟩ := gives
  rw [← Layer.value_of_environment] at noVariable
  rw [← Layer.value_of_overrides] at noFlag
  rw [Settings.standing_overlay_of_none noFlag, Settings.standing_overlay_of_none noVariable,
    Settings.standing_with_file]
  have kept (empty : value = .list []) :
      (match file.value? path setting with
        | some value => (value, some (.projectFile path))
        | none => below.standing setting) = below.standing setting := by rw [ofEmpty empty]
  refine ⟨given, meant, ⟨fun decided empty => ?_, fun filled => by rw [ofFilled filled]⟩, kept⟩
  rw [kept empty] at decided
  exact foreign setting path (congrArg Prod.snd decided)

def layeredProjectDocument : Toml.Entries :=
  [("analysis", .table .header [("exclude", .list [])]),
    ("generate", .table .header [("plugin", .text "p"), ("output", .text "out")])]

theorem read_layered_project_text :
    Toml.read? layeredProjectText = some layeredProjectDocument := by
  cbv

theorem nearest_layered_place :
    projectFilePath? layeredPlace ⟨"/work"⟩ = some ⟨"/.restc.toml"⟩ := by
  decide +kernel

theorem user_file_reads_layered_place : UserFileReads layeredPlace (some ⟨"/home/u.toml"⟩) := by
  intro path there
  obtain rfl : (⟨"/home/u.toml"⟩ : Path) = path := by
    have kept : (some ⟨"/home/u.toml"⟩ : Option Path).filter layeredPlace.contains =
      some ⟨"/home/u.toml"⟩ := by decide +kernel
    exact Option.some.inj (kept.symm.trans there)
  exact ⟨layeredUserText, ⟨none, [], ["a"], none, none, none, some "u", some true, none⟩,
    by decide +kernel, by decide +kernel⟩

/-- The file of the project there decides the generator over the file of the user, and its empty list
leaves the exclusions of the user. -/
theorem standing_layered_place : ∃ below settings,
    Settings.default.overlayFile layeredPlace .user .userFile
      ((some ⟨"/home/u.toml"⟩ : Option Path).filter layeredPlace.contains) = .ok below ∧
    Settings.resolve layeredPlace .empty ⟨"/work"⟩ (some ⟨"/home/u.toml"⟩) {} = .ok settings ∧
    settings.standing .plugin = (.text "p", some (.projectFile ⟨"/.restc.toml"⟩)) ∧
    settings.standing .exclusions = below.standing .exclusions := by
  have read : FileSettings.ofEntries? layeredProjectDocument =
      some ⟨none, [], [], none, none, none, some "p", none, some ⟨"out"⟩⟩ := by decide +kernel
  obtain ⟨below, settings, lower, succeeds, stands⟩ :=
    @standing_of_mentions _ .empty _ _ _ {} _ _ _ user_file_reads_layered_place
      nearest_layered_place (by decide +kernel) read_layered_project_text read
  refine ⟨below, settings, lower, succeeds, ?_, ?_⟩
  · obtain ⟨given, meant, decides, -⟩ :=
      stands .plugin (.text "p") (.keyed (by rfl) (by rfl)) rfl rfl
    obtain rfl := Option.some.inj meant
    exact decides.2 nofun
  · obtain ⟨given, meant, -, kept⟩ :=
      stands .exclusions (.list []) (.keyed (by rfl) (by rfl)) rfl rfl
    exact kept rfl

/-- The exclusions are a key of the project file there, with an empty list, and yet those of the user
count. -/
theorem not_decided_layered_place : ∃ document settings,
    Toml.read? layeredProjectText = some document ∧
    MentionsSetting document .exclusions (.list []) ∧
    Settings.resolve layeredPlace .empty ⟨"/work"⟩ (some ⟨"/home/u.toml"⟩) {} = .ok settings ∧
    settings.standing .exclusions = (.texts ["a"], some (.userFile ⟨"/home/u.toml"⟩)) := by
  have user : (some ⟨"/home/u.toml"⟩ : Option Path).filter layeredPlace.contains =
      some ⟨"/home/u.toml"⟩ := by decide +kernel
  have userLoads : loadFile layeredPlace .user ⟨"/home/u.toml"⟩ =
      .ok ⟨none, [], ["a"], none, none, none, some "u", some true, none⟩ :=
    load_file_eq_ok_iff.2 ⟨layeredUserText, by decide +kernel, by decide +kernel⟩
  have projectLoads : loadFile layeredPlace .project ⟨"/.restc.toml"⟩ =
      .ok ⟨none, [], [], none, none, none, some "p", none, some ⟨"out"⟩⟩ :=
    load_file_eq_ok_iff.2 ⟨layeredProjectText, by decide +kernel, by decide +kernel⟩
  refine ⟨_, _, read_layered_project_text, .keyed (by rfl) (by rfl),
    Settings.resolve_eq (user ▸ Settings.overlay_file_of_load userLoads) nearest_layered_place
      projectLoads, ?_⟩
  decide +kernel

end EndpointAtlas

import EndpointAtlas.CommandLine.Run
import EndpointAtlas.Proofs.CommandLine.Starting
import EndpointAtlas.Proofs.Document.ReadBack

/-!
The two commands that analyze a project. They read the flags they share alike, and what else they
are given is of no matter to the analysis. So they come to the same document, which one of them
writes and the other hands to the generator if that starts, or they fail alike before that.
-/

namespace EndpointAtlas

def Overrides.analysis (overrides : Overrides) : Overrides where
  module := overrides.module
  inclusions := overrides.inclusions
  exclusions := overrides.exclusions
  includeTests := overrides.includeTests
  contextType := overrides.contextType

namespace Settings

def belowCommandLine (place : Place) (environment : Environment) (directory : Path)
    (userFile : Option Path) : Except Failure Settings := do
  let settings ←
    Settings.default.overlayFile place .user .userFile (userFile.filter place.contains)
  let settings ←
    settings.overlayFile place .project .projectFile (projectFilePath? place directory)
  return settings.overlay (.ofEnvironment environment) fun setting =>
    .environment setting.variableName

def withOverrides (settings : Settings) (overrides : Overrides) : Settings :=
  settings.overlay (.ofOverrides overrides) fun setting => .commandLine setting.flag

theorem resolve_eq_map (place : Place) (environment : Environment) (directory : Path)
    (userFile : Option Path) (overrides : Overrides) :
    resolve place environment directory userFile overrides =
      (belowCommandLine place environment directory userFile).map (·.withOverrides overrides) := by
  unfold resolve belowCommandLine
  cases Settings.default.overlayFile place .user .userFile (userFile.filter place.contains) with
  | error failure => rfl
  | ok below =>
      show (below.overlayFile place .project .projectFile (projectFilePath? place directory) >>= _)
        = Except.map _ (below.overlayFile place .project .projectFile
          (projectFilePath? place directory) >>= _)
      cases below.overlayFile place .project .projectFile (projectFilePath? place directory) <;> rfl

/-- Overrides that are the same for the analysis lead to the same options. -/
theorem analysis_options_with_overrides {first second : Overrides}
    (same : first.analysis = second.analysis) (settings : Settings) :
    (settings.withOverrides first).analysisOptions =
      (settings.withOverrides second).analysisOptions := by
  have fields := Overrides.mk.inj same
  unfold analysisOptions withOverrides overlay Layer.ofOverrides
  simp only [fields]

end Settings

theorem OutputFormat.of_name_name (format : OutputFormat) : ofName? format.name = some format := by
  cases format <;> decide +kernel

namespace CommandLine

open Text

namespace Act

variable {α β : Type}

theorem of_except_ok_bind (value : α) (next : α → Act β) :
    (ofExcept (.ok value) >>= next) = next value := rfl

theorem bind_of_ok {step : Act α} {effects after : Effects} {value : α} (next : α → Act β)
    (ran : step effects = .ok value after) : (step >>= next) effects = next value after := by
  show EStateM.bind step next effects = _
  rw [EStateM.bind, ran]

theorem bind_of_error {step : Act α} {effects after : Effects} {failure : Failure}
    (next : α → Act β) (ran : step effects = .error failure after) :
    (step >>= next) effects = .error failure after := by
  show EStateM.bind step next effects = _
  rw [EStateM.bind, ran]

end Act

namespace Host

variable {host : Host} {path : Option Path} {overrides other : Overrides}

/-- A command gets as far as a document: it has the root of the project and the settings for it, and
the analysis succeeds. -/
structure Documents (host : Host) (path : Option Path) (overrides : Overrides) (root : Path)
    (settings : Settings) (document : Document) (warnings : List Warning) : Prop where
  found : host.projectRoot path = .ok root
  resolved : host.settings root overrides = .ok settings
  analyzed : ∃ options, settings.analysisOptions host.place.tree root = .ok options ∧
    EndpointAtlas.analyze host.place.tree options = (.ok document, warnings)

/-- A command does not get as far as a document: there is no root, the settings are refused, the
module or the type of contexts is not known, or the analysis fails. -/
inductive Fails (host : Host) (path : Option Path) (overrides : Overrides) :
    Failure → List Warning → Prop where
  | root {failure : Failure} (lost : host.projectRoot path = .error failure) :
      Fails host path overrides failure []
  | settings {root : Path} {failure : Failure} (found : host.projectRoot path = .ok root)
      (refused : host.settings root overrides = .error failure) :
      Fails host path overrides failure []
  | options {root : Path} {settings : Settings} {failure : Failure}
      (found : host.projectRoot path = .ok root)
      (resolved : host.settings root overrides = .ok settings)
      (refused : settings.analysisOptions host.place.tree root = .error failure) :
      Fails host path overrides failure []
  | analysis {root : Path} {settings : Settings} {options : AnalysisOptions} {failure : Failure}
      {warnings : List Warning} (found : host.projectRoot path = .ok root)
      (resolved : host.settings root overrides = .ok settings)
      (prepared : settings.analysisOptions host.place.tree root = .ok options)
      (failed : EndpointAtlas.analyze host.place.tree options = (.error failure, warnings)) :
      Fails host path overrides failure warnings

theorem documents_or_fails (host : Host) (path : Option Path) (overrides : Overrides) :
    (∃ root settings document warnings,
      Documents host path overrides root settings document warnings) ∨
        ∃ failure warnings, Fails host path overrides failure warnings := by
  cases found : host.projectRoot path with
  | error failure => exact .inr ⟨failure, [], .root found⟩
  | ok root =>
      cases resolved : host.settings root overrides with
      | error failure => exact .inr ⟨failure, [], .settings found resolved⟩
      | ok settings =>
          cases prepared : settings.analysisOptions host.place.tree root with
          | error failure => exact .inr ⟨failure, [], .options found resolved prepared⟩
          | ok options =>
              cases analyzed : EndpointAtlas.analyze host.place.tree options with
              | mk result warnings =>
                  cases result with
                  | ok document =>
                      exact .inl ⟨root, settings, document, warnings, found, resolved, options,
                        prepared, analyzed⟩
                  | error failure =>
                      exact .inr ⟨failure, warnings, .analysis found resolved prepared analyzed⟩

section

variable {root : Path} {settings : Settings} {document : Document} {failure : Failure}
  {warnings : List Warning}

/-- The settings for a directory are refused whatever the overrides are, or for none. -/
theorem settings_cases (host : Host) (root : Path) :
    (∃ failure, ∀ overrides, host.settings root overrides = .error failure) ∨
      ∃ lower : Settings, ∀ overrides,
        host.settings root overrides = .ok (lower.withOverrides overrides) := by
  unfold Host.settings
  simp only [Settings.resolve_eq_map]
  cases Settings.belowCommandLine host.place host.environment root
      (userFilePath? host.environment) with
  | error failure => exact .inl ⟨failure, fun _ => rfl⟩
  | ok lower => exact .inr ⟨lower, fun _ => rfl⟩

theorem settings_refused (other : Overrides)
    (refused : host.settings root overrides = .error failure) :
    host.settings root other = .error failure := by
  rcases host.settings_cases root with ⟨cause, always⟩ | ⟨lower, resolves⟩
  · rw [always] at refused ⊢
    exact refused
  · rw [resolves] at refused
    cases refused

theorem settings_resolved (resolved : host.settings root overrides = .ok settings) :
    ∃ lower : Settings, settings = lower.withOverrides overrides ∧
      ∀ other, host.settings root other = .ok (lower.withOverrides other) := by
  rcases host.settings_cases root with ⟨failure, always⟩ | ⟨lower, resolves⟩
  · rw [always] at resolved
    cases resolved
  · rw [resolves] at resolved
    exact ⟨lower, (Except.ok.inj resolved).symm, resolves⟩

theorem settings_alike (same : overrides.analysis = other.analysis)
    (resolved : host.settings root overrides = .ok settings) :
    ∃ others, host.settings root other = .ok others ∧
      others.analysisOptions = settings.analysisOptions := by
  obtain ⟨lower, rfl, resolves⟩ := settings_resolved resolved
  exact ⟨_, resolves other, (Settings.analysis_options_with_overrides same lower).symm⟩

theorem Documents.alike (same : overrides.analysis = other.analysis)
    (documents : Documents host path overrides root settings document warnings) :
    ∃ others, Documents host path other root others document warnings := by
  obtain ⟨others, resolved, options⟩ := settings_alike same documents.resolved
  exact ⟨others, documents.found, resolved, options ▸ documents.analyzed⟩

theorem Fails.alike (same : overrides.analysis = other.analysis)
    (fails : Fails host path overrides failure warnings) :
    Fails host path other failure warnings := by
  cases fails with
  | root lost => exact .root lost
  | settings found refused => exact .settings found (settings_refused other refused)
  | options found resolved refused =>
      obtain ⟨others, resolvedToo, options⟩ := settings_alike same resolved
      exact .options found resolvedToo (options ▸ refused)
  | analysis found resolved prepared failed =>
      obtain ⟨others, resolvedToo, options⟩ := settings_alike same resolved
      exact .analysis found resolvedToo (options ▸ prepared) failed

def untouched (host : Host) (warnings : List Warning) : Effects := ⟨host.place.tree, [], warnings⟩

theorem run_of_ok {command : Command} {effects : Effects}
    (ran : host.act command (host.untouched []) = .ok () effects) :
    host.run command = (effects, .ok ()) := by
  unfold Host.run
  rw [show host.act command ⟨host.place.tree, [], []⟩ = _ from ran]

theorem run_of_error {command : Command} {effects : Effects}
    (ran : host.act command (host.untouched []) = .error failure effects) :
    host.run command = (effects, .error failure) := by
  unfold Host.run
  rw [show host.act command ⟨host.place.tree, [], []⟩ = _ from ran]

theorem Documents.document_eq
    (documents : Documents host path overrides root settings document warnings) :
    host.document root settings (host.untouched []) = .ok document (host.untouched warnings) := by
  obtain ⟨options, prepared, analyzed⟩ := documents.analyzed
  unfold Host.document
  rw [prepared, Act.of_except_ok_bind, analyzed]
  rfl

/-- A command that goes on with the document once it has its settings stops where it does not get to
one. -/
theorem Fails.stops (fails : Fails host path overrides failure warnings)
    {rest : Path → Settings → Act Unit} (goesOn : ∀ root settings,
      host.projectRoot path = .ok root → host.settings root overrides = .ok settings →
        ∃ next, rest root settings = host.document root settings >>= next) :
    (do
      let root ← Act.ofExcept (host.projectRoot path)
      let settings ← Act.ofExcept (host.settings root overrides)
      rest root settings) (host.untouched []) = .error failure (host.untouched warnings) := by
  cases fails with
  | root lost =>
      rw [lost]
      rfl
  | settings found refused =>
      rw [found, Act.of_except_ok_bind, refused]
      rfl
  | options found resolved refused =>
      obtain ⟨next, starts⟩ := goesOn _ _ found resolved
      rw [found, Act.of_except_ok_bind, resolved, Act.of_except_ok_bind, starts]
      apply Act.bind_of_error
      unfold Host.document
      rw [refused]
      rfl
  | analysis found resolved prepared failed =>
      obtain ⟨next, starts⟩ := goesOn _ _ found resolved
      rw [found, Act.of_except_ok_bind, resolved, Act.of_except_ok_bind, starts]
      apply Act.bind_of_error
      unfold Host.document
      rw [prepared, Act.of_except_ok_bind, failed]
      rfl

/-- The settings of a command, if it gets to them, are as they should be. -/
def Settles (host : Host) (path : Option Path) (overrides : Overrides) (good : Settings → Prop) :
    Prop :=
  ∀ root settings, host.projectRoot path = .ok root → host.settings root overrides = .ok settings →
    good settings

theorem settles_format {format : OutputFormat} (set : overrides.format = some format) :
    host.Settles path overrides fun settings =>
      OutputFormat.ofName? settings.format = some format := by
  intro root settings _ resolved
  obtain ⟨lower, rfl, -⟩ := settings_resolved resolved
  show OutputFormat.ofName? ((overrides.format.map OutputFormat.name).getD lower.format) = _
  rw [set]
  exact OutputFormat.of_name_name format

theorem settles_plugin {plugin : String} (set : overrides.plugin = some plugin) :
    host.Settles path overrides fun settings => settings.plugin.isSome = true := by
  intro root settings _ resolved
  obtain ⟨lower, rfl, -⟩ := settings_resolved resolved
  show (overrides.plugin.or lower.plugin).isSome = true
  rw [set]
  rfl

theorem Documents.run_analyze
    (documents : Documents host path overrides root settings document warnings)
    (format : OutputFormat.ofName? settings.format = some .json) :
    host.run (.analyze path overrides none) =
      (⟨host.place.tree, Glyph.ofString document.prettyText, warnings⟩, .ok ()) := by
  apply run_of_ok
  show host.analyze path overrides none (host.untouched []) = _
  unfold Host.analyze
  rw [documents.found, Act.of_except_ok_bind, documents.resolved, Act.of_except_ok_bind, format]
  refine (Act.bind_of_ok _ documents.document_eq).trans ?_
  show EStateM.Result.ok () (Effects.mk host.place.tree
    ([] ++ Glyph.ofString document.prettyText) warnings) = _
  rw [List.nil_append]

theorem Fails.run_analyze (fails : Fails host path overrides failure warnings)
    (output : Option Path) (formatted : host.Settles path overrides fun settings =>
      (OutputFormat.ofName? settings.format).isSome = true) :
    host.run (.analyze path overrides output) = (host.untouched warnings, .error failure) := by
  apply run_of_error
  apply fails.stops
  intro root settings found resolved
  obtain ⟨format, known⟩ := Option.isSome_iff_exists.1 (formatted root settings found resolved)
  rw [known]
  exact ⟨_, rfl⟩

theorem Documents.run_generate
    (documents : Documents host path overrides root settings document warnings) {plugin : String}
    (named : settings.plugin = some plugin) {tree : Tree} {written : List Glyph}
    {result : Except Failure Unit}
    (ran : (Generator.ofName plugin settings.shell).run
      (Generator.session host.place.tree root.normalParts host.environment document
        (host.outputDirectory root overrides settings)) = (tree, written, result)) :
    host.run (.generate path overrides) = (⟨tree, written, warnings⟩, result) := by
  have acts : host.act (.generate path overrides) (host.untouched []) =
      Act.ofExcept result ⟨tree, written, warnings⟩ := by
    show host.generate path overrides (host.untouched []) = _
    unfold Host.generate
    rw [documents.found, Act.of_except_ok_bind, documents.resolved, Act.of_except_ok_bind, named]
    refine (Act.bind_of_ok _ documents.document_eq).trans ?_
    rw [Yields.get_bind_apply]
    simp only [untouched, ran]
    rfl
  cases result with
  | ok _ => exact run_of_ok acts
  | error failure => exact run_of_error acts

theorem Fails.run_generate (fails : Fails host path overrides failure warnings)
    (configured : host.Settles path overrides fun settings => settings.plugin.isSome = true) :
    host.run (.generate path overrides) = (host.untouched warnings, .error failure) := by
  apply run_of_error
  apply fails.stops
  intro root settings found resolved
  obtain ⟨plugin, named⟩ := Option.isSome_iff_exists.1 (configured root settings found resolved)
  rw [named]
  exact ⟨_, rfl⟩

/-- What the command that writes a document as JSON and the one that runs a generator do. Either
both get to the same document. The one writes it, and does not fail; the other starts the generator
with the document to read, in a text of its own, and ends as that does, or it has no program to start
and fails with nothing done. Or both fail alike, before anything is written or started. -/
inductive Agree (host : Host) (path : Option Path) (overrides : Overrides) :
    Effects × Except Failure Unit → Effects × Except Failure Unit → Prop where
  | starts {root : Path} {settings : Settings} {plugin : String} {document : Document}
      {warnings : List Warning} {session after : Shell.Session} {step : Shell.Step Nat}
      {ending : Except Shell.Stop Nat}
      (documents : Documents host path overrides root settings document warnings)
      (named : settings.plugin = some plugin)
      (prepares : Generator.Prepares host.place.tree root.normalParts host.environment document
        (host.outputDirectory root overrides settings) session)
      (starts : (Generator.ofName plugin settings.shell).Starts session step)
      (ends : Shell.Step.outcome (Shell.Step.apart step) session = (after, ending))
      (writtenBack : document.ReadFrom document.prettyText)
      (handedBack : document.ReadFrom document.payload) :
      Agree host path overrides
        (⟨host.place.tree, Glyph.ofString document.prettyText, warnings⟩, .ok ())
        (⟨after.tree, after.output, warnings⟩,
          (Generator.ofName plugin settings.shell).verdict ending)
  | lacks {root : Path} {settings : Settings} {plugin : String} {document : Document}
      {warnings : List Warning} {session : Shell.Session} {fault : TreeFault}
      (documents : Documents host path overrides root settings document warnings)
      (named : settings.plugin = some plugin)
      (prepares : Generator.Prepares host.place.tree root.normalParts host.environment document
        (host.outputDirectory root overrides settings) session)
      (lacks : (Generator.ofName plugin settings.shell).Lacks session fault) :
      Agree host path overrides
        (⟨host.place.tree, Glyph.ofString document.prettyText, warnings⟩, .ok ())
        (host.untouched warnings, .error (.plugin plugin
          ((Generator.ofName plugin settings.shell).startFault fault)))
  | fails {failure : Failure} {warnings : List Warning}
      (fails : Fails host path overrides failure warnings) :
      Agree host path overrides (host.untouched warnings, .error failure)
        (host.untouched warnings, .error failure)

theorem Documents.agree
    (documents : Documents host path overrides root settings document warnings) {plugin : String}
    (named : settings.plugin = some plugin) :
    host.Agree path overrides
      (⟨host.place.tree, Glyph.ofString document.prettyText, warnings⟩, .ok ())
      (host.run (.generate path overrides)) := by
  obtain ⟨options, -, analyzed⟩ := documents.analyzed
  have distinct := distinct_properties_of_analyze (congrArg Prod.fst analyzed)
  have prepares := Generator.prepares_session host.place.tree root.normalParts host.environment
    document (host.outputDirectory root overrides settings)
  rcases (Generator.ofName plugin settings.shell).starts_or_lacks
    (Generator.session host.place.tree root.normalParts host.environment document
      (host.outputDirectory root overrides settings)) with ⟨step, starts⟩ | ⟨fault, lacks⟩
  · rw [documents.run_generate named (Generator.run_of_starts starts rfl)]
    exact .starts documents named prepares starts rfl
      (document_of_spelled distinct (Json.spelled_by_pretty _))
      (document_of_spelled distinct (Json.spelled_by_compact _))
  · rw [documents.run_generate named (Generator.run_of_lacks lacks), Generator.name_of_name]
    exact .lacks documents named prepares lacks

theorem agree (same : overrides.analysis = other.analysis)
    (formatted : host.Settles path overrides fun settings =>
      OutputFormat.ofName? settings.format = some .json)
    (configured : host.Settles path other fun settings => settings.plugin.isSome = true) :
    host.Agree path other (host.run (.analyze path overrides none))
      (host.run (.generate path other)) := by
  rcases host.documents_or_fails path overrides with
    ⟨root, settings, document, warnings, documents⟩ | ⟨failure, warnings, fails⟩
  · obtain ⟨others, documentsToo⟩ := documents.alike same
    obtain ⟨plugin, named⟩ := Option.isSome_iff_exists.1
      (configured root others documentsToo.found documentsToo.resolved)
    rw [documents.run_analyze (formatted root settings documents.found documents.resolved)]
    exact documentsToo.agree named
  · have failsToo := fails.alike same
    have known : host.Settles path overrides fun settings =>
        (OutputFormat.ofName? settings.format).isSome = true := by
      intro root settings found resolved
      rw [formatted root settings found resolved]
      rfl
    rw [fails.run_analyze none known, failsToo.run_generate configured]
    exact .fails failsToo

end

end Host

def Given.writerOverrides (given : Given) : Overrides :=
  { given.analysisOverrides with format := (given.lookup "format").bind OutputFormat.ofName? }

def Given.generatorOverrides (given : Given) : Overrides :=
  { given.analysisOverrides with
    plugin := given.lookup "plugin"
    shell := (given.lookup "shell").isSome
    output := given.path? "output" }

theorem of_arguments_analyze {arguments : List String} {given : Given}
    (reads : readArguments analyzeFlags [pathPlace] arguments = .ok given) :
    Command.ofArguments ("analyze" :: arguments) =
      .ok (.analyze (given.path? pathPlace.name) given.writerOverrides (given.path? "output")) := by
  show analyzeCommand arguments = _
  unfold analyzeCommand
  rw [reads]
  rfl

theorem of_arguments_generate {arguments : List String} {given : Given}
    (reads : readArguments generateFlags [pathPlace] arguments = .ok given) :
    Command.ofArguments ("generate" :: arguments) =
      .ok (.generate (given.path? pathPlace.name) given.generatorOverrides) := by
  show generateCommand arguments = _
  unfold generateCommand
  rw [reads]
  rfl

theorem Given.lookup_eq (given : Given) (name : String) :
    given.lookup name = (given.all name).head? := by
  unfold Given.all
  induction given with
  | nil => rfl
  | cons entry rest ih =>
      obtain ⟨key, value⟩ := entry
      rw [List.lookup_cons, List.filter_cons]
      by_cases same : name = key
      · rw [same, beq_self_eq_true]
        rfl
      · rw [beq_eq_false_iff_ne.2 same, beq_eq_false_iff_ne.2 (Ne.symm same)]
        exact ih

/-- Whether both commands are given the same path and the same flags for the analysis, those that
are repeated in the same order. -/
def Given.Shares (given other : Given) : Prop :=
  ∀ option ∈ pathPlace :: analysisFlags, given.all option.name = other.all option.name

namespace Given.Shares

variable {given other : Given} (shares : given.Shares other)

include shares

theorem all_eq {name : String} (known : name ∈ (pathPlace :: analysisFlags).map (·.name)) :
    given.all name = other.all name := by
  obtain ⟨option, member, rfl⟩ := List.mem_map.1 known
  exact shares option member

theorem path_eq : given.path? pathPlace.name = other.path? pathPlace.name := by
  unfold Given.path?
  rw [Given.lookup_eq, Given.lookup_eq, shares.all_eq (by decide)]

theorem analysis_overrides_eq : given.analysisOverrides = other.analysisOverrides := by
  unfold Given.analysisOverrides
  simp only [Given.lookup_eq]
  rw [@all_eq _ _ shares "module" (by decide), @all_eq _ _ shares "include" (by decide),
    @all_eq _ _ shares "exclude" (by decide), @all_eq _ _ shares "include-tests" (by decide),
    @all_eq _ _ shares "context-type" (by decide)]

theorem analysis_eq : given.writerOverrides.analysis = other.generatorOverrides.analysis := by
  show given.analysisOverrides.analysis = other.analysisOverrides.analysis
  rw [shares.analysis_overrides_eq]

end Given.Shares

/-- Given the same path and flags for the analysis, the command that writes the document as JSON and
the one that runs a generator agree, if a generator is set. -/
theorem runs_agree {host : Host} {first second : List String} {given other : Given}
    (reads : readArguments analyzeFlags [pathPlace] first = .ok given)
    (readsOther : readArguments generateFlags [pathPlace] second = .ok other)
    (shares : given.Shares other) (asJson : given.lookup "format" = some "json")
    (shown : given.lookup "output" = none)
    (configured : host.Settles (other.path? pathPlace.name) other.generatorOverrides
      fun settings => settings.plugin.isSome = true) :
    ∃ writing generating, Command.ofArguments ("analyze" :: first) = .ok writing ∧
      Command.ofArguments ("generate" :: second) = .ok generating ∧
      host.Agree (other.path? pathPlace.name) other.generatorOverrides (host.run writing)
        (host.run generating) := by
  refine ⟨_, _, of_arguments_analyze reads, of_arguments_generate readsOther, ?_⟩
  have format : given.writerOverrides.format = some .json := by
    show (given.lookup "format").bind OutputFormat.ofName? = _
    rw [asJson]
    exact OutputFormat.of_name_name .json
  have nowhere : given.path? "output" = none := by
    rw [Given.path?, shown]
    rfl
  rw [shares.path_eq, nowhere]
  exact Host.agree shares.analysis_eq (Host.settles_format format) configured

def mutualHost : Host := ⟨⟨mutualTree, []⟩, .ofList [("PATH", "/bin")]⟩

theorem documents_of_mutual_host {overrides : Overrides} {settings : Settings}
    (resolved : mutualHost.settings ⟨"/"⟩ overrides = .ok settings)
    (prepared : settings.analysisOptions mutualTree ⟨"/"⟩ = .ok mutualOptions) :
    ∃ document, mutualHost.Documents (some ⟨"/"⟩) overrides ⟨"/"⟩ settings document [] := by
  have succeeds : ((analyze mutualTree mutualOptions).1.toOption.isSome &&
      (analyze mutualTree mutualOptions).2.isEmpty) = true := by decide +kernel
  rw [Bool.and_eq_true, List.isEmpty_iff] at succeeds
  cases analyzed : analyze mutualTree mutualOptions with
  | mk result warnings =>
      rw [analyzed] at succeeds
      obtain ⟨some, rfl⟩ := succeeds
      cases result with
      | error failure => cases some
      | ok document => exact ⟨document, rfl, resolved, mutualOptions, prepared, analyzed⟩

/-- Here the generator is a script, and the shell that runs it is found. -/
theorem runs_agree_mutual_host :
    (∀ document output, ∃ step, (Generator.script "cat").Starts
      (Generator.session mutualTree [] mutualHost.environment document output) step) ∧
    ∃ writing generating,
      Command.ofArguments ["analyze", "--format=json", "/", "--module", "m"] = .ok writing ∧
        Command.ofArguments ["generate", "--module=m", "--shell", "--plugin", "cat", "--", "/"] =
          .ok generating ∧
        mutualHost.Agree (some ⟨"/"⟩) { module := some "m", plugin := some "cat", shell := true }
          (mutualHost.run writing) (mutualHost.run generating) := by
  have reads : readArguments analyzeFlags [pathPlace] ["--format=json", "/", "--module", "m"] =
      .ok [("format", "json"), ("", "/"), ("module", "m")] := by rfl
  have readsOther : readArguments generateFlags [pathPlace]
      ["--module=m", "--shell", "--plugin", "cat", "--", "/"] =
        .ok [("module", "m"), ("shell", ""), ("plugin", "cat"), ("", "/")] := by rfl
  have shares : Given.Shares [("format", "json"), ("", "/"), ("module", "m")]
      [("module", "m"), ("shell", ""), ("plugin", "cat"), ("", "/")] := by
    unfold Given.Shares
    decide
  have found : Shell.findProgram mutualTree [] "/bin" "sh" = .ok .shell := by rfl
  exact ⟨fun _ _ => ⟨_, .program found rfl⟩,
    runs_agree reads readsOther shares rfl rfl (Host.settles_plugin rfl)⟩

/-- A document is written where the program of a generator is not on the search path, so that no
generator is started with it. -/
theorem not_started_mutual_host : ∃ writing generating, ∃ document : Document,
    Command.ofArguments ["analyze", "--format=json", "/", "--module", "m"] = .ok writing ∧
      Command.ofArguments ["generate", "--module=m", "--plugin", "client", "--", "/"] =
        .ok generating ∧
      mutualHost.run writing =
        (⟨mutualTree, Glyph.ofString document.prettyText, []⟩, .ok ()) ∧
      mutualHost.run generating = (mutualHost.untouched [],
        .error (.plugin "client" (.notOnPath "restc-client"))) := by
  have reads : readArguments analyzeFlags [pathPlace] ["--format=json", "/", "--module", "m"] =
      .ok [("format", "json"), ("", "/"), ("module", "m")] := by rfl
  have format : (Given.writerOverrides [("format", "json"), ("", "/"), ("module", "m")]).format =
      some .json := OutputFormat.of_name_name .json
  obtain ⟨document, documents⟩ := @documents_of_mutual_host
    (Given.writerOverrides [("format", "json"), ("", "/"), ("module", "m")]) _ rfl rfl
  obtain ⟨other, documentsToo⟩ := @documents_of_mutual_host
    { module := some "m", plugin := some "client" } _ rfl rfl
  have lost : Shell.findProgram mutualTree [] "/bin" "restc-client" = .error .notFound := by rfl
  have lacks : (Generator.program "client").Lacks
      (Generator.session mutualTree [] mutualHost.environment other ⟨"/"⟩) .notFound :=
    .missing lost
  have formatted := Host.settles_format format _ _ documents.found documents.resolved
  exact ⟨_, .generate (some ⟨"/"⟩) { module := some "m", plugin := some "client" }, document,
    of_arguments_analyze reads, rfl, documents.run_analyze formatted,
    documentsToo.run_generate rfl (Generator.run_of_lacks lacks)⟩

end CommandLine

end EndpointAtlas

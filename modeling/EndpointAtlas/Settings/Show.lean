import EndpointAtlas.Settings.Resolved
import EndpointAtlas.Text.Quoted

/-!
Resolved settings as text for readers: the files that were read, and each setting with its value and
its source.
-/

namespace EndpointAtlas

def shownSwitch (on : Bool) : String := if on then "true" else "false"

namespace Setting

def shownValue (settings : Settings) : Setting → String
  | module => settings.module.getD "(from go.mod)"
  | inclusions => Text.quotedList settings.inclusions
  | exclusions => Text.quotedList settings.exclusions
  | includeTests => shownSwitch settings.includeTests
  | contextType => settings.contextType
  | format => settings.format
  | plugin => settings.plugin.getD "(none)"
  | shell => shownSwitch settings.shell
  | output => (settings.output.map (·.text)).getD "(project root)"

end Setting

namespace Settings

def shownFiles (settings : Settings) : List String :=
  if settings.loadedFiles.isEmpty then ["Loaded config files: (none)"]
  else "Loaded config files:" ::
    settings.loadedFiles.mapIdx fun index path => "  " ++ toString (index + 1) ++ ". " ++ path.text

def shownEntry (settings : Settings) (entry : String × Source) : String :=
  let value := match Setting.all.find? (·.name == entry.1) with
    | some setting => setting.shownValue settings
    | none => "(unknown)"
  "  " ++ entry.1 ++ ": " ++ value ++ " <- " ++ entry.2.display

def shown (settings : Settings) : String :=
  String.join ((settings.shownFiles ++ ["", "Resolved settings:"] ++
    settings.provenance.entries.map settings.shownEntry).map (· ++ "\n"))

end Settings

end EndpointAtlas

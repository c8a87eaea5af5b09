import Stencil.Config.Json
import Stencil.Config.Yaml
import Stencil.Disk

/-!
Where settings come from. The ending of a file's name tells which format the file is in.
-/

namespace Stencil.Config

inductive Source
  | json (text : String)
  | yaml (text : String)
  | given (config : Config)

def Source.read : Source → Except Error Config
  | .json text => (ofJson text).mapError .jsonConfig
  | .yaml text => (ofYaml text).mapError fun _ => .yamlConfig
  | .given config => .ok config

/-- The settings in a file. The name's ending is looked at before the file is. -/
def load (disk : Disk) (path : String) : Except Error Config := do
  let ending := (Disk.extension? path).getD ""
  unless extensions.contains ending do
    throw (.unsupportedConfig path (", ".intercalate extensions))
  let text ← (disk.read path).mapError .file
  if ending == "json" then (Source.json text).read else (Source.yaml text).read

end Stencil.Config

import KeyIntake.Settings
import KeyIntake.Settings.Files
import KeyIntake.Settings.Variable
import KeyIntake.Toml.Document
/-!
# Layered settings

The settings of a run come in three layers: a file for all environments, the file of the
environment that the run is in, and the environment variables. Upper layers replace what lower
ones say, table by table. A file that is not there is an empty layer.

## Main definitions

* `Layer`, `Layer.Origin` — a tree of settings and where it comes from.
* `Layers.originOf` — the layer that a value comes from.
* `Settings.LoadFault` — why there are no settings.
* `Settings.load` — the settings of a run.
-/

set_option autoImplicit false

namespace KeyIntake

/-- Where a layer of settings comes from. -/
inductive Layer.Origin where
  /-- A file, by its path. -/
  | file (path : String)
  /-- The environment variables. -/
  | environment
  deriving DecidableEq, Repr

/-- The name of an origin in messages. -/
def Layer.Origin.name : Layer.Origin → String
  | file _ => "TOML file"
  | environment => "\x60" ++ Variable.mark ++ "\x60 environment variable(s)"

/-- The place of an origin, behind a message about a value that comes from it. -/
def Layer.Origin.place : Layer.Origin → String
  | file path => " in " ++ path ++ " TOML file"
  | environment => " in " ++ environment.name

/-- A path as the origin of its value writes it, behind a message about the value. -/
def Layer.Origin.key (o : Layer.Origin) (path : List String) : String :=
  if path.isEmpty then ""
  else
    let written := match o with
      | file _ => ".".intercalate ("default" :: path)
      | environment => ".".intercalate (path.map String.toUpper)
    " for key " ++ Quoted.shown written

/-- A layer of settings. -/
structure Layer where
  origin : Layer.Origin
  tree : Tree

namespace Layers

/-- The origin of the value at a path: the uppermost layer that has a value there. The whole tree
comes from no layer in particular. -/
def originOf (layers : List Layer) (path : List String) : Option Layer.Origin :=
  if path.isEmpty then none
  else (layers.reverse.find? fun layer => (layer.tree.at? path).isSome).map Layer.origin

/-- The layer of a file: empty if it is not there, and an error if it is no document. -/
def ofFile (files : FileTree) (path : String) : Except Layer.Origin Layer :=
  match files.find? path with
  | none => .ok ⟨.file path, .table []⟩
  | some (found, content) =>
    match Toml.read? content with
    | some t => .ok ⟨.file found, t⟩
    | none => .error (.file found)

end Layers

/-- Why there are no settings. -/
inductive Settings.LoadFault where
  /-- Files are no documents; the one that was read last comes first. -/
  | badFiles (files : List Layer.Origin)
  /-- A value does not fit. -/
  | misread (m : Misread) (origin : Option Layer.Origin)
  /-- The settings make no sense. -/
  | defect (d : Settings.Defect)

/-- The text of a fault of loading. Faults of several files stand on lines of their own. -/
def Settings.LoadFault.message : Settings.LoadFault → String
  | badFiles files => "\n".intercalate (files.map fun o => "TOML parse error" ++ o.place)
  | misread m origin =>
    Wording.layered.message m.reason ++
      (match origin with
        | none => ""
        | some o => o.key m.path ++ o.place)
  | defect d => "Invalid config: " ++ d.message

namespace Settings

/-- The name of the environment that a run is in. -/
def environmentName (e : Environment) : String := (e.get? "APP_ENV").getD "development"

/-- Read settings from layers, the uppermost one last. -/
def ofLayers (layers : List Layer) : Except LoadFault Settings :=
  match Settings.ofTree false (.layer (layers.map Layer.tree)) with
  | .error m => .error (.misread m (Layers.originOf layers m.path))
  | .ok s =>
    match s.defect? with
    | some d => .error (.defect d)
    | none => .ok s

/-- The settings of a run, with the directory that holds the files. -/
def load (directory : String) (files : FileTree) (e : Environment) : Except LoadFault Settings :=
  let general := Layers.ofFile files (directory ++ "/default.toml")
  let special := Layers.ofFile files (directory ++ "/" ++ environmentName e ++ ".toml")
  match general, special with
  | .ok a, .ok b => ofLayers [a, b, ⟨.environment, e.settings⟩]
  | .error a, .ok _ => .error (.badFiles [a])
  | .ok _, .error b => .error (.badFiles [b])
  | .error a, .error b => .error (.badFiles [b, a])

/-- The directory of the settings files: that of a variable, unless it is empty. -/
def directory (e : Environment) : String :=
  match e.get? "KEYLOADER_CONFIG_DIR" with
  | some "" => "config"
  | some d => d
  | none => "config"

end Settings

end KeyIntake

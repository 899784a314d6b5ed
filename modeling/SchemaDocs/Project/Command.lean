import SchemaDocs.Project.Config
import SchemaDocs.Project.Scaffold

/-!
# Commands

What can be done with a project: scaffold it, and build its site. A command changes the files of the
project, also where it fails on its way.
-/

namespace SchemaDocs

inductive CommandError where
  | scaffold (failure : Scaffold.Failure)
  | config (error : ConfigError)
  | moduleUnreadable (path : String)
  | moduleMalformed (path : String)
  | build (error : BuildError)

def CommandError.message : CommandError → String
  | .scaffold failure => failure.message
  | .config error => error.message
  | .moduleUnreadable path => "Failed to read module " ++ path
  | .moduleMalformed path => "Failed to parse module " ++ path
  | .build error => error.message

inductive Command where
  | init (overwrite : Bool)
  | build (output module : Option String)
deriving DecidableEq, Repr

namespace Command

def defaultConfig : String := "protodoc.toml"

def readSchema (config : Config) (module : Option String) (files : FileSystem) : Except CommandError Schema :=
  let path := module.getD config.modulePath
  match files.readText path with
  | .error _ => .error (.moduleUnreadable path)
  | .ok text =>
    match Schema.parse text with
    | .error _ => .error (.moduleMalformed path)
    | .ok schema => .ok schema

def runBuild (configPath : String) (output module : Option String) (files : FileSystem) :
    Except CommandError BuildResult × FileSystem :=
  match Config.load files configPath with
  | .error error => (.error (.config error), files)
  | .ok config =>
    match readSchema config module files with
    | .error error => (.error error, files)
    | .ok schema =>
      let (result, files) := (config.buildSettings output).build Stage.standard none schema files
      (result.mapError .build, files)

def run (command : Command) (configPath : String) (files : FileSystem) : Except CommandError Unit × FileSystem :=
  match command with
  | .init overwrite =>
    let (result, files) := Scaffold.run configPath overwrite files
    ((result.mapError CommandError.scaffold).map fun _ => (), files)
  | .build output module =>
    let (result, files) := runBuild configPath output module files
    (result.map fun _ => (), files)

end Command

end SchemaDocs

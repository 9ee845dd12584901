import SchemaDrift.Config.Toml

/-! Configurations in files. Where saving fails, the files are as they were. -/
namespace SchemaDrift.Config

def load (files : FileStore) (path : String) : Except ConfigError Config :=
  match files.readText path with
  | .error fault => .error (.file fault)
  | .ok text => parse text

def save (c : Config) (files : FileStore) (path : String) : Except ConfigError Unit × FileStore :=
  match c.toToml with
  | .error e => (.error e, files)
  | .ok text =>
    match files.writeText path text with
    | .error fault => (.error (.file fault), files)
    | .ok written => (.ok (), written)

end SchemaDrift.Config

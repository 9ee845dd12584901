import SchemaDrift.Cli.Clock
import SchemaDrift.Cli.Run
import Std.Time.DateTime.Timestamp

/-! The program on real files, channels and the clock. It has no network of its own, so every request
is answered as one that could not be sent. -/
namespace SchemaDrift

/-- The fault that a code of the operating system stands for; some come with a minus sign. -/
def FileFault.ofCode (code : UInt32) : FileFault :=
  let unsigned := if code < 0x80000000 then code else -code
  if unsigned = 20 then .notDirectory
  else if unsigned = 21 then .directory
  else if unsigned = 36 then .nameTooLong
  else .missing

def FileFault.ofError : IO.Error → FileFault
  | .noFileOrDirectory _ code _ => .ofCode code
  | .inappropriateType _ code _ => .ofCode code
  | .invalidArgument _ code _ => .ofCode code
  | .resourceExhausted _ code _ => .ofCode code
  | _ => .missing

def attempt {α : Type} (action : IO α) : IO (Except FileFault α) := do
  try return .ok (← action)
  catch e => return .error (FileFault.ofError e)

def readFile (path : String) : IO (Except FileFault String) := do
  match ← attempt (IO.FS.readBinFile path) with
  | .error fault => return .error fault
  | .ok octets => return FileStore.textOf octets.toList

def isPresent (path : String) : IO Bool := do
  match ← attempt (IO.FS.readBinFile path) with
  | .ok _ => return true
  | .error fault => return fault == .directory

def writeFile (path text : String) : IO (Except FileFault Unit) := attempt (IO.FS.writeFile path text)

def refuse (r : Request) : IO (Except String Response) :=
  return .error ("error sending request for url (" ++ r.url.text ++ ")")

def now : IO String := do
  let t ← Std.Time.Timestamp.now
  return Cli.instantText t.toNanosecondsSinceUnixEpoch.val.toNat

def surroundings : Cli.Surroundings IO :=
  { colors := false
    read := readFile
    present := isPresent
    write := writeFile
    send := refuse
    print := fun s => IO.print s
    warn := fun s => IO.eprint s
    timestamp := now }

def variableNames : List String :=
  ["GITHUB_REPOSITORY", "GITHUB_TOKEN", "CLICOLOR", "CLICOLOR_FORCE", "NO_COLOR"]

def environment : IO Cli.Variables :=
  variableNames.filterMapM fun name => return (← IO.getEnv name).map fun value => (name, value)

end SchemaDrift

open SchemaDrift in
def main (arguments : List String) : IO UInt32 := do
  let terminal ← (← IO.getStdout).isTty
  let code ← Cli.program surroundings terminal (← environment) arguments
  return UInt32.ofNat code

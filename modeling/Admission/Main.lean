import Admission.Service

/-!
# The program

Loads the settings, watches the manifest and answers requests.  A request is a line of standard
input, its method, path and body with a space between them; its answer is a line with the status and
the body in an object.  The program opens no connections: every webhook is unreachable.
-/

open Admission

namespace Main

/-- Where the settings are when nothing else is said. -/
def defaultConfig : String := "/etc/webhook-admission/config.yaml"

def usage : String :=
  "Kubernetes admission webhook gateway\n\nUsage: webhook-admission [OPTIONS]\n\nOptions:\n" ++
    "      --config <CONFIG>  Path to the configuration file " ++
    "[env: WEBHOOK_ADMISSION_CONFIG=] [default: /etc/webhook-admission/config.yaml]\n" ++
    "  -h, --help             Print help"

/-- What the arguments ask for. -/
inductive Command where
  | run (config : Option String)
  | help
  | unknown (argument : String)

def command (config : Option String) : List String → Command
  | [] => .run config
  | "--help" :: _ | "-h" :: _ => .help
  | ["--config"] => .unknown "--config"
  | "--config" :: path :: rest => command (some path) rest
  | argument :: rest =>
    if "--config=".isPrefixOf argument then
      command (some (String.ofList (argument.toList.drop "--config=".length))) rest
    else .unknown argument

/-- The contents of a file, if it can be read. -/
def readText (path : String) : IO (Option String) := do
  try return some (← IO.FS.readFile path) catch _ => return none

/-- The contents of the named files. -/
def readFiles (paths : List String) : IO FileReader := do
  let contents ← paths.mapM fun (path : String) => do
    try
      return (path, Except.ok (← IO.FS.readBinFile path).toList)
    catch e => return (path, Except.error (toString e))
  return fun path => (contents.lookup path).getD (.error "no such file")

/-- The variables of the environment. -/
def environment : IO (List (String × String)) := do
  let text ← readText "/proc/self/environ"
  return ((text.getD "").splitOn "\x00").filterMap fun entry =>
    match entry.splitOn "=" with
    | name :: value :: rest => some (name, "=".intercalate (value :: rest))
    | _ => none

/-- The files that the settings name. -/
def filesOf (s : Settings) : List String :=
  [s.tlsCertPath, s.tlsKeyPath] ++ s.client.access.fields.flatMap fun (_, a) =>
    [a.tokenFile, a.clientCertPath, a.clientKeyPath, a.caPath].filterMap id

/-- Takes every certificate and key for usable. -/
def pki : Pki := ⟨fun _ => true, fun _ _ => true⟩

/-- The request on a line. -/
def requestOf (line : String) : ServiceRequest :=
  match (String.ofList (line.toList.takeWhile (· ≠ '\n'))).splitOn " " with
  | method :: path :: rest => ⟨method, path, " ".intercalate rest⟩
  | _ => ⟨"", "", ""⟩

partial def serve (service : Service Unit) (since : Nat) : IO Unit := do
  let line ← (← IO.getStdin).getLine
  if line.isEmpty then return
  let now ← IO.monoMsNow
  let file ← readText service.settings.webhooks.path
  let watch := service.watch.advance (.ofMilliseconds (now - since)) file
  let (reply, service) := { service with watch := watch }.handle (requestOf line)
  let out ← IO.getStdout
  out.putStrLn (Json.obj [("body", .str reply.body), ("status", .int reply.status)]).write
  out.flush
  serve service now

def run (config : String) : IO UInt32 := do
  let complain (text : String) : IO UInt32 := do
    IO.eprintln text
    return 1
  match Settings.load (← readText config) (← environment) with
  | .error e => complain s!"Failed to load config from {config}: {e.message}"
  | .ok settings =>
    let files ← readFiles (filesOf settings)
    match Service.start settings pki files Network.unreachable (fun _ => ⟨0⟩) () with
    | .error e => complain e.message
    | .ok service =>
      let file ← readText settings.webhooks.path
      serve { service with watch := service.watch.start file } (← IO.monoMsNow)
      return 0

end Main

def main (arguments : List String) : IO UInt32 := do
  match Main.command none arguments with
  | .help =>
    IO.println Main.usage
    return 0
  | .unknown argument =>
    IO.eprintln s!"error: unexpected argument \x27{argument}\x27 found"
    return 2
  | .run config =>
    let named ← IO.getEnv "WEBHOOK_ADMISSION_CONFIG"
    Main.run ((config <|> named).getD Main.defaultConfig)

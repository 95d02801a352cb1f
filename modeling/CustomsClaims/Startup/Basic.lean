import CustomsClaims.Log.Filter
import CustomsClaims.Settings.EnvFile
import CustomsClaims.Startup.Address
import CustomsClaims.Store.File

/-!
# Starting the service

What happens between the start of the program and its first request (`Startup.run`): the environment
is completed from the file `.env`, the settings are read from it, the log file is opened, the claim
file is prepared, and the service listens at its address. Any of this but the preparation of the
claim file ends the start when it fails; an unreadable claim file is only logged.
-/

namespace CustomsClaims

/-- Why a start ends. -/
inductive StartError where
  | settings (e : SettingsError)
  | io (e : IoError)
  /-- The host and the port are no address. -/
  | badAddress
deriving DecidableEq, Repr

/-- What the program says about it at its end. -/
def StartError.message : StartError → String
  | settings e => e.message
  | io e => e.detail
  | badAddress => "AddrParseError(Socket)"

namespace Startup

/-! ## The log -/

/-- The parts of the program that log events at its start. -/
inductive Origin where
  | program
  | claimFile
deriving DecidableEq, Repr

/-- How the part is called in the log and in log filters. -/
def Origin.target : Origin → String
  | program => "drawback_api"
  | claimFile => "infra_store::file_store"

/-- Where the log goes: the events to log, the file that gets a copy, and what a line says about its
time and level. -/
structure Logging where
  filter : Filter
  file : Option Path
  opening : Level → String

/-- The filter that the environment gives, or else the settings; events of a level and above where
neither can be read. -/
def chooseFilter (env : Environment) (s : Settings) : Filter :=
  match (env.value? "RUST_LOG").bind Filter.ofText? with
  | some f => f
  | none => (Filter.ofText? s.logLevel).getD (.ofLevel .info)

/-- A line of the log. -/
def Logging.line (g : Logging) (o : Origin) (e : Event) : String :=
  g.opening e.level ++ " " ++ o.target ++ ": " ++ e.body

/-- How far the start has come: the lines that it printed, and the disk. -/
structure Progress where
  printed : List String
  disk : Disk

/-- Logs an event. -/
def Progress.log (p : Progress) (g : Logging) (o : Origin) (e : Event) : Progress :=
  if g.filter.passes e o.target then
    let line := g.line o e
    { printed := p.printed ++ [line]
      disk := match g.file with
        | some file => (p.disk.append file (Utf8.encode (line ++ "\n"))).toOption.getD p.disk
        | none => p.disk }
  else p

/-! ## Events -/

def startingEvent (s : Settings) : Event :=
  ⟨.info, "Starting Duty Drawback Claims API Server", [("host", s.host),
    ("port", decimalText s.port.toNat), ("data_file", s.dataFile.text)]⟩

def readyEvent (s : FileStore) (claims : List Claim) : Event :=
  ⟨.info, "Claim store ready",
    [("path", s.path.text), ("claims", decimalText claims.length)]⟩

def unreadableEvent (s : FileStore) (e : FileError) : Event :=
  ⟨.error, "Claim store is unreadable", [("path", s.path.text), ("error", e.message)]⟩

def listeningEvent (a : Address) : Event :=
  ⟨.info, "Server listening", [("addr", a.text)]⟩

/-! ## Steps -/

/-- Creates the claim file if it is missing, and tells what it holds. -/
def checkStore (s : FileStore) (d : Disk) : List (Origin × Event) × Disk :=
  let o := s.load.run.run d
  let report := match o.value with
    | .ok claims => readyEvent s claims
    | .error e => unreadableEvent s e
  (o.log.map (Origin.claimFile, ·) ++ [(.program, report)], o.disk)

/-- Ports below this one are kept for programs of the system. -/
def leastOpenPort : Nat := 1024

/-- Listens at the address; at the port zero, any free port is taken. -/
def listen (a : Address) : Except IoError Unit :=
  if 0 < a.port ∧ a.port < leastOpenPort then .error .permissionDenied else .ok ()

/-- The environment, completed from the file `.env` if there is one. -/
def completed (env : Environment) (d : Disk) : Environment :=
  match d.readBytes (Path.ofText ".env") with
  | .ok content => EnvFile.load env content
  | .error _ => env

/-- The end of a start: the lines printed, the disk, and the address at which the service listens
now, with its settings. -/
structure Ending where
  printed : List String
  disk : Disk
  outcome : Except StartError (Settings × Address)

/-- The end of a start that has come so far. -/
def Progress.ending (p : Progress) (outcome : Except StartError (Settings × Address)) : Ending :=
  ⟨p.printed, p.disk, outcome⟩

/-- Prepares the store and listens, with a log. -/
def runLogged (s : Settings) (g : Logging) (d : Disk) : Ending :=
  let p := Progress.log ⟨[], d⟩ g .program (startingEvent s)
  let (events, d) := checkStore ⟨s.dataFile⟩ p.disk
  let p := events.foldl (fun p (o, e) => p.log g o e) { p with disk := d }
  match Address.ofText? s.address with
  | none => p.ending (.error .badAddress)
  | some a =>
    let p := p.log g .program (listeningEvent a)
    match listen a with
    | .ok () => p.ending (.ok (s, a))
    | .error e => p.ending (.error (.io e))

/-- Starts the service. Each line of the log starts with what `opening` says for its level. -/
def run (env : Environment) (opening : Level → String) (d : Disk) : Ending :=
  let env := completed env d
  match Settings.ofEnvironment env with
  | .error e => ⟨[], d, .error (.settings e)⟩
  | .ok s =>
    let g : Logging := ⟨chooseFilter env s, s.logPath?, opening⟩
    match g.file with
    | none => runLogged s g d
    | some file =>
      match d.append file [] with
      | .ok d => runLogged s g d
      | .error e => ⟨[], d, .error (.io e)⟩

end Startup
end CustomsClaims

import CustomsClaims.Disk.Path
import CustomsClaims.Number.Layout

/-!
# Settings

What a service is told when it starts: where it listens, where it keeps the claims, how much it
takes in and how much of that it logs.
-/

namespace CustomsClaims

/-- The settings of a service. -/
structure Settings where
  /-- The address to listen at. -/
  host : String
  port : UInt16
  /-- The claim file. -/
  dataFile : Path
  /-- Headers and bodies of more bytes are not logged in full. -/
  maxLogSize : Nat
  /-- The most bytes that the body of a request may have. -/
  maxBodySize : Nat
  /-- Which events are logged. -/
  logLevel : String
  /-- The file that gets a copy of the log; blank for none. -/
  logFile : String
deriving DecidableEq, Repr

namespace Settings

/-- The settings where nothing else is asked for. -/
def standard : Settings where
  host := "0.0.0.0"
  port := 8000
  dataFile := Path.ofText "data/dutydrawback_claims.json"
  maxLogSize := 10024
  maxBodySize := 2 * 1024 * 1024
  logLevel := "info"
  logFile := "server.log"

/-- The address to listen at, with its port. -/
def address (s : Settings) : String :=
  s.host ++ ":" ++ decimalText s.port.toNat

/-- The file that gets a copy of the log, if there is to be one. -/
def logPath? (s : Settings) : Option Path :=
  if trim s.logFile.toList = [] then none else some (Path.ofText s.logFile)

end Settings
end CustomsClaims

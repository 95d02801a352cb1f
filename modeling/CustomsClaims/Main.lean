import CustomsClaims.Http.Service
import CustomsClaims.Startup.Basic

/-!
# The program

Starts the service on the files of this machine, with the settings of the environment, and then
answers requests from standard input, one a line: a method, a target and a body between single
spaces. The argument of the program is the date of the requests. Files are read into a `Disk`, and
what has changed there is written back.
-/

namespace CustomsClaims.Program

/-! ## Files -/

/-- The path of a location. -/
def realPath (l : Location) : String :=
  "/" ++ String.intercalate "/" l

/-- Where a path leads from the directory. -/
def locate (directory : Location) (p : Path) : Location :=
  let step (l : Location) (s : String) : Location :=
    if Path.isIdle s then l else if s = ".." then l.dropLast else l ++ [s]
  p.segments.foldl step (if p.isAbsolute then [] else directory)

/-- What an open file holds; a directory can be opened but not read. -/
def content (file : IO.FS.Handle) : IO Entry := do
  try
    return .file (← file.readBinToEnd).toList
  catch _ =>
    return .directory

/-- What stands at a location of this machine. -/
def look (l : Location) : IO (Option Entry) := do
  try
    return some (← content (← IO.FS.Handle.mk (realPath l) .read))
  catch _ =>
    return none

/-- The disk with what stands at the location and above it. -/
def load (d : Disk) (l : Location) : IO Disk := do
  let mut d := d
  for n in List.range l.length do
    let above := l.take (n + 1)
    if let some e ← look above then
      d := d.put above e
  return d

/-- Writes a file as a whole, beside its place first. -/
def replace (path : String) (content : Bytes) : IO Unit := do
  IO.FS.writeBinFile (path ++ ".new") ⟨content.toArray⟩
  IO.FS.rename (path ++ ".new") path

/-- Writes back what has changed. -/
def store (before after : Disk) : IO Unit := do
  for (path, e) in after.below [] do
    let l := (path.splitOn "/").filter (· ≠ "")
    if before.get? l ≠ some e then
      match e with
      | .directory => IO.FS.createDirAll (realPath l)
      | .file content => replace (realPath l) content

/-! ## Requests -/

/-- The request that a line asks for. -/
def readRequest (line : String) : Http.Request :=
  match line.splitOn " " with
  | method :: target :: body =>
    ⟨method, .ofText target, .ofList [], .whole (Utf8.encode (String.intercalate " " body))⟩
  | words => ⟨String.join words, .ofText "/", .ofList [], .whole []⟩

/-- Answers the lines of standard input, and prints the events that the filter passes. -/
partial def answer (filter : Filter) (settings : Settings) (today : Date) (d : Disk) : IO Unit := do
  let line ← (← IO.getStdin).getLine
  if line.isEmpty then return
  let request := readRequest (line.dropEndWhile (· = '\n')).toString
  let files : FileStore := ⟨settings.dataFile⟩
  let d ← load d (locate d.workingDirectory settings.dataFile)
  let x := Http.Service.serve ⟨files.store, settings⟩ today request d
  store d x.state
  for e in x.log do
    if filter.passes e Startup.Origin.program.target then
      IO.println e.text
  IO.println (decimalText x.response.status.code ++ " " ++ Utf8.decodeLossy x.response.body)
  answer filter settings today x.state

/-! ## The start -/

/-- The variables that a start asks for. -/
def variableNames : List String :=
  "RUST_LOG" :: ["HOST", "PORT", "DATA_FILE", "MAX_LOG_SIZE", "MAX_BODY_SIZE", "LOG_LEVEL",
    "LOG_FILE"].map ("API_" ++ ·)

/-- The environment of this process. -/
def environment : IO Environment := do
  variableNames.filterMapM fun name => do
    return (← IO.getEnv name).map (name, ·)

/-- The disk with the files that a start in the directory may touch. -/
def startDisk (env : Environment) (directory : Location) : IO Disk := do
  let d ← load ⟨[], directory⟩ (directory ++ [".env"])
  let asked := (Settings.ofEnvironment (Startup.completed env d)).toOption
  let paths := asked.toList.flatMap fun s => s.dataFile :: s.logPath?.toList
  paths.foldlM (fun d p => load d (locate directory p)) d

/-- Starts the service and answers requests. -/
def run (today : Date) : IO UInt32 := do
  let env ← environment
  let directory := ((← IO.currentDir).toString.splitOn "/").filter (· ≠ "")
  let d ← startDisk env directory
  let ending := Startup.run env Level.text d
  store d ending.disk
  for line in ending.printed do
    IO.println line
  match ending.outcome with
  | .error e =>
    IO.eprintln ("Error: " ++ e.message)
    return 1
  | .ok (settings, _) =>
    let filter := Startup.chooseFilter (Startup.completed env d) settings
    answer filter settings today ending.disk
    return 0

end CustomsClaims.Program

/-- The argument is the date of the requests. -/
def main (args : List String) : IO UInt32 := do
  match args.map CustomsClaims.Date.ofText? with
  | [.ok today] => CustomsClaims.Program.run today
  | _ =>
    IO.eprintln "Error: expected the date of the requests"
    return 1

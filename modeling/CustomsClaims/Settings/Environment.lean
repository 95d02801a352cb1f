import CustomsClaims.Number.Numeral
import CustomsClaims.Settings.Basic
import CustomsClaims.Settings.Key
import CustomsClaims.Text.Quoted

/-!
# Settings from the environment

A variable whose name is `API_` and a key, in upper or lower case, replaces the standard value of
the setting that the key names; of several such variables the last one counts. A setting has no
parts, so that a key with parts is refused. `Environment.value?` looks a variable up,
`Settings.ofEnvironment` reads all settings.
-/

namespace CustomsClaims

/-- Variables and their values, in the order in which they were set. -/
abbrev Environment := List (String × String)

/-- What the environment gives to a setting: a value, or parts. -/
inductive Given where
  | value (text : String)
  | parts (shape : Shape)
deriving DecidableEq, Repr

namespace Environment

/-- The value of the variable of exactly that name. -/
def value? (env : Environment) (name : String) : Option String :=
  (env.find? (·.1 = name)).map (·.2)

/-- The lower-case form of a character in a name. The sign of the unit kelvin is a form of the
letter k. -/
def lowerChar (c : Char) : Char :=
  if c = '\u212A' then 'k' else c.toLower

/-- What the variable gives to the setting of that name. -/
def given? (setting : String) (name value : String) : Option Given := do
  let cs := name.toList.map lowerChar
  let start := "api_".toList
  if !start.isPrefixOf cs then none
  match ← Key.shape? setting.toList (cs.drop start.length) with
  | none => some (.value value)
  | some shape => some (.parts shape)

/-- What is given to the setting of that name. -/
def setting? (env : Environment) (setting : String) : Option Given :=
  env.reverse.findSome? fun (name, value) => given? setting name value

end Environment

/-- Why settings cannot be read. -/
inductive SettingsError where
  /-- The text is no number. -/
  | notNumber (setting text : String)
  /-- The number has more than sixteen bits. -/
  | tooLarge (setting : String) (n : Nat)
  /-- The setting has parts. -/
  | hasParts (setting : String) (shape : Shape) (wanted : String)
deriving DecidableEq, Repr

namespace SettingsError

/-- The setting that a message is about. -/
def forKey (setting : String) : String := " for key `" ++ setting ++ "`"

def message : SettingsError → String
  | .notNumber setting text =>
    "invalid type: string " ++ quoted text ++ ", expected an integer" ++ forKey setting ++
      " in the environment"
  | .tooLarge setting n =>
    "invalid type: 64-bit unsigned integer `" ++ decimalText n ++
      "`, expected an unsigned 16 bit integer" ++ forKey setting
  | .hasParts setting shape wanted =>
    "invalid type: " ++ shape.name ++ ", expected " ++ wanted ++ forKey setting

end SettingsError

namespace Settings

/-- The number of at most 64 bits that a value stands for. Words for yes are one, words for no are
zero, in upper or lower case. -/
def number? (text : String) : Option Nat :=
  let word := text.map Char.toLower
  if word ∈ ["true", "on", "yes"] then some 1
  else if word ∈ ["false", "off", "no"] then some 0
  else (wholeNumber? text.toList).filter (· < 2 ^ 64)

/-- The value that is set, or else the standard one. `wanted` says what it should be. -/
def readValue {α : Type} (env : Environment) (setting wanted : String) (standard : α)
    (read : String → Except SettingsError α) : Except SettingsError α :=
  match env.setting? setting with
  | none => .ok standard
  | some (.value text) => read text
  | some (.parts shape) => .error (.hasParts setting shape wanted)

/-- The text that is set, or else the standard one. -/
def readText (env : Environment) (setting standard : String) : Except SettingsError String :=
  readValue env setting "a string" standard .ok

/-- The number that is set, or else the standard one. -/
def readNumber (env : Environment) (setting : String) (standard : Nat) :
    Except SettingsError Nat :=
  readValue env setting "an integer" standard fun text =>
    match number? text with
    | some n => .ok n
    | none => .error (.notNumber setting text)

/-- The port that is set, or else the standard one. -/
def readPort (env : Environment) : Except SettingsError UInt16 := do
  let n ← readNumber env "port" standard.port.toNat
  if n < UInt16.size then return UInt16.ofNat n else throw (.tooLarge "port" n)

/-- The settings that the environment asks for. -/
def ofEnvironment (env : Environment) : Except SettingsError Settings := do
  return {
    host := ← readText env "host" standard.host
    port := ← readPort env
    dataFile := Path.ofText (← readText env "data_file" standard.dataFile.text)
    maxLogSize := ← readNumber env "max_log_size" standard.maxLogSize
    maxBodySize := ← readNumber env "max_body_size" standard.maxBodySize
    logLevel := ← readText env "log_level" standard.logLevel
    logFile := ← readText env "log_file" standard.logFile }

end Settings
end CustomsClaims

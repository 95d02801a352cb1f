import CustomsClaims.Number.Layout
import CustomsClaims.Text.Quoted

/-!
# Failures of the file system

Most failures have a number and a text that the operating system gives them.
-/

namespace CustomsClaims

/-- Why an operation on the file system or the network failed. -/
inductive IoError where
  | notFound
  | permissionDenied
  | busy
  | alreadyExists
  | notADirectory
  | isADirectory
  | nameTooLong
  /-- The content of a file is no UTF-8. -/
  | notText
  /-- A path holds the character NUL. -/
  | nulInPath
  /-- Any other failure, by its text. -/
  | other (text : String)
deriving DecidableEq, Repr

namespace IoError

/-- The number, the kind and the text of a failure that the operating system reports. -/
def system? : IoError → Option (Nat × String × String)
  | .notFound => some (2, "NotFound", "No such file or directory")
  | .permissionDenied => some (13, "PermissionDenied", "Permission denied")
  | .busy => some (16, "ResourceBusy", "Device or resource busy")
  | .alreadyExists => some (17, "AlreadyExists", "File exists")
  | .notADirectory => some (20, "NotADirectory", "Not a directory")
  | .isADirectory => some (21, "IsADirectory", "Is a directory")
  | .nameTooLong => some (36, "InvalidFilename", "File name too long")
  | _ => none

/-- The text of a failure. -/
def message : IoError → String
  | .notText => "stream did not contain valid UTF-8"
  | .nulInPath => "file name contained an unexpected NUL byte"
  | .other text => text
  | e =>
    match e.system? with
    | some (number, _, text) => text ++ " (os error " ++ decimalText number ++ ")"
    | none => ""

/-- The failure with all its parts. -/
def detail (e : IoError) : String :=
  match e with
  | .notText => errorDetail "InvalidData" e.message
  | .nulInPath => errorDetail "InvalidInput" e.message
  | .other text => errorDetail "Other" text
  | e =>
    match e.system? with
    | some (number, kind, text) =>
      "Os \x7b code: " ++ decimalText number ++ ", kind: " ++ kind ++ ", message: " ++
        quoted text ++ " \x7d"
    | none => ""
where
  /-- A failure without a number. -/
  errorDetail (kind text : String) : String :=
    "Error \x7b kind: " ++ kind ++ ", message: " ++ quoted text ++ " \x7d"

end IoError
end CustomsClaims

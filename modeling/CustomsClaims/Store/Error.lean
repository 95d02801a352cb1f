import CustomsClaims.Disk.Basic
import CustomsClaims.Json.Error

/-!
# Failures of claim stores

`FileError` is what can go wrong with a claim file; `StoreError` is what any store reports to its
users. `FileError.toStoreError` leads from the one to the other and keeps the cause.
-/

namespace CustomsClaims

/-- What a claim file was used for when the file system failed. -/
inductive FileAction where
  | inspect
  | createDirectory
  | create
  | read
  | write
  | replace
deriving DecidableEq, Repr

def FileAction.text : FileAction → String
  | inspect => "inspect"
  | createDirectory => "create directory"
  | create => "initialize"
  | read => "read"
  | write => "write"
  | replace => "replace"

/-- A failure with a claim file. -/
inductive FileError where
  /-- The file system failed. -/
  | io (action : FileAction) (path : Path) (cause : IoError)
  /-- The file holds no list of claims. -/
  | corrupt (path : Path) (cause : Json.Error)
  /-- The claims have no written form. -/
  | serialize (cause : Json.Error)
deriving DecidableEq, Repr

/-- A failure that a store reports, and the text of its cause. -/
inductive StoreError where
  /-- The store could not be read or written. -/
  | storage (message : String) (cause : Option String)
  /-- The store holds what is no list of claims. -/
  | corrupt (message : String) (cause : Option String)
  | internal (message : String)
deriving DecidableEq, Repr

namespace FileError

/-- The text of the cause. -/
def cause : FileError → String
  | io _ _ e => e.message
  | corrupt _ e => e.message
  | serialize e => e.message

def message : FileError → String
  | io action path e => "Failed to " ++ action.text ++ " " ++ path.text ++ ": " ++ e.message
  | corrupt path e => "Claim file " ++ path.text ++ " is corrupt: " ++ e.message
  | serialize e => "Failed to serialize claims: " ++ e.message

/-- What a store reports. -/
def toStoreError (e : FileError) : StoreError :=
  match e with
  | io .. => .storage e.message (some e.cause)
  | corrupt .. => .corrupt e.message (some e.cause)
  | serialize _ => .storage e.message (some e.cause)

end FileError

namespace StoreError

def message : StoreError → String
  | storage m _ => "Storage error: " ++ m
  | corrupt m _ => "Corrupt data: " ++ m
  | internal m => "Internal error: " ++ m

/-- The text of the cause, if there is one. -/
def cause? : StoreError → Option String
  | storage _ c => c
  | corrupt _ c => c
  | internal _ => none

/-- Is the content of the store at fault? -/
def isCorrupt : StoreError → Bool
  | corrupt .. => true
  | _ => false

end StoreError
end CustomsClaims

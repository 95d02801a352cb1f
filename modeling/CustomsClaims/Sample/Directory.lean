import CustomsClaims.Store.File

/-!
# Sample directories

A directory for trying out a store. Its claim file lies in a further directory that does not exist
at first, so that a store has to create both.
-/

namespace CustomsClaims.Sample

/-- A directory with room for a claim file. -/
structure Directory where
  path : Path
deriving DecidableEq, Repr

namespace Directory

/-- The claim file. -/
def dataFile (s : Directory) : Path :=
  s.path.join (Path.ofText "data/dutydrawback_claims.json")

/-- The store on the claim file. -/
def store (s : Directory) : FileStore := ⟨s.dataFile⟩

/-- Writes any text to the claim file. -/
def writeText (s : Directory) (text : String) (d : Disk) : Except IoError Disk :=
  match (s.dataFile.parent?.map d.makeDirs).getD (.ok (), d) with
  | (.ok (), d) => d.write s.dataFile (Utf8.encode text)
  | (.error e, _) => .error e

/-- The text of the claim file, or what is said when there is none. -/
def readText (s : Directory) (d : Disk) : Except String String :=
  (d.readText s.dataFile).mapError fun e => "failed to read data file: " ++ e.detail

/-- Removes the directory and all in it. -/
def discard (s : Directory) (d : Disk) : Except IoError Disk :=
  d.remove s.path

end Directory
end CustomsClaims.Sample

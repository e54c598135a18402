import InlineCompletion.Document.Path
import InlineCompletion.Failure

/-!
The files that the program works on, by their paths from the working directory. Paths are followed
name by name, and two dots go up.
-/

namespace InlineCompletion

structure Disk where
  folders : List Path := []
  files : List (Path × List UInt8) := []
  deriving DecidableEq, Repr

def upward : Text := ['.', '.']

/-- One name further. Above the working directory the dots are kept. -/
def Path.enter (path : Path) (name : Text) : Path :=
  if name = upward then
    match path.components.getLast? with
    | none => if path.root.isEmpty then { path with components := [upward] } else path
    | some last =>
      if last = upward then { path with components := path.components ++ [upward] }
      else path.parent
  else { path with components := path.components ++ [name] }

namespace Disk

variable (disk : Disk)

/-- Roots and what lies above the working directory are folders. -/
def isFolder (path : Path) : Bool :=
  path.components.all (· = upward) || path ∈ disk.folders

def isFile (path : Path) : Bool :=
  (disk.files.lookup path).isSome

/-- The place that names lead to; all but the last have to lead to folders. -/
def follow : Path → List Text → Option Path
  | here, [] => some here
  | here, name :: rest => if disk.isFolder here then follow (here.enter name) rest else none

def locate (path : Path) : Option Path :=
  disk.follow ⟨path.root, []⟩ path.components

/-- The bytes of the file at a path, if there is one. -/
def read (path : Path) : Option (List UInt8) :=
  (disk.locate path).bind fun place => disk.files.lookup place

def addFolder (path : Path) : Disk :=
  if disk.isFolder path then disk else { disk with folders := disk.folders ++ [path] }

def fileExists (path : Path) : Failure :=
  ⟨.fileExists, "[Errno 17] File exists: " ++ Text.quoted path.toText⟩

def notAFolder (path : Path) : Failure :=
  ⟨.notAFolder, "[Errno 20] Not a directory: " ++ Text.quoted path.toText⟩

def isAFolder (path : Path) : Failure :=
  ⟨.isAFolder, "[Errno 21] Is a directory: " ++ Text.quoted path.toText⟩

/-- No file or user can have such a name. -/
def hasNull (name : Text) : Bool :=
  name.any (· = '\x00')

def embeddedNull : Failure := ⟨.value, "embedded null byte"⟩

/-- Makes the folders on the way to `goal`. -/
def makeFrom (goal : Path) : Disk → Path → List Text → Except Failure Disk
  | disk, _, [] => .ok disk
  | disk, here, name :: rest =>
    let there := here.enter name
    if disk.isFile there then
      .error (if rest.isEmpty then fileExists goal else notAFolder goal)
    else makeFrom goal (disk.addFolder there) there rest

def makeFolders (path : Path) : Except Failure Disk :=
  if path.components.any hasNull then .error embeddedNull
  else makeFrom path disk ⟨path.root, []⟩ path.components

/-- Opens a file for writing at its end, and makes it if there is none. -/
def openEnd (path : Path) : Except Failure (Path × Disk) :=
  if path.components.any hasNull then .error embeddedNull
  else
    match disk.locate path with
    | none => .error (notAFolder path)
    | some place =>
      if disk.isFolder place then .error (isAFolder path)
      else if disk.isFile place then .ok (place, disk)
      else .ok (place, { disk with files := disk.files ++ [(place, [])] })

def append (place : Path) (bytes : List UInt8) : Disk :=
  { disk with
    files := disk.files.map fun file =>
      if file.1 = place then (file.1, file.2 ++ bytes) else file }

/-- A place and the folders on the way to it. -/
def reach (names : List Text) : Path × Disk → Path × Disk :=
  fun start => names.foldl (fun (here, disk) name => (here.enter name, disk.addFolder here)) start

/-- Puts a file on the disk, with the folders that it lies in. -/
def addFile (path : Path) (bytes : List UInt8) : Disk :=
  let (place, housed) := reach path.components (⟨path.root, []⟩, disk)
  { housed with files := housed.files ++ [(place, bytes)] }

end Disk

end InlineCompletion

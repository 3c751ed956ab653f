import PageDispatch.Cli.Files

/-!
This module contains trees of directories and files, and what reading a path in them comes to.
-/

namespace PageDispatch
namespace Script

inductive FileEntry where
  | directory
  | file (text : String)
  deriving DecidableEq, Repr

/-- Directories and files by the names on the way to them. What stands above one is a directory. -/
structure FileTree where
  entries : List (List String × FileEntry)
  /-- The directory where paths start that do not start at the root. -/
  current : List String
  deriving DecidableEq, Repr

namespace FileTree

def names (path : String) : List String := path.splitOn "/"

def entry? (t : FileTree) (place : List String) : Option FileEntry :=
  match t.entries.lookup place with
  | some entry => some entry
  | none =>
    if (t.entries.any fun (other, _) => place.isPrefixOf other) || place.isPrefixOf t.current then
      some .directory
    else none

def nameBound : Nat := 255

def pathBound : Nat := 4095

/-- Follows names from a place. A dot or nothing at all stays there, and two dots go one up. -/
def walk (t : FileTree) (place : List String) : List String → Except Cli.FileError FileEntry
  | [] =>
    match t.entry? place with
    | some entry => .ok entry
    | none => .error .missing
  | name :: rest =>
    match t.entry? place with
    | none => .error .missing
    | some (.file _) => .error .notDirectory
    | some .directory =>
      if name = "" ∨ name = "." then t.walk place rest
      else if name = ".." then t.walk place.dropLast rest
      else if nameBound < name.utf8ByteSize then .error .longName
      else t.walk (place ++ [name]) rest

def read (t : FileTree) : Cli.Files := fun path => do
  if pathBound < path.utf8ByteSize then .error .longName
  match ← t.walk (if path.startsWith "/" then [] else t.current) (names path) with
  | .file text => return text
  | .directory => .error .isDirectory

def addFile (t : FileTree) (path text : String) : FileTree :=
  { t with entries := ((names path).filter (· ≠ ""), .file text) :: t.entries }

def commonDirectories : List String := [
  "bin", "boot", "dev/fd", "dev/pts", "dev/shm", "etc", "home", "lib", "media", "mnt", "opt",
  "proc/self", "proc/sys", "root", "run", "sbin", "srv", "sys", "tmp", "usr/bin", "usr/include",
  "usr/lib", "usr/local/bin", "usr/local/lib", "usr/sbin", "usr/share", "usr/src", "var/cache",
  "var/lib", "var/log", "var/run", "var/tmp"]

def emptyDevices : List String := ["dev/null", "dev/stdin"]

/-- A machine with nothing on it but its common directories and empty devices. -/
def bare : FileTree where
  entries :=
    (emptyDevices.map fun d => (names d, .file ""))
      ++ commonDirectories.map fun d => (names d, .directory)
  current := ["home", "work"]

end FileTree
end Script
end PageDispatch

import StreamRelay.Bytes
import StreamRelay.SystemError

/-!
# Files

The files of a host are a tree of directories. A path is followed name by name, and a file is read
as a whole or not at all. The first thing in the way of a path is the reason why it cannot be read.
-/

namespace StreamRelay

abbrev Files := String → Except SystemError Bytes

namespace Files

/-- What a name of a directory stands for. A device is a file. -/
inductive Entry
  | file (content : Bytes)
  | directory (entries : List (String × Entry))

def maxNameSize : Nat := 255

def maxPathSize : Nat := 4096

def names (path : String) : List String := path.splitOn "/"

/-- Go to the entry of a name. `above` are the directories from the parent of `here` up to the root,
which is its own parent. An empty name stays where it is, but only in a directory. -/
def enter (above : List Entry) (here : Entry) (name : String) :
    Except SystemError (List Entry × Entry) :=
  match here with
  | .file _ => .error .notDirectory
  | .directory entries =>
    if name = "" ∨ name = "." then .ok (above, here)
    else if name = ".." then
      match above with
      | [] => .ok ([], here)
      | parent :: above => .ok (above, parent)
    else if maxNameSize < name.utf8ByteSize then .error .nameTooLong
    else
      match entries.lookup name with
      | some entry => .ok (here :: above, entry)
      | none => .error .fileNotFound

/-- Files, and where a path without a leading slash starts: the directory that the names of
`current` lead to. -/
structure Tree where
  root : Entry
  current : List String

def Tree.route (t : Tree) (path : String) : List String :=
  if path.startsWith "/" then names path else t.current ++ names path

def Tree.find (t : Tree) (path : String) : Except SystemError Entry := do
  if path.contains '\x00' then throw .invalidPath
  if path = "" then throw .fileNotFound
  if maxPathSize ≤ path.utf8ByteSize then throw .nameTooLong
  let (_, entry) ← (t.route path).foldlM (fun p name => enter p.1 p.2 name) ([], t.root)
  return entry

def ofTree (t : Tree) : Files := fun path => do
  match ← t.find path with
  | .file content => return content
  | .directory _ => throw .isDirectory

def bare : Tree :=
  let empty (name : String) : String × Entry := (name, .directory [])
  let device := ("dev", .directory [("null", .file [])])
  let home := ("home", .directory [empty "relay"])
  let others := ["bin", "etc", "lib", "opt", "proc", "root", "run", "sbin", "sys", "tmp", "usr",
    "var"].map empty
  { root := .directory (device :: home :: others), current := ["home", "relay"] }

def adding (path : String) (content : Bytes) (files : Files) : Files := fun p =>
  if p = path then .ok content else files p

end Files

end StreamRelay

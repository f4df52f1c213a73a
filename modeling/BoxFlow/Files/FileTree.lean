import BoxFlow.Files.Path

/-!
# Folders of files

Whatever is read from a path goes through a reader, which gives the bytes of a
file or nothing. A file tree is a folder held in memory: paths start in it, and
nothing outside of it can be reached.
-/

namespace BoxFlow

/-- The contents of a file. -/
abbrev Bytes := Array UInt8

/-- Finds the contents of the file at a path. -/
abbrev FileReader := String → Option Bytes

/-- The text that some bytes encode in UTF-8. -/
def textOfBytes? (bytes : Bytes) : Option String :=
  String.fromUTF8? ⟨bytes⟩

/-- The text in the file at a path. -/
def FileReader.text? (read? : FileReader) (path : String) : Option String :=
  (read? path).bind textOfBytes?

/-- Files and folders by the names that lead to them. -/
structure FileTree where
  files : List (List String × Bytes) := []
  folders : List (List String) := []

namespace FileTree

/-- Whether the names lead to a folder. -/
def isFolder (t : FileTree) (names : List String) : Bool :=
  names.isEmpty || t.folders.contains names

/-- Where the names lead from a folder, every step but the last one through an
existing folder. -/
def follow (t : FileTree) : List String → List String → Option (List String)
  | here, [] => some here
  | here, name :: rest =>
    if !t.isFolder here then none
    else if name = "." then t.follow here rest
    else if name = ".." then
      if here.isEmpty then none else t.follow here.dropLast rest
    else t.follow (here ++ [name]) rest

/-- Where a path leads. -/
def resolve? (t : FileTree) (path : String) : Option (List String) :=
  let way := Path.way path
  if way.fromRoot then none else t.follow [] way.names

/-- The contents of the file at a path. -/
def read? (t : FileTree) : FileReader := fun path =>
  if Path.endsInFolder path then none
  else (t.resolve? path).bind fun names => (t.files.find? fun f => f.1 == names).map Prod.snd

/-- Whether a file can be written at a path: its folder exists, and it is none
itself. -/
def canWrite (t : FileTree) (path : String) : Bool :=
  !Path.endsInFolder path && match t.resolve? path with
    | some names => !t.isFolder names
    | none => false

/-- Puts a file at the end of some names, with the folders on the way. -/
def put (t : FileTree) (names : List String) (contents : Bytes) : FileTree where
  files := (names, contents) :: t.files.filter fun f => f.1 != names
  folders := (List.range names.length).map names.take ++ t.folders

/-- The folder that holds files at some paths. -/
def ofFiles (files : List (String × Bytes)) : FileTree :=
  files.foldl (fun t (path, contents) => t.put (Path.way path).names contents) {}

/-- Removes the file at a path; its folder stays. -/
def remove (t : FileTree) (path : String) : FileTree :=
  match t.resolve? path with
  | some names => { t with files := t.files.filter fun f => f.1 != names }
  | none => t

end FileTree

end BoxFlow

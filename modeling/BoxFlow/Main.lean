import BoxFlow.CommandLine.Run

/-!
# The program

Reads the files that a command line needs, carries it out, and writes what comes
of it. The status is 2 for a command line that is refused, and a run that fails
has its own.
-/

namespace BoxFlow

/-- How to call the program. -/
def usage : String :=
  "Usage: boxflow [OPTIONS] <FILE>\n\n" ++
  "  -o, --output <FILE>   write the picture to this file\n" ++
  "      --width <N>       width of the canvas in pixels, 500 if not given\n" ++
  "      --height <N>      height of the canvas in pixels, 300 if not given\n" ++
  "      --css <FILE>      a further stylesheet; can be repeated\n" ++
  "      --visited <URL>   a visited link; can be repeated\n" ++
  "      --no-default-css  leave out the default stylesheet\n" ++
  "      --font <FILE>     a font for all text\n" ++
  "  -d, --dump            print tree, rules, styles and commands\n" ++
  "      --json            print the styles of the elements\n"

/-- The contents of those files that can be read. -/
def readFiles (paths : List String) : IO (List (String × Bytes)) :=
  paths.filterMapM fun (path : String) => do
    try
      let contents ← IO.FS.readBinFile path
      return some (path, contents.data)
    catch _ => return none

/-- A reader of files read before. -/
def readerOf (files : List (String × Bytes)) : FileReader := fun path =>
  (files.find? fun f => f.1 == path).map Prod.snd

/-- Writes a picture and tells whether that worked. -/
def save (p : SavedPicture) : IO Bool := do
  if !p.isWritable then return false
  try
    IO.FS.writeBinFile p.path ⟨p.bytes⟩
    return true
  catch _ => return false

/-- Carries out a command line and gives the status. -/
def runOptions (o : Options) : IO UInt32 := do
  let files ← readFiles o.files
  let images ← readFiles (o.imageFiles (readerOf files))
  match o.run (readerOf (files ++ images)) with
  | .error e =>
    IO.eprintln ("Error: " ++ e.message)
    return .ofNat e.status
  | .ok result =>
    for line in result.log do
      IO.eprintln (Terminal.yellow line)
    let saved ← match result.picture with
      | none => pure true
      | some p => save p
    match result.finish fun _ => saved with
    | .ok text =>
      IO.print text
      return 0
    | .error e =>
      IO.print result.report
      IO.eprintln ("Error: " ++ e.message)
      return .ofNat e.status

end BoxFlow

def main (words : List String) : IO UInt32 := do
  match BoxFlow.Options.read words with
  | .ok options => BoxFlow.runOptions options
  | .error .helpAsked =>
    IO.print BoxFlow.usage
    return 0
  | .error .versionAsked =>
    IO.println "boxflow 0.1.0"
    return 0
  | .error cause =>
    IO.eprintln ("error: " ++ cause.message)
    IO.eprint BoxFlow.usage
    return 2

import BoxFlow.Layout.Document
import BoxFlow.Text.Numeral

/-!
# Options of the command line

A command line names one document and says what to do with it. Options may stand
before and after the file. The value of an option is the rest of its word or the
next word, which must not look like an option; after two dashes every word is a
file. Reading goes word by word and stops at the first that is refused, or that
asks for help.
-/

namespace BoxFlow

/-- What a command line asks for. -/
structure Options where
  input : String
  output : Option String := none
  canvas : CanvasSize := {}
  sheets : List String := []
  visited : List String := []
  useDefaults : Bool := true
  font : Option String := none
  dump : Bool := false
  json : Bool := false
deriving DecidableEq, Repr

/-- Options that stand alone. -/
inductive FlagName where
  | noDefaultCss | dump | json | help | version
deriving DecidableEq, Repr

/-- Options with a value. -/
inductive SettingName where
  | output | width | height | css | visited | font
deriving DecidableEq, Repr

/-- An option by its kind. -/
inductive OptionName where
  | flag (name : FlagName)
  | setting (name : SettingName)
deriving DecidableEq, Repr

namespace OptionName

/-- The long words of the options. -/
def longNames : List (String × OptionName) :=
  [("no-default-css", flag .noDefaultCss), ("dump", flag .dump), ("json", flag .json),
   ("help", flag .help), ("version", flag .version), ("output", setting .output),
   ("width", setting .width), ("height", setting .height), ("css", setting .css),
   ("visited", setting .visited), ("font", setting .font)]

/-- The letters of the options that have one. -/
def letters : List (Char × OptionName) :=
  [('d', flag .dump), ('h', flag .help), ('V', flag .version), ('o', setting .output)]

/-- The option of a long word. -/
def ofLong? (word : String) : Option OptionName :=
  (longNames.find? fun entry => entry.1 == word).map Prod.snd

/-- The option of a letter. -/
def ofLetter? (letter : Char) : Option OptionName :=
  (letters.find? fun entry => entry.1 == letter).map Prod.snd

/-- The long word of an option, with its dashes. -/
def text (name : OptionName) : String :=
  "--" ++ ((longNames.find? fun entry => entry.2 == name).map Prod.fst).getD ""

end OptionName

/-- Why a command line is not carried out. The last two are not mistakes. -/
inductive Refusal where
  | unknownOption (word : String)
  | missingValue (name : SettingName)
  | unexpectedValue (name : FlagName)
  | invalidValue (name : SettingName) (value : String)
  | repeated (name : OptionName)
  | unexpectedFile (path : String)
  | missingFile
  | conflict (first second : FlagName)
  | helpAsked
  | versionAsked
deriving DecidableEq, Repr

namespace Refusal

/-- The cause in words. -/
def message : Refusal → String
  | unknownOption word => "unexpected argument '" ++ word ++ "' found"
  | missingValue name => "a value is required for '" ++ (OptionName.setting name).text ++ "'"
  | unexpectedValue name => "unexpected value for '" ++ (OptionName.flag name).text ++ "'"
  | invalidValue name value =>
    "invalid value '" ++ value ++ "' for '" ++ (OptionName.setting name).text ++ "'"
  | repeated name => "the argument '" ++ name.text ++ "' cannot be used multiple times"
  | unexpectedFile path => "unexpected argument '" ++ path ++ "' found"
  | missingFile => "no file is given"
  | conflict first second =>
    "the argument '" ++ (OptionName.flag first).text ++ "' cannot be used with '" ++
      (OptionName.flag second).text ++ "'"
  | helpAsked => "help"
  | versionAsked => "version"

/-- Whether the command line was right. -/
def isRequest : Refusal → Bool
  | helpAsked | versionAsked => true
  | _ => false

end Refusal

/-- A command line taken apart. -/
inductive Argument where
  | file (path : String)
  | flag (name : FlagName)
  | setting (name : SettingName) (value : String)
  | refused (cause : Refusal)
deriving DecidableEq, Repr

namespace Argument

/-- Whether a word is an option rather than a value or a file. -/
def looksLikeOption (word : String) : Bool :=
  match word.toList with
  | '-' :: _ :: _ => true
  | _ => false

/-- The options in a word of letters behind one dash. The rest of the word behind
an option with a value is its value; if nothing is left, the value is still to
come. -/
def ofLetters : List Char → List Argument × Option SettingName
  | [] => ([], none)
  | letter :: rest =>
    match OptionName.ofLetter? letter with
    | none => ([.refused (.unknownOption (.ofList ['-', letter]))], none)
    | some (.flag name) =>
      let (more, awaiting) := ofLetters rest
      (.flag name :: more, awaiting)
    | some (.setting name) =>
      if rest.isEmpty then ([], some name)
      else ([.setting name (.ofList (Text.dropLeading '=' rest))], none)

/-- The option in a word behind two dashes, with its value behind an equals sign. -/
def ofLongWord (word : List Char) : List Argument × Option SettingName :=
  match OptionName.ofLong? (.ofList (Text.upTo '=' word)), Text.cutAt? '=' word with
  | none, _ => ([.refused (.unknownOption ("--" ++ .ofList word))], none)
  | some (.flag name), none => ([.flag name], none)
  | some (.flag name), some _ => ([.refused (.unexpectedValue name)], none)
  | some (.setting name), none => ([], some name)
  | some (.setting name), some (_, value) => ([.setting name (.ofList value)], none)

/-- What a word holds, and the option that takes the next word as its value. -/
def ofWord (word : String) : List Argument × Option SettingName :=
  match word.toList with
  | '-' :: '-' :: rest => ofLongWord rest
  | '-' :: letter :: rest => ofLetters (letter :: rest)
  | _ => ([.file word], none)

/-- What the words hold, in order, up to the first that is refused. -/
def ofWords : List String → List Argument
  | [] => []
  | word :: rest =>
    if word = "--" then rest.map .file
    else
      let (read, awaiting) := ofWord word
      match awaiting with
      | none => read ++ ofWords rest
      | some name =>
        match rest with
        | [] => read ++ [.refused (.missingValue name)]
        | value :: rest =>
          if looksLikeOption value then read ++ [.refused (.missingValue name)]
          else read ++ .setting name value :: ofWords rest

end Argument

/-- Options while they are being read. -/
structure Draft where
  input : Option String := none
  output : Option String := none
  width : Option Nat := none
  height : Option Nat := none
  sheets : List String := []
  visited : List String := []
  noDefaults : Bool := false
  font : Option String := none
  dump : Bool := false
  json : Bool := false

namespace Draft

/-- A path as a value: it must not be empty. -/
def path (name : SettingName) (value : String) : Except Refusal String :=
  if value = "" then .error (.invalidValue name value) else .ok value

/-- A number of pixels as a value: 32 bits without a sign. -/
def pixels (name : SettingName) (value : String) : Except Refusal Nat :=
  match Text.readWithin? 0 extentMax value.toList with
  | some n => .ok n.toNat
  | none => .error (.invalidValue name value)

/-- The value of an option that can be given once. -/
def once {α : Type} (name : SettingName) (given : Option α) (value : Except Refusal α) :
    Except Refusal (Option α) :=
  if given.isSome then .error (.repeated (.setting name)) else value.map some

/-- A flag that can be given once. -/
def raise (name : FlagName) (given : Bool) : Except Refusal Bool :=
  if given then .error (.repeated (.flag name)) else .ok true

/-- Takes one argument into account. -/
def add (d : Draft) : Argument → Except Refusal Draft
  | .refused cause => .error cause
  | .file value =>
    if d.input.isSome then .error (.unexpectedFile value)
    else if value = "" then .error .missingFile
    else .ok { d with input := some value }
  | .flag .help => .error .helpAsked
  | .flag .version => .error .versionAsked
  | .flag .dump => do return { d with dump := ← raise .dump d.dump }
  | .flag .json => do return { d with json := ← raise .json d.json }
  | .flag .noDefaultCss => do return { d with noDefaults := ← raise .noDefaultCss d.noDefaults }
  | .setting .output value => do
    return { d with output := ← once .output d.output (path .output value) }
  | .setting .width value => do
    return { d with width := ← once .width d.width (pixels .width value) }
  | .setting .height value => do
    return { d with height := ← once .height d.height (pixels .height value) }
  | .setting .font value => do return { d with font := ← once .font d.font (path .font value) }
  | .setting .css value => do return { d with sheets := d.sheets ++ [← path .css value] }
  | .setting .visited value => .ok { d with visited := d.visited ++ [value] }

/-- The options, if a file is given and no two flags exclude each other. -/
def options (d : Draft) : Except Refusal Options :=
  if d.dump && d.json then .error (.conflict .json .dump)
  else match d.input with
    | none => .error .missingFile
    | some input =>
      .ok
        { input
          output := d.output
          canvas := { width := d.width.getD 500, height := d.height.getD 300 }
          sheets := d.sheets
          visited := d.visited
          useDefaults := !d.noDefaults
          font := d.font
          dump := d.dump
          json := d.json }

end Draft

/-- The options of a command line. -/
def Options.read (words : List String) : Except Refusal Options := do
  let draft ← (Argument.ofWords words).foldlM Draft.add {}
  draft.options

end BoxFlow

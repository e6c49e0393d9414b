/-
# Arguments of the program

The arguments are read from left to right, and the first that is wrong decides. Options have a long
name, most of them a short one as well, and some take a value, which may be joined to the name; a
value on its own must not look like an option. Short options without values can be written
together. After two dashes everything is a word. An option may be given once, unless it can be
repeated; the general options may be given once before the command and once after it, where the
later one counts.

Key definitions: `OptionForm`, `EarlyEnd`, `scanArguments`, `Arguments`, `Arguments.read`.
-/
import Codebook.Command.Basic
import Codebook.Text.Split

namespace Codebook

/-- An option. -/
structure OptionForm where
  /-- Its long name. -/
  long : String
  /-- Its short name. -/
  short : Option Char := none
  /-- Whether it takes a value. -/
  takesValue : Bool := false
  /-- Whether it can be repeated. -/
  repeatable : Bool := false
  /-- The values it takes. -/
  accepts : String → Bool := fun _ => true

/-- Why the arguments were not read to the end. -/
inductive EarlyEnd where
  /-- They are wrong. -/
  | refused
  /-- They ask for help. -/
  | help
  /-- They ask for the version of the program. -/
  | version
deriving DecidableEq, Repr

/-- The options that were given with their values, in order, by long names. -/
abbrev Given := List (String × String)

namespace OptionForm

/-- Takes note of an option. -/
def record (f : OptionForm) (value : String) (given : Given) : Except EarlyEnd Given :=
  if f.long = "help" then .error .help
  else if f.long = "version" then .error .version
  else if !f.accepts value || (!f.repeatable && given.any fun g => g.1 == f.long) then
    .error .refused
  else .ok (given ++ [(f.long, value)])

/-- Takes note of a long option, without the dashes, and tells whether it waits for its value. -/
def recordLong (forms : List OptionForm) (body : List Char) (given : Given) :
    Except EarlyEnd (Given × Option OptionForm) :=
  let (name, value) := match Text.splitFirst ['='] body with
    | some (name, value) => (name, some (String.ofList value))
    | none => (body, none)
  match forms.find? fun f => f.long == String.ofList name with
  | none => .error .refused
  | some f =>
    match f.takesValue, value with
    | true, some v => (f.record v given).map fun g => (g, none)
    | true, none => .ok (given, some f)
    | false, some _ => .error .refused
    | false, none => (f.record "" given).map fun g => (g, none)

/-- Takes note of short options that are written together, and tells which one waits for its
value. -/
def recordShort (forms : List OptionForm) :
    List Char → Given → Except EarlyEnd (Given × Option OptionForm)
  | [], given => .ok (given, none)
  | c :: cs, given =>
    match forms.find? fun f => f.short == some c with
    | none => .error .refused
    | some f =>
      if f.takesValue then
        match cs with
        | [] => .ok (given, some f)
        | '=' :: value => (f.record (String.ofList value) given).map fun g => (g, none)
        | value => (f.record (String.ofList value) given).map fun g => (g, none)
      else
        match f.record "" given with
        | .ok given => recordShort forms cs given
        | .error e => .error e

end OptionForm

/-- Whether an argument looks like an option. -/
def looksLikeOption (arg : String) : Bool :=
  arg.startsWith "-" && arg != "-"

/-- Reads arguments up to the first word if that is asked for, else to the end: the options, the
words, and the arguments that are left. -/
def scanArguments (forms : List OptionForm) (toFirstWord : Bool) :
    List String → Given → List String → Option OptionForm →
      Except EarlyEnd (Given × List String × List String)
  | [], given, words, none => .ok (given, words, [])
  | [], _, _, some _ => .error .refused
  | arg :: args, given, words, some f =>
    if looksLikeOption arg then .error .refused
    else do scanArguments forms toFirstWord args (← f.record arg given) words none
  | arg :: args, given, words, none =>
    match arg.toList with
    | ['-', '-'] => if toFirstWord then .error .refused else .ok (given, words ++ args, [])
    | '-' :: '-' :: body => do
      let (given, waiting) ← OptionForm.recordLong forms body given
      scanArguments forms toFirstWord args given words waiting
    | '-' :: c :: cs => do
      let (given, waiting) ← OptionForm.recordShort forms (c :: cs) given
      scanArguments forms toFirstWord args given words waiting
    | _ =>
      if toFirstWord then .ok (given, [arg], args)
      else scanArguments forms toFirstWord args given (words ++ [arg]) none

/-- The arguments of the program. -/
structure Arguments where
  /-- The directory of the indexes. -/
  indexDirectory : String
  /-- The directory of the data files. -/
  dataDirectory : String
  /-- How many entities a rebuild reads at a time, if that is given. -/
  pageSize : Option Nat
  /-- The memory of a writer in megabytes, if that is given. -/
  heapMegabytes : Option Nat
  /-- Whether to report on each step. -/
  verbose : Bool
  /-- The command. -/
  command : Command
deriving DecidableEq, Repr

namespace Arguments

/-- Whether a text is a size. -/
def isSize (s : String) : Bool :=
  (Number.readUnsigned s).isSome

/-- The options that stand before or after the command. -/
def generalForms : List OptionForm := [
  { long := "index-dir", takesValue := true, accepts := (· != "") },
  { long := "data-dir", takesValue := true, accepts := (· != "") },
  { long := "page-size", takesValue := true, accepts := isSize },
  { long := "writer-heap-mb", takesValue := true, accepts := isSize },
  { long := "verbose", short := some 'v' },
  { long := "help", short := some 'h' }]

/-- The options that stand before the command. -/
def programForms : List OptionForm :=
  { long := "version", short := some 'V' } :: generalForms

/-- The commands with their own options. -/
def commandForms : List (String × List OptionForm) := [
  ("rebuild", [{ long := "force", short := some 'f' },
    { long := "target", short := some 't', takesValue := true, repeatable := true }]),
  ("verify", []),
  ("query", [{ long := "criteria", short := some 'c', takesValue := true }]),
  ("stats", [{ long := "format", short := some 'f', takesValue := true }]),
  ("version", [])]

/-- The values of an option. -/
def valuesOf (given : Given) (long : String) : List String :=
  given.filterMap fun (name, value) => if name = long then some value else none

/-- Makes a command of its name, its options and its words. -/
def command? (name : String) (given : Given) (words : List String) : Option Command :=
  match name, words with
  | "rebuild", [] => some (.rebuild (valuesOf given "target") !(valuesOf given "force").isEmpty)
  | "verify", [] => some .verify
  | "query", [entity] => some (.query entity (valuesOf given "criteria").head?)
  | "stats", [] => some (.stats ((valuesOf given "format").head?.getD "text"))
  | "version", [] => some .version
  | _, _ => none

/-- What a request for help on a command ends with. -/
def helpEnd : List String → EarlyEnd
  | [] => .help
  | [name] => if name = "help" || (commandForms.lookup name).isSome then .help else .refused
  | _ => .refused

/-- Reads the arguments of the program. -/
def read (args : List String) : Except EarlyEnd Arguments := do
  let (before, words, args) ← scanArguments programForms true args [] [] none
  let name := words.head?.getD ""
  if name = "help" then throw (helpEnd args)
  let some forms := commandForms.lookup name | throw .refused
  let (after, words, _) ← scanArguments (forms ++ generalForms) false args [] [] none
  let some command := command? name after words | throw .refused
  let last? (long : String) := (valuesOf (before ++ after) long).getLast?
  return {
    indexDirectory := (last? "index-dir").getD "index"
    dataDirectory := (last? "data-dir").getD "data"
    pageSize := (last? "page-size").bind Number.readUnsigned
    heapMegabytes := (last? "writer-heap-mb").bind Number.readUnsigned
    verbose := (last? "verbose").isSome
    command }

/-- The directory or file that a text names. Empty names and single dots are passed over, and two
dots lead back. -/
def pathOf (s : String) : Path :=
  let top : Path := if s.startsWith "/" then ["/"] else []
  (s.splitOn "/").foldl
    (fun path name =>
      if name = "" || name = "." then path
      else if name = ".." then
        match path.getLast? with
        | none | some ".." => path ++ [name]
        | some "/" => path
        | some _ => path.dropLast
      else path ++ [name])
    top

/-- The settings of the indexes. -/
def config (a : Arguments) : Config :=
  let c : Config := { root := pathOf a.indexDirectory }
  { c with
    rebuildPageSize := a.pageSize.getD c.rebuildPageSize
    writerHeapBytes := (a.heapMegabytes.map fun n => min (n * (1024 * 1024)) maxCount).getD
      c.writerHeapBytes }

end Arguments

end Codebook

import SuiteRunner.FileTree
/-!
The programs a test may start, and what starting one does.

The system's programs live in `/usr/bin`, with `/bin` a link to it, and `/dev/null` discards what
is written to it. A program file is an executable whose content begins with the executable
magic `\x7fELF` followed by the program's name; the programs known are the shell (`sh`, `dash`,
`bash`), `sleep`, `true`, `false`, `echo`, `printf`, `cat`, `kill` and `env`.

Starting a path follows the kernel's rules: a directory or a file without the execute bit is
refused with `EACCES`; a file starting with `#!` runs its interpreter with the optional argument
of that line, the path and the arguments, at most four interpreters deep (`ELOOP` beyond); any
other file is not an executable format. A name without `/` is looked for in each directory of
the search path in turn; when none has it the start fails with `ENOENT`, or with `EACCES` when
one had a file that could not be run. The empty name is never found.
-/

namespace SuiteRunner

/-- A program of the system. -/
inductive Program where
  | shell
  | sleep
  | succeed
  | fail
  | echo
  | printf
  | cat
  | kill
  | env
  deriving Repr, DecidableEq, Inhabited

/-- The file names of the system's programs. -/
def Program.files : List (String × Program) :=
  [("sh", .shell), ("dash", .shell), ("bash", .shell), ("sleep", .sleep), ("true", .succeed),
   ("false", .fail), ("echo", .echo), ("printf", .printf), ("cat", .cat), ("kill", .kill),
   ("env", .env)]

/-- The magic bytes that begin an executable. -/
def executableMagic : List UInt8 := [0x7f, 0x45, 0x4c, 0x46]

/-- The content of the file of a system program. -/
def Program.image (name : String) : List UInt8 := executableMagic ++ Name.ofString name

/-- The program an executable's content is, if it is one of the system's. -/
def Program.ofContent (content : List UInt8) : Option Program :=
  if executableMagic.isPrefixOf content then
    match String.fromUTF8? (ByteArray.mk (content.drop executableMagic.length).toArray) with
    | some name => (Program.files.find? (·.1 == name)).map (·.2)
    | none => none
  else none

/-- What a process inherits besides its arguments: the home directory and the configuration
home (`XDG_CONFIG_HOME`), where the configuration is looked for, and the search path for bare
program names. -/
structure Environment where
  home : Option String := none
  path : List String := []
  configHome : Option String := none
  deriving Repr, DecidableEq, Inhabited

/-- The location of `/dev/null`. -/
def devNull : Location := [Name.ofString "dev", Name.ofString "null"]

namespace FileTree

/-- The scratch tree with the system's programs under `/usr/bin`, `/bin` linked to it, and
`/dev/null`. -/
def system : FileTree :=
  let usr := Name.ofString "usr"
  let bin := [usr, Name.ofString "bin"]
  let t := FileTree.scratch
  let t := (t.put [usr] .dir).put bin .dir
  let t := Program.files.foldl (fun t (name, _) =>
    t.put (bin ++ [Name.ofString name]) (.file (Program.image name) true)) t
  let t := t.put [Name.ofString "bin"] (.link "usr/bin")
  (t.put [Name.ofString "dev"] .dir).put devNull (.file [] false)

end FileTree

/-- What runs after a successful exec: a system program with its argument list, whose first
element is the name it was started by. -/
structure Image where
  program : Program
  argv : List String
  deriving Repr, DecidableEq

/-- Space and tab, which separate the interpreter from its argument on a `#!` line. -/
def isSpaceTab (b : UInt8) : Bool := b == 32 || b == 9

/-- The interpreter and its optional argument named by a `#!` line (the bytes after `#!`, up to
the end of the line); `none` when no interpreter is named. -/
def interpreterLine (line : List UInt8) : Option (List UInt8 × Option (List UInt8)) :=
  let line := line.takeWhile (· != 0)
  let line := (line.reverse.dropWhile isSpaceTab).reverse
  let line := line.dropWhile isSpaceTab
  let name := line.takeWhile (fun b => !isSpaceTab b)
  let arg := (line.drop name.length).dropWhile isSpaceTab
  if name.isEmpty then none else some (name, if arg.isEmpty then none else some arg)

/-- Text from bytes, replacing what is not UTF-8. -/
def textOfBytes (bytes : List UInt8) : String :=
  match String.fromUTF8? (ByteArray.mk bytes.toArray) with
  | some s => s
  | none => String.ofList (bytes.map fun b => if b < 128 then Char.ofNat b.toNat else '�')

/-- The content of a file as text, if the path names one. -/
def FileTree.textAt? (t : FileTree) (path : String) : Option String :=
  (t.readFile path).toOption.map textOfBytes

/-- The most interpreters one exec passes through. -/
def interpreterDepth : Nat := 4

/-- The image an exec of a path starts with the arguments after the program name, or the error
the exec fails with. -/
def exec (t : FileTree) : Nat → String → List String → Except OsError Image
  | depth, path, args => do
      let loc ← t.resolve path
      match t.node? loc with
      | some (.file content true) =>
        match content with
        | 35 :: 33 :: rest =>
          match interpreterLine (rest.takeWhile (· != 10)), depth with
          | none, _ => .error .execFormat
          | some _, 0 => .error .tooManyLinks
          | some (name, arg), d + 1 =>
            let interp := textOfBytes name
            let extra := match arg with
              | some a => [textOfBytes a]
              | none => []
            exec t d interp (extra ++ [path] ++ args)
        | _ =>
          match Program.ofContent content with
          | some p => .ok ⟨p, path :: args⟩
          | none => .error .execFormat
      | some (.file _ false) => .error .permissionDenied
      | some .dir => .error .permissionDenied
      | _ => .error .notFound

/-- Looking for a bare name in the directories of a search path: the first image that starts, or
the error to report, `EACCES` when some directory had a file that could not be run. -/
def searchExec (t : FileTree) (name : String) (args : List String) :
    List String → Bool → Except OsError Image
  | [], denied => .error (if denied then .permissionDenied else .notFound)
  | dir :: dirs, denied =>
    let candidate := if dir.isEmpty then name else if dir.endsWith "/" then dir ++ name else dir ++ "/" ++ name
    match exec t interpreterDepth candidate args with
    | .ok img => .ok img
    | .error .permissionDenied => searchExec t name args dirs true
    | .error .notFound | .error .notADirectory => searchExec t name args dirs denied
    | .error e => .error e

/-- The image started for a program and its arguments: a path is started as it is, a bare name is
looked for on the search path. -/
def spawn (t : FileTree) (searchPath : List String) (program : String) (args : List String) :
    Except OsError Image :=
  if program.isEmpty then .error .notFound
  else if program.contains '/' then exec t interpreterDepth program args
  else searchExec t program args searchPath false

/-- The executable file a bare name finds on the search path, as `which` reports it. -/
def which (t : FileTree) (searchPath : List String) (name : String) : Option String :=
  searchPath.findSome? fun dir =>
    let candidate := if dir.endsWith "/" then dir ++ name else dir ++ "/" ++ name
    match t.metadata candidate with
    | .ok (.file _ true) => some candidate
    | _ => none

end SuiteRunner

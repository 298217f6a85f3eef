import SuiteRunner.Fault

/-!
A file tree in memory: directories, files with their bytes and execute bit, and symbolic links
with the text they point to. A directory may be searchable but not readable: a path through it
resolves, but listing it is refused. Every entry is stored under its location, the list of names from the
root of the file system; names are bytes, as on disk. Relative paths start from the working
directory.

Paths are resolved a component at a time, as the kernel does: `.` stays, `..` goes up, a name must
exist, a file may not be passed through, and a link is replaced by its target, read from the
directory that holds it. At most forty links are followed in one resolution, after which the
path is refused as a loop.
-/

namespace SuiteRunner

/-- A name in a directory, as bytes. -/
abbrev Name := List UInt8

/-- A place in the tree: the names from the root, outermost first. -/
abbrev Location := List Name

/-- What a location holds. -/
inductive Node where
  | dir
  | file (content : List UInt8) (exec : Bool)
  | link (target : String)
  deriving Repr, DecidableEq, Inhabited

/-- A file tree with a working directory. -/
structure FileTree where
  entries : List (Location × Node) := []
  cwd : Location := []
  /-- The directories that can be entered but not listed. -/
  unlisted : List Location := []
  deriving Repr, Inhabited

/-- The bytes of a text name. -/
def Name.ofString (s : String) : Name := s.toUTF8.toList

/-- The most links one resolution follows. -/
def linkBudget : Nat := 40

namespace FileTree

/-- The entry at a location; the root is always a directory. -/
def node? (t : FileTree) (loc : Location) : Option Node :=
  if loc.isEmpty then some .dir else (t.entries.find? (·.1 == loc)).map (·.2)

/-- Follow the components `rest` from the directory `cur`. A link in the last place is followed
only when `follow` is set; a link anywhere else always is. -/
def walk (t : FileTree) (budget : Nat) (cur : Location) (rest : List String) (follow : Bool) :
    Except OsError Location :=
  match rest with
  | [] => .ok cur
  | c :: more =>
    if c.isEmpty || c == "." then t.walk budget cur more follow
    else if c == ".." then t.walk budget cur.dropLast more follow
    else
      let loc := cur ++ [Name.ofString c]
      match t.node? loc with
      | none => .error .notFound
      | some .dir => t.walk budget loc more follow
      | some (.file _ _) => if more.isEmpty then .ok loc else .error .notADirectory
      | some (.link target) =>
        if more.isEmpty && !follow then .ok loc
        else
          match budget with
          | 0 => .error .tooManyLinks
          | b + 1 =>
            let base := if target.startsWith "/" then [] else cur
            t.walk b base (target.splitOn "/" ++ more) follow
termination_by (budget, rest.length)

/-- The location a path names, following links. -/
def resolve (t : FileTree) (path : String) (follow : Bool := true) : Except OsError Location :=
  if path.isEmpty then .error .notFound
  else
    let start := if path.startsWith "/" then [] else t.cwd
    t.walk linkBudget start (path.splitOn "/") follow

/-- What a path names after following links. -/
def metadata (t : FileTree) (path : String) : Except OsError Node := do
  let loc ← t.resolve path
  match t.node? loc with
  | some n => .ok n
  | none => .error .notFound

/-- Whether a path names a directory. -/
def isDir (t : FileTree) (path : String) : Bool :=
  match t.metadata path with
  | .ok .dir => true
  | _ => false

/-- Whether a path names a regular file. -/
def isFile (t : FileTree) (path : String) : Bool :=
  match t.metadata path with
  | .ok (.file _ _) => true
  | _ => false

/-- The names in a directory; a directory that cannot be listed is refused. -/
def readDir (t : FileTree) (path : String) : Except OsError (List Name) := do
  let loc ← t.resolve path
  match t.node? loc with
  | some .dir =>
    if t.unlisted.contains loc then .error .permissionDenied
    else .ok (t.entries.filterMap fun (l, _) =>
      if l.dropLast == loc && !l.isEmpty then l.getLast? else none)
  | some _ => .error .notADirectory
  | none => .error .notFound

/-- The bytes of a file. -/
def readFile (t : FileTree) (path : String) : Except OsError (List UInt8) := do
  let loc ← t.resolve path
  match t.node? loc with
  | some (.file content _) => .ok content
  | some _ => .error .isADirectory
  | none => .error .notFound

/-- Put a node at a location, replacing what was there. -/
def put (t : FileTree) (loc : Location) (n : Node) : FileTree :=
  if t.entries.any (·.1 == loc) then
    { t with entries := t.entries.map fun e => if e.1 == loc then (loc, n) else e }
  else { t with entries := t.entries ++ [(loc, n)] }

/-- Make a directory at every prefix of a location that has no entry yet. -/
def makeDirs (t : FileTree) (loc : Location) : FileTree :=
  (List.range loc.length).foldl (fun t i =>
    let p := loc.take (i + 1)
    if (t.node? p).isSome then t else t.put p .dir) t

/-- The location of a relative path under the working directory, without resolving links. -/
def locate (t : FileTree) (path : List Name) : Location :=
  t.cwd ++ path.filter fun n => !n.isEmpty && n != [46]

/-- Add bytes to the end of a file, creating it when it is missing. The file's directory must
exist; links are followed. -/
def append (t : FileTree) (path : String) (bytes : List UInt8) : Except OsError FileTree :=
  match t.resolve path with
  | .ok loc =>
    match t.node? loc with
    | some (.file content exec) => .ok (t.put loc (.file (content ++ bytes) exec))
    | some _ => .error .isADirectory
    | none => .error .notFound
  | .error .notFound =>
    -- a missing last name is created in its directory
    let parts := path.splitOn "/"
    let name := parts.getLast?.getD ""
    let dirPath := String.intercalate "/" parts.dropLast
    let dirLoc := if parts.length ≤ 1 then .ok t.cwd
      else if dirPath.isEmpty then .ok [] else t.resolve dirPath
    match dirLoc with
    | .ok d =>
      if name.isEmpty || name == "." || name == ".." then .error .isADirectory
      else if t.node? d = some .dir then .ok (t.put (d ++ [Name.ofString name]) (.file bytes false))
      else .error .notFound
    | .error e => .error e
  | .error e => .error e

end FileTree

namespace FileTree

/-- A tree whose working directory is an empty directory, `/tmp/scratch`. -/
def scratch : FileTree :=
  let tmp := Name.ofString "tmp"
  let here := [tmp, Name.ofString "scratch"]
  { entries := [([tmp], .dir), (here, .dir)], cwd := here }

end FileTree

/-- The bytes of a name split at `/`. -/
def splitName (bytes : List UInt8) : List Name :=
  (bytes.splitOn 47).filter fun n => !n.isEmpty && n != [46]

/-- A tree to lay out under the working directory: directories, files (path bytes, content,
execute bit) and links (path, target), each path relative. -/
structure Layout where
  dirs : List String := []
  files : List (List UInt8 × List UInt8 × Bool) := []
  links : List (String × String) := []
  deriving Repr, Inhabited

/-- The tree a layout describes, under a working directory: directories first, then files, then
links, each with the directories above it. -/
def Layout.build (l : Layout) (base : FileTree) : FileTree :=
  let t := l.dirs.foldl (fun t d => t.makeDirs (t.locate (splitName (Name.ofString d)))) base
  let t := l.files.foldl (fun t (p, content, exec) =>
    let loc := t.locate (splitName p)
    (t.makeDirs loc.dropLast).put loc (.file content exec)) t
  l.links.foldl (fun t (p, target) =>
    let loc := t.locate (splitName (Name.ofString p))
    (t.makeDirs loc.dropLast).put loc (.link target)) t

end SuiteRunner

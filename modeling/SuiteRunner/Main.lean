import SuiteRunner.Cli.Run
/-!
The `run-tests` command. The outer layer reads the environment and a snapshot of the working
directory into a file tree, runs the command line on it, prints what it answers and exits with its
status.

The snapshot follows links and keeps the content of files up to a mebibyte; the runtime reports no
permission bits, so every file in it is taken as executable. Programs are started in the modelled
system, where the shell and the small programs of `/usr/bin` run scripts.
-/

namespace SuiteRunner.Snapshot

/-- The largest file whose content the snapshot keeps. -/
def contentLimit : Nat := 1048576

/-- How many directory levels below the working directory the snapshot reads. -/
def depthLimit : Nat := 16

/-- The location of an absolute path text. -/
def locationOf (path : String) : Location :=
  (path.splitOn "/").filter (fun p => !p.isEmpty && p != ".") |>.map Name.ofString

/-- Adding a file of the real file system to the tree. -/
def addFile (path : String) (here : Location) (size : Nat) (t : FileTree) : IO FileTree := do
  let content ← if size ≤ contentLimit then
      (do let b ← IO.FS.readBinFile path; pure b.toList) <|> pure []
    else pure []
  pure ((t.makeDirs here.dropLast).put here (.file content true))

/-- Adding a directory of the real file system and what it holds to the tree. -/
partial def addDir (dir : String) (here : Location) (depth : Nat) (t : FileTree) : IO FileTree := do
  let t := t.makeDirs here
  let step := fun (t : FileTree) (e : IO.FS.DirEntry) => do
    let loc := here ++ [Name.ofString e.fileName]
    match ← (some <$> e.path.metadata) <|> pure none with
    | some md =>
      match md.type with
      | .dir => if depth == 0 then pure (t.put loc .dir) else addDir e.path.toString loc (depth - 1) t
      | .file => addFile e.path.toString loc md.byteSize.toNat t
      | _ => pure t
    | none => pure t
  match ← (some <$> (System.mkFilePath [dir]).readDir) <|> pure none with
  | some entries => entries.foldlM step t
  | none => pure { t with unlisted := t.unlisted ++ [here] }

/-- The tree the command runs on: the modelled system, the working directory read from disk,
and the user's configuration file when there is one. -/
def take (env : Environment) : IO FileTree := do
  let cwd := (← IO.currentDir).toString
  let here := locationOf cwd
  let t := FileTree.system
  let t ← addDir cwd here depthLimit t
  let t := { t with cwd := here }
  match Cli.configDirOf env with
  | some dir =>
    let path := Cli.userConfigPath dir
    match ← (some <$> (System.mkFilePath [path]).metadata) <|> pure none with
    | some md =>
      if md.type == .file then addFile path (locationOf path) md.byteSize.toNat t else pure t
    | none => pure t
  | none => pure t

end SuiteRunner.Snapshot

/-- Runs the command line on the snapshot and exits with its status. -/
def main (args : List String) : IO UInt32 := do
  let home ← IO.getEnv "HOME"
  let path ← IO.getEnv "PATH"
  let env : SuiteRunner.Environment :=
    { home, path := ((path.map (·.splitOn ":")).getD []).filter (!·.isEmpty),
      configHome := ← IO.getEnv "XDG_CONFIG_HOME" }
  let tree ← SuiteRunner.Snapshot.take env
  let tty ← (← IO.getStdout).isTty
  let color := SuiteRunner.Cli.colorWanted tty (← IO.getEnv "CLICOLOR") (← IO.getEnv "NO_COLOR")
    (← IO.getEnv "CLICOLOR_FORCE")
  let answer := SuiteRunner.Cli.invoke (SuiteRunner.Cli.Host.system env) tree
    (SuiteRunner.Cli.programName :: args) color
  IO.print answer.stdout
  IO.eprint answer.stderr
  pure answer.code.toUInt32

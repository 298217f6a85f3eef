import SuiteRunner.Toml.Reader
import SuiteRunner.Toml.Decode
import SuiteRunner.FileTree

/-!
The runner's configuration: the emulator program and its leading arguments, where and how to
look for tests, and the time limit of one test. Every key has a default, so an empty file, or a
missing one, gives the defaults; unknown keys are ignored. The file is TOML, and a file that is
not valid TOML, or gives a key a value of the wrong kind, is refused with the reader's report.

Reading the TOML text is the `toml` library's work, so `parse` and `load` take the reader as a
parameter; `fromToml` is the reader of `SuiteRunner.Toml` with the settings' defaults.
-/

namespace SuiteRunner

/-- How to start the emulator. -/
structure EmulatorSettings where
  program : String := "cargo"
  args : List String := ["run", "--release", "--"]
  deriving Repr, DecidableEq, Inhabited

/-- Where to look for tests. -/
structure DiscoverySettings where
  root : String := "./stuff"
  patterns : List String := ["*_tests/*.exe", "*_tests/*.EXE"]
  deriving Repr, DecidableEq, Inhabited

/-- How to run them. -/
structure RunSettings where
  /-- The most seconds one test may take. -/
  timeoutSecs : Option Nat := none
  deriving Repr, DecidableEq, Inhabited

/-- The whole configuration. -/
structure Config where
  emulator : EmulatorSettings := {}
  discovery : DiscoverySettings := {}
  run : RunSettings := {}
  deriving Repr, DecidableEq, Inhabited

namespace Config

open Toml

/-- The emulator settings from an item. -/
def emulatorOf (item : Item) : Except Problem EmulatorSettings :=
  item.asRecord "EmulatorConfig" {} [
    ("program", fun s v => do pure { s with program := ← v.asString "path string" }),
    ("args", fun s v => do pure { s with args := ← v.asStrings })]

/-- The discovery settings from an item. -/
def discoveryOf (item : Item) : Except Problem DiscoverySettings :=
  item.asRecord "DiscoveryConfig" {} [
    ("root", fun s v => do pure { s with root := ← v.asString "path string" }),
    ("patterns", fun s v => do pure { s with patterns := ← v.asStrings })]

/-- The run settings from an item. -/
def runOf (item : Item) : Except Problem RunSettings :=
  item.asRecord "RunSettings" {} [
    ("timeout_secs", fun s v => do pure { s with timeoutSecs := some (← v.asU64) })]

/-- The configuration from a document's root table. -/
def ofTable (t : Table) : Except Problem Config :=
  (Item.table t.entries t.info).asRecord "Config" {} [
    ("emulator", fun s v => do pure { s with emulator := ← emulatorOf v }),
    ("discovery", fun s v => do pure { s with discovery := ← discoveryOf v }),
    ("run", fun s v => do pure { s with run := ← runOf v })]

/-- The configuration a TOML text gives, or the reader's rendered report. -/
def fromToml (content : String) : Except String Config :=
  match Toml.read content >>= ofTable with
  | .ok c => .ok c
  | .error p => .error (p.render content)

/-- Read a configuration from TOML text with the reader `read`; its refusal is a parse fault. -/
def parse (read : String → Except String Config) (content : String) : Except Fault Config :=
  match read content with
  | .ok c => .ok c
  | .error report => .error (.configParse report)

/-- Read a configuration file. A file that cannot be read, or is not UTF-8, is refused with the
path as given. -/
def load (read : String → Except String Config) (tree : FileTree) (path : String) :
    Except Fault Config :=
  match tree.readFile path with
  | .error e => .error (.fileRead path e)
  | .ok bytes =>
    match String.fromUTF8? ⟨bytes.toArray⟩ with
    | none => .error (.fileRead path .invalidUtf8)
    | some text => parse read text

end Config

end SuiteRunner

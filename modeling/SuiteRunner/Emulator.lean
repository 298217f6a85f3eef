import SuiteRunner.PathText

/-!
The emulator command: a program and the arguments placed before the firmware image and the test
path on every invocation. A program given by a bare name is looked up on the search path; a path
of more than one component is used as written.
-/

namespace SuiteRunner

/-- One process to start: a program and its arguments. -/
structure Invocation where
  program : String
  args : List String
  deriving Repr, DecidableEq, Inhabited

/-- The emulator program with the arguments that precede firmware and test. -/
structure Emulator where
  program : String
  leadingArgs : List String
  deriving Repr, DecidableEq, Inhabited

namespace Emulator

/-- The arguments of one run: the leading arguments, then the firmware, then the test. -/
def argsFor (e : Emulator) (firmware test : String) : List String :=
  e.leadingArgs ++ [firmware, test]

/-- The process that runs one test. -/
def invocation (e : Emulator) (firmware test : String) : Invocation :=
  ⟨e.program, e.argsFor firmware test⟩

end Emulator

/-- Resolve a program name: a path of more than one component stays as written, and a bare name
is looked up with `lookup`, staying as written when the lookup finds nothing. -/
def resolveProgram (lookup : String → Option String) (program : String) : String :=
  if (PathText.components program).length > 1 then program
  else (lookup program).getD program

end SuiteRunner

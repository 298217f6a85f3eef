import Mathlib.Data.List.Forall2
import SuiteRunner.Proofs.Pattern
import SuiteRunner.Proofs.Refusal

/-! The settings a run starts with. Once the configuration is loaded and the checks pass, each
setting is the command line's where it gives one and the configuration's otherwise, with one rule
of its own for the emulator's arguments: a program named on the command line never takes the
configured arguments, and `--emulator-arg` alone replaces them. Only the patterns in use are read,
and the time limit counts whole seconds. `StartsWith` collects these facts, and a run that passes
its checks satisfies it (`run_starts_with_settings`): in particular every test it starts is given
the resolved program with the leading arguments, the firmware and the test's path. The host's
configuration directory, its lookup of bare program names and its configuration reader are
parameters, as are its runner, its operator and the writer of the report. -/

namespace SuiteRunner

namespace Cli

open Glob

/-! ### The settings in use -/

/-- The plan of a run with the configuration `c` and the patterns `ps`: the command line's
firmware; the program it names, else the configured one, resolved on the search path; its
leading arguments when it names the emulator or gives any, else the configured ones; and the
tests the patterns find under its root, else the configured one. -/
def settledPlan (host : Host) (tree : FileTree) (opts : Options) (c : Config)
    (ps : List Pattern) : Run.Plan :=
  let root := opts.testsRoot.getD c.discovery.root
  ⟨opts.firmware,
    ⟨resolveProgram (host.which tree) (opts.emulator.getD c.emulator.program),
      if opts.emulator.isSome ∨ opts.emulatorArgs ≠ [] then opts.emulatorArgs else c.emulator.args⟩,
    Discovery.discover tree root ps, Discovery.searched root ps⟩

/-- The time limit in use, the command line's else the configured one, in whole seconds. -/
def settledLimit (opts : Options) (c : Config) : Option Duration :=
  (opts.timeout.or c.run.timeoutSecs).map fun secs => ⟨secs, 0⟩

/-- What a run `r` started from the options uses, with the configuration `c` and the patterns
`ps`: `c` is the configuration file in use, or the defaults; `ps` reads the patterns in use, one
for each text; the time limit in use is not zero; `r` is the loop on the settled plan and limit,
reporting to the writer `out`; and every call of that loop is the resolved program with the
leading arguments, the firmware and a test's path, for a prefix of the tests in order. -/
structure StartsWith (host : Host) (tree : FileTree) (opts : Options) (color : Bool)
    (out : Run.Console) (c : Config) (ps : List Pattern) (r : Run.Result FileTree) : Prop where
  loaded : match configFileInUse host tree opts with
    | some path => Config.load host.readConfig tree path = .ok c
    | none => c = {}
  parsed : List.Forall₂ (fun s p => Pattern.parse s = .ok p) (effectivePatterns opts c) ps
  positive : ∀ secs, opts.timeout.or c.run.timeoutSecs = some secs → 0 < secs
  runs : r = Run.runAll (host.runner (settledLimit opts c)) (settledPlan host tree opts c ps)
    color host.operator out tree
  calls :
    let plan := settledPlan host tree opts c ps
    let logged := Run.runAll (Run.Runner.logged (host.runner (settledLimit opts c))) plan color
      host.operator out (tree, [])
    logged.ending = r.ending ∧ logged.console = r.console ∧ logged.state.1 = r.state ∧
      logged.state.2.map Prod.fst = (plan.tests.take logged.state.2.length).map fun t =>
        ⟨plan.emulator.program, plan.emulator.leadingArgs ++ [opts.firmware, t.path]⟩

/-! ### One lemma per stage of the plan -/

/-- The configuration a run loads is the file in use, or the defaults when there is none. -/
theorem configFor_ok {host : Host} {tree : FileTree} {opts : Options} {c : Config}
    (h : configFor host tree opts = .ok c) :
    match configFileInUse host tree opts with
    | some path => Config.load host.readConfig tree path = .ok c
    | none => c = {} := by
  rw [configFor_eq] at h
  split
  · rename_i path hpath
    rwa [hpath] at h
  · rename_i hnone
    rw [hnone] at h
    exact (Except.ok.inj h).symm

/-- A run's emulator is the program the command line names, else the configured one, resolved;
with the command line's leading arguments when it names the emulator or gives any, else the
configured ones. -/
theorem emulatorFor_eq (host : Host) (tree : FileTree) (opts : Options)
    (settings : EmulatorSettings) :
    emulatorFor host tree opts settings =
      ⟨resolveProgram (host.which tree) (opts.emulator.getD settings.program),
        if opts.emulator.isSome ∨ opts.emulatorArgs ≠ [] then opts.emulatorArgs
        else settings.args⟩ := by
  unfold emulatorFor
  cases opts.emulator with
  | some p => simp
  | none => by_cases h : opts.emulatorArgs = [] <;> simp [h]

/-- The patterns of a run that passes its checks are at least one, and each text is read. -/
theorem patternsFor_ok {sources : List String} {ps : List Pattern}
    (h : patternsFor sources = .ok ps) :
    sources ≠ [] ∧ List.Forall₂ (fun s p => Pattern.parse s = .ok p) sources ps := by
  unfold patternsFor at h
  by_cases hempty : sources = []
  · simp [hempty] at h
  · rw [if_neg (by simpa using hempty)] at h
    refine ⟨hempty, (forall₂_of_mapM_eq_ok h).imp fun s p hsp => ?_⟩
    cases hs : Pattern.parse s with
    | error m => rw [hs] at hsp; cases hsp
    | ok q => rw [hs] at hsp; cases hsp; rfl

/-- The time limit of a run that passes its checks is the limit in use, never zero, in whole
seconds. -/
theorem limitFor_ok {opts : Options} {c : Config} {limit : Option Duration}
    (h : limitFor opts c.run = .ok limit) :
    (∀ secs, opts.timeout.or c.run.timeoutSecs = some secs → 0 < secs) ∧
      limit = settledLimit opts c := by
  unfold limitFor at h
  unfold settledLimit
  cases hsecs : opts.timeout.or c.run.timeoutSecs with
  | none =>
    rw [hsecs] at h
    cases h
    exact ⟨fun _ hn => (by cases hn), rfl⟩
  | some n =>
    rw [hsecs] at h
    cases n with
    | zero => cases h
    | succ n =>
      cases h
      exact ⟨fun _ hn => (by cases hn; omega), rfl⟩

/-- The plan of a run that passes its checks is the settled plan: the configuration it loaded, the
patterns it read and the time limit in use, taken in that order. -/
theorem planFor_eq_ok {host : Host} {tree : FileTree} {opts : Options} {plan : Run.Plan}
    {limit : Option Duration} (h : planFor host tree opts = .ok (plan, limit)) :
    ∃ c ps, configFor host tree opts = .ok c ∧ patternsFor (effectivePatterns opts c) = .ok ps ∧
      limitFor opts c.run = .ok limit ∧ plan = settledPlan host tree opts c ps := by
  unfold planFor at h
  simp only [bind, Except.bind] at h
  cases hc : configFor host tree opts with
  | error e => simp [hc] at h
  | ok c =>
    simp only [hc] at h
    rw [← effectivePatterns] at h
    cases hps : patternsFor (effectivePatterns opts c) with
    | error e =>
      rw [hps] at h
      cases h
    | ok ps =>
      rw [hps] at h
      cases hlim : limitFor opts c.run with
      | error e =>
        rw [hlim] at h
        cases h
      | ok limit' =>
        simp only [hlim, pure, Except.pure, Except.ok.injEq, Prod.mk.injEq] at h
        obtain ⟨rfl, rfl⟩ := h
        exact ⟨c, ps, rfl, hps, hlim, by rw [settledPlan, emulatorFor_eq]⟩

/-- A run that passes its checks starts the loop on the settings in use: the configuration it
loaded, the command line's firmware, emulator, root and patterns where it gives them, and the
time limit in use, in whole seconds. Every test it starts is given the resolved program with the
leading arguments, the firmware and the test's path. For every host and every writer. -/
theorem run_starts_with_settings (host : Host) (tree : FileTree) (opts : Options) (color : Bool)
    (out : Run.Console) (r : Run.Result FileTree) (h : run host tree opts color out = .ok r) :
    ∃ c ps, StartsWith host tree opts color out c ps r := by
  rw [run_eq] at h
  cases hplan : planFor host tree opts with
  | error e =>
    rw [hplan] at h
    cases h
  | ok pl =>
    obtain ⟨plan, limit⟩ := pl
    rw [hplan] at h
    simp only [Except.map, Except.ok.injEq] at h
    subst h
    obtain ⟨c, ps, hc, hps, hlim, rfl⟩ := planFor_eq_ok hplan
    obtain ⟨hpos, rfl⟩ := limitFor_ok hlim
    obtain ⟨hend, hcons, hstate⟩ := Run.runAll_logged (host.runner (settledLimit opts c))
      (settledPlan host tree opts c ps) color host.operator out tree
    exact ⟨c, ps, configFor_ok hc, (patternsFor_ok hps).2, hpos, rfl,
      ⟨hend, hcons, hstate, Run.runAll_calls_prefix _ _ color host.operator out tree⟩⟩

/-- The options `bios.bin --emulator ./emu --pattern '*.exe' --timeout 5`, on the system's host
with no home directory and a writer that never fails, pass the checks. -/
theorem run_starts_with_settings_bios :
    let opts : Options :=
      { firmware := "bios.bin", emulator := some "./emu", patterns := ["*.exe"], timeout := some 5 }
    ∃ r, run (Host.system {}) FileTree.scratch opts false {} = .ok r ∧
      ∃ c ps, StartsWith (Host.system {}) FileTree.scratch opts false {} c ps r := by
  intro opts
  have hparse : Pattern.parse "*.exe" = .ok ⟨"*.exe", [.wildcard "*.exe"]⟩ := by
    rw [Pattern.parse_eq_reading]
    decide +kernel
  have hps : patternsFor opts.patterns = .ok [⟨"*.exe", [.wildcard "*.exe"]⟩] := by
    simp [opts, patternsFor, hparse, Except.mapError, bind, Except.bind, pure, Except.pure]
  cases hr : run (Host.system {}) FileTree.scratch opts false {} with
  | error e =>
    unfold run planFor at hr
    simp [configFor, Host.system, configDirOf, opts, hps, limitFor, bind, Except.bind, pure,
      Except.pure] at hr
  | ok r =>
    exact ⟨r, rfl, run_starts_with_settings (Host.system {}) FileTree.scratch opts false {} r hr⟩

end Cli

end SuiteRunner

import SuiteRunner.Cli.Run
import SuiteRunner.Proofs.Pattern
import SuiteRunner.Proofs.WriteFailure

/-! Why a run is refused before it starts. The command line's settings mask the configured ones,
and the checks come in a fixed order: the configuration file in use must be readable and valid;
the patterns in use, the command line's when it gives any, must be at least one and each must be
read; the time limit in use must not be zero. `refusal` says this rule by rule, and a run ends in
a fault exactly when `refusal` gives one, the first that applies; a setting the command line
masks is never checked. A refused run reports nothing and starts nothing: its fault is all it
gives. A run that is not refused has one more way to fail: writing its report, when the writer
refuses a line, and then with the writer's error. What the run takes from its host (the
configuration directory, the configuration reader, the lookup of programs, the runner and the
operator) is a parameter of every statement here. -/

namespace SuiteRunner.Cli

open Glob

/-- The configuration file a run reads: the one named on the command line, else the user's file
in the host's configuration directory when it exists; none means the defaults. -/
def configFileInUse (host : Host) (tree : FileTree) (opts : Options) : Option String :=
  match opts.config with
  | some path => some path
  | none =>
    match host.configDir with
    | some dir =>
      if (tree.metadata (userConfigPath dir)).toBool then some (userConfigPath dir) else none
    | none => none

/-- The patterns a run uses: the command line's when it gives any, else the configured ones. -/
def effectivePatterns (opts : Options) (config : Config) : List String :=
  if opts.patterns.isEmpty then config.discovery.patterns else opts.patterns

/-- The first pattern of a list the reader refuses, in list order, with the reason. -/
def firstRefused : List String → Option Misconfig
  | [] => none
  | s :: ss =>
    match Pattern.parse s with
    | .error m => some m
    | .ok _ => firstRefused ss

/-- Why a list of patterns is refused: it is empty, or the reader refuses one of them. -/
def patternRefusal (sources : List String) : Option Fault :=
  if sources = [] then some (.config .noPatterns) else (firstRefused sources).map .config

/-- Why a time limit is refused: the limit in use, the command line's else the configured one,
is zero. -/
def limitRefusal (opts : Options) (config : Config) : Option Fault :=
  if opts.timeout.or config.run.timeoutSecs = some 0 then some (.config .zeroTimeout) else none

/-- Why a run is refused before it starts, the first reason in the order they are checked: the
configuration file in use cannot be read or is not valid; the patterns in use are none or one is
refused; the time limit in use is zero. -/
def refusal (host : Host) (tree : FileTree) (opts : Options) : Option Fault :=
  let loaded : Except Fault Config :=
    match configFileInUse host tree opts with
    | some path => Config.load host.readConfig tree path
    | none => .ok {}
  match loaded with
  | .error e => some e
  | .ok config => (patternRefusal (effectivePatterns opts config)).or (limitRefusal opts config)

theorem configFor_eq (host : Host) (tree : FileTree) (opts : Options) :
    configFor host tree opts =
      match configFileInUse host tree opts with
      | some path => Config.load host.readConfig tree path
      | none => .ok {} := by
  unfold configFor configFileInUse
  cases opts.config with
  | some path => rfl
  | none =>
    cases host.configDir with
    | some dir => by_cases h : (tree.metadata (userConfigPath dir)).toBool <;> simp [h]
    | none => rfl

theorem mapM_parse (sources : List String) :
    match sources.mapM fun s => (Pattern.parse s).mapError Fault.config with
    | .error e => ∃ m, firstRefused sources = some m ∧ e = .config m
    | .ok _ => firstRefused sources = none := by
  induction sources with
  | nil => rfl
  | cons s ss ih =>
    rw [List.mapM_cons]
    cases hs : Pattern.parse s with
    | error m =>
      have hm : (Except.error m : Except Misconfig Pattern).mapError Fault.config =
          .error (.config m) := rfl
      simp [hm, hs, firstRefused, bind, Except.bind]
    | ok p =>
      have hp : (Except.ok p : Except Misconfig Pattern).mapError Fault.config = .ok p := rfl
      cases hrest : ss.mapM fun s => (Pattern.parse s).mapError Fault.config with
      | error e =>
        rw [hrest] at ih
        simpa [hp, hrest, firstRefused, hs, bind, Except.bind] using ih
      | ok ps =>
        rw [hrest] at ih
        simpa [hp, hrest, firstRefused, hs, bind, Except.bind, pure, Except.pure] using ih

/-- A configuration file that is refused cannot be read, or is not a valid configuration. -/
theorem Config.load_error {read : String → Except String Config} {tree : FileTree}
    {path : String} {e : Fault} (h : Config.load read tree path = .error e) :
    (∃ cause, e = .fileRead path cause) ∨ ∃ report, e = .configParse report := by
  unfold Config.load at h
  split at h
  · cases h
    exact .inl ⟨_, rfl⟩
  · split at h
    · cases h
      exact .inl ⟨_, rfl⟩
    · unfold Config.parse at h
      split at h
      · cases h
      · cases h
        exact .inr ⟨_, rfl⟩

theorem patternsFor_refusal (sources : List String) :
    match patternsFor sources with
    | .error e => patternRefusal sources = some e
    | .ok _ => patternRefusal sources = none := by
  unfold patternsFor patternRefusal
  by_cases hempty : sources = []
  · simp [hempty]
  · have hparse := mapM_parse sources
    simp only [List.isEmpty_iff, hempty, if_false]
    split at hparse
    · rename_i e he
      obtain ⟨m, hm, rfl⟩ := hparse
      rw [hm]
      rfl
    · rw [hparse]
      rfl

theorem limitFor_refusal (opts : Options) (config : Config) :
    match limitFor opts config.run with
    | .error e => limitRefusal opts config = some e
    | .ok _ => limitRefusal opts config = none := by
  unfold limitFor limitRefusal
  cases opts.timeout.or config.run.timeoutSecs with
  | none => rfl
  | some n => cases n <;> rfl

/-- A run reports to the console it is given: one that never fails never fails to write, and one
that takes `n` more lines fails exactly when the run writes more than `n` lines on one that never
fails, with the writer's error. -/
theorem runAll_failed_iff_overflows {σ : Type} (runner : Run.Runner σ) (plan : Run.Plan)
    (color : Bool) (intr : Run.Interrupt) (out : Run.Console) (s : σ) (f : Fault) :
    (Run.runAll runner plan color intr out s).ending = .failed f ↔
      ∃ n e, out.room = some (n, e) ∧ f = .io e ∧
        out.lines.length + n <
          (Run.runAll runner plan color intr { lines := out.lines } s).console.lines.length := by
  obtain ⟨L, room⟩ := out
  cases room with
  | none =>
    simp only [reduceCtorEq, false_and, exists_const, iff_false]
    exact Run.runAll_ending_ne_failed runner plan color intr L s f
  | some r =>
    obtain ⟨n, e⟩ := r
    rw [Run.runAll_failed_iff]
    simp

/-- A run is the loop on its plan: it fails before starting exactly when its plan does, and
otherwise runs the plan with the host's runner under the plan's time limit. -/
theorem run_eq (host : Host) (tree : FileTree) (opts : Options) (color : Bool)
    (out : Run.Console) :
    run host tree opts color out =
      (planFor host tree opts).map fun (plan, limit) =>
        Run.runAll (host.runner limit) plan color host.operator out tree := by
  unfold run
  cases planFor host tree opts <;> rfl

/-- A plan is refused exactly when `refusal` gives a reason, and then with that reason: the stages
of the plan are checked in the order of `refusal`'s rules. -/
theorem planFor_refusal (host : Host) (tree : FileTree) (opts : Options) :
    match planFor host tree opts with
    | .error e => refusal host tree opts = some e
    | .ok _ => refusal host tree opts = none := by
  have hcfg := configFor_eq host tree opts
  unfold planFor refusal
  simp only []
  rw [← hcfg]
  cases hc : configFor host tree opts with
  | error e => simp [bind, Except.bind]
  | ok config =>
    simp only [bind, Except.bind]
    have hp := patternsFor_refusal (effectivePatterns opts config)
    have hl := limitFor_refusal opts config
    rw [show (if opts.patterns.isEmpty = true then config.discovery.patterns else opts.patterns) =
      effectivePatterns opts config from rfl]
    cases hps : patternsFor (effectivePatterns opts config) with
    | error e =>
      rw [hps] at hp
      dsimp only at hp
      simp [hp]
    | ok ps =>
      rw [hps] at hp
      dsimp only at hp
      cases hlim : limitFor opts config.run with
      | error e =>
        rw [hlim] at hl
        dsimp only at hl
        simp [hp, hl]
      | ok limit =>
        rw [hlim] at hl
        dsimp only at hl
        simp [hp, hl, pure, Except.pure]

/-- A run ends in a fault before it starts exactly when it is refused, with the first reason that
applies, checked on the settings in use only. A run that is not refused fails afterwards exactly
when its report does not fit the writer: the writer takes `n` more lines and fails with `e`, and
the same run on a writer that never fails writes more than `n` lines; its fault is then `e`. For
every host and every writer. -/
theorem run_fails_iff_refused_or_unwritten (host : Host) (tree : FileTree) (opts : Options)
    (color : Bool) (out : Run.Console) :
    match run host tree opts color out with
    | .error e => refusal host tree opts = some e
    | .ok r => refusal host tree opts = none ∧
        ∀ f, r.ending = .failed f ↔
          ∃ n e, out.room = some (n, e) ∧ f = .io e ∧
            ∃ full, run host tree opts color { lines := out.lines } = .ok full ∧
              out.lines.length + n < full.console.lines.length := by
  have hrefusal := planFor_refusal host tree opts
  rw [run_eq, run_eq]
  cases hplan : planFor host tree opts with
  | error e =>
    rw [hplan] at hrefusal
    exact hrefusal
  | ok pl =>
    rw [hplan] at hrefusal
    obtain ⟨plan, limit⟩ := pl
    refine ⟨hrefusal, fun f => ?_⟩
    simp only [Except.map, Except.ok.injEq, exists_eq_left']
    exact runAll_failed_iff_overflows _ _ _ _ out tree f

/-- A run that is not refused still fails when the writer refuses its first line: with no
configuration file and one pattern, the writer's error is the run's fault. -/
theorem run_fails_on_refusing_writer :
    let host : Host := ⟨none, fun _ _ => none, fun _ => .ok {},
      fun _ s _ => (.done (.exited 0) false, s), .inert⟩
    let opts : Options := { firmware := "bios.bin", patterns := ["*.exe"] }
    refusal host FileTree.scratch opts = none ∧
      ∃ r, run host FileTree.scratch opts false { room := some (0, .brokenPipe) } = .ok r ∧
        r.ending = .failed (.io .brokenPipe) := by
  intro host opts
  have hparse : Pattern.parse "*.exe" = .ok ⟨"*.exe", [.wildcard "*.exe"]⟩ := by
    rw [Pattern.parse_eq_reading]
    decide +kernel
  refine ⟨?_, ?_⟩
  · simp [refusal, configFileInUse, host, opts, effectivePatterns, patternRefusal, firstRefused,
      hparse, limitRefusal]
  · cases hr : run host FileTree.scratch opts false { room := some (0, .brokenPipe) } with
    | error e =>
      simp [run, planFor, configFor, host, opts, patternsFor, hparse, Except.mapError, limitFor,
        bind, Except.bind, pure, Except.pure] at hr
    | ok r =>
      refine ⟨r, rfl, ?_⟩
      simp [run, planFor, configFor, host, opts, patternsFor, hparse, Except.mapError, limitFor,
        bind, Except.bind, pure, Except.pure] at hr
      rw [← hr]
      exact Run.runAll_first_line_refused _ _ _ _ [] _ _

end SuiteRunner.Cli

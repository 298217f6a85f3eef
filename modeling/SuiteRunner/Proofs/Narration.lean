import SuiteRunner.Proofs.RunLoop

/-! The text a run writes with colour off, for every runner and every interrupt. `narration` spells
it out from what the run did: the count of tests found and a separator; for each test that ran to
its end, in order, its progress line, its verdict and a separator; then the lines that close the
run, which depend on how it ended. Each rule of `Settles` writes the lines of one test, so the text
follows from the rules by induction, and the tally the run returns is the one it prints. -/

namespace SuiteRunner.Run

variable {σ : Type}

/-! ### The text, line by line -/

/-- The line of fifty dashes between tests. -/
def dashes : String := "--------------------------------------------------"

/-- The progress line of test `j` of `n`. -/
def progressLine (j n : Nat) (t : TestCase) : String := s!"[{j}/{n}] Running: {t.path}"

/-- The verdict line of a test that ran to its end; no outcome is classified as interrupted. -/
def verdictLines (t : TestCase) : Verdict → List String
  | .success => [s!"✓ Completed: {t.fileName}"]
  | .nonZeroExit c => [s!"✗ Failed: {t.fileName} (exit code: {c.toInt})"]
  | .launchError cause | .error cause => [s!"✗ Error running {t.fileName}: {cause}"]
  | .interrupted => []

/-- The lines of the tests that ran to their end, numbered from `j` of `n`: for each test with the
verdict on its call, its progress line, its verdict and a separator. -/
def finishedLines (n : Nat) : Nat → List TestCase → List Verdict → List String
  | j, t :: ts, v :: vs =>
    progressLine j n t :: (verdictLines t v ++ dashes :: finishedLines n (j + 1) ts vs)
  | _, _, _ => []

/-- The lines that close a run of the tests `ts`, numbered from `start` of `n`, after the replies
`replies`: the final tally; or, for a run interrupted at test `i`, the progress line of that test
when it found the interrupt untripped, then an empty line and the test; or, when a call never
returns or its outcome panics the run, the progress line of its test. -/
def closingLines (n start : Nat) (ts : List TestCase) (intr : Interrupt) (replies : List Reply) :
    Ending → List String
  | .finished (.completed tally) =>
    ["All tests completed!", s!"{tally.passed} passed, {tally.failed} failed, {tally.errored} errors"]
  | .finished (.interrupted i t _) =>
    (if (intr.before replies (i - start)).isTripped then [] else [progressLine i n t]) ++
      ["", s!"Interrupted at test: {t.path}"]
  | .stalled | .panicked _ =>
    match ts[(replies.filterMap Reply.verdict?).length]? with
    | some t => [progressLine (start + (replies.filterMap Reply.verdict?).length) n t]
    | none => []
  | _ => []

/-- Everything a run writes with colour off, given the plan, the interrupt, the replies of its
calls and how it ended. -/
def narration (plan : Plan) (intr : Interrupt) (replies : List Reply) (e : Ending) : List String :=
  if plan.tests = [] then [s!"No test files found matching {plan.searched}"]
  else
    s!"Found {plan.tests.length} test files" :: dashes ::
      (finishedLines plan.tests.length 1 plan.tests (replies.filterMap Reply.verdict?) ++
        closingLines plan.tests.length 1 plan.tests intr replies e)

/-! ### The report's lines with colour off -/

theorem separator_eq_dashes : Report.separator = dashes := by decide

theorem finished_of_ne_interrupted (t : TestCase) {v : Verdict} (hv : v ≠ .interrupted) :
    Report.finished false t v = verdictLines t v ++ [dashes] := by
  cases v with
  | interrupted => exact absurd rfl hv
  | _ => simp [Report.finished, Report.painted, verdictLines, separator_eq_dashes]

/-! ### The lines of the loop -/

/-- The closing lines do not change when one more test has run to its end before them: an
interrupted test comes after this one, so it stands one further on from `idx`, and a test that
stalls or panics comes after one more verdict. -/
theorem closingLines_ran {n idx : Nat} {t : TestCase} {ts : List TestCase} {tl : Tally}
    {intr : Interrupt} {o : Outcome} {trips : Bool} {v : Verdict} {replies : List Reply}
    {e : Ending} (hc : o.classify = .ok v)
    (he : e.Meaning (idx + 1) ts (tl.record v) (intr.after (.done o trips)) replies) :
    closingLines n (idx + 1) ts (intr.after (.done o trips)) replies e =
      closingLines n idx (t :: ts) intr (.done o trips :: replies) e := by
  have hcount : ((Reply.done o trips :: replies).filterMap Reply.verdict?).length =
      (replies.filterMap Reply.verdict?).length + 1 := by
    simp [Reply.filterMap_verdict?_done hc]
  cases e with
  | finished st =>
    cases st with
    | interrupted i t' tl' =>
      obtain ⟨k, hi, -⟩ := he
      have hidx : i - idx = (i - (idx + 1)) + 1 := by omega
      simp only [closingLines, hidx, Interrupt.before_cons_succ]
    | _ => rfl
  | stalled | panicked _ =>
    simp only [closingLines, hcount, List.getElem?_cons_succ, Nat.add_assoc, Nat.add_comm 1]
  | failed f => rfl

/-- The lines a loop writes with colour off: the blocks of the tests that ran to their end, then
its closing lines. A test that runs to its end writes its own block, and the rest of the run goes
on from the test after it. -/
theorem Settles.narrates {n idx : Nat} {ts : List TestCase} {tl : Tally} {intr : Interrupt}
    {replies : List Reply} {e : Ending} {lines : List String}
    (h : Settles false n idx ts tl intr replies e lines) :
    lines = finishedLines n idx ts (replies.filterMap Reply.verdict?) ++
      closingLines n idx ts intr replies e := by
  induction h with
  | completed => rfl
  | tripped h =>
    simp [finishedLines, closingLines, h, Report.interrupted, Report.painted, TestCase.display]
  | preempted h hp =>
    simp [finishedLines, closingLines, h, Report.started, Report.interrupted, Report.painted,
      progressLine, TestCase.display]
  | lost h hp hi =>
    simp [finishedLines, closingLines, h, Report.started, Report.interrupted, Report.painted,
      progressLine, TestCase.display]
  | stalled => simp [finishedLines, closingLines, Report.started, progressLine, TestCase.display]
  | panicked h hp hc =>
    simp [finishedLines, closingLines, Report.started, progressLine, TestCase.display,
      Reply.verdict?, hc, Except.toOption]
  | @ran idx t ts tl intr o trips v replies e lines h hp hc rest ih =>
    rw [ih, ← closingLines_ran hc rest.meaning,
      finished_of_ne_interrupted t (Outcome.classify_ne_interrupted hc),
      Reply.filterMap_verdict?_done hc]
    simp [finishedLines, Report.started, progressLine, TestCase.display]

/-- The lines a run writes with colour off, after the lines `L` already written. -/
theorem runAll_lines (runner : Runner σ) (plan : Plan) (intr : Interrupt) (L : List String)
    (s : σ) :
    let r := runAll (Runner.logged runner) plan false intr ⟨L, none⟩ (s, [])
    r.console.lines = L ++ narration plan intr (r.state.2.map Prod.snd) r.ending := by
  intro r
  by_cases h : plan.tests = []
  · have hr : r = ⟨.finished .noTests, ⟨L ++ Report.noneFound false plan.searched, none⟩, (s, [])⟩ :=
      runAll_noTests _ _ _ _ _ _ h
    rw [hr]
    simp [narration, h, Report.noneFound, Report.painted]
  · obtain ⟨calls, s', e, lines, hrun, -, hsettles⟩ := runAll_settles runner plan false intr L s h
    have hr : r = ⟨e, ⟨L ++ Report.discovered plan.tests.length ++ lines, none⟩, (s', calls)⟩ := hrun
    rw [hr]
    simp [narration, h, hsettles.narrates, Report.discovered, separator_eq_dashes]

/-- The text a run writes with colour off, for every runner and every interrupt, is its narration:
one line per event, each ending in a newline. -/
theorem runAll_text_eq_narration (runner : Runner σ) (plan : Plan) (intr : Interrupt) (s : σ) :
    let r := runAll (Runner.logged runner) plan false intr {} (s, [])
    r.console.text =
      String.join ((narration plan intr (r.state.2.map Prod.snd) r.ending).map (· ++ "\n")) := by
  intro r
  have hlines := runAll_lines runner plan intr [] s
  rw [Console.text, Report.text]
  exact congrArg (fun l => String.join (l.map (· ++ "\n"))) hlines

end SuiteRunner.Run

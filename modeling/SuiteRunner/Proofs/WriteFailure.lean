import SuiteRunner.Proofs.RunLoop

/-! A report that cannot be written. A writer that fails is one that accepts some number `n` of
further lines and then returns an error `e`; one that never fails takes every line. The run on a
failing writer is the run on a writer that never fails, cut at the line the writer refuses: it
ends with `e` exactly when that run writes more than `n` lines, having written the first `n` of
them and made exactly the calls that run makes before writing its line `n + 1`. Every such call
comes right after the progress line of its test. `Cut` states this of two results; each step of
the loop keeps it (`Cut.emitThen` for a block of lines, `Cut.call` for a call), so the whole run
does (`runAll_cut_by_writer`). -/

namespace SuiteRunner.Run

variable {σ : Type}

/-! ### Writing to a writer that fails -/

/-- Lines written to a writer that accepts `n` more all go through when they fit; otherwise the
first `n` do and the writer's error ends the writing. -/
theorem Console.emit_room (L ls : List String) (n : Nat) (e : OsError) :
    Console.emit ⟨L, some (n, e)⟩ ls =
      if ls.length ≤ n then .ok ⟨L ++ ls, some (n - ls.length, e)⟩
      else .error (e, ⟨L ++ ls.take n, some (0, e)⟩) := by
  induction ls generalizing L n with
  | nil => simp [Console.emit]
  | cons l ls ih =>
    cases n with
    | zero => simp [Console.emit]
    | succ n =>
      simp only [Console.emit, ih, List.append_assoc, List.singleton_append, List.length_cons,
        Nat.add_le_add_iff_right, List.take_succ_cons, Nat.add_sub_add_right]

theorem emitThen_room (L ls : List String) (n : Nat) (e : OsError) (s : σ)
    (next : Console → Result σ) :
    emitThen ⟨L, some (n, e)⟩ s ls next =
      if ls.length ≤ n then next ⟨L ++ ls, some (n - ls.length, e)⟩
      else ⟨.failed (.io e), ⟨L ++ ls.take n, some (0, e)⟩, s⟩ := by
  unfold emitThen
  rw [Console.emit_room]
  by_cases h : ls.length ≤ n <;> simp [h]

/-! ### The cut relation -/

/-- How `cut`, a run on a writer that accepts `n` more lines after `L` and then fails with `e`,
stands to `full`, the same run on a writer that never fails: `full` writes `lines` after `L` and
makes `calls` after the log `log`, the `j`-th call right after the first `marks[j]` of those
lines; when the lines fit, `cut` ends alike with the same lines and calls; otherwise it fails with
`e` after the first `n` lines, having made the calls that come after no more than `n` lines. -/
structure Cut (n : Nat) (e : OsError) (L : List String) (log : List (Invocation × Reply))
    (lines : List String) (calls : List (Invocation × Reply)) (marks : List Nat)
    (full cut : Result (σ × List (Invocation × Reply))) : Prop where
  wrote : full.console = ⟨L ++ lines, none⟩
  made : full.state.2 = log ++ calls
  counted : marks.length = calls.length
  fits : lines.length ≤ n →
    cut.ending = full.ending ∧ cut.console.lines = full.console.lines ∧ cut.state = full.state
  overflows : n < lines.length →
    cut.ending = .failed (.io e) ∧ cut.console.lines = L ++ lines.take n ∧
      ∃ k, cut.state.2 = log ++ calls.take k ∧ ∀ j (hj : j < marks.length), j < k ↔ marks[j] ≤ n

/-- A run that has ended writes nothing more and makes no more calls. -/
theorem Cut.ended (n : Nat) (e : OsError) (L : List String) (end_ : Ending) (s : σ)
    (log : List (Invocation × Reply)) :
    Cut n e L log [] [] [] ⟨end_, ⟨L, none⟩, (s, log)⟩ ⟨end_, ⟨L, some (n, e)⟩, (s, log)⟩ where
  wrote := by simp
  made := by simp
  counted := rfl
  fits _ := ⟨rfl, by simp, rfl⟩
  overflows h := absurd h (Nat.not_lt_zero n)

/-- A call before the rest of a run: the cut run makes it whenever it gets there, since nothing is
written between the lines before it and the call. -/
theorem Cut.call {n : Nat} {e : OsError} {L : List String} {log : List (Invocation × Reply)}
    {c : Invocation × Reply} {lines : List String} {calls : List (Invocation × Reply)}
    {marks : List Nat} {full cut : Result (σ × List (Invocation × Reply))}
    (h : Cut n e L (log ++ [c]) lines calls marks full cut) :
    Cut n e L log lines (c :: calls) (0 :: marks) full cut where
  wrote := h.wrote
  made := by simp [h.made]
  counted := by simp [h.counted]
  fits := h.fits
  overflows hn := by
    obtain ⟨hend, hlines, k, hk, hmarks⟩ := h.overflows hn
    refine ⟨hend, hlines, k + 1, by simp [hk], fun j hj => ?_⟩
    cases j with
    | zero => simp
    | succ j =>
      rw [List.getElem_cons_succ, ← hmarks j (by simpa using hj)]
      omega

/-- A block of lines before the rest of a run: when it fits, the cut run goes on with what room is
left; otherwise it fails inside the block, before any call of the rest. When the block fits the rest
is cut with the room that is left; when it overflows no call of the rest is made. -/
theorem Cut.emitThen {n : Nat} {e : OsError} {L ls lines : List String}
    {log calls : List (Invocation × Reply)} {marks : List Nat} {s₀ : σ}
    {next : Console → Result (σ × List (Invocation × Reply))}
    (h : ∀ n', Cut n' e (L ++ ls) log lines calls marks (next ⟨L ++ ls, none⟩)
      (next ⟨L ++ ls, some (n', e)⟩)) :
    Cut n e L log (ls ++ lines) calls (marks.map (· + ls.length))
      (Run.emitThen ⟨L, none⟩ (s₀, log) ls next) (Run.emitThen ⟨L, some (n, e)⟩ (s₀, log) ls next) := by
  have hrest := h (n - ls.length)
  rw [emitThen_unbounded, emitThen_room]
  refine ⟨by simp [hrest.wrote], hrest.made, by simp [hrest.counted], ?_, ?_⟩
  · intro hfit
    have hls : ls.length ≤ n := by simp at hfit; omega
    rw [if_pos hls]
    exact hrest.fits (by simp at hfit; omega)
  · intro hover
    by_cases hls : ls.length ≤ n
    · rw [if_pos hls]
      obtain ⟨hend, hlines, k, hk, hmarks⟩ := hrest.overflows (by simp at hover; omega)
      refine ⟨hend, ?_, k, hk, fun j hj => ?_⟩
      · rw [hlines, List.take_append, List.take_of_length_le hls, List.append_assoc]
      · rw [List.getElem_map, hmarks j (by simpa using hj)]
        omega
    · rw [if_neg hls]
      refine ⟨rfl, ?_, 0, by simp, fun j hj => ?_⟩
      · rw [List.take_append_of_le_length (by omega)]
      · simp only [Nat.not_lt_zero, false_iff, List.getElem_map]
        omega

/-- Closing lines, after which the run ends. -/
theorem Cut.closing (n : Nat) (e : OsError) (L ls : List String) (end_ : Ending) (s : σ)
    (log : List (Invocation × Reply)) :
    Cut n e L log (ls ++ []) [] ([].map (· + ls.length))
      (Run.emitThen ⟨L, none⟩ (s, log) ls fun c => ⟨end_, c, (s, log)⟩)
      (Run.emitThen ⟨L, some (n, e)⟩ (s, log) ls fun c => ⟨end_, c, (s, log)⟩) :=
  Cut.emitThen fun n' => Cut.ended n' e _ end_ s log

/-! ### Calls after their progress lines -/

/-- Call `j` of a run over the tests `ts`, numbered from `idx` of `total`, is for test `j`, and it
comes right after that test's progress line: the first `marks[j]` of the `lines` written end
with it. -/
def Marked (total idx : Nat) (ts : List TestCase) (lines : List String) (marks : List Nat) : Prop :=
  ∀ j (hj : j < marks.length), ∃ t, ts[j]? = some t ∧
    Report.started (idx + j) total t <:+ lines.take marks[j]

theorem Marked.nil {total idx : Nat} {ts : List TestCase} {lines : List String} :
    Marked total idx ts lines [] :=
  fun _ hj => absurd hj (Nat.not_lt_zero _)

theorem Marked.shift {total idx : Nat} {ts : List TestCase} {lines : List String} {marks : List Nat}
    (ls : List String) (h : Marked total idx ts lines marks) :
    Marked total idx ts (ls ++ lines) (marks.map (· + ls.length)) := by
  intro j hj
  obtain ⟨t, ht, hsuf⟩ := h j (by simpa using hj)
  refine ⟨t, ht, ?_⟩
  rw [List.getElem_map, Nat.add_comm _ ls.length, List.take_length_add_append]
  exact hsuf.trans (List.suffix_append ls _)

theorem Marked.cons {total idx : Nat} {t : TestCase} {ts : List TestCase} {rest : List String}
    {marks : List Nat} (h : Marked total (idx + 1) ts rest marks) :
    Marked total idx (t :: ts) (Report.started idx total t ++ rest)
      ((0 :: marks).map (· + (Report.started idx total t).length)) := by
  intro j hj
  cases j with
  | zero => exact ⟨t, rfl, by simp⟩
  | succ j =>
    obtain ⟨t', ht', hsuf⟩ := h j (by simpa using hj)
    refine ⟨t', by simpa using ht', ?_⟩
    rw [List.getElem_map, List.getElem_cons_succ, Nat.add_comm _ (Report.started idx total t).length,
      List.take_length_add_append,
      show idx + (j + 1) = idx + 1 + j by omega]
    exact hsuf.trans (List.suffix_append _ _)

/-! ### The loop and the run, cut -/

section Loop

variable (runner : Runner σ) (plan : Plan) (color : Bool) (total : Nat)

/-- The loop on a writer that fails is the loop on one that never fails, cut: the lines, calls and
marks of the latter do not depend on the room the former has. -/
theorem loop_cut (e : OsError) (ts : List TestCase) (idx : Nat) (tl : Tally) (intr : Interrupt)
    (L : List String) (s : σ) (log : List (Invocation × Reply)) :
    ∃ lines calls marks, Marked total idx ts lines marks ∧ ∀ n,
      Cut n e L log lines calls marks
        (loop (Runner.logged runner) plan color total idx ts tl intr ⟨L, none⟩ (s, log))
        (loop (Runner.logged runner) plan color total idx ts tl intr ⟨L, some (n, e)⟩ (s, log)) := by
  induction ts generalizing idx tl intr L s log with
  | nil =>
    refine ⟨Report.completed color tl ++ [], [], [].map (· + (Report.completed color tl).length),
      Marked.nil, fun n => ?_⟩
    simp only [loop]
    exact Cut.closing n e L _ _ s log
  | cons t ts ih =>
    cases h : intr.isTripped
    case true =>
      refine ⟨Report.interrupted color t ++ [], [], [].map (· + (Report.interrupted color t).length),
        Marked.nil, fun n => ?_⟩
      simp only [loop, h, if_true]
      exact Cut.closing n e L _ _ s log
    case false =>
      cases hp : intr.preempts idx
      case true =>
        refine ⟨Report.started idx total t ++ (Report.interrupted color t ++ []), [], _,
          Marked.shift _ (Marked.shift (Report.interrupted color t) Marked.nil), fun n => ?_⟩
        simp only [loop, h, hp, Bool.false_eq_true, if_false, if_true]
        apply Cut.emitThen
        intro n'
        exact Cut.closing n' e _ _ _ s log
      case false =>
        rcases hr : runner s (plan.call t) with ⟨r, s₁⟩
        have hlog : Runner.logged runner (s, log) (plan.call t) =
            (r, (s₁, log ++ [(plan.call t, r)])) := by
          rw [logged_apply, hr]
        simp only [Plan.call] at hlog
        cases r with
        | stalls =>
          cases htrip : intr.trip.isTripped
          case false =>
            refine ⟨Report.started idx total t ++ [], [(plan.call t, .stalls)], _,
              Marked.cons Marked.nil, fun n => ?_⟩
            simp only [loop, h, hp, Bool.false_eq_true, if_false]
            apply Cut.emitThen
            intro n'
            simp only [hlog, htrip, Bool.false_eq_true, if_false]
            apply Cut.call
            exact Cut.ended n' e _ _ s₁ _
          case true =>
            refine ⟨Report.started idx total t ++ (Report.interrupted color t ++ []),
              [(plan.call t, .stalls)], _,
              Marked.cons (Marked.shift (Report.interrupted color t) Marked.nil), fun n => ?_⟩
            simp only [loop, h, hp, Bool.false_eq_true, if_false]
            apply Cut.emitThen
            intro n'
            simp only [hlog, htrip, if_true]
            apply Cut.call
            exact Cut.closing n' e _ _ _ s₁ _
        | done o trips =>
          cases hc : o.classify with
          | error p =>
            refine ⟨Report.started idx total t ++ [], [(plan.call t, .done o trips)], _,
              Marked.cons Marked.nil, fun n => ?_⟩
            simp only [loop, h, hp, Bool.false_eq_true, if_false]
            apply Cut.emitThen
            intro n'
            simp only [hlog, hc]
            apply Cut.call
            exact Cut.ended n' e _ _ s₁ _
          | ok v =>
            obtain ⟨lines, calls, marks, hmarked, hcut⟩ := ih (idx + 1) (tl.record v)
              (if trips then intr.trip else intr)
              (L ++ Report.started idx total t ++ Report.finished color t v) s₁
              (log ++ [(plan.call t, .done o trips)])
            refine ⟨_, (plan.call t, .done o trips) :: calls, _,
              Marked.cons (Marked.shift (Report.finished color t v) hmarked), fun n => ?_⟩
            simp only [loop, h, hp, Bool.false_eq_true, if_false]
            apply Cut.emitThen
            intro n'
            simp only [hlog, hc]
            apply Cut.call
            apply Cut.emitThen
            exact hcut

end Loop

/-- The run on a writer that fails is the run on one that never fails, cut: the count of tests
found, then the loop over them from the first. -/
theorem runAll_cut (runner : Runner σ) (plan : Plan) (color : Bool) (intr : Interrupt)
    (pre : List String) (s : σ) (n : Nat) (e : OsError) :
    ∃ lines calls marks, Marked plan.tests.length 1 plan.tests lines marks ∧
      Cut n e pre [] lines calls marks
        (runAll (Runner.logged runner) plan color intr { lines := pre } (s, []))
        (runAll (Runner.logged runner) plan color intr { lines := pre, room := some (n, e) }
          (s, [])) := by
  unfold runAll
  split
  · refine ⟨Report.noneFound color plan.searched ++ [], [],
      [].map (· + (Report.noneFound color plan.searched).length), Marked.nil, ?_⟩
    exact Cut.closing n e pre _ _ s []
  · obtain ⟨lines, calls, marks, hmarked, hcut⟩ := loop_cut runner plan color plan.tests.length e
      plan.tests 1 {} intr (pre ++ Report.discovered plan.tests.length) s []
    refine ⟨_, calls, _, Marked.shift (Report.discovered plan.tests.length) hmarked, ?_⟩
    apply Cut.emitThen
    exact hcut

/-- A run on a writer that accepts `n` more lines after `pre` fails to report exactly when the same
run on a writer that never fails writes more than `n` lines after them, and it fails with the
writer's error. -/
theorem runAll_failed_iff (runner : Runner σ) (plan : Plan) (color : Bool) (intr : Interrupt)
    (pre : List String) (s : σ) (n : Nat) (e : OsError) (f : Fault) :
    (runAll runner plan color intr { lines := pre, room := some (n, e) } s).ending = .failed f ↔
      f = .io e ∧
        pre.length + n < (runAll runner plan color intr { lines := pre } s).console.lines.length := by
  obtain ⟨lines, calls, marks, -, hcut⟩ := runAll_cut runner plan color intr pre s n e
  have hcutSame := (runAll_logged runner plan color intr { lines := pre, room := some (n, e) } s).1
  have hfullSame := (runAll_logged runner plan color intr { lines := pre } s).2.1
  have hfullEnding := runAll_ending_ne_failed (Runner.logged runner) plan color intr pre (s, [])
  rw [← hcutSame, ← hfullSame, hcut.wrote, List.length_append]
  by_cases hfit : lines.length ≤ n
  · rw [(hcut.fits hfit).1]
    exact ⟨fun h => absurd h (hfullEnding f), fun ⟨_, hlt⟩ => absurd hlt (by omega)⟩
  · rw [(hcut.overflows (by omega)).1]
    exact ⟨fun h => ⟨(Ending.failed.inj h).symm, by omega⟩, fun ⟨hf, _⟩ => hf ▸ rfl⟩

/-- A writer that refuses the first line fails every run, with its error: a run writes at least
one line before anything else. -/
theorem runAll_first_line_refused (runner : Runner σ) (plan : Plan) (color : Bool)
    (intr : Interrupt) (pre : List String) (s : σ) (e : OsError) :
    (runAll runner plan color intr { lines := pre, room := some (0, e) } s).ending =
      .failed (.io e) := by
  unfold runAll
  split <;> simp [emitThen, Report.noneFound, Report.discovered, Console.emit]

/-- A run on a writer that accepts `n` more lines and then fails with `e` is the run on a writer
that never fails, cut at the line it refuses. The latter never fails; it writes `lines` after `pre`
and makes `calls`, each for the next test right after that test's progress line. The former fails
exactly when `lines` has more than `n` lines, with `e`, having written the first `n` of them and
made exactly the calls that come after no more than `n` lines; otherwise it ends as the latter
does. -/
theorem runAll_cut_by_writer (runner : Runner σ) (plan : Plan) (color : Bool) (intr : Interrupt)
    (pre : List String) (s : σ) (n : Nat) (e : OsError) :
    let full := runAll (Runner.logged runner) plan color intr { lines := pre } (s, [])
    let cut := runAll (Runner.logged runner) plan color intr { lines := pre, room := some (n, e) }
      (s, [])
    (∀ f, full.ending ≠ .failed f) ∧
      ∃ lines calls marks, Marked plan.tests.length 1 plan.tests lines marks ∧
        Cut n e pre [] lines calls marks full cut :=
  ⟨fun f => runAll_ending_ne_failed _ plan color intr pre (s, []) f,
    runAll_cut runner plan color intr pre s n e⟩

end SuiteRunner.Run

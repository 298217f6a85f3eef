import SuiteRunner.Run
import SuiteRunner.Proofs.Verdict

/-! The run loop against every runner and every interrupt. A runner is wrapped so that it also keeps
every invocation it is given with its reply, which changes nothing the run does (`runAll_logged`);
`loop` is then read over the replies alone as the relation `Settles`, whose seven rules are the
seven ways a step of the loop can go. From `Settles` follow the calls a run makes (a prefix of the
tests, in order, each with the emulator's program and arguments), the test at which it stops and
its tally. A run stops at the first test that finds the interrupt tripped, that the interrupt
preempts between its progress line and its call, whose call never returns, or whose outcome has
no verdict because classifying it panics; its tally counts, in order, the verdicts of the tests
before that one. -/

namespace SuiteRunner

/-- Counting a verdict other than an interruption adds one to exactly one of the three counts. -/
theorem Tally.count_record (tl : Tally) {v : Verdict} (hv : v ≠ .interrupted) :
    (tl.record v).passed + (tl.record v).failed + (tl.record v).errored =
      tl.passed + tl.failed + tl.errored + 1 := by
  cases v <;> simp_all [Tally.record] <;> omega

theorem Tally.count_foldl_record {vs : List Verdict} (hvs : ∀ v ∈ vs, v ≠ .interrupted)
    (tl : Tally) :
    (vs.foldl Tally.record tl).passed + (vs.foldl Tally.record tl).failed +
        (vs.foldl Tally.record tl).errored =
      tl.passed + tl.failed + tl.errored + vs.length := by
  induction vs generalizing tl with
  | nil => rfl
  | cons v vs ih =>
    rw [List.foldl_cons, ih (fun w hw => hvs w (List.mem_cons_of_mem v hw)),
      Tally.count_record tl (hvs v List.mem_cons_self)]
    simp only [List.length_cons]
    omega

end SuiteRunner

namespace SuiteRunner.Run

variable {σ : Type}

/-- The runner that also keeps, in order, every invocation it is given with the reply it gives. -/
def Runner.logged (runner : Runner σ) : Runner (σ × List (Invocation × Reply)) :=
  fun (s, log) inv =>
    let (r, s') := runner s inv
    (r, (s', log ++ [(inv, r)]))

/-- The process that runs one test of a plan. -/
def Plan.call (plan : Plan) (t : TestCase) : Invocation :=
  plan.emulator.invocation plan.firmware t.path

namespace Reply

/-- The verdict on a call that returned, when its outcome has one. -/
def verdict? : Reply → Option Verdict
  | .done o _ => o.classify.toOption
  | .stalls => none

theorem filterMap_verdict?_done {o : Outcome} {v : Verdict} (h : o.classify = .ok v)
    (trips : Bool) (rs : List Reply) :
    (Reply.done o trips :: rs).filterMap verdict? = v :: rs.filterMap verdict? := by
  simp [verdict?, h, Except.toOption]

@[simp] theorem filterMap_verdict?_stalls (rs : List Reply) :
    (Reply.stalls :: rs).filterMap verdict? = rs.filterMap verdict? := rfl

theorem verdict?_ne_interrupted {r : Reply} {v : Verdict} (h : r.verdict? = some v) :
    v ≠ .interrupted := by
  cases r with
  | done o trips =>
    cases hc : o.classify with
    | error p => simp [verdict?, hc, Except.toOption] at h
    | ok w =>
      simp only [verdict?, hc, Except.toOption, Option.some.injEq] at h
      exact h ▸ Outcome.classify_ne_interrupted hc
  | stalls => cases h

/-- Whether the interrupt has fired, as the loop sees it, once the call is over: a call that never
returns has lost the race to it. -/
def trips : Reply → Bool
  | .done _ t => t
  | .stalls => true

end Reply

namespace Interrupt

/-- The interrupt after one call. -/
def after (intr : Interrupt) (r : Reply) : Interrupt :=
  if r.trips then intr.trip else intr

/-- The interrupt that the test at position `j` finds before it starts, after the calls of the
tests before it. -/
def before (intr : Interrupt) (replies : List Reply) (j : Nat) : Interrupt :=
  (replies.take j).foldl after intr

@[simp] theorem before_zero (intr : Interrupt) (replies : List Reply) :
    intr.before replies 0 = intr := rfl

@[simp] theorem before_cons_succ (intr : Interrupt) (r : Reply) (replies : List Reply) (j : Nat) :
    intr.before (r :: replies) (j + 1) = (intr.after r).before replies j := rfl

@[simp] theorem trip_isTripped (intr : Interrupt) : intr.trip.isTripped = true ↔ intr ≠ .inert := by
  cases intr <;> simp [trip, isTripped]

@[simp] theorem after_eq_inert (intr : Interrupt) (r : Reply) : intr.after r = .inert ↔ intr = .inert := by
  cases intr <;> cases h : r.trips <;> simp [after, trip, h]

end Interrupt

/-- The test at position `j`, of index `idx + j`, ran to its end: it found the interrupt untripped,
the interrupt did not preempt its call, and the call returned an outcome with a verdict. -/
def RanToEnd (idx : Nat) (intr : Interrupt) (replies : List Reply) (j : Nat) : Prop :=
  (intr.before replies j).isTripped = false ∧ (intr.before replies j).preempts (idx + j) = false ∧
    ∃ o trips v, replies[j]? = some (.done o trips) ∧ o.classify = .ok v

theorem ranToEnd_succ {idx : Nat} {intr : Interrupt} {r : Reply} {replies : List Reply} {j : Nat} :
    RanToEnd idx intr (r :: replies) (j + 1) ↔ RanToEnd (idx + 1) (intr.after r) replies j := by
  simp [RanToEnd, Nat.add_assoc, Nat.add_comm 1 j]

/-- A test that ran to its end, then tests that ran to theirs. -/
theorem ranToEnd_cons {idx : Nat} {intr : Interrupt} {o : Outcome} {trips : Bool} {v : Verdict}
    {replies : List Reply} {k : Nat} (h : intr.isTripped = false) (hp : intr.preempts idx = false)
    (hc : o.classify = .ok v) (hk : ∀ j < k, RanToEnd (idx + 1) (intr.after (.done o trips)) replies j) :
    ∀ j < k + 1, RanToEnd idx intr (.done o trips :: replies) j := by
  intro j hj
  cases j with
  | zero => exact ⟨h, hp, o, trips, v, rfl, hc⟩
  | succ j => exact ranToEnd_succ.2 (hk j (by omega))

/-! ### One step of the loop on a console that takes every line -/

@[simp] theorem Console.emit_unbounded (L ls : List String) :
    Console.emit ⟨L, none⟩ ls = .ok ⟨L ++ ls, none⟩ := by
  induction ls generalizing L with
  | nil => simp [Console.emit]
  | cons l ls ih => simp [Console.emit, ih]

@[simp] theorem emitThen_unbounded (L ls : List String) (s : σ) (next : Console → Result σ) :
    emitThen ⟨L, none⟩ s ls next = next ⟨L ++ ls, none⟩ := by
  simp [emitThen]

section Step

variable (runner : Runner σ) (plan : Plan) (color : Bool) (total idx : Nat) (tl : Tally)
  (intr : Interrupt) (L : List String)

theorem loop_nil (s : σ) :
    loop runner plan color total idx [] tl intr ⟨L, none⟩ s =
      ⟨.finished (.completed tl), ⟨L ++ Report.completed color tl, none⟩, s⟩ := by
  simp [loop]

theorem loop_tripped {t : TestCase} {ts : List TestCase} {s : σ} (h : intr.isTripped = true) :
    loop runner plan color total idx (t :: ts) tl intr ⟨L, none⟩ s =
      ⟨.finished (.interrupted idx t tl), ⟨L ++ Report.interrupted color t, none⟩, s⟩ := by
  simp [loop, h]

theorem loop_preempted {t : TestCase} {ts : List TestCase} {s : σ} (h : intr.isTripped = false)
    (hp : intr.preempts idx = true) :
    loop runner plan color total idx (t :: ts) tl intr ⟨L, none⟩ s =
      ⟨.finished (.interrupted idx t tl),
        ⟨L ++ Report.started idx total t ++ Report.interrupted color t, none⟩, s⟩ := by
  simp [loop, h, hp]

theorem loop_stalls {t : TestCase} {ts : List TestCase} {s s' : σ} (h : intr.isTripped = false)
    (hp : intr.preempts idx = false) (hr : runner s (plan.call t) = (.stalls, s')) :
    loop runner plan color total idx (t :: ts) tl intr ⟨L, none⟩ s =
      if intr = .inert then ⟨.stalled, ⟨L ++ Report.started idx total t, none⟩, s'⟩
      else ⟨.finished (.interrupted idx t tl),
        ⟨L ++ Report.started idx total t ++ Report.interrupted color t, none⟩, s'⟩ := by
  simp only [Plan.call] at hr
  by_cases hi : intr = .inert
  · subst hi
    simp [loop, hr, Interrupt.trip, Interrupt.isTripped, Interrupt.preempts]
  · have : intr.trip.isTripped = true := (Interrupt.trip_isTripped intr).2 hi
    simp [loop, h, hp, hr, hi, this]

theorem loop_panics {t : TestCase} {ts : List TestCase} {s s' : σ} {o : Outcome} {trips : Bool}
    {p : Panic} (h : intr.isTripped = false) (hp : intr.preempts idx = false)
    (hr : runner s (plan.call t) = (.done o trips, s')) (hc : o.classify = .error p) :
    loop runner plan color total idx (t :: ts) tl intr ⟨L, none⟩ s =
      ⟨.panicked p, ⟨L ++ Report.started idx total t, none⟩, s'⟩ := by
  simp only [Plan.call] at hr
  simp [loop, h, hp, hr, hc]

theorem loop_done {t : TestCase} {ts : List TestCase} {s s' : σ} {o : Outcome} {trips : Bool}
    {v : Verdict} (h : intr.isTripped = false) (hp : intr.preempts idx = false)
    (hr : runner s (plan.call t) = (.done o trips, s')) (hc : o.classify = .ok v) :
    loop runner plan color total idx (t :: ts) tl intr ⟨L, none⟩ s =
      loop runner plan color total (idx + 1) ts (tl.record v) (intr.after (.done o trips))
        ⟨L ++ Report.started idx total t ++ Report.finished color t v, none⟩ s' := by
  simp only [Plan.call] at hr
  simp only [loop, h, hp, hr, hc, emitThen_unbounded, Bool.false_eq_true, if_false,
    Interrupt.after, Reply.trips]
  rfl

end Step

/-! ### The loop read over replies -/

section Settles

variable (color : Bool) (total : Nat)

/-- How the loop over the tests `ts`, the first of which has index `idx`, ends, and the lines it
writes, given the replies `replies` of the calls it makes: the loop's rules with the runner
replaced by its replies. -/
inductive Settles : Nat → List TestCase → Tally → Interrupt → List Reply → Ending →
    List String → Prop
  /-- No test is left, and the tally is the final one. -/
  | completed {idx tl intr} :
      Settles idx [] tl intr [] (.finished (.completed tl)) (Report.completed color tl)
  /-- The next test finds the interrupt tripped and is not started. -/
  | tripped {idx t ts tl intr} (h : intr.isTripped = true) :
      Settles idx (t :: ts) tl intr [] (.finished (.interrupted idx t tl))
        (Report.interrupted color t)
  /-- The interrupt fires after the next test's progress line, before its call is made. -/
  | preempted {idx t ts tl intr} (h : intr.isTripped = false) (hp : intr.preempts idx = true) :
      Settles idx (t :: ts) tl intr [] (.finished (.interrupted idx t tl))
        (Report.started idx total t ++ Report.interrupted color t)
  /-- The next test's call does not return, and the interrupt wins the race against it. -/
  | lost {idx t ts tl intr} (h : intr.isTripped = false) (hp : intr.preempts idx = false)
      (hi : intr ≠ .inert) :
      Settles idx (t :: ts) tl intr [.stalls] (.finished (.interrupted idx t tl))
        (Report.started idx total t ++ Report.interrupted color t)
  /-- The next test's call does not return, and nothing can stop it. -/
  | stalled {idx t ts tl} :
      Settles idx (t :: ts) tl .inert [.stalls] .stalled (Report.started idx total t)
  /-- The next test's call returns an outcome whose classification panics. -/
  | panicked {idx t ts tl intr o trips p} (h : intr.isTripped = false)
      (hp : intr.preempts idx = false) (hc : o.classify = .error p) :
      Settles idx (t :: ts) tl intr [.done o trips] (.panicked p) (Report.started idx total t)
  /-- The next test runs to its end, and the rest of the run goes on from the test after it. -/
  | ran {idx t ts tl intr o trips v replies e lines} (h : intr.isTripped = false)
      (hp : intr.preempts idx = false) (hc : o.classify = .ok v)
      (rest : Settles (idx + 1) ts (tl.record v) (intr.after (.done o trips)) replies e lines) :
      Settles idx (t :: ts) tl intr (.done o trips :: replies) e
        (Report.started idx total t ++ Report.finished color t v ++ lines)

/-- What the end of a run says about its calls: the test it stops at is the first that did not run
to its end, stopped in one of the ways the loop allows, and its tally counts, in order, the
verdicts of the tests before that test. -/
def Ending.Meaning (idx : Nat) (ts : List TestCase) (tl : Tally) (intr : Interrupt)
    (replies : List Reply) : Ending → Prop
  | .finished (.completed tl') =>
    replies.length = ts.length ∧ (∀ j < ts.length, RanToEnd idx intr replies j) ∧
      tl' = (replies.filterMap Reply.verdict?).foldl Tally.record tl
  | .finished (.interrupted i t tl') =>
    ∃ k, i = idx + k ∧ ts[k]? = some t ∧ (∀ j < k, RanToEnd idx intr replies j) ∧
      ((intr.before replies k).isTripped = true ∧ replies.length = k ∨
        (intr.before replies k).isTripped = false ∧
          (intr.before replies k).preempts (idx + k) = true ∧ replies.length = k ∨
        (intr.before replies k).isTripped = false ∧
          (intr.before replies k).preempts (idx + k) = false ∧ intr ≠ .inert ∧
          replies[k]? = some .stalls ∧ replies.length = k + 1) ∧
      tl' = ((replies.take k).filterMap Reply.verdict?).foldl Tally.record tl
  | .stalled =>
    intr = .inert ∧ ∃ k < ts.length, (∀ j < k, RanToEnd idx intr replies j) ∧
      replies[k]? = some .stalls ∧ replies.length = k + 1
  | .panicked p =>
    ∃ k < ts.length, (∀ j < k, RanToEnd idx intr replies j) ∧
      (intr.before replies k).isTripped = false ∧
      (intr.before replies k).preempts (idx + k) = false ∧
      (∃ o trips, replies[k]? = some (.done o trips) ∧ o.classify = .error p) ∧
      replies.length = k + 1
  | _ => False

/-- The way a test that did not run to its end stopped, read one test later: the interrupt it
found is the one after the test before it, and its index is one further on. -/
theorem stop_cons {idx k : Nat} {intr : Interrupt} {r : Reply} {replies : List Reply}
    (hstop : ((intr.after r).before replies k).isTripped = true ∧ replies.length = k ∨
      ((intr.after r).before replies k).isTripped = false ∧
        ((intr.after r).before replies k).preempts (idx + 1 + k) = true ∧ replies.length = k ∨
      ((intr.after r).before replies k).isTripped = false ∧
        ((intr.after r).before replies k).preempts (idx + 1 + k) = false ∧ intr.after r ≠ .inert ∧
        replies[k]? = some .stalls ∧ replies.length = k + 1) :
    (intr.before (r :: replies) (k + 1)).isTripped = true ∧ (r :: replies).length = k + 1 ∨
      (intr.before (r :: replies) (k + 1)).isTripped = false ∧
        (intr.before (r :: replies) (k + 1)).preempts (idx + (k + 1)) = true ∧
        (r :: replies).length = k + 1 ∨
      (intr.before (r :: replies) (k + 1)).isTripped = false ∧
        (intr.before (r :: replies) (k + 1)).preempts (idx + (k + 1)) = false ∧ intr ≠ .inert ∧
        (r :: replies)[k + 1]? = some .stalls ∧ (r :: replies).length = k + 1 + 1 := by
  have hidx : idx + 1 + k = idx + (k + 1) := by omega
  rw [hidx] at hstop
  simpa using hstop

theorem Settles.meaning {idx : Nat} {ts : List TestCase} {tl : Tally} {intr : Interrupt}
    {replies : List Reply} {e : Ending} {lines : List String}
    (h : Settles color total idx ts tl intr replies e lines) :
    e.Meaning idx ts tl intr replies := by
  induction h with
  | completed => simp [Ending.Meaning]
  | tripped h => exact ⟨0, rfl, rfl, by simp, .inl ⟨h, rfl⟩, rfl⟩
  | preempted h hp => exact ⟨0, rfl, rfl, by simp, .inr (.inl ⟨h, hp, rfl⟩), rfl⟩
  | lost h hp hi => exact ⟨0, rfl, rfl, by simp, .inr (.inr ⟨h, hp, hi, rfl, rfl⟩), rfl⟩
  | stalled => exact ⟨rfl, 0, by simp, by simp, rfl, rfl⟩
  | panicked h hp hc => exact ⟨0, by simp, by simp, h, hp, ⟨_, _, rfl, hc⟩, rfl⟩
  | @ran idx t ts tl intr o trips v replies e lines h hp hc rest ih =>
    have hverdicts := Reply.filterMap_verdict?_done hc trips
    cases e with
    | finished st =>
      cases st with
      | completed tl' =>
        obtain ⟨hlen, hran, htally⟩ := ih
        exact ⟨by simp [hlen], ranToEnd_cons h hp hc hran, by simp [hverdicts, htally]⟩
      | interrupted i t' tl' =>
        obtain ⟨k, hi, ht, hran, hstop, htally⟩ := ih
        refine ⟨k + 1, by omega, by simpa using ht, ranToEnd_cons h hp hc hran, ?_, ?_⟩
        · exact stop_cons hstop
        · simp [List.take_succ_cons, hverdicts, htally]
      | noTests => exact ih.elim
    | stalled =>
      obtain ⟨hinert, k, hk, hran, hstall, hlen⟩ := ih
      exact ⟨(Interrupt.after_eq_inert _ _).1 hinert, k + 1, by simpa using hk,
        ranToEnd_cons h hp hc hran, by simpa using hstall, by simp [hlen]⟩
    | panicked p =>
      obtain ⟨k, hk, hran, htrip, hpre, hpanic, hlen⟩ := ih
      have hidx : idx + 1 + k = idx + (k + 1) := by omega
      rw [hidx] at hpre
      exact ⟨k + 1, by simpa using hk, ranToEnd_cons h hp hc hran, by simpa using htrip,
        by simpa using hpre, by simpa using hpanic, by simp [hlen]⟩
    | failed f => exact ih.elim

end Settles

section Logged

variable (runner : Runner σ) (plan : Plan) (color : Bool) (total : Nat)

theorem logged_apply (s : σ) (log : List (Invocation × Reply)) (inv : Invocation) :
    Runner.logged runner (s, log) inv =
      ((runner s inv).1, ((runner s inv).2, log ++ [(inv, (runner s inv).1)])) := rfl

/-- The loop with a logged runner settles over the replies it logged, and every call it logged was
for the next test, in order. -/
theorem loop_settles (ts : List TestCase) (idx : Nat) (tl : Tally) (intr : Interrupt)
    (L : List String) (s : σ) (log : List (Invocation × Reply)) :
    ∃ calls s' e lines,
      loop (Runner.logged runner) plan color total idx ts tl intr ⟨L, none⟩ (s, log) =
        ⟨e, ⟨L ++ lines, none⟩, (s', log ++ calls)⟩ ∧
      calls.map Prod.fst = (ts.take calls.length).map plan.call ∧
      Settles color total idx ts tl intr (calls.map Prod.snd) e lines := by
  induction ts generalizing idx tl intr L s log with
  | nil => exact ⟨[], s, _, _, by rw [loop_nil]; simp, rfl, .completed⟩
  | cons t ts ih =>
    cases h : intr.isTripped
    case true => exact ⟨[], s, _, _, by rw [loop_tripped _ _ _ _ _ _ _ _ h]; simp, rfl, .tripped h⟩
    case false =>
      cases hp : intr.preempts idx
      case true =>
        exact ⟨[], s, _, _, by rw [loop_preempted _ _ _ _ _ _ _ _ h hp]; simp, rfl,
          .preempted h hp⟩
      case false =>
        rcases hr : runner s (plan.call t) with ⟨r, s₁⟩
        have hlog : Runner.logged runner (s, log) (plan.call t) =
            (r, (s₁, log ++ [(plan.call t, r)])) := by
          rw [logged_apply, hr]
        cases r with
        | stalls =>
          rw [loop_stalls _ _ _ _ _ _ _ _ h hp hlog]
          by_cases hi : intr = .inert
          · subst hi
            exact ⟨[(plan.call t, .stalls)], s₁, .stalled, Report.started idx total t, by simp,
              rfl, .stalled⟩
          · exact ⟨[(plan.call t, .stalls)], s₁, .finished (.interrupted idx t tl),
              Report.started idx total t ++ Report.interrupted color t, by simp [hi], rfl,
              .lost h hp hi⟩
        | done o trips =>
          cases hc : o.classify with
          | error p =>
            exact ⟨[(plan.call t, .done o trips)], s₁, .panicked p, Report.started idx total t,
              by rw [loop_panics _ _ _ _ _ _ _ _ h hp hlog hc], rfl, .panicked h hp hc⟩
          | ok v =>
            obtain ⟨calls, s', e, lines, hrun, hcalls, hsettles⟩ :=
              ih (idx + 1) (tl.record v) (intr.after (.done o trips))
                (L ++ Report.started idx total t ++ Report.finished color t v) s₁
                (log ++ [(plan.call t, .done o trips)])
            refine ⟨(plan.call t, .done o trips) :: calls, s', e,
              Report.started idx total t ++ Report.finished color t v ++ lines, ?_, ?_,
              Settles.ran h hp hc hsettles⟩
            · rw [loop_done _ _ _ _ _ _ _ _ h hp hlog hc, hrun]
              simp
            · simp [hcalls]

theorem emitThen_logged {c : Console} {s : σ} {log : List (Invocation × Reply)} {lines : List String}
    {next : Console → Result (σ × List (Invocation × Reply))} {next' : Console → Result σ}
    (h : ∀ c, (next c).ending = (next' c).ending ∧ (next c).console = (next' c).console ∧
      (next c).state.1 = (next' c).state) :
    let r := emitThen c (s, log) lines next
    let r' := emitThen c s lines next'
    r.ending = r'.ending ∧ r.console = r'.console ∧ r.state.1 = r'.state := by
  unfold emitThen
  split
  · exact h _
  · exact ⟨rfl, rfl, rfl⟩

/-- Keeping the log changes nothing the loop does: on any console it ends the same way, writes
the same lines and leaves the runner in the same state. -/
theorem loop_logged (ts : List TestCase) (idx : Nat) (tl : Tally) (intr : Interrupt) (c : Console)
    (s : σ) (log : List (Invocation × Reply)) :
    let r := loop (Runner.logged runner) plan color total idx ts tl intr c (s, log)
    let r' := loop runner plan color total idx ts tl intr c s
    r.ending = r'.ending ∧ r.console = r'.console ∧ r.state.1 = r'.state := by
  induction ts generalizing idx tl intr c s log with
  | nil => exact emitThen_logged fun _ => ⟨rfl, rfl, rfl⟩
  | cons t ts ih =>
    simp only [loop]
    split
    · exact emitThen_logged fun _ => ⟨rfl, rfl, rfl⟩
    · apply emitThen_logged
      intro c
      split
      · exact emitThen_logged fun _ => ⟨rfl, rfl, rfl⟩
      · rcases hr : runner s (plan.emulator.invocation plan.firmware t.path) with ⟨r, s'⟩
        have hlog : Runner.logged runner (s, log) (plan.emulator.invocation plan.firmware t.path) =
            (r, (s', log ++ [(plan.emulator.invocation plan.firmware t.path, r)])) := by
          rw [logged_apply, hr]
        rw [hlog]
        cases r with
        | stalls =>
          dsimp only
          split
          · exact emitThen_logged fun _ => ⟨rfl, rfl, rfl⟩
          · exact ⟨rfl, rfl, rfl⟩
        | done o trips =>
          dsimp only
          split
          · exact ⟨rfl, rfl, rfl⟩
          · exact emitThen_logged fun c => ih _ _ _ c _ _

/-- A block of lines written before an ending keeps the runner's state, whether or not the
writer takes it. -/
theorem emitThen_ended_state (c : Console) (s : σ) (lines : List String) (e : Ending) :
    (emitThen c s lines fun c => ⟨e, c, s⟩).state = s := by
  unfold emitThen
  split <;> rfl

/-- A block of lines before the rest of a run keeps the runner's state, or goes on with the
rest. -/
theorem emitThen_state (c : Console) (s : σ) (lines : List String) (next : Console → Result σ) :
    (emitThen c s lines next).state = s ∨ ∃ c', emitThen c s lines next = next c' := by
  unfold emitThen
  split
  · exact .inr ⟨_, rfl⟩
  · exact .inl rfl

/-- On any console, the calls of the loop go to a prefix of its tests, in order. -/
theorem loop_calls (ts : List TestCase) (idx : Nat) (tl : Tally) (intr : Interrupt) (c : Console)
    (s : σ) (log : List (Invocation × Reply)) :
    ∃ calls, (loop (Runner.logged runner) plan color total idx ts tl intr c (s, log)).state.2 =
        log ++ calls ∧ calls.map Prod.fst = (ts.take calls.length).map plan.call := by
  induction ts generalizing idx tl intr c s log with
  | nil => exact ⟨[], by simp only [loop, emitThen_ended_state, List.append_nil], rfl⟩
  | cons t ts ih =>
    have hcall : plan.emulator.invocation plan.firmware t.path = plan.call t := rfl
    simp only [loop, hcall]
    split
    · exact ⟨[], by simp only [emitThen_ended_state, List.append_nil], rfl⟩
    · rcases emitThen_state c (s, log) (Report.started idx total t) _ with hstate | ⟨c', hnext⟩
      · exact ⟨[], by rw [hstate, List.append_nil], rfl⟩
      · rw [hnext]
        split
        · exact ⟨[], by simp only [emitThen_ended_state, List.append_nil], rfl⟩
        · rcases hr : runner s (plan.call t) with ⟨r, s₁⟩
          have hlog : Runner.logged runner (s, log) (plan.call t) =
              (r, (s₁, log ++ [(plan.call t, r)])) := by
            rw [logged_apply, hr]
          rw [hlog]
          have hone : ∀ x : σ × List (Invocation × Reply), x = (s₁, log ++ [(plan.call t, r)]) →
              x.2 = log ++ [(plan.call t, r)] ∧
                [(plan.call t, r)].map Prod.fst = ((t :: ts).take 1).map plan.call := by
            rintro x rfl
            exact ⟨rfl, rfl⟩
          cases r with
          | stalls =>
            dsimp only
            split
            · exact ⟨_, hone _ (emitThen_ended_state _ _ _ _)⟩
            · exact ⟨_, hone _ rfl⟩
          | done o trips =>
            dsimp only
            cases hc : o.classify with
            | error p => exact ⟨_, hone _ rfl⟩
            | ok v =>
              dsimp only
              rcases emitThen_state c' _ _ _ with hstate | ⟨c'', hrest⟩
              · exact ⟨_, hone _ hstate⟩
              · rw [hrest]
                obtain ⟨calls, hcalls, hcallsFor⟩ := ih (idx + 1) (tl.record v)
                  (if trips then intr.trip else intr) c'' s₁ (log ++ [(plan.call t, .done o trips)])
                refine ⟨(plan.call t, .done o trips) :: calls, by simp [hcalls], ?_⟩
                simp [hcallsFor]

end Logged

/-- A run with the logged runner is the run itself: it ends the same way, writes the same lines
and leaves the runner in the same state. -/
theorem runAll_logged (runner : Runner σ) (plan : Plan) (color : Bool) (intr : Interrupt)
    (c : Console) (s : σ) :
    let r := runAll (Runner.logged runner) plan color intr c (s, [])
    let r' := runAll runner plan color intr c s
    r.ending = r'.ending ∧ r.console = r'.console ∧ r.state.1 = r'.state := by
  unfold runAll
  split
  · exact emitThen_logged fun _ => ⟨rfl, rfl, rfl⟩
  · exact emitThen_logged fun c => loop_logged runner plan color _ plan.tests 1 {} intr c s []

/-- On any console, the calls of a run go to a prefix of its tests, in order, each with the plan's
emulator and firmware. -/
theorem runAll_calls_prefix (runner : Runner σ) (plan : Plan) (color : Bool) (intr : Interrupt)
    (c : Console) (s : σ) :
    let calls := (runAll (Runner.logged runner) plan color intr c (s, [])).state.2
    calls.map Prod.fst = (plan.tests.take calls.length).map plan.call := by
  unfold runAll
  split
  · simp [emitThen_ended_state]
  · rcases emitThen_state c (s, []) (Report.discovered plan.tests.length)
      (fun c => loop (Runner.logged runner) plan color plan.tests.length 1 plan.tests {} intr c
        (s, [])) with hstate | ⟨c', hnext⟩
    · rw [hstate]
      rfl
    · obtain ⟨calls, hcalls, hcallsFor⟩ :=
        loop_calls runner plan color plan.tests.length plan.tests 1 {} intr c' s []
      simp only [hnext, hcalls, List.nil_append]
      exact hcallsFor

/-! ### Whole runs -/

/-- When every call ran to its end, each has a verdict. -/
theorem length_verdicts {idx : Nat} {intr : Interrupt} {replies : List Reply}
    (h : ∀ j < replies.length, RanToEnd idx intr replies j) :
    (replies.filterMap Reply.verdict?).length = replies.length := by
  rw [List.filterMap_length_eq_length]
  intro r hr
  obtain ⟨j, hj, rfl⟩ := List.getElem_of_mem hr
  obtain ⟨-, -, o, trips, v, hget, hc⟩ := h j hj
  rw [List.getElem?_eq_getElem hj, Option.some.injEq] at hget
  simp [hget, Reply.verdict?, hc, Except.toOption]

section Entry

variable (runner : Runner σ) (plan : Plan) (color : Bool) (intr : Interrupt) (L : List String)
  (s : σ)

theorem runAll_noTests (h : plan.tests = []) :
    runAll runner plan color intr ⟨L, none⟩ s =
      ⟨.finished .noTests, ⟨L ++ Report.noneFound color plan.searched, none⟩, s⟩ := by
  simp [runAll, h]

theorem runAll_tests (h : plan.tests ≠ []) :
    runAll runner plan color intr ⟨L, none⟩ s =
      loop runner plan color plan.tests.length 1 plan.tests {} intr
        ⟨L ++ Report.discovered plan.tests.length, none⟩ s := by
  simp [runAll, List.isEmpty_iff, h]

/-- A run with tests writes the count of tests found, then settles over the replies of the calls
it logged, every call being for the next test in order. -/
theorem runAll_settles (h : plan.tests ≠ []) :
    ∃ calls s' e lines,
      runAll (Runner.logged runner) plan color intr ⟨L, none⟩ (s, []) =
        ⟨e, ⟨L ++ Report.discovered plan.tests.length ++ lines, none⟩, (s', calls)⟩ ∧
      calls.map Prod.fst = (plan.tests.take calls.length).map plan.call ∧
      Settles color plan.tests.length 1 plan.tests {} intr (calls.map Prod.snd) e lines := by
  obtain ⟨calls, s', e, lines, hrun, hcalls, hsettles⟩ :=
    loop_settles runner plan color plan.tests.length plan.tests 1 {} intr
      (L ++ Report.discovered plan.tests.length) s []
  refine ⟨calls, s', e, lines, ?_, hcalls, hsettles⟩
  rw [runAll_tests _ _ _ _ _ _ h, hrun, List.nil_append]

end Entry

/-- The contract of a run, for every runner and every interrupt, on a console that takes every
line. The calls go to a prefix of the tests, in order, one each, with the emulator's program and
its leading arguments, the firmware and the test's path. A run completes only when every test ran
to its end, with the tally of all their verdicts. It is interrupted at the first test that finds
the interrupt tripped, that the interrupt preempts after its progress line and before its call,
or whose call loses the race to it, with the tally of the tests before that one only; the
preempted test has no call. A call that never returns while the interrupt cannot fire holds the
run forever, and a call whose outcome is the least 32-bit signal panics the run, as its negation
overflows. -/
theorem runAll_calls_and_ending (runner : Runner σ) (plan : Plan) (color : Bool)
    (intr : Interrupt) (pre : List String) (s : σ) :
    let r := runAll (Runner.logged runner) plan color intr { lines := pre } (s, [])
    let calls := r.state.2
    let replies := calls.map Prod.snd
    calls.map Prod.fst = (plan.tests.take calls.length).map (fun t =>
        ⟨plan.emulator.program, plan.emulator.leadingArgs ++ [plan.firmware, t.path]⟩) ∧
      match r.ending with
      | .finished .noTests => plan.tests = [] ∧ calls = []
      | .finished (.completed tally) =>
        0 < plan.tests.length ∧ calls.length = plan.tests.length ∧
          (∀ j < plan.tests.length, RanToEnd 1 intr replies j) ∧
          tally = (replies.filterMap Reply.verdict?).foldl Tally.record {} ∧
          tally.passed + tally.failed + tally.errored = plan.tests.length
      | .finished (.interrupted i t tally) =>
        1 ≤ i ∧ i ≤ plan.tests.length ∧ plan.tests[i - 1]? = some t ∧
          (∀ j < i - 1, RanToEnd 1 intr replies j) ∧
          ((intr.before replies (i - 1)).isTripped = true ∧ calls.length = i - 1 ∨
            (intr.before replies (i - 1)).isTripped = false ∧
              (intr.before replies (i - 1)).preempts i = true ∧ calls.length = i - 1 ∨
            (intr.before replies (i - 1)).isTripped = false ∧
              (intr.before replies (i - 1)).preempts i = false ∧ intr ≠ .inert ∧
              replies[i - 1]? = some .stalls ∧ calls.length = i) ∧
          tally = ((replies.take (i - 1)).filterMap Reply.verdict?).foldl Tally.record {}
      | .stalled =>
        intr = .inert ∧ ∃ k < plan.tests.length, (∀ j < k, RanToEnd 1 intr replies j) ∧
          replies[k]? = some .stalls ∧ calls.length = k + 1
      | .panicked p =>
        p = .negateOverflow ∧ ∃ k < plan.tests.length, (∀ j < k, RanToEnd 1 intr replies j) ∧
          (intr.before replies k).isTripped = false ∧
          (intr.before replies k).preempts (k + 1) = false ∧
          (∃ trips, replies[k]? = some (.done (.signaled Int32.minValue) trips)) ∧
          calls.length = k + 1
      | .failed _ => False := by
  dsimp only
  by_cases h : plan.tests = []
  · rw [runAll_noTests _ _ _ _ _ _ h]
    simp [h]
  obtain ⟨calls, s', e, lines, hrun, hcalls, hsettles⟩ := runAll_settles runner plan color intr pre s h
  rw [hrun]
  refine ⟨hcalls, ?_⟩
  have hmeaning := hsettles.meaning
  cases e with
  | finished st =>
    cases st with
    | noTests => exact hmeaning.elim
    | completed tally =>
      obtain ⟨hlen, hran, htally⟩ := hmeaning
      rw [List.length_map] at hlen
      have hverdicts : ∀ v ∈ (calls.map Prod.snd).filterMap Reply.verdict?, v ≠ .interrupted :=
        fun v hv => Reply.verdict?_ne_interrupted (List.mem_filterMap.1 hv).choose_spec.2
      refine ⟨List.length_pos_iff.2 h, hlen, hran, htally, ?_⟩
      rw [htally, Tally.count_foldl_record hverdicts, length_verdicts (by simpa [hlen] using hran)]
      simp [hlen]
    | interrupted i t tally =>
      obtain ⟨k, rfl, ht, hran, hstop, htally⟩ := hmeaning
      have hk : k < plan.tests.length := (List.getElem?_eq_some_iff.1 ht).1
      dsimp only
      rw [Nat.add_sub_cancel_left]
      refine ⟨by omega, by omega, ht, hran, ?_, htally⟩
      rcases hstop with ⟨htrip, hlen⟩ | ⟨htrip, hpre, hlen⟩ | ⟨htrip, hpre, hinert, hstall, hlen⟩
      · exact .inl ⟨htrip, by simpa using hlen⟩
      · exact .inr (.inl ⟨htrip, hpre, by simpa using hlen⟩)
      · exact .inr (.inr ⟨htrip, hpre, hinert, hstall, by simp at hlen; omega⟩)
  | stalled =>
    obtain ⟨hinert, k, hk, hran, hstall, hlen⟩ := hmeaning
    exact ⟨hinert, k, hk, hran, hstall, by simpa using hlen⟩
  | panicked p =>
    obtain ⟨k, hk, hran, htrip, hpre, ⟨o, trips, hget, hc⟩, hlen⟩ := hmeaning
    obtain ⟨rfl, rfl⟩ := Outcome.classify_eq_error_iff.1 hc
    refine ⟨rfl, k, hk, hran, htrip, by rwa [Nat.add_comm] at hpre, ⟨trips, hget⟩, ?_⟩
    simpa using hlen
  | failed f => exact hmeaning.elim

/-- A run of one test whose call returns the least 32-bit signal panics after that call: it
neither completes nor is interrupted. -/
theorem runAll_panics_at_least_signal :
    let plan : Plan := ⟨"/fw.bin", ⟨"starpsx", []⟩, [⟨"a.exe"⟩], ""⟩
    let runner : Runner Unit := fun s _ => (.done (.signaled Int32.minValue) false, s)
    let r := runAll (Runner.logged runner) plan false (.armed false) {} ((), [])
    r.ending = .panicked .negateOverflow ∧
      r.state.2 = [(⟨"starpsx", ["/fw.bin", "a.exe"]⟩, .done (.signaled Int32.minValue) false)] := by
  intro plan runner
  have hc := Outcome.classify_signaled_minValue
  simp [runAll, plan, loop, runner, Runner.logged, hc, Emulator.invocation, Emulator.argsFor,
    emitThen, Interrupt.isTripped, Interrupt.preempts]

/-- On a console that takes every line, a run never fails to report. -/
theorem runAll_ending_ne_failed (runner : Runner σ) (plan : Plan) (color : Bool) (intr : Interrupt)
    (pre : List String) (s : σ) (f : Fault) :
    (runAll runner plan color intr { lines := pre } s).ending ≠ .failed f := by
  by_cases h : plan.tests = []
  · rw [runAll_noTests _ _ _ _ _ _ h]
    simp
  · obtain ⟨calls, s', e, lines, hrun, -, hsettles⟩ := runAll_settles runner plan color intr pre s h
    have hsame := (runAll_logged runner plan color intr { lines := pre } s).1
    rw [hrun] at hsame
    intro hfailed
    rw [hfailed] at hsame
    subst hsame
    exact hsettles.meaning

end SuiteRunner.Run

import SuiteRunner.Launch

/-! The guard on a child's process group, over every run of a watch. `Reached` says where a
sequence of events leads: for each point the runner can stand at, the events that led there, the
guard and the groups sent a kill. Every step keeps it (`Reached.step`), so every run from the start
does (`Reached.run`). From it, `run_kills_group_at_most_once`: the group is sent a kill at most
once, and only the child's own; exactly when the limit elapsed or the watch was dropped while
waiting; never once the wait returned, nor when the start failed; and the outcome is the start's
failure, the timeout with the limit, or what the wait returned. -/

namespace SuiteRunner

@[simp] theorem Outcome.ofStatus_ne_launchFailed (st : ExitStatus) (c : String) :
    Outcome.ofStatus st ≠ .launchFailed c := by
  cases st <;> simp [Outcome.ofStatus]

@[simp] theorem Outcome.ofStatus_ne_timedOut (st : ExitStatus) (l : Duration) :
    Outcome.ofStatus st ≠ .timedOut l := by
  cases st <;> simp [Outcome.ofStatus]

namespace Watch

@[simp] theorem spend_stage (stage : Stage) (g : GroupKill) (sent : List Nat) :
    (spend stage g sent).stage = stage := rfl

@[simp] theorem spend_guard (stage : Stage) (g : GroupKill) (sent : List Nat) :
    (spend stage g sent).guard.pgid = none := rfl

@[simp] theorem spend_signalled (stage : Stage) (g : GroupKill) (sent : List Nat) :
    (spend stage g sent).signalled = sent ++ g.pgid.toList := rfl

/-- Where the events `evs` lead a watch from the start, by the point `w` stands at: the events
that led there, the guard, and the groups sent a kill. -/
def Reached (limit : Option Duration) (evs : List Event) (w : Watch) : Prop :=
  match w.stage with
  | .start => evs = [] ∧ w.guard.pgid = none ∧ w.signalled = []
  | .waiting pid => evs = [.spawned pid] ∧ w.guard.pgid = some pid ∧ w.signalled = []
  | .killing pid l =>
    limit = some l ∧ evs = [.spawned pid, .elapses] ∧ w.guard.pgid = none ∧ w.signalled = [pid]
  | .returned o => w.guard.pgid = none ∧
    ((∃ c, evs = [.refused c] ∧ o = .launchFailed c ∧ w.signalled = []) ∨
      (∃ pid st, evs = [.spawned pid, .exits st] ∧ o = .ofStatus st ∧ w.signalled = []) ∨
      (∃ pid c, evs = [.spawned pid, .waitFails c] ∧ o = .waitFailed c ∧ w.signalled = []) ∨
      (∃ pid l, limit = some l ∧ evs = [.spawned pid, .elapses, .killed] ∧ o = .timedOut l ∧
        w.signalled = [pid]))
  | .dropped => w.guard.pgid = none ∧ ∃ pid, w.signalled = [pid] ∧
    (evs = [.spawned pid, .drop] ∨ limit.isSome ∧ evs = [.spawned pid, .elapses, .drop])

variable {limit : Option Duration}

theorem Reached.initial : Reached limit [] initial := by
  simp [Reached, Watch.initial]

/-- One step keeps `Reached`: each event the runner can take from a point leads to the next. At the
limit, the limit is the one the runner was given and the kill takes the child's group. -/
theorem Reached.step {evs : List Event} {w w' : Watch} {ev : Event} (hw : Reached limit evs w)
    (hs : step limit w ev = some w') : Reached limit (evs ++ [ev]) w' := by
  obtain ⟨stage, g, sent⟩ := w
  simp only [Reached] at hw
  cases stage with
  | start =>
    obtain ⟨rfl, hg, rfl⟩ := hw
    cases ev <;> simp only [Watch.step, reduceCtorEq, Option.some.injEq] at hs <;> subst hs
    case spawned pid => simp [Reached, GroupKill.new]
    case refused c => simp [Reached, hg]
  | waiting pid =>
    obtain ⟨rfl, hg, rfl⟩ := hw
    cases ev <;> simp only [Watch.step, reduceCtorEq, Option.some.injEq] at hs
    case exits st =>
      subst hs
      simp only [Reached, spend_stage]
      exact ⟨rfl, .inr (.inl ⟨pid, st, rfl, rfl, rfl⟩)⟩
    case waitFails c =>
      subst hs
      simp only [Reached, spend_stage]
      exact ⟨rfl, .inr (.inr (.inl ⟨pid, c, rfl, rfl, rfl⟩))⟩
    case elapses =>
      obtain ⟨l, hl, rfl⟩ := Option.map_eq_some_iff.1 hs
      simp [Reached, hl, hg]
    case drop =>
      subst hs
      simp [Reached, hg]
  | killing pid l =>
    obtain ⟨hl, rfl, hg, rfl⟩ := hw
    cases ev <;> simp only [Watch.step, reduceCtorEq, Option.some.injEq] at hs <;> subst hs
    case killed => simp [Reached, hl, hg]
    case drop => simp [Reached, hl, hg]
  | returned o => cases ev <;> simp [Watch.step] at hs
  | dropped => cases ev <;> simp [Watch.step] at hs

/-- A run keeps `Reached`, by induction on the events, one step at a time. -/
theorem Reached.run {evs : List Event} {w : Watch} (hw : Reached limit evs w) :
    ∀ {evs' : List Event} {w' : Watch}, Watch.run limit w evs' = some w' →
      Reached limit (evs ++ evs') w'
  | [], w', h => by
    simp only [Watch.run, Option.some.injEq] at h
    subst h
    simpa using hw
  | ev :: evs', w', h => by
    simp only [Watch.run, Option.bind_eq_some_iff] at h
    obtain ⟨w₁, h₁, hrest⟩ := h
    simpa using (hw.step h₁).run hrest

/-- What the guard promises of a run of the events `evs` that left the watch at `w`: at most one
kill, of the child's group only; a kill exactly when the limit elapsed or the watch was dropped;
none once the wait returned or when the start failed; and a returned outcome that is the start's
failure exactly when the start failed, the timeout exactly when a limit was set and elapsed, and
otherwise the outcome of what the wait returned. -/
structure Guarded (limit : Option Duration) (evs : List Event) (w : Watch) : Prop where
  once : w.signalled.length ≤ 1
  own : ∀ pgid ∈ w.signalled, .spawned pgid ∈ evs
  sent_iff : w.signalled ≠ [] ↔ .elapses ∈ evs ∨ .drop ∈ evs
  spared : (∃ st, .exits st ∈ evs) ∨ (∃ c, .waitFails c ∈ evs) ∨ (∃ c, .refused c ∈ evs) →
    w.signalled = []
  outcome : ∀ o, w.stage = .returned o →
    (∀ c, o = .launchFailed c ↔ .refused c ∈ evs) ∧
    (∀ l, o = .timedOut l ↔ limit = some l ∧ .elapses ∈ evs) ∧
    (∀ st, .exits st ∈ evs → o = .ofStatus st) ∧
    (∀ c, .waitFails c ∈ evs → o = .waitFailed c)

/-- Every point a run can reach keeps the guard's promise: each of the runs `Reached` lists is
checked on its own events. -/
theorem Reached.guarded {evs : List Event} {w : Watch} (h : Reached limit evs w) :
    Guarded limit evs w := by
  obtain ⟨stage, g, sent⟩ := w
  cases stage <;> simp only [Reached] at h
  case start =>
    obtain ⟨rfl, -, rfl⟩ := h
    constructor <;> simp
  case waiting pid =>
    obtain ⟨rfl, -, rfl⟩ := h
    constructor <;> simp
  case killing pid l =>
    obtain ⟨-, rfl, -, rfl⟩ := h
    constructor <;> simp
  case returned o =>
    obtain ⟨-, ⟨c, rfl, rfl, rfl⟩ | ⟨pid, st, rfl, rfl, rfl⟩ | ⟨pid, c, rfl, rfl, rfl⟩ |
      ⟨pid, l, hl, rfl, rfl, rfl⟩⟩ := h
    · constructor <;> simp [eq_comm]
    · constructor <;> simp
    · constructor <;> simp
    · constructor <;> simp [hl]
  case dropped =>
    obtain ⟨-, pid, rfl, hevs⟩ := h
    rcases hevs with rfl | ⟨-, rfl⟩ <;> constructor <;> simp

/-- Every run of a watch from the start keeps the guard's promise. -/
theorem run_kills_group_at_most_once (limit : Option Duration) (evs : List Event) (w : Watch)
    (h : initial.run limit evs = some w) : Guarded limit evs w := by
  have hr : Reached limit evs w := by simpa using Reached.initial.run h
  exact hr.guarded

/-- A watch with a five-second limit, dropped while the kill of its child is awaited, has killed
the child's group once. -/
theorem run_kills_group_at_most_once_dropped_in_kill :
    initial.run (some ⟨5, 0⟩) [.spawned 100, .elapses, .drop] = some ⟨.dropped, ⟨none⟩, [100]⟩ ∧
      Guarded (some ⟨5, 0⟩) [.spawned 100, .elapses, .drop] ⟨.dropped, ⟨none⟩, [100]⟩ :=
  ⟨rfl, run_kills_group_at_most_once _ _ _ rfl⟩

end Watch

/-- The watch takes the events of any wait after the start of the child `pid`. -/
theorem Watch.run_waitEvents (limit : Option Duration) (pid : Nat) (e : Shell.End) :
    ∃ w, Watch.initial.run limit (.spawned pid :: waitEvents limit e) = some w := by
  cases e <;> cases limit <;> exact ⟨_, rfl⟩

/-- Watching a start is a run of a watch, whatever the system does with the start: the outcome is
that of a run that reached its end or, for a child that never ends with no limit, still waits.
The child's end gives the events of the wait, which the watch takes after the start. -/
theorem watchStart_watched (limit : Option Duration) (tree : FileTree)
    (start : Except OsError (Shell.End × FileTree)) :
    ∃ evs w, Watch.initial.run limit evs = some w ∧ (watchStart limit tree start).1 = w.outcome? := by
  cases start with
  | error e => exact ⟨[.refused e.message], ⟨.returned (.launchFailed e.message), ⟨none⟩, []⟩, rfl, rfl⟩
  | ok r =>
    obtain ⟨e, tree'⟩ := r
    obtain ⟨w, hw⟩ := Watch.run_waitEvents limit firstPid e
    exact ⟨_, w, hw, by simp only [watchStart, hw]; rfl⟩

end SuiteRunner

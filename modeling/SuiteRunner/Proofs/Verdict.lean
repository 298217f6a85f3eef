import SuiteRunner.Tally
import Mathlib.Data.List.Forall2

/-! What the verdict on an outcome says, and what the tally of a run counts. An exit with code
zero passes, any other exit or a death by a signal fails, and the rest are errors; so the tally of
a sequence of outcomes counts each kind, and the three counts add up to the number of outcomes.

A signal `s` fails with code `-s`, and the negation is checked. It panics at the least 32-bit
number, the one signal without a negation, and is exact at every other, where `bmod` leaves the
negated number alone; it gives zero only for the signal zero. The system reports neither of the
two, as its signal numbers are small and positive, but an outcome may carry any 32-bit number, and
classifying the least one stops the program instead of giving a verdict. -/

namespace SuiteRunner

/-- A list read by a function that may fail is read element by element. -/
theorem forall₂_of_mapM_eq_ok {α β ε : Type} {f : α → Except ε β} :
    ∀ {l : List α} {r : List β}, l.mapM f = .ok r → List.Forall₂ (fun a b => f a = .ok b) l r
  | [], r, h => by
    cases h
    exact .nil
  | a :: l, r, h => by
    rw [List.mapM_cons] at h
    cases hfa : f a with
    | error e => simp [hfa, bind, Except.bind] at h
    | ok b =>
      cases hl : l.mapM f with
      | error e => simp [hfa, hl, bind, Except.bind] at h
      | ok bs =>
        simp only [hfa, hl, bind, Except.bind, pure, Except.pure, Except.ok.injEq] at h
        subst h
        exact .cons hfa (forall₂_of_mapM_eq_ok hl)

/-- A list read element by element by a function that fails nowhere on it is read whole. -/
theorem mapM_eq_ok_of_forall {α β ε : Type} {f : α → Except ε β} :
    ∀ {l : List α}, (∀ a ∈ l, ∃ b, f a = .ok b) → ∃ r, l.mapM f = .ok r
  | [], _ => ⟨[], rfl⟩
  | a :: l, h => by
    obtain ⟨b, hb⟩ := h a List.mem_cons_self
    obtain ⟨r, hr⟩ := mapM_eq_ok_of_forall fun x hx => h x (List.mem_cons_of_mem a hx)
    exact ⟨b :: r, by simp [List.mapM_cons, hb, hr, bind, Except.bind, pure, Except.pure]⟩

namespace Outcome

/-- The process exited with code zero. -/
def passes : Outcome → Bool
  | .exited c => c == 0
  | _ => false

/-- The process exited with another code, or a signal killed it. -/
def fails : Outcome → Bool
  | .exited c => c != 0
  | .signaled _ => true
  | _ => false

/-- The process could not be started or waited for, or it ran out of time. -/
def errs : Outcome → Bool
  | .launchFailed _ | .waitFailed _ | .timedOut _ => true
  | _ => false

/-- The verdict on a death by signal: the signal's negation as an exit code, or the panic of the
negation at the least 32-bit number. -/
theorem classify_signaled (s : Int32) :
    (signaled s).classify =
      if s = Int32.minValue then .error .negateOverflow else .ok (.nonZeroExit (-s)) := by
  by_cases h : s = Int32.minValue <;> simp [classify, checkedNeg, h, Except.map]

theorem classify_signaled_of_ne {s : Int32} (h : s ≠ Int32.minValue) :
    (signaled s).classify = .ok (.nonZeroExit (-s)) := by
  simp [classify_signaled, h]

theorem classify_signaled_minValue :
    (signaled Int32.minValue).classify = .error .negateOverflow := by
  simp [classify_signaled]

/-- Classifying panics at the least 32-bit signal and at no other outcome. -/
theorem classify_eq_error_iff {o : Outcome} {p : Panic} :
    o.classify = .error p ↔ o = .signaled Int32.minValue ∧ p = .negateOverflow := by
  cases o with
  | exited c => by_cases h : c = 0 <;> simp [classify, h]
  | signaled s => by_cases h : s = Int32.minValue <;> simp [classify_signaled, h, eq_comm]
  | _ => simp [classify]

/-- Every outcome but the least 32-bit signal has a verdict. -/
theorem classify_ok_of_ne {o : Outcome} (h : o ≠ .signaled Int32.minValue) :
    ∃ v, o.classify = .ok v := by
  cases hc : o.classify with
  | error p => exact absurd (classify_eq_error_iff.1 hc).1 h
  | ok v => exact ⟨v, rfl⟩

theorem classify_ne_interrupted {o : Outcome} {v : Verdict} (h : o.classify = .ok v) :
    v ≠ .interrupted := by
  rintro rfl
  cases o with
  | exited c => by_cases hc : c = 0 <;> simp [classify, hc] at h
  | signaled s => by_cases hs : s = Int32.minValue <;> simp [classify_signaled, hs] at h
  | _ => simp [classify] at h

theorem classify_success_iff (o : Outcome) : o.classify = .ok .success ↔ o = .exited 0 := by
  cases o with
  | exited c => by_cases h : c = 0 <;> simp [classify, h]
  | signaled s => by_cases hs : s = Int32.minValue <;> simp [classify_signaled, hs]
  | _ => simp [classify]

/-- Away from the least 32-bit number, negation is exact. -/
theorem toInt_neg_of_ne_minValue {s : Int32} (h : s ≠ Int32.minValue) :
    (-s).toInt = -s.toInt := by
  have hlo := s.le_toInt
  have hhi := s.toInt_lt
  have hne : s.toInt ≠ Int32.minValue.toInt := fun he => h (Int32.toInt_inj.1 he)
  rw [Int32.toInt_minValue] at hne
  rw [Int32.toInt_neg]
  apply Int.bmod_eq_of_le <;> omega

/-- A failure's code is the exit code, or the exact negation of the signal; it is zero only for
the signal zero. -/
theorem classify_nonZeroExit {o : Outcome} {c : Int32} (h : o.classify = .ok (.nonZeroExit c)) :
    (c = 0 ↔ o = .signaled 0) ∧ (o = .exited c ∨ ∃ s, o = .signaled s ∧ c.toInt = -s.toInt) := by
  cases o with
  | exited code =>
    by_cases hz : code = 0
    · simp [classify, hz] at h
    · simp only [classify, hz, if_false, Except.ok.injEq, Verdict.nonZeroExit.injEq] at h
      subst h
      exact ⟨by simp [hz], .inl rfl⟩
  | signaled s =>
    have hmin : s ≠ Int32.minValue := by
      rintro rfl
      simp [classify_signaled_minValue] at h
    rw [classify_signaled_of_ne hmin, Except.ok.injEq, Verdict.nonZeroExit.injEq] at h
    subst h
    have hneg := toInt_neg_of_ne_minValue hmin
    have hzero : -s = 0 ↔ s = 0 := by
      constructor
      · intro h0
        have h0' := congrArg Int32.toInt h0
        rw [hneg, Int32.toInt_zero] at h0'
        exact Int32.toInt_inj.1 (by rw [Int32.toInt_zero]; omega)
      · rintro rfl
        decide
    exact ⟨by simpa using hzero, .inr ⟨s, rfl, hneg⟩⟩
  | _ => simp [classify] at h

end Outcome

/-- Counting the verdict on an outcome adds one to the count of the outcome's kind. -/
theorem Tally.record_of_classify {o : Outcome} {v : Verdict} (h : o.classify = .ok v) (t : Tally) :
    t.record v =
      { passed := t.passed + if o.passes then 1 else 0,
        failed := t.failed + if o.fails then 1 else 0,
        errored := t.errored + if o.errs then 1 else 0 } := by
  cases o with
  | exited c =>
    by_cases hc : c = 0 <;> simp [Outcome.classify, hc] at h <;> subst h <;>
      simp [Tally.record, Outcome.passes, Outcome.fails, Outcome.errs, hc]
  | signaled s =>
    by_cases hs : s = Int32.minValue
    · simp [hs, Outcome.classify_signaled_minValue] at h
    · rw [Outcome.classify_signaled_of_ne hs, Except.ok.injEq] at h
      subst h
      simp [Tally.record, Outcome.passes, Outcome.fails, Outcome.errs]
  | _ =>
    simp only [Outcome.classify, Except.ok.injEq] at h
    subst h
    simp [Tally.record, Outcome.passes, Outcome.fails, Outcome.errs]

/-- The tally of the verdicts on a sequence of outcomes counts the outcomes of each kind. -/
theorem Tally.foldl_record_of_forall₂ {os : List Outcome} {vs : List Verdict}
    (h : List.Forall₂ (fun o v => o.classify = .ok v) os vs) (t : Tally) :
    vs.foldl Tally.record t =
      { passed := t.passed + os.countP Outcome.passes,
        failed := t.failed + os.countP Outcome.fails,
        errored := t.errored + os.countP Outcome.errs } := by
  induction h generalizing t with
  | nil => rfl
  | @cons o v os vs hv _ ih =>
    rw [List.foldl_cons, ih, Tally.record_of_classify hv]
    simp only [List.countP_cons, Tally.mk.injEq]
    omega

/-- Every outcome is of exactly one kind. -/
theorem Outcome.count_kinds (os : List Outcome) :
    os.countP Outcome.passes + os.countP Outcome.fails + os.countP Outcome.errs = os.length := by
  induction os with
  | nil => rfl
  | cons o os ih =>
    simp only [List.countP_cons, List.length_cons]
    cases o with
    | exited c =>
      by_cases h : c = 0 <;> simp [Outcome.passes, Outcome.fails, Outcome.errs, h] <;> omega
    | _ =>
      simp [Outcome.passes, Outcome.fails, Outcome.errs]
      omega

/-- On every sequence of outcomes without the least 32-bit signal, classifying is computed
without overflow, outcome by outcome: an outcome passes exactly when it is an exit with code zero,
and a failure's code is the exit code or the exact negation of the signal, zero only for the
signal zero. The tally of the verdicts counts the passes, the failures and the errors, which add up
to the length of the sequence. The least signal is the one outcome whose classifying panics
(`Outcome.classify_eq_error_iff`). -/
theorem classify_and_tally (os : List Outcome) (hos : ∀ o ∈ os, o ≠ .signaled Int32.minValue) :
    ∃ vs, os.mapM Outcome.classify = .ok vs ∧
      List.Forall₂ (fun o v => (v = .success ↔ o = .exited 0) ∧
        ∀ c, v = .nonZeroExit c → (c = 0 ↔ o = .signaled 0) ∧
          (o = .exited c ∨ ∃ s, o = .signaled s ∧ c.toInt = -s.toInt)) os vs ∧
      let t := vs.foldl Tally.record {}
      t.passed = os.countP Outcome.passes ∧ t.failed = os.countP Outcome.fails ∧
        t.errored = os.countP Outcome.errs ∧ t.passed + t.failed + t.errored = os.length := by
  obtain ⟨vs, hvs⟩ := mapM_eq_ok_of_forall fun o ho => Outcome.classify_ok_of_ne (hos o ho)
  have hread := forall₂_of_mapM_eq_ok hvs
  have hverdicts : List.Forall₂ (fun o v => (v = .success ↔ o = .exited 0) ∧
      ∀ c, v = .nonZeroExit c → (c = 0 ↔ o = .signaled 0) ∧
        (o = .exited c ∨ ∃ s, o = .signaled s ∧ c.toInt = -s.toInt)) os vs :=
    hread.imp fun o v hv =>
      ⟨by rw [← Outcome.classify_success_iff, hv, Except.ok.injEq],
        fun c hc => Outcome.classify_nonZeroExit (hc ▸ hv)⟩
  refine ⟨vs, hvs, hverdicts, ?_⟩
  rw [Tally.foldl_record_of_forall₂ hread]
  simp only [Nat.zero_add, true_and]
  exact Outcome.count_kinds os

/-- An exit with code zero, a death by signal 9 and a failed launch are classified whole, and
their tally is one of each kind. -/
theorem classify_and_tally_three :
    let os := [Outcome.exited 0, .signaled 9, .launchFailed "x"]
    (∀ o ∈ os, o ≠ .signaled Int32.minValue) ∧
      ∃ vs, os.mapM Outcome.classify = .ok vs ∧
        List.Forall₂ (fun o v => (v = .success ↔ o = .exited 0) ∧
          ∀ c, v = .nonZeroExit c → (c = 0 ↔ o = .signaled 0) ∧
            (o = .exited c ∨ ∃ s, o = .signaled s ∧ c.toInt = -s.toInt)) os vs ∧
        let t := vs.foldl Tally.record {}
        t.passed = os.countP Outcome.passes ∧ t.failed = os.countP Outcome.fails ∧
          t.errored = os.countP Outcome.errs ∧ t.passed + t.failed + t.errored = os.length :=
  ⟨by decide, classify_and_tally _ (by decide)⟩

/-- The two boundary signals: classifying the least 32-bit number panics, as its negation
overflows, and zero fails with code zero. -/
theorem classify_boundary_signals :
    (Outcome.signaled Int32.minValue).classify = .error .negateOverflow ∧
      (Outcome.signaled 0).classify = .ok (.nonZeroExit 0) := by
  decide

end SuiteRunner

import Mathlib.Logic.Relation
import Mathlib.Tactic.SplitIfs
import SuiteRunner.Glob.Loop

/-!
The matcher's loop on arbitrary byte strings, the name not necessarily UTF-8: it ends, every
read it makes is in range, and its verdict is `glob`'s. `Passes` says once what a pass of the
loop body can do, in terms of the scan of what is left of the two strings; the invariant, the
rank, the range of the reads and the verdict each follow from it one constructor at a time.

Termination rests on a lexicographic rank: how far the last star stands from the end of the
pattern, how far the name index it was last tried at stands from the end of the name, and how
much of both strings is left. A new star is recorded further along the pattern than the last,
a retreat moves the star's name index strictly forward, and every other pass reads a pattern
byte. The invariant `Cursor.Sound` keeps the reads in range: the pattern index stays within
the pattern, and the last star stands behind the cursor, strictly in the pattern.
-/

namespace SuiteRunner.Glob

variable {pat name : List UInt8}

/-! ### The passes of the loop -/

/-- Every way a pass of the loop body can go, with the scan of what is left of both strings.
Once the name is used up, `exit` gives the verdict and `overrun` finds the pattern index past the
pattern's end. Otherwise `star` records a star at the cursor and `read` lets a `?` or a literal
byte take `w` bytes of the name; after a mismatch, `fail` gives up when no star was seen,
`retreat` lets the last star take the character at its name index, and `lost` finds that index
past the name's end. -/
inductive Passes (pat name : List UInt8) : Cursor → Pass → Prop
  | exit {c} : name.length ≤ c.n → c.p ≤ pat.length →
      Passes pat name c (.halt ((pat.drop c.p).all (· == starByte)))
  | overrun {c} : name.length ≤ c.n → pat.length < c.p → Passes pat name c .outOfBounds
  | star {p n s} : n < name.length → p < pat.length →
      scan (pat.drop p) (name.drop n) = .star (pat.drop (p + 1)) (name.drop n) →
      Passes pat name ⟨p, n, s⟩ (.next ⟨p + 1, n, some (p, n)⟩)
  | read {p n s w} : n < name.length → p < pat.length → 0 < w →
      scan (pat.drop p) (name.drop n) = scan (pat.drop (p + 1)) (name.drop (n + w)) →
      Passes pat name ⟨p, n, s⟩ (.next ⟨p + 1, n + w, s⟩)
  | fail {p n} : n < name.length → scan (pat.drop p) (name.drop n) = .mismatch →
      Passes pat name ⟨p, n, none⟩ (.halt false)
  | retreat {p n sp sn b} : n < name.length → scan (pat.drop p) (name.drop n) = .mismatch →
      name[sn]? = some b →
      Passes pat name ⟨p, n, some (sp, sn)⟩
        (.next ⟨sp + 1, sn + charWidth b, some (sp, sn + charWidth b)⟩)
  | lost {p n sp sn} : n < name.length → scan (pat.drop p) (name.drop n) = .mismatch →
      name.length ≤ sn → Passes pat name ⟨p, n, some (sp, sn)⟩ .outOfBounds

theorem passes_retreat {p n : Nat} (s : Option (Nat × Nat)) (hn : n < name.length)
    (hscan : scan (pat.drop p) (name.drop n) = .mismatch) :
    Passes pat name ⟨p, n, s⟩ (retreat name s) := by
  rcases s with _ | ⟨sp, sn⟩
  · exact .fail hn hscan
  · cases hb : name[sn]? with
    | none =>
      simp only [retreat, hb]
      exact .lost hn hscan (List.getElem?_eq_none_iff.1 hb)
    | some b =>
      simp only [retreat, hb]
      exact .retreat hn hscan hb

/-- The loop body, read as a transition. The arms are taken in the loop's order: a star, a `?`, an
equal byte, and the fallback. -/
theorem passes_pass (c : Cursor) : Passes pat name c (pass pat name c) := by
  obtain ⟨p, n, s⟩ := c
  dsimp only [pass]
  by_cases hn : n < name.length
  · rw [dif_pos hn]
    have hname : name.drop n = name[n] :: name.drop (n + 1) := List.drop_eq_getElem_cons hn
    split
    · rename_i b hb
      obtain ⟨hp, rfl⟩ := List.getElem?_eq_some_iff.1 hb
      have hpat : pat.drop p = pat[p] :: pat.drop (p + 1) := List.drop_eq_getElem_cons hp
      split_ifs with hstar hany hsame
      · exact .star hn hp (by rw [hpat, hname, scan, if_pos hstar])
      · refine .read hn hp (one_le_charWidth _) ?_
        rw [hpat, hname, scan, if_neg hstar, if_pos hany, ← hname, List.drop_drop]
      · refine .read hn hp Nat.one_pos ?_
        rw [hpat, hname, scan, if_neg hstar, if_neg hany, if_pos hsame]
      · refine passes_retreat s hn ?_
        rw [hpat, hname, scan, if_neg hstar, if_neg hany, if_neg hsame]
    · rename_i hnone
      refine passes_retreat s hn ?_
      rw [List.drop_eq_nil_of_le (List.getElem?_eq_none_iff.1 hnone), hname, scan]
  · rw [dif_neg hn]
    split_ifs with hp
    · exact .exit (Nat.le_of_not_lt hn) hp
    · exact .overrun (Nat.le_of_not_lt hn) (Nat.lt_of_not_le hp)

/-! ### The invariant and the rank -/

/-- The loop's invariant: the pattern index stays within the pattern, and the last star stands
behind the cursor, strictly in the pattern. -/
structure Cursor.Sound (pat : List UInt8) (c : Cursor) : Prop where
  p_le : c.p ≤ pat.length
  star_behind : ∀ {sp sn}, c.star = some (sp, sn) → sp < c.p ∧ sn ≤ c.n

theorem Cursor.sound_start : Cursor.start.Sound pat :=
  ⟨Nat.zero_le _, fun h => nomatch h⟩

/-- A star just recorded stands behind the cursor, which sits right after it. -/
theorem Cursor.sound_fresh_star {sp sn : Nat} (h : sp < pat.length) :
    (⟨sp + 1, sn, some (sp, sn)⟩ : Cursor).Sound pat := by
  refine ⟨h, ?_⟩
  intro sp' sn' hs
  cases hs
  exact ⟨Nat.lt_succ_self sp, Nat.le_refl sn⟩

/-- The rank each pass lowers, compared lexicographically: the distances from the last star to
the ends of the pattern and of the name, then what is left of both strings. Before the first star
the star counts as standing just before both strings. -/
def rank (pat name : List UInt8) (c : Cursor) : Nat × Nat × Nat :=
  match c.star with
  | some (sp, sn) => (pat.length - sp, name.length - sn, pat.length - c.p + (name.length - c.n))
  | none => (pat.length + 1, name.length + 1, pat.length - c.p + (name.length - c.n))

/-- A pass from a sound cursor leads to a sound cursor: a star recorded or retreated to stood behind
the cursor, so strictly inside the pattern. -/
theorem Passes.sound {c d : Cursor} (h : Passes pat name c (.next d)) (hc : c.Sound pat) :
    d.Sound pat := by
  cases h with
  | @star p n s _ hp _ => exact Cursor.sound_fresh_star hp
  | @read p n s w _ hp _ _ =>
    refine ⟨hp, ?_⟩
    intro sp sn hs
    have hbehind := hc.star_behind hs
    dsimp only at hbehind ⊢
    omega
  | @retreat p n sp sn b _ _ _ =>
    have hbehind := (hc.star_behind rfl).1
    have hp := hc.p_le
    dsimp only at hbehind hp
    exact Cursor.sound_fresh_star (by omega)

/-- A pass from a sound cursor reads nothing out of range. -/
theorem Passes.not_outOfBounds {c : Cursor} (h : Passes pat name c .outOfBounds)
    (hc : c.Sound pat) : False := by
  cases h with
  | overrun _ hp => exact absurd hc.p_le (Nat.not_le_of_lt hp)
  | @lost p n sp sn hn _ hsn =>
    have hbehind := (hc.star_behind rfl).2
    dsimp only at hbehind
    omega

/-- Each pass that goes round again lowers the rank: a new star stands further along the pattern
than the last, a retreat moves the star's name index forward, and any other pass reads a pattern
byte. -/
theorem Passes.rank_lt {c d : Cursor} (h : Passes pat name c (.next d)) (hc : c.Sound pat) :
    Prod.Lex (· < ·) (Prod.Lex (· < ·) (· < ·)) (rank pat name d) (rank pat name c) := by
  cases h with
  | @star p n s _ hp _ =>
    rcases s with _ | ⟨sp, sn⟩
    · exact Prod.Lex.left _ _ (by omega)
    · have hbehind := (hc.star_behind rfl).1
      dsimp only at hbehind
      exact Prod.Lex.left _ _ (by omega)
  | @read p n s w _ hp hw _ =>
    rcases s with _ | ⟨sp, sn⟩ <;>
      exact Prod.Lex.right _ (Prod.Lex.right _ (by dsimp only; omega))
  | @retreat p n sp sn b _ _ hb =>
    have hsn := (List.getElem?_eq_some_iff.1 hb).1
    have hw := one_le_charWidth b
    exact Prod.Lex.right _ (Prod.Lex.left _ _ (by omega))

/-! ### The verdict owed -/

/-- The verdict once a scan has stopped, with `k` the verdict on a mismatch. -/
def resume (k : Bool) : Scan → Bool
  | .done r => r
  | .star p n => fromStar p n
  | .mismatch => k

@[simp] theorem resume_mismatch (k : Bool) : resume k .mismatch = k := rfl

/-- A mismatch after the star that stands before `p`, tried at the start of `n`: the star takes
one more character and the rest is tried again. -/
def retry (p n : List UInt8) : Bool :=
  match n with
  | [] => p.all (· == starByte)
  | b :: rest => fromStar p ((b :: rest).drop (charWidth b))

theorem glob_eq_resume (p n : List UInt8) : glob p n = resume false (scan p n) := by
  unfold glob
  cases scan p n <;> rfl

/-- The matcher after a star resumes its scan with the retry; the retry also carries the mismatch's
proof, which it does not use. -/
theorem fromStar_eq_resume (p n : List UInt8) : fromStar p n = resume (retry p n) (scan p n) := by
  rw [fromStar]
  split
  · rename_i r h
    simp only [resume, h]
  · rename_i p' n' h
    simp only [resume, h]
  · rename_i h
    simp only [resume, h]
    cases n <;> rfl

theorem retry_drop (p : List UInt8) {sn : Nat} (hsn : sn < name.length) :
    retry p (name.drop sn) = fromStar p (name.drop (sn + charWidth name[sn])) := by
  rw [List.drop_eq_getElem_cons hsn, retry, List.getElem_cons_drop, List.drop_drop]

/-- The verdict the loop owes at cursor `c`: finish the scan from the cursor, and after a mismatch
retry from the last star. -/
def Cursor.verdict (pat name : List UInt8) (c : Cursor) : Bool :=
  resume
    (match c.star with
      | some (sp, sn) => retry (pat.drop (sp + 1)) (name.drop sn)
      | none => false)
    (scan (pat.drop c.p) (name.drop c.n))

theorem Cursor.verdict_start : Cursor.start.verdict pat name = glob pat name :=
  (glob_eq_resume pat name).symm

theorem Passes.verdict_halt {c : Cursor} {r : Bool} (h : Passes pat name c (.halt r)) :
    c.verdict pat name = r := by
  cases h with
  | exit hn _ => rw [Cursor.verdict, List.drop_eq_nil_of_le hn, scan_nil]; rfl
  | fail _ hscan => rw [Cursor.verdict, hscan, resume_mismatch]

/-- A pass that goes on keeps the verdict: what the star owes after a mismatch is the verdict at the
cursor it retreats to. -/
theorem Passes.verdict_next {c d : Cursor} (h : Passes pat name c (.next d)) :
    d.verdict pat name = c.verdict pat name := by
  cases h with
  | @star p n s _ _ hscan =>
    rw [Cursor.verdict, Cursor.verdict, hscan]
    exact (fromStar_eq_resume _ _).symm
  | @read p n s w _ _ _ hscan =>
    rw [Cursor.verdict, Cursor.verdict, hscan]
  | @retreat p n sp sn b _ hscan hb =>
    obtain ⟨hsn, rfl⟩ := List.getElem?_eq_some_iff.1 hb
    dsimp only [Cursor.verdict]
    rw [hscan, resume_mismatch, retry_drop _ hsn, fromStar_eq_resume]

/-! ### Runs of the loop -/

theorem passes_of_eq {c : Cursor} {q : Pass} (h : pass pat name c = q) : Passes pat name c q :=
  h ▸ passes_pass c

/-- The loop goes round once more from `c`, at `d`. -/
def Moves (pat name : List UInt8) (c d : Cursor) : Prop := pass pat name c = .next d

/-- A run that halts gives the verdict owed where it started. -/
theorem Halts.eq_verdict {c : Cursor} {r : Bool} (h : Halts pat name c r) :
    r = c.verdict pat name := by
  induction h with
  | halt hq => exact (passes_of_eq hq).verdict_halt.symm
  | next hq _ ih => rw [ih, (passes_of_eq hq).verdict_next]

/-- From a sound cursor the loop halts. The recursion follows the loop pass by pass, and the rank
is what bounds it. -/
theorem Cursor.Sound.halts (name : List UInt8) {c : Cursor} (hc : c.Sound pat) :
    ∃ r, Halts pat name c r := by
  match hq : pass pat name c with
  | .halt r => exact ⟨r, .halt hq⟩
  | .next d =>
    have hd := passes_of_eq hq
    obtain ⟨r, hr⟩ := (hd.sound hc).halts name
    exact ⟨r, .next hq hr⟩
  | .outOfBounds => exact ((passes_of_eq hq).not_outOfBounds hc).elim
termination_by rank pat name c
decreasing_by exact hd.rank_lt hc

theorem Cursor.sound_of_reaches {c : Cursor}
    (h : Relation.ReflTransGen (Moves pat name) Cursor.start c) : c.Sound pat := by
  induction h with
  | refl => exact Cursor.sound_start
  | tail _ hmove ih => exact (passes_of_eq hmove).sound ih

/-- On every pair of byte strings, the name not necessarily UTF-8, the matcher's loop halts with
`glob`'s verdict; and at every cursor it reaches, its pass reads only in range and, when it goes
round again, lowers the rank. -/
theorem wildcard_loop_halts_in_range (pat name : List UInt8) :
    Halts pat name Cursor.start (glob pat name) ∧
      ∀ c, Relation.ReflTransGen (Moves pat name) Cursor.start c →
        pass pat name c ≠ .outOfBounds ∧
          ∀ d, Moves pat name c d →
            Prod.Lex (· < ·) (Prod.Lex (· < ·) (· < ·)) (rank pat name d) (rank pat name c) := by
  obtain ⟨r, hr⟩ := Cursor.sound_start.halts name
  refine ⟨?_, fun c hreach => ?_⟩
  · rwa [← Cursor.verdict_start, ← hr.eq_verdict]
  · have hc := Cursor.sound_of_reaches hreach
    exact ⟨fun hq => (passes_of_eq hq).not_outOfBounds hc,
      fun d hq => (passes_of_eq hq).rank_lt hc⟩

/-- A lone four-byte lead byte before an `a`: the star's retreat jumps past the end of the name,
and the loop still halts in range, rejecting the name. -/
theorem wildcard_loop_lone_lead_byte :
    Halts [42, 97] [240, 97] Cursor.start false ∧
      pass [42, 97] [240, 97] ⟨1, 4, some (0, 4)⟩ ≠ .outOfBounds := by
  have hloop := wildcard_loop_halts_in_range [42, 97] [240, 97]
  have hglob : glob [42, 97] [240, 97] = false := by
    simp [glob, scan, fromStar, charWidth, starByte, anyByte]
  have hstar : Moves [42, 97] [240, 97] Cursor.start ⟨1, 0, some (0, 0)⟩ := rfl
  have hretreat : Moves [42, 97] [240, 97] ⟨1, 0, some (0, 0)⟩ ⟨1, 4, some (0, 4)⟩ := rfl
  exact ⟨hglob ▸ hloop.1, (hloop.2 _ (.tail (.single hstar) hretreat)).1⟩

end SuiteRunner.Glob

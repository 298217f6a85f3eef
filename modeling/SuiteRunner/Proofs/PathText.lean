import SuiteRunner.PathText
import SuiteRunner.Proofs.Split

/-! Joining a name to a path. A name that can stand in a directory (not empty, neither `.` nor
`..`, without `/`) comes out of the join as the file name: the join puts it after a `/`, or after
nothing, so it is the last piece of the path split at `/`, and an ordinary one. -/

namespace SuiteRunner.PathText

open Text

/-- A name a directory can hold: not empty, neither `.` nor `..`, and without `/`. -/
def IsName (n : String) : Prop := n ≠ "" ∧ n ≠ "." ∧ n ≠ ".." ∧ '/' ∉ n.toList

theorem IsName.not_startsWith {n : String} (h : IsName n) : ¬ n.startsWith "/" := by
  intro hs
  have hp : ['/'] <+: n.toList := by simpa using hs
  exact h.2.2.2 (hp.subset (List.mem_singleton_self _))

theorem endsWith_slash {s : String} (h : s.endsWith "/" = true) : ∃ xs, s.toList = xs ++ ['/'] := by
  have hs : ['/'] <:+ s.toList := by simpa [← String.endsWith_toSlice] using h
  obtain ⟨xs, hxs⟩ := hs
  exact ⟨xs, hxs.symm⟩

/-- A relative part is joined after nothing or after a `/`. -/
theorem join_toList (base part : String) (h : ¬ part.startsWith "/") :
    ∃ pre, (join base part).toList = pre ++ part.toList ∧ (pre = [] ∨ ∃ xs, pre = xs ++ ['/']) := by
  unfold join
  rw [if_neg (by simpa using h)]
  split
  · rename_i hbase
    refine ⟨base.toList, String.toList_append, ?_⟩
    rcases Bool.or_eq_true_iff.1 hbase with hempty | hslash
    · left
      simpa [String.isEmpty_iff] using hempty
    · exact .inr (endsWith_slash hslash)
  · exact ⟨base.toList ++ ['/'], by simp, .inr ⟨_, rfl⟩⟩

theorem splitOn_append_name {pre name : List Char} (hpre : pre = [] ∨ ∃ xs, pre = xs ++ ['/'])
    (h : '/' ∉ name) : ∃ parts, (pre ++ name).splitOn '/' = parts ++ [name] := by
  rcases hpre with rfl | ⟨xs, rfl⟩
  · exact ⟨[], by rw [List.nil_append, List.splitOn_eq_singleton h, List.nil_append]⟩
  · refine ⟨xs.splitOn '/', ?_⟩
    rw [List.append_assoc, List.singleton_append, List.splitOn_append_cons_self,
      List.splitOn_eq_singleton h]

/-- The file name of a path joined with a name is that name. -/
theorem fileName?_join (base : String) {name : String} (h : IsName name) :
    fileName? (join base name) = some name := by
  obtain ⟨pre, hjoin, hpre⟩ := join_toList base name h.not_startsWith
  obtain ⟨parts, hparts⟩ := splitOn_append_name hpre h.2.2.2
  unfold fileName? components
  rw [splitOn_slash, hjoin, hparts]
  simp [h.1, h.2.1, h.2.2.1]

end SuiteRunner.PathText

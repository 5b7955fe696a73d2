import AuthSec.Discovery.Principals
import AuthSec.Policy.Wildcards

/-!
# Actions of trust statements

Trust statements have a matcher of their own, over characters.  It looks for a run first, so a `*` or
a `?` in the text that is matched is a character like any other.

* `trustMatching_exact`: the matcher reads patterns as IAM does, for all texts, and a statement allows
  an action as its `Action` or `NotAction` says.
-/

namespace AuthSec

/-- No character is taken for a run. -/
lemma trustGlob_safe (a : Char) : trustGlob.Safe a := by
  intro c hc
  have hstar : c = '*' := by simpa [trustGlob] using hc
  simp [trustGlob, hstar]

lemma wildcardMatch_eq (pattern s : String) :
    wildcardMatch pattern s = iamGlob.accepts pattern.toList s.toList := by
  rw [wildcardMatch, Glob.greedy_eq_accepts fun a _ => trustGlob_safe a]
  have hmap : trustGlob.accepts (pattern.toList.map id) (s.toList.map id) =
      iamGlob.accepts pattern.toList s.toList := by
    refine Glob.accepts_map id id (fun c _ => ?_) fun c _ hc a _ => ?_
    · simp [trustGlob, iamGlob, Bool.beq_eq_decide_eq]
    · have hne : c ≠ '*' := by simpa [iamGlob] using hc
      simp [trustGlob, iamGlob, hne, Bool.beq_eq_decide_eq]
  simpa using hmap

/-- The action matches the pattern in any case. -/
lemma actionMatches_iff_reads {pattern action : String} :
    actionMatches pattern action = true ↔ foldGlob.Reads pattern.toList action.toList := by
  rw [actionMatches, wildcardMatch_eq, ← iamMatches, iamMatches_iff_reads]

/-- A match is a reading of the whole text, whatever its characters are.  A statement with
`NotAction` allows what no entry matches, any other statement what some entry of `Action` matches. -/
theorem trustMatching_exact :
    (∀ pattern s : String,
      wildcardMatch pattern s = true ↔ iamGlob.Reads pattern.toList s.toList) ∧
    ∀ (st : TrustStatement) (action : String), st.allows action = true ↔
      (st.notActions ≠ [] ∧ ∀ n ∈ st.notActions, ¬foldGlob.Reads n.toList action.toList) ∨
        (st.notActions = [] ∧ ∃ a ∈ st.actions, foldGlob.Reads a.toList action.toList) := by
  refine ⟨fun pattern s => ?_, fun st action => ?_⟩
  · rw [wildcardMatch_eq, Glob.accepts_iff_reads]
  · simp only [← actionMatches_iff_reads, TrustStatement.allows]
    by_cases hnot : st.notActions = [] <;> simp [hnot]

end AuthSec

import AuthSec.Lib.CommonSubjects
import AuthSec.Policy.Action

/-!
# Wildcards

The matchers of the package lower both texts and compare bytes.  IAM reads a pattern character by
character and in any case: `foldGlob` is that language, over the texts as they are written.

* `iamMatches_iff_reads`: the rules of IAM, by readings of the pattern;
* `globMatch_iff_reads`: the matcher for namespaces is exact.
-/

namespace AuthSec

/-- The pattern symbols of IAM, in any case: `*` takes any run, `?` takes one character and every
other character takes itself. -/
def foldGlob : Glob Char Char where
  star c := c == '*'
  hit c a := c == '?' || lowerChar c == lowerChar a

/-- Lowering both texts is reading them in any case. -/
lemma accepts_lower (p s : List Char) :
    iamGlob.accepts (p.map lowerChar) (s.map lowerChar) = foldGlob.accepts p s := by
  refine Glob.accepts_map lowerChar lowerChar (fun c _ => ?_) fun c _ _ a _ => ?_
  · have hstar := lowerChar_eq_sign (c := c) (d := '*') (by decide)
    simp [iamGlob, foldGlob, Bool.beq_eq_decide_eq, hstar]
  · have hone := lowerChar_eq_sign (c := c) (d := '?') (by decide)
    simp [iamGlob, foldGlob, Bool.beq_eq_decide_eq, hone]

/-- A pattern matches the actions that it reads, in any case. -/
theorem iamMatches_iff_reads {pattern action : String} :
    iamMatches pattern action = true ↔ foldGlob.Reads pattern.toList action.toList := by
  rw [iamMatches, toList_toLower, toList_toLower, accepts_lower, Glob.accepts_iff_reads]

/-- On ASCII, and for a subject without `*`, a match is a reading of the whole subject. -/
theorem globMatch_iff_reads {pattern s : String} (hp : ∀ c ∈ pattern.toList, c.toNat < 128)
    (hs : ∀ c ∈ s.toList, c.toNat < 128) (hstar : '*' ∉ s.toList) :
    globMatch pattern s = true ↔ foldGlob.Reads pattern.toList s.toList := by
  rw [globMatch_eq hs hstar hp, toList_toLower, toList_toLower, accepts_lower,
    Glob.accepts_iff_reads]

/-- The second run has to be tried twice. -/
theorem globMatch_iff_reads_runs :
    foldGlob.Reads "E*S?i*D".toList "elasticloadbalancing-static-d".toList :=
  (globMatch_iff_reads (by decide) (by decide) (by decide)).1 (by decide +kernel)

end AuthSec

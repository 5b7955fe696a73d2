import AuthSec.Canonical.Marshal

/-!
# Hashes of canonical texts

SHA-256 is a parameter of the development: an instance of `Sha256` gives the digest of a text, and
results that need it assume that digests of different texts differ.  A tagged hash covers a domain
tag and some texts, each behind a unit separator.
-/

namespace AuthSec

open List

/-- The codes of a `CompileError`. -/
inductive CompileCode where
  | invalidIntent
  | evidenceUntrusted
  | evidenceMismatch
  | liveIncomplete
  | noArtifact
  | input
  deriving DecidableEq

/-- Why a function of the package fails. -/
inductive GoErr where
  /-- the input is not I-JSON -/
  | notIJSON (f : ParseFail)
  /-- the canonical text contains U+0000 -/
  | notStorable
  /-- the policy text is not URL-encoded: the bad escape -/
  | urlDecode (escape : Bytes)
  /-- the policy document is not I-JSON -/
  | policyJSON (f : ParseFail)
  /-- the policy document is not a policy document -/
  | policyDocument (text : String)
  /-- a compilation that gives no plan -/
  | compile (code : CompileCode) (reasons : List String)
  /-- an error with the text put in front of it -/
  | wrapped (text : String) (cause : GoErr)
  | msg (text : String)
  deriving DecidableEq

/-- `canonField`: the canonical text of a Go value. -/
def canonField (v : Json GoNum) : Except GoErr Bytes :=
  (canonicalizeValue v).mapError .notIJSON

/-- The domain tags of the package's hashes. -/
inductive Domain where
  | intent
  | impact
  | precondition
  | stateOnly
  | plan
  | material
  | gap
  | unanalysed
  | splitPrecondition
  | splitRevertPrecondition
  | dedicatedRole
  | roleDefinition
  deriving DecidableEq

def Domain.tag : Domain → String
  | intent => "authsec.igagov.intent.v1"
  | impact => "authsec.igagov.impact.v1"
  | precondition => "authsec.igagov.precondition.v1"
  | stateOnly => "authsec.igagov.precondition.state.v1"
  | plan => "authsec.igagov.plan.v1"
  | material => "authsec.igagov.material.v1"
  | gap => "authsec.igagov.gap.v1"
  | unanalysed => "authsec.igagov.unanalysed.v1"
  | splitPrecondition => "authsec.igagov.precondition.split.v1"
  | splitRevertPrecondition => "authsec.igagov.precondition.split_revert.v1"
  | dedicatedRole => "authsec.igagov.dedicated_role.v1"
  | roleDefinition => "authsec.igagov.role_definition.v1"

def Domain.all : List Domain :=
  [intent, impact, precondition, stateOnly, plan, material, gap, unanalysed, splitPrecondition,
    splitRevertPrecondition, dedicatedRole, roleDefinition]

/-- The digest function. -/
class Sha256 where
  sum : Bytes → Bytes

/-- `HashPrefix`. -/
def hashLabel : String := "sha256:"

/-- `unitSep`, as a byte. -/
def unitSep : UInt8 := 0x1f

/-- A lower-case hexadecimal digit. -/
def hexChar (n : ℕ) : Char :=
  if n < 10 then Char.ofNat (48 + n) else Char.ofNat (87 + n)

/-- `hex.EncodeToString`. -/
def hexEncode (bs : Bytes) : String :=
  String.ofList (bs.flatMap fun b => [hexChar (b.toNat / 16), hexChar (b.toNat % 16)])

section

variable [Sha256]

def sha256Label (b : Bytes) : String :=
  hashLabel ++ hexEncode (Sha256.sum b)

/-- `ContentHash`. -/
def contentHash (canonical : Bytes) : String :=
  sha256Label canonical

/-- The text a tagged hash covers. -/
def taggedText (domain : Domain) (parts : List Bytes) : Bytes :=
  utf8 domain.tag ++ parts.flatMap fun p => unitSep :: p

/-- `taggedHash`. -/
def taggedHash (domain : Domain) (parts : List Bytes) : String :=
  sha256Label (taggedText domain parts)

/-- `HashCanonicalTagged`. -/
def hashCanonicalTagged (domain : Domain) (v : Json GoNum) : Except GoErr String :=
  (canonField v).map fun c => taggedHash domain [c]

end

/-! ## Labels determine the text -/

lemma Domain.mem_all (d : Domain) : d ∈ all := by
  cases d <;> simp [all]

lemma tag_no_sep (d : Domain) : unitSep ∉ utf8 d.tag := by
  have hall : ∀ d ∈ Domain.all, unitSep ∉ utf8 d.tag := by decide +kernel
  exact hall d d.mem_all

lemma tag_injective : Function.Injective Domain.tag := by
  have hall : ∀ d ∈ Domain.all, ∀ e ∈ Domain.all, d.tag = e.tag → d = e := by decide +kernel
  exact fun d e h => hall d d.mem_all e e.mem_all h

lemma hexChar_inj : ∀ m < 16, ∀ n < 16, hexChar m = hexChar n → m = n := by
  decide

lemma hexEncode_injective : Function.Injective hexEncode := by
  intro as bs h
  replace h := String.ofList_injective h
  induction as generalizing bs with
  | nil =>
      cases bs with
      | nil => rfl
      | cons b bs => simp at h
  | cons a as ih =>
      cases bs with
      | nil => simp at h
      | cons b bs =>
          simp only [flatMap_cons, cons_append, nil_append, List.cons.injEq] at h
          obtain ⟨hhigh, hlow, h⟩ := h
          have ha := a.toNat_lt
          have hb := b.toNat_lt
          have hhigh := hexChar_inj _ (by omega) _ (by omega) hhigh
          have hlow := hexChar_inj _ (by omega) _ (by omega) hlow
          have hab : a = b := UInt8.toNat_inj.1 (by omega)
          rw [hab, ih h]

section

variable [Sha256]

lemma sha256Label_injective (hsum : Function.Injective Sha256.sum) :
    Function.Injective sha256Label := by
  intro a b h
  rw [sha256Label, sha256Label, String.append_right_inj] at h
  exact hsum (hexEncode_injective h)

/-- The hashed texts can be read off a tagged hash when none holds the separator. -/
lemma taggedHash_inj (hsum : Function.Injective Sha256.sum) {domain : Domain} {ps qs : List Bytes}
    (hps : ∀ p ∈ ps, unitSep ∉ p) (hqs : ∀ q ∈ qs, unitSep ∉ q)
    (h : taggedHash domain ps = taggedHash domain qs) : ps = qs := by
  have htext := sha256Label_injective hsum h
  exact flatMap_sep_inj hps hqs (append_cancel_left htext)

/-- No two domains have a hash in common, whatever is hashed. -/
lemma taggedHash_domain (hsum : Function.Injective Sha256.sum) {d e : Domain}
    {ps qs : List Bytes} (h : taggedHash d ps = taggedHash e qs) : d = e :=
  tag_injective (utf8_injective
    (sep_head_inj (tag_no_sep d) (tag_no_sep e) (sha256Label_injective hsum h)))

end

/-! ## Canonical texts hold no control character -/

/-- No byte of the text is a control character. -/
def Printable (bs : Bytes) : Prop :=
  ∀ b ∈ bs, 0x20 ≤ b.toNat

instance (bs : Bytes) : Decidable (Printable bs) :=
  inferInstanceAs (Decidable (∀ b ∈ bs, 0x20 ≤ b.toNat))

lemma Printable.append {as bs : Bytes} (ha : Printable as) (hb : Printable bs) :
    Printable (as ++ bs) :=
  fun b h => (mem_append.1 h).elim (ha b) (hb b)

lemma Printable.cons {b : UInt8} {bs : Bytes} (hb : 0x20 ≤ b.toNat) (h : Printable bs) :
    Printable (b :: bs) :=
  forall_mem_cons.2 ⟨hb, h⟩

lemma printable_nil : Printable [] :=
  forall_mem_nil _

lemma Printable.no_sep {bs : Bytes} (h : Printable bs) : unitSep ∉ bs :=
  fun hmem => absurd (h _ hmem) (by decide)

lemma printable_digits {ds : List ℕ} (h : ∀ d ∈ ds, d < 10) : Printable (ds.map digitByte) := by
  intro b hb
  obtain ⟨d, hd, rfl⟩ := mem_map.1 hb
  rw [toNat_digitByte (h d hd)]
  omega

lemma NumberText.WellFormed.printable {t : NumberText} (h : t.WellFormed) : Printable t.text := by
  have hfrac := printable_digits h.frac_digit
  have hexp := printable_digits h.exp_digit
  refine (((?_ : Printable _).append (printable_digits h.int_digit)).append ?_).append ?_
  · split_ifs
    · exact .cons (by decide) printable_nil
    · exact printable_nil
  · rw [fracText]
    split_ifs
    · exact printable_nil
    · exact .cons (by decide) hfrac
  · rw [expText]
    split_ifs
    · exact printable_nil
    · exact .cons (by decide) (.cons (by decide) hexp)
    · exact .cons (by decide) (.cons (by decide) hexp)

lemma printable_formatNumberES6 (x : Float64) : Printable (formatNumberES6 x) := by
  obtain ⟨t, htext, hwf, -⟩ := formatNumberES6_text x
  rw [htext]
  exact hwf.printable

lemma printable_escapeByte (b : UInt8) : Printable (escapeByte b) := by
  have hall : ∀ n < 256, ∀ c ∈ escapeByte (UInt8.ofNat n), 0x20 ≤ c.toNat := by decide +kernel
  intro c hc
  exact hall b.toNat b.toNat_lt c (by rwa [UInt8.ofNat_toNat])

lemma printable_writeCanonicalString (s : String) : Printable (writeCanonicalString s) := by
  refine .cons (by decide) (Printable.append (fun b hb => ?_) (.cons (by decide) printable_nil))
  obtain ⟨c, -, hc⟩ := List.mem_flatMap.1 hb
  exact printable_escapeByte c b hc

lemma printable_commaSep {as : List Bytes} (h : ∀ a ∈ as, Printable a) : Printable (commaSep as) := by
  induction as with
  | nil => exact printable_nil
  | cons a as ih =>
      have ha := h a (by simp)
      have hrest := ih fun b hb => h b (by simp [hb])
      have hcons := Printer.commaSep_cons a as []
      simp only [append_nil] at hcons
      rw [hcons]
      refine ha.append ?_
      split_ifs
      · exact printable_nil
      · exact .cons (by decide) hrest

/-- A canonical text has no control characters. -/
theorem printable_writeCanonical (v : Json Float64) : Printable (writeCanonical v) := by
  induction v using Json.ind with
  | null => decide
  | bool b => cases b <;> decide
  | num n =>
      rw [writeCanonical]
      exact printable_formatNumberES6 n
  | str s =>
      rw [writeCanonical]
      exact printable_writeCanonicalString s
  | arr els ih =>
      rw [writeCanonical, writeElements_eq]
      refine .cons (by decide) (Printable.append (printable_commaSep fun a ha => ?_) (by decide))
      obtain ⟨x, hx, rfl⟩ := mem_map.1 ha
      exact ih x hx
  | obj ms ih =>
      rw [writeCanonical, writeMembers_eq]
      refine .cons (by decide) (Printable.append (printable_commaSep fun a ha => ?_) (by decide))
      obtain ⟨m, hm, rfl⟩ := mem_map.1 ha
      obtain ⟨n, hn, rfl⟩ := mem_map.1 (mem_sortMembers.1 hm)
      exact (printable_writeCanonicalString _).append (.cons (by decide) (ih n hn))

end AuthSec

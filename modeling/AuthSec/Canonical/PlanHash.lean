import AuthSec.Canonical.Objects

/-!
# Plan hash and material hash

The plan hash covers every field of a plan, the material hash all but the evidence identifiers,
with the impact hash and the gaps.  Each field is written as its canonical text, so a hash tells two
inputs apart as far as their canonical texts do.

* `plan_hash_binds`: under an injective digest the two hashes bind what they cover, and hashes of
  different domains differ.  Strings, pointers, revisions up to `2 ^ 53` and lists with distinct keys
  are bound as they are; the operations, which are any Go value, are bound as an I-JSON value.
* `planHash_rounds_ops`: the numbers in the operations are rounded to doubles, so that two inputs with
  different operations have one hash, whatever the digest is.
-/

namespace AuthSec

open List

/-! ## Items and gaps -/

/-- `UnanalysedItem`. -/
structure UnanalysedItem where
  key : String
  form : String
  reason : String
  deriving DecidableEq

def UnanalysedItem.toJson (it : UnanalysedItem) : Json GoNum :=
  .obj (("key", .str it.key) :: (omitEmpty "form" it.form ++ omitEmpty "reason" it.reason))

/-- `GapRef`. -/
structure GapRef where
  key : String
  hash : String
  deriving DecidableEq

def GapRef.toJson (g : GapRef) : Json GoNum :=
  .obj [("key", .str g.key), ("hash", .str g.hash)]

/-! ## The hashed fields -/

/-- `PlanHashInput`.  The operations are any value that can be marshalled: the JSON value it
is written as, or `none` for nil. -/
structure PlanHashInput where
  controlID : String
  kind : String
  delivery : String
  desiredAttachment : String
  desiredBoundaryARN : Option String
  desiredDocumentHash : Option String
  replacedBoundaryARN : Option String
  artifactDisposition : String
  bundleHash : String
  evidenceRev : Int64
  resourcePolicyScanRunID : Option String
  firstAttachment : Bool
  unanalysed : List UnanalysedItem
  preconditionHash : String
  ops : Option (Json GoNum)

/-- `MaterialHashInput`. -/
structure MaterialHashInput where
  plan : PlanHashInput
  impactHash : String
  gaps : List GapRef

def sortedUnanalysed (items : List UnanalysedItem) : List UnanalysedItem :=
  sortOn UnanalysedItem.key items

namespace PlanHashInput

def validate (p : PlanHashInput) : Except GoErr Unit :=
  if p.controlID = "" ∨ p.kind = "" ∨ p.delivery = "" ∨ p.desiredAttachment = "" ∨
      p.artifactDisposition = "" ∨ p.preconditionHash = "" then
    .error (.msg "igagov: plan hash input is missing a required field")
  else .ok ()

/-- The operations, nil as the empty list. -/
def opsValue (p : PlanHashInput) : Json GoNum :=
  p.ops.getD (.arr [])

/-- The evidence fields, in order. -/
def evidenceVals (p : PlanHashInput) : List (Json GoNum) :=
  [.str p.bundleHash, .num (.int p.evidenceRev), goPtr p.resourcePolicyScanRunID]

/-- The values `fields` writes, in order. -/
def vals (p : PlanHashInput) (withEvidence : Bool) : List (Json GoNum) :=
  [.str p.controlID, .str p.kind, .str p.delivery, .str p.desiredAttachment,
    goPtr p.desiredBoundaryARN, goPtr p.desiredDocumentHash, goPtr p.replacedBoundaryARN,
    .str p.artifactDisposition] ++
  (if withEvidence then p.evidenceVals else []) ++
  [.bool p.firstAttachment, .arr ((sortedUnanalysed p.unanalysed).map UnanalysedItem.toJson),
    .str p.preconditionHash, p.opsValue]

/-- `PlanHashInput.fields`. -/
def fields (p : PlanHashInput) (withEvidence : Bool) : Except GoErr (List Bytes) := do
  p.validate
  if withEvidence ∧ (p.bundleHash = "" ∨ p.evidenceRev ≤ 0) then
    .error (.msg "igagov: plan hash needs the bundle hash and evidence revision")
  else (p.vals withEvidence).mapM canonField

end PlanHashInput

section

variable [Sha256]

/-- `PlanHash`. -/
def planHash (p : PlanHashInput) : Except GoErr String :=
  (p.fields true).map (taggedHash .plan)

/-- `MaterialHash`. -/
def materialHash (m : MaterialHashInput) : Except GoErr String := do
  let f ← m.plan.fields false
  if m.impactHash = "" then .error (.msg "igagov: material hash needs the impact hash")
  else do
    let ih ← canonField (.str m.impactHash)
    let gc ← canonField (.arr ((sortOn GapRef.key m.gaps).map GapRef.toJson))
    return taggedHash .material (f ++ [ih, gc])

end

/-! ## Structs of strings -/

def UnanalysedItem.fields (it : UnanalysedItem) : List (String × Bool × String) :=
  [("key", false, it.key), ("form", true, it.form), ("reason", true, it.reason)]

lemma UnanalysedItem.stringStruct : StringStruct toJson fields where
  json it := by simp [toJson, fields, strMembers]
  nodup it := by simp [fields]
  names a b := rfl
  ext a b h := by
    cases a
    cases b
    simpa [fields] using h

def GapRef.fields (g : GapRef) : List (String × Bool × String) :=
  [("key", false, g.key), ("hash", false, g.hash)]

lemma GapRef.stringStruct : StringStruct toJson fields where
  json g := rfl
  nodup g := by simp [fields]
  names a b := rfl
  ext a b h := by
    cases a
    cases b
    simpa [fields] using h

/-! ## What the hashes bind -/

namespace PlanHashInput

/-- Agreement on everything but the evidence: the unanalysed items up to order, and the operations
as the I-JSON values they are written as, which is not equality: members may stand in another order,
and numbers agree if they are rounded to the same double. -/
structure SameMaterial (a b : PlanHashInput) : Prop where
  controlID : a.controlID = b.controlID
  kind : a.kind = b.kind
  delivery : a.delivery = b.delivery
  desiredAttachment : a.desiredAttachment = b.desiredAttachment
  desiredBoundaryARN : a.desiredBoundaryARN = b.desiredBoundaryARN
  desiredDocumentHash : a.desiredDocumentHash = b.desiredDocumentHash
  replacedBoundaryARN : a.replacedBoundaryARN = b.replacedBoundaryARN
  artifactDisposition : a.artifactDisposition = b.artifactDisposition
  firstAttachment : a.firstAttachment = b.firstAttachment
  unanalysed : a.unanalysed.Perm b.unanalysed
  preconditionHash : a.preconditionHash = b.preconditionHash
  ops : a.opsValue.Alike b.opsValue

/-- Agreement on the evidence. -/
structure SameEvidence (a b : PlanHashInput) : Prop where
  bundleHash : a.bundleHash = b.bundleHash
  evidenceRev : a.evidenceRev = b.evidenceRev
  resourcePolicyScanRunID : a.resourcePolicyScanRunID = b.resourcePolicyScanRunID

/-- Agreement on every field, on the operations as I-JSON values. -/
def Same (a b : PlanHashInput) : Prop :=
  a.SameMaterial b ∧ a.SameEvidence b

/-- What `fields` checks. -/
def Valid (p : PlanHashInput) (withEvidence : Bool) : Prop :=
  p.validate = .ok () ∧ ¬ (withEvidence ∧ (p.bundleHash = "" ∨ p.evidenceRev ≤ 0))

variable {a b p : PlanHashInput}

lemma mapM_canonField {vs : List (Json GoNum)} {texts : List Bytes} :
    vs.mapM canonField = .ok texts ↔
      (∀ v ∈ vs, v.Fits (maxJSONDepth + 1)) ∧ texts = vs.map goText := by
  rw [mapM_eq_ok]
  simp only [canonField, mapError_eq_ok, canonicalizeValue_eq]
  constructor
  · intro h
    induction h with
    | nil => simp
    | cons hv _ ih => simpa [hv.1, hv.2] using ih
  · rintro ⟨hfits, rfl⟩
    rw [List.forall₂_map_right_iff, List.forall₂_same]
    exact fun v hv => ⟨hfits v hv, rfl⟩

lemma fields_eq_ok {e : Bool} {texts : List Bytes} :
    p.fields e = .ok texts ↔
      p.Valid e ∧ (∀ v ∈ p.vals e, v.Fits (maxJSONDepth + 1)) ∧ texts = (p.vals e).map goText := by
  rw [fields, Valid, bind_eq_ok, ← mapM_canonField]
  constructor
  · rintro ⟨⟨⟩, hvalid, h⟩
    split_ifs at h with hev
    exact ⟨⟨hvalid, hev⟩, h⟩
  · rintro ⟨⟨hvalid, hev⟩, h⟩
    exact ⟨(), hvalid, by rwa [if_neg hev]⟩

/-- Only the operations can fail to have a canonical text. -/
lemma vals_fits {e : Bool} (hops : p.opsValue.Fits (maxJSONDepth + 1)) :
    ∀ v ∈ p.vals e, v.Fits (maxJSONDepth + 1) := by
  have hitems : (Json.arr ((sortedUnanalysed p.unanalysed).map UnanalysedItem.toJson)).Fits
      (maxJSONDepth + 1) := fits_arr (fun it => UnanalysedItem.stringStruct.fits it 510) _
  have hstr (s : String) : (Json.str s : Json GoNum).Fits (maxJSONDepth + 1) := .str _ s
  have hptr (s : Option String) : (goPtr s).Fits (maxJSONDepth + 1) := fits_goPtr s _
  have hbool (b : Bool) : (Json.bool b : Json GoNum).Fits (maxJSONDepth + 1) := .bool _ b
  have hint (n : GoNum) : (Json.num n).Fits (maxJSONDepth + 1) := .num _ n
  cases e <;>
    simpa [vals, evidenceVals, forall_mem_cons, hstr, hptr, hbool, hint, hops] using hitems

lemma plan_alike_iff (ha : (a.unanalysed.map UnanalysedItem.key).Nodup)
    (hra : a.evidenceRev.toInt.natAbs ≤ 2 ^ 53) (hrb : b.evidenceRev.toInt.natAbs ≤ 2 ^ 53) :
    List.Forall₂ Json.Alike (a.vals true) (b.vals true) ↔ a.Same b := by
  simp only [vals, evidenceVals, if_true, cons_append, nil_append, List.forall₂_cons,
    alike_str, alike_goPtr, alike_bool, alike_int hra hrb,
    alike_arr_map @UnanalysedItem.stringStruct.alike_iff, sortedUnanalysed, sortOn_eq_iff_perm ha,
    List.forall₂_nil_left_iff]
  constructor
  · rintro ⟨h1, h2, h3, h4, h5, h6, h7, h8, e1, e2, e3, h9, h10, h11, h12, -⟩
    exact ⟨⟨h1, h2, h3, h4, h5, h6, h7, h8, h9, h10, h11, h12⟩, e1, e2, e3⟩
  · rintro ⟨h, e1, e2, e3⟩
    exact ⟨h.1, h.2, h.3, h.4, h.5, h.6, h.7, h.8, e1, e2, e3, h.9, h.10, h.11, h.12, trivial⟩

lemma SameMaterial.validate_eq (h : a.SameMaterial b) : b.validate = a.validate := by
  simp only [validate, h.controlID, h.kind, h.delivery, h.desiredAttachment,
    h.artifactDisposition, h.preconditionHash]

lemma SameMaterial.valid (h : a.SameMaterial b) (ha : a.Valid false) : b.Valid false := by
  refine ⟨h.validate_eq.trans ha.1, by simp⟩

lemma Same.valid (h : a.Same b) (ha : a.Valid true) : b.Valid true := by
  refine ⟨h.1.validate_eq.trans ha.1, ?_⟩
  rw [← h.2.bundleHash, ← h.2.evidenceRev]
  exact ha.2

lemma SameMaterial.fits {e e' : Bool} (h : a.SameMaterial b)
    (ha : ∀ v ∈ a.vals e, v.Fits (maxJSONDepth + 1)) :
    ∀ v ∈ b.vals e', v.Fits (maxJSONDepth + 1) :=
  vals_fits (h.ops.fits (ha _ (by simp [vals])))

/-- A valid evidence revision up to `2 ^ 53` is a double. -/
lemma Valid.rev (h : p.Valid true) (hrev : p.evidenceRev.toInt ≤ 2 ^ 53) :
    p.evidenceRev.toInt.natAbs ≤ 2 ^ 53 := by
  have hpos : ¬ p.evidenceRev ≤ 0 := fun hle => h.2 ⟨rfl, Or.inr hle⟩
  rw [Int64.le_iff_toInt_le] at hpos
  have hzero : (0 : Int64).toInt = 0 := rfl
  omega

end PlanHashInput

lemma map_goText_eq_iff {vs ws : List (Json GoNum)} (hvs : ∀ v ∈ vs, v.Fits (maxJSONDepth + 1))
    (hws : ∀ w ∈ ws, w.Fits (maxJSONDepth + 1)) :
    vs.map goText = ws.map goText ↔ List.Forall₂ Json.Alike vs ws := by
  rw [← List.forall₂_eq_eq_eq, List.forall₂_map_left_iff, List.forall₂_map_right_iff,
    List.forall₂_iff_zip, List.forall₂_iff_zip]
  refine and_congr_right fun _ => forall₃_congr fun v w hmem => ?_
  obtain ⟨hv, hw⟩ := of_mem_zip hmem
  exact goText_eq_iff (hvs v hv) (hws w hw)

/-- The texts of the material hash behind those of the plan. -/
def MaterialHashInput.extra (m : MaterialHashInput) : List (Json GoNum) :=
  [.str m.impactHash, .arr ((sortOn GapRef.key m.gaps).map GapRef.toJson)]

lemma extra_fits (m : MaterialHashInput) : ∀ v ∈ m.extra, v.Fits (maxJSONDepth + 1) := by
  have hgaps : (Json.arr ((sortOn GapRef.key m.gaps).map GapRef.toJson)).Fits
      (maxJSONDepth + 1) := fits_arr (fun g => GapRef.stringStruct.fits g 510) _
  have hstr : (Json.str m.impactHash : Json GoNum).Fits (maxJSONDepth + 1) := .str _ _
  simpa [MaterialHashInput.extra, hstr] using hgaps

lemma MaterialHashInput.alike_iff {a b : MaterialHashInput}
    (hkeys : (a.plan.unanalysed.map UnanalysedItem.key).Nodup)
    (hgaps : (a.gaps.map GapRef.key).Nodup) :
    List.Forall₂ Json.Alike (a.plan.vals false ++ a.extra) (b.plan.vals false ++ b.extra) ↔
      a.plan.SameMaterial b.plan ∧ a.impactHash = b.impactHash ∧ a.gaps.Perm b.gaps := by
  simp only [PlanHashInput.vals, extra, Bool.false_eq_true, if_false, append_nil,
    cons_append, nil_append, List.forall₂_cons, alike_str, alike_goPtr, alike_bool,
    alike_arr_map @UnanalysedItem.stringStruct.alike_iff, alike_arr_map @GapRef.stringStruct.alike_iff, sortedUnanalysed,
    sortOn_eq_iff_perm hkeys, sortOn_eq_iff_perm hgaps, List.forall₂_nil_left_iff]
  constructor
  · rintro ⟨h1, h2, h3, h4, h5, h6, h7, h8, h9, h10, h11, h12, himpact, hgaps, -⟩
    exact ⟨⟨h1, h2, h3, h4, h5, h6, h7, h8, h9, h10, h11, h12⟩, himpact, hgaps⟩
  · rintro ⟨h, himpact, hgaps⟩
    exact ⟨h.1, h.2, h.3, h.4, h.5, h.6, h.7, h.8, h.9, h.10, h.11, h.12, himpact, hgaps, trivial⟩

lemma no_sep_goText (vs : List (Json GoNum)) : ∀ t ∈ vs.map goText, unitSep ∉ t := by
  intro t ht
  obtain ⟨v, -, rfl⟩ := mem_map.1 ht
  exact (printable_writeCanonical _).no_sep

section

variable [Sha256] {p : PlanHashInput} {m : MaterialHashInput} {h : String}

lemma planHash_eq_ok :
    planHash p = .ok h ↔ p.Valid true ∧ (∀ v ∈ p.vals true, v.Fits (maxJSONDepth + 1)) ∧
      taggedHash .plan ((p.vals true).map goText) = h := by
  rw [planHash, map_eq_ok]
  simp only [PlanHashInput.fields_eq_ok]
  constructor
  · rintro ⟨_, ⟨hvalid, hfits, rfl⟩, h⟩
    exact ⟨hvalid, hfits, h⟩
  · rintro ⟨hvalid, hfits, h⟩
    exact ⟨_, ⟨hvalid, hfits, rfl⟩, h⟩

lemma materialHash_eq_ok :
    materialHash m = .ok h ↔ m.plan.Valid false ∧ m.impactHash ≠ "" ∧
      (∀ v ∈ m.plan.vals false, v.Fits (maxJSONDepth + 1)) ∧
      taggedHash .material ((m.plan.vals false ++ m.extra).map goText) = h := by
  have hextra := extra_fits m
  simp only [MaterialHashInput.extra, forall_mem_cons] at hextra
  have htext {v : Json GoNum} (hv : v.Fits (maxJSONDepth + 1)) : canonField v = .ok (goText v) :=
    mapError_eq_ok.2 (canonicalizeValue_of_fits hv)
  rw [materialHash, bind_eq_ok]
  simp only [PlanHashInput.fields_eq_ok, htext hextra.1, htext hextra.2.1, ok_bind, pure_eq_ok]
  constructor
  · rintro ⟨_, ⟨hvalid, hfits, rfl⟩, h⟩
    split_ifs at h with himpact
    refine ⟨hvalid, himpact, hfits, ?_⟩
    simpa [MaterialHashInput.extra] using h
  · rintro ⟨hvalid, himpact, hfits, h⟩
    refine ⟨_, ⟨hvalid, hfits, rfl⟩, ?_⟩
    rw [if_neg himpact]
    simpa [MaterialHashInput.extra] using h

/-- Under an injective digest the hashes bind what they cover.  Two plans with one plan hash agree on
every field, and two with one material hash on every field but the evidence, with the impact hash and
the gaps; lists with distinct keys agree up to order, and the operations as I-JSON values.  No hash
of one domain is a hash of another, whatever is hashed. -/
theorem plan_hash_binds (hsum : Function.Injective Sha256.sum) :
    (∀ (a b : PlanHashInput) (h : String), (a.unanalysed.map UnanalysedItem.key).Nodup →
      a.evidenceRev.toInt ≤ 2 ^ 53 → b.evidenceRev.toInt ≤ 2 ^ 53 → planHash a = .ok h →
      (planHash b = .ok h ↔ a.Same b)) ∧
    (∀ (a b : MaterialHashInput) (h : String), (a.plan.unanalysed.map UnanalysedItem.key).Nodup →
      (a.gaps.map GapRef.key).Nodup → materialHash a = .ok h →
      (materialHash b = .ok h ↔
        a.plan.SameMaterial b.plan ∧ a.impactHash = b.impactHash ∧ a.gaps.Perm b.gaps)) ∧
    (∀ (d e : Domain) (ps qs : List Bytes), d ≠ e → taggedHash d ps ≠ taggedHash e qs) := by
  refine ⟨?_, ?_, fun d e ps qs hne heq => hne (taggedHash_domain hsum heq)⟩
  · intro a b h hkeys hra hrb ha
    obtain ⟨hvalid, hfits, rfl⟩ := planHash_eq_ok.1 ha
    have hra := hvalid.rev hra
    rw [planHash_eq_ok]
    constructor
    · rintro ⟨hvalid', hfits', heq⟩
      have htexts := taggedHash_inj hsum (no_sep_goText _) (no_sep_goText _) heq
      rw [← PlanHashInput.plan_alike_iff hkeys hra (hvalid'.rev hrb),
        ← map_goText_eq_iff hfits hfits']
      exact htexts.symm
    · intro hsame
      have hrb : b.evidenceRev.toInt.natAbs ≤ 2 ^ 53 := hsame.2.evidenceRev ▸ hra
      have hfits' : ∀ v ∈ b.vals true, v.Fits (maxJSONDepth + 1) := hsame.1.fits hfits
      refine ⟨hsame.valid hvalid, hfits', ?_⟩
      rw [(map_goText_eq_iff hfits hfits').2 ((PlanHashInput.plan_alike_iff hkeys hra hrb).2 hsame)]
  · intro a b h hkeys hgaps ha
    obtain ⟨hvalid, himpact, hfits, rfl⟩ := materialHash_eq_ok.1 ha
    have hall {m : MaterialHashInput} (hm : ∀ v ∈ m.plan.vals false, v.Fits (maxJSONDepth + 1)) :
        ∀ v ∈ m.plan.vals false ++ m.extra, v.Fits (maxJSONDepth + 1) :=
      forall_mem_append.2 ⟨hm, extra_fits m⟩
    have hiff := MaterialHashInput.alike_iff hkeys hgaps (b := b)
    rw [materialHash_eq_ok, ← hiff]
    constructor
    · rintro ⟨hvalid', himpact', hfits', heq⟩
      have htexts := taggedHash_inj hsum (no_sep_goText _) (no_sep_goText _) heq
      rw [← map_goText_eq_iff (hall hfits) (hall hfits')]
      exact htexts.symm
    · intro halike
      obtain ⟨hsame, himpact', -⟩ := hiff.1 halike
      have hfits' : ∀ v ∈ b.plan.vals false, v.Fits (maxJSONDepth + 1) := hsame.fits hfits
      refine ⟨hsame.valid hvalid, himpact' ▸ himpact, hfits', ?_⟩
      rw [(map_goText_eq_iff (hall hfits) (hall hfits')).2 halike]

end

/-- The plan of a first boundary, applied directly, with two items that the analysis left out and no
operations. -/
def examplePlanInput : PlanHashInput where
  controlID := "c-1"
  kind := "apply"
  delivery := "direct"
  desiredAttachment := "present"
  desiredBoundaryARN := some "arn:aws:iam::123456789012:policy/authsec/b"
  desiredDocumentHash := none
  replacedBoundaryARN := none
  artifactDisposition := "keep"
  bundleHash := "sha256:00"
  evidenceRev := 7
  resourcePolicyScanRunID := none
  firstAttachment := true
  unanalysed := [⟨"b", "", "r"⟩, ⟨"a", "f", ""⟩]
  preconditionHash := "sha256:01"
  ops := none

/-- With the identity for a digest, another kind of plan has another hash. -/
theorem plan_hash_binds_kind :
    ∃ h, @planHash ⟨id⟩ examplePlanInput = .ok h ∧
      @planHash ⟨id⟩ { examplePlanInput with kind := "undo" } ≠ .ok h := by
  let _ : Sha256 := ⟨id⟩
  have hops : examplePlanInput.opsValue.Fits (maxJSONDepth + 1) := .arr _ [] (by simp)
  have hok := planHash_eq_ok.2 ⟨(⟨rfl, by decide⟩ : examplePlanInput.Valid true),
    PlanHashInput.vals_fits hops, rfl⟩
  refine ⟨_, hok, fun hundo => ?_⟩
  have hsame := ((plan_hash_binds Function.injective_id).1 _ _ _ (by decide) (by decide) (by decide)
    hok).1 hundo
  exact absurd hsame.1.kind (by decide)

/-- The plan with one number for its operations. -/
def numberedPlanInput (n : Int64) : PlanHashInput :=
  { examplePlanInput with ops := some (.num (.int n)) }

/-- Two plans whose operations differ by one have one hash, whatever the digest is: the canonical
text writes `2 ^ 53` and `2 ^ 53 + 1` as the same double. -/
theorem planHash_rounds_ops :
    (numberedPlanInput 9007199254740992).ops ≠ (numberedPlanInput 9007199254740993).ops ∧
      ∀ _ : Sha256, ∃ h, planHash (numberedPlanInput 9007199254740992) = .ok h ∧
        planHash (numberedPlanInput 9007199254740993) = .ok h := by
  refine ⟨by simp [numberedPlanInput], fun _ => ?_⟩
  have hvalid (n : Int64) : (numberedPlanInput n).Valid true :=
    ⟨rfl, by simp [numberedPlanInput, examplePlanInput]⟩
  have hok (n : Int64) := planHash_eq_ok.2 ⟨hvalid n, PlanHashInput.vals_fits (.num _ _), rfl⟩
  have htexts : ((numberedPlanInput 9007199254740992).vals true).map goText =
      ((numberedPlanInput 9007199254740993).vals true).map goText := by
    decide +kernel
  refine ⟨_, hok _, ?_⟩
  rw [htexts]
  exact hok _

end AuthSec

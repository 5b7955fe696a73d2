import AuthSec.Evidence.Bundle
import AuthSec.Policy.Narrow

/-!
# The first-attachment proof

A role that goes from no boundary to a boundary needs the evidence of one scan: every collected
form complete in every enabled region, and no resource policy that a boundary would turn against
the role.
-/

namespace AuthSec

/-- A collected form whose coverage is not complete. -/
structure IncompleteForm where
  form : String
  region : String := ""
  state : String
  deriving DecidableEq

inductive BlockerKind where
  | denyNotPrincipal
  | unparseable
  deriving DecidableEq

def BlockerKind.text : BlockerKind → String
  | denyNotPrincipal => "deny_not_principal"
  | unparseable => "unparseable"

/-- A resource policy that makes a first attachment unsafe. -/
structure Blocker where
  kind : BlockerKind
  form : String
  region : String
  resource : String
  sid : String := ""
  deriving DecidableEq

/-- What speaks against a first boundary. -/
structure FirstAttachmentProof where
  scanRunID : String
  incomplete : List IncompleteForm
  blockers : List Blocker
  unanalysed : List UnanalysedItem
  coveredByGaps : List String
  deriving DecidableEq

/-- `FirstAttachmentProof.Refusals`. -/
def FirstAttachmentProof.refusals (p : FirstAttachmentProof) : List Refusal :=
  (p.incomplete.map fun f =>
    ⟨.evidenceIncomplete,
      if f.region = "" then f.form ++ " " ++ f.state
      else f.form ++ " in " ++ f.region ++ " " ++ f.state⟩) ++
  p.blockers.map fun b => ⟨.blocksBoundary, b.kind.text ++ " " ++ b.resource⟩

/-- `notPrincipalExempts`: everyone, or the role. -/
def notPrincipalExempts (p : Option Principal) (role : RoleRef) : Bool :=
  match p with
  | none => false
  | some q => q.wildcard || principalLists (some q) role

/-- The coverage that is missing for a collected form. -/
def incompleteForms (ev : Option ResourcePolicyEvidence) (enabledRegions : List String)
    (f : PolicyBearingForm) : List IncompleteForm :=
  match ev with
  | none => [{ form := f.name, state := CoverageState.notCollected.text }]
  | some ev =>
    ((analyzeRoutes f.ns {} (some ev.coverageOnly) enabledRegions).routes.filter fun r =>
      r.form == f.name && r.effect == RouteEffect.notAnalysed.text).map fun r =>
        { form := f.name, region := r.region, state := r.reason }

/-- What one observed policy has against the attachment. -/
def observationBlockers (role : RoleRef) (ob : ResourcePolicyObservation) : List Blocker :=
  if !ob.policyPresent then []
  else if ob.parseState = .unparseable then [unparseable]
  else
    match ob.document with
    | none => [unparseable]
    | some doc =>
      (doc.statements.filter fun st =>
        st.effect == .deny && notPrincipalExempts st.notPrincipal role).map fun st =>
          { kind := .denyNotPrincipal, form := ob.form, region := ob.region,
            resource := ob.resourceARN, sid := st.sid }
where
  unparseable : Blocker :=
    { kind := .unparseable, form := ob.form, region := ob.region, resource := ob.resourceARN }

def Blocker.sortKey (b : Blocker) : String ×ₗ String ×ₗ String :=
  toLex (b.resource, toLex (b.kind.text, b.sid))

/-- The forms that no scan collects, of the services that the account uses. -/
def uncollectedForms (accountServices : Option (List String)) : List PolicyBearingForm :=
  allForms.filter fun f =>
    f.state == .uncollected && accountServices.all fun services => services.contains f.ns

/-- `ProveFirstAttachment`. -/
def proveFirstAttachment (role : RoleRef) (scanRunID : String)
    (ev : Option ResourcePolicyEvidence) (enabledRegions : List String)
    (accountServices : Option (List String)) (gaps : List Gap) : FirstAttachmentProof where
  scanRunID := scanRunID
  incomplete := (allForms.filter (·.state == .collected)).flatMap
    (incompleteForms ev enabledRegions)
  blockers := sortOn Blocker.sortKey
    (ev.elim [] fun ev => ev.observations.flatMap (observationBlockers role))
  unanalysed := sortedUnanalysed
    (((uncollectedForms accountServices).filter fun f => !isGap f).map (fun f =>
      ⟨"unanalysed_form:" ++ f.name, f.name, "form_not_collected"⟩) ++
      [⟨"other_accounts", "", "resources_in_other_accounts"⟩])
  coveredByGaps := ((uncollectedForms accountServices).filter isGap).map PolicyBearingForm.name
where
  isGap (f : PolicyBearingForm) : Bool :=
    (gaps.map Gap.key).contains ("unanalysed_form:" ++ f.name)

end AuthSec

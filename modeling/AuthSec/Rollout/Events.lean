import AuthSec.Go.Time
import AuthSec.Policy.Action

/-!
# Events and declared validations

Management events of a role's sessions, and the validation requests that declare which calls a test
will make.  An event belongs to an item of a request when role, session, action and window agree; the
window is the declared one.
-/

namespace AuthSec

open List

/-! ## Events -/

def authorizationErrorCodes : List String :=
  ["AccessDenied", "AccessDeniedException", "UnauthorizedOperation", "Client.UnauthorizedOperation"]

/-- `IsAuthorizationDenial`. -/
def isAuthorizationDenial (code : String) : Bool :=
  authorizationErrorCodes.contains code

/-- Event sources whose host is not named after the namespace. -/
def eventSourceNamespace : List (String × String) :=
  [("monitoring", "cloudwatch"), ("email", "ses"), ("tagging", "tag")]

/-- Events whose name is not that of the action they are authorised by. -/
def eventActionAlias : List (String × String) :=
  [("s3:ListBuckets", "s3:ListAllMyBuckets")]

/-- What stands before a given end of a string. -/
def beforeSuffix (s suffix : String) : Option (List Char) :=
  if suffix.toList.isSuffixOf s.toList then
    some (s.toList.take (s.toList.length - suffix.toList.length))
  else none

/-- `ActionForEvent`. -/
def actionForEvent (eventSource eventName : String) : Option String := do
  let host ← beforeSuffix (toLower eventSource) ".amazonaws.com"
  if eventName = "" then none
  else
    let first := String.ofList (host.takeWhile (· != '.'))
    let label := (eventSourceNamespace.lookup first).getD first
    if !reService label then none
    else
      let a := label ++ ":" ++ eventName
      some ((eventActionAlias.lookup a).getD a)

example : actionForEvent "s3.amazonaws.com" "ListBuckets" = some "s3:ListAllMyBuckets" := by
  decide +kernel

/-- An event of CloudTrail. -/
structure TrailEvent where
  eventTime : Time
  principalID : String
  sessionName : String
  eventSource : String
  eventName : String
  errorCode : String
  denialPolicyType : String
  deriving DecidableEq

/-- The namespace of an action, empty if it has none. -/
def actionNamespace (action : String) : String :=
  ((splitAction action).map Prod.fst).getD ""

namespace TrailEvent

def action (e : TrailEvent) : String :=
  (actionForEvent e.eventSource e.eventName).getD ""

/-- The action before aliasing. -/
def rawAction (e : TrailEvent) : String :=
  match actionForEvent e.eventSource e.eventName with
  | none => ""
  | some a =>
    match splitAction a with
    | some (ns, _) => ns ++ ":" ++ e.eventName
    | none => a

def service (e : TrailEvent) : String :=
  actionNamespace e.action

def denied (e : TrailEvent) : Bool :=
  isAuthorizationDenial e.errorCode

end TrailEvent

/-! ## Validations -/

def expectDenied : String := "denied"
def expectAllowed : String := "allowed"

def denialPermissionsBoundary : String := "permissions_boundary"

structure ValidationItem where
  action : String
  expected : String
  deriving DecidableEq

/-- A declared test of a role. -/
structure Validation where
  id : String
  roleID : String
  sessionName : String
  windowStart : Time
  windowEnd : Time
  items : List ValidationItem
  deriving DecidableEq

/-- `belongs`. -/
def belongs (e : TrailEvent) (v : Validation) (it : ValidationItem) : Bool :=
  e.principalID == v.roleID && e.sessionName == v.sessionName &&
    (equalFoldASCII e.action it.action || equalFoldASCII e.rawAction it.action) &&
    !decide (e.eventTime < v.windowStart) && !decide (v.windowEnd < e.eventTime)

/-- What the events say about an item. -/
inductive CorrelationResult where
  | contradicted
  | matched
  | incomplete
  | notSeen
  deriving DecidableEq

structure ItemResult where
  action : String
  expected : String
  result : CorrelationResult
  matchedEvents : ℕ
  oppositeEvents : ℕ
  boundaryAttested : Bool
  deriving DecidableEq

structure ValidationResult where
  id : String
  result : CorrelationResult
  items : List ItemResult
  deriving DecidableEq

/-- The event turned out as the item expects. -/
def ValidationItem.agrees (it : ValidationItem) (e : TrailEvent) : Bool :=
  (it.expected == expectDenied) == e.denied

/-- The result of one item. -/
def correlateItem (v : Validation) (events : List TrailEvent) (it : ValidationItem) : ItemResult :=
  let own := events.filter fun e => belongs e v it
  let agreeing := own.filter it.agrees
  let opposite := own.filter fun e => !it.agrees e
  { action := it.action
    expected := it.expected
    result := if opposite ≠ [] then .contradicted else if agreeing ≠ [] then .matched else .notSeen
    matchedEvents := agreeing.length
    oppositeEvents := opposite.length
    boundaryAttested := agreeing.any fun e =>
      e.denied && e.denialPolicyType == denialPermissionsBoundary }

def correlateValidation (events : List TrailEvent) (v : Validation) : ValidationResult :=
  let items := v.items.map (correlateItem v events)
  let has := fun r : CorrelationResult => items.any (·.result == r)
  { id := v.id
    result :=
      if has .contradicted then .contradicted
      else if has .matched && !has .notSeen then .matched
      else if has .matched then .incomplete
      else .notSeen
    items }

/-- `CorrelateValidations`. -/
def correlateValidations (vs : List Validation) (events : List TrailEvent) :
    List ValidationResult :=
  vs.map (correlateValidation events)

section

variable {v : Validation} {events : List TrailEvent} {it : ValidationItem}

/-- An item is matched by events that belong to it and agree with it, all of them. -/
lemma correlateItem_matched (h : (correlateItem v events it).result = .matched) :
    (∃ e ∈ events, belongs e v it = true ∧ it.agrees e = true) ∧
      ∀ e ∈ events, belongs e v it = true → it.agrees e = true := by
  simp only [correlateItem] at h
  split_ifs at h with hopposite hagreeing
  obtain ⟨e, he⟩ := exists_mem_of_ne_nil _ hagreeing
  obtain ⟨he, hagrees⟩ := mem_filter.1 he
  obtain ⟨he, hbelongs⟩ := mem_filter.1 he
  refine ⟨⟨e, he, hbelongs, hagrees⟩, fun e' he' hown => ?_⟩
  by_contra hne
  refine hopposite (fun hempty => ?_)
  have hall := filter_eq_nil_iff.1 hempty e' (mem_filter.2 ⟨he', hown⟩)
  exact hall (by simpa using hne)

lemma correlateItem_of_agree (hsome : ∃ e ∈ events, belongs e v it = true ∧ it.agrees e = true)
    (hall : ∀ e ∈ events, belongs e v it = true → it.agrees e = true) :
    (correlateItem v events it).result = .matched := by
  obtain ⟨e, he, hbelongs, hagrees⟩ := hsome
  have hopposite : (events.filter fun e => belongs e v it).filter (fun e => !it.agrees e) = [] := by
    refine filter_eq_nil_iff.2 fun e he => ?_
    obtain ⟨he, hown⟩ := mem_filter.1 he
    simp [hall e he hown]
  have hagreeing : (events.filter fun e => belongs e v it).filter it.agrees ≠ [] :=
    ne_nil_of_mem (mem_filter.2 ⟨mem_filter.2 ⟨he, hbelongs⟩, hagrees⟩)
  simp only [correlateItem, hopposite, hagreeing, ne_eq, not_true_eq_false, not_false_eq_true,
    if_true, if_false]

/-- For an allowed item, an event that agrees was not denied. -/
lemma agrees_allowed (hit : it.expected = expectAllowed) {e : TrailEvent} :
    it.agrees e = true ↔ e.denied = false := by
  have hne : (expectAllowed == expectDenied) = false := by decide
  simp [ValidationItem.agrees, hit, hne]

end

end AuthSec

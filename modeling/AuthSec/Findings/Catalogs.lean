import AuthSec.Go.Time
import AuthSec.Policy.Action

/-!
# Catalogs of the evaluation

Since when last accessed information is tracked, and which actions let a role raise its own rights.
-/

namespace AuthSec

/-! ## Tracking -/

/-- `regionTrackingStart`. -/
def regionTrackingStart : List (String × Time) :=
  [("us-east-2", dateTime 2017 10 27), ("us-east-1", dateTime 2015 10 1),
    ("us-west-1", dateTime 2015 10 1), ("us-west-2", dateTime 2015 10 1),
    ("af-south-1", dateTime 2020 4 22), ("ap-east-1", dateTime 2019 4 24),
    ("ap-south-2", dateTime 2022 11 22), ("ap-southeast-3", dateTime 2021 12 13),
    ("ap-southeast-4", dateTime 2023 1 23), ("ap-south-1", dateTime 2016 6 27),
    ("ap-northeast-3", dateTime 2018 2 11), ("ap-northeast-2", dateTime 2016 1 6),
    ("ap-southeast-1", dateTime 2015 10 1), ("ap-southeast-2", dateTime 2015 10 1),
    ("ap-northeast-1", dateTime 2015 10 1), ("ca-central-1", dateTime 2017 10 28),
    ("eu-central-1", dateTime 2015 10 1), ("eu-west-1", dateTime 2015 10 1),
    ("eu-west-2", dateTime 2017 10 28), ("eu-south-1", dateTime 2020 4 28),
    ("eu-west-3", dateTime 2017 12 18), ("eu-south-2", dateTime 2022 11 15),
    ("eu-north-1", dateTime 2018 12 12), ("eu-central-2", dateTime 2022 11 8),
    ("il-central-1", dateTime 2023 8 1), ("me-south-1", dateTime 2019 7 29),
    ("me-central-1", dateTime 2022 8 30), ("sa-east-1", dateTime 2015 12 11),
    ("us-gov-east-1", dateTime 2023 7 1), ("us-gov-west-1", dateTime 2023 7 1)]

/-- `trackedServices`; none of them has a start of its own. -/
def trackedServices : List String :=
  ["acm", "apigateway", "athena", "autoscaling", "backup", "bedrock", "cloudformation",
    "cloudfront", "cloudtrail", "cloudwatch", "codebuild", "codecommit", "codedeploy",
    "codepipeline", "cognito-idp", "dynamodb", "ec2", "ecr", "ecs", "eks", "elasticache",
    "elasticfilesystem", "elasticloadbalancing", "es", "events", "firehose", "glue", "iam",
    "kinesis", "kms", "lambda", "logs", "rds", "redshift", "route53", "s3", "sagemaker",
    "secretsmanager", "ses", "sns", "sqs", "ssm", "states", "sts", "xray"]

/-- `TrackingStart`: the latest start over the regions, or why there is none. -/
def trackingStart (service : String) (regions : List String) : Except String Time :=
  if !trackedServices.contains service then .error "service_not_in_tracking_catalog"
  else if regions.isEmpty then .error "no_enabled_regions"
  else
    (sortedUnique regions).foldlM (fun start r =>
      match regionTrackingStart.lookup r with
      | none => .error ("region_not_tracked:" ++ r)
      | some rs => .ok (if start < rs then rs else start)) zeroTime

/-! ## Statements -/

/-- `Statement.ExplicitNamespaces`. -/
def Statement.explicitNamespaces (st : Statement) : List String :=
  if st.effect ≠ .allow ∨ st.isNotAction then []
  else
    sortedUnique (st.action.filterMap fun p =>
      match splitAction p with
      | some (ns, _) => if containsAny ns ['*', '?'] then none else some (toLower ns)
      | none => none)

/-- `Statement.ResourceIsWildcard`. -/
def Statement.resourceIsWildcard (st : Statement) : Bool :=
  st.notResource.isSome || (st.resource.getD []).contains "*"

/-- The recursion of `globsIntersect`, with a bound on its depth. -/
def globsMeet : ℕ → Bytes → Bytes → Bool
  | _, [], [] => true
  | 0, _, _ => false
  | n + 1, a, b =>
    if a.head? = some 42 then globsMeet n a.tail b || (!b.isEmpty && globsMeet n a b.tail)
    else if b.head? = some 42 then globsMeet n a b.tail || (!a.isEmpty && globsMeet n a.tail b)
    else
      match a, b with
      | c :: a, d :: b => (c = 63 || d = 63 || c = d) && globsMeet n a b
      | _, _ => false

/-- `globsIntersect`. -/
def globsIntersect (a b : String) : Bool :=
  let a := utf8 (toLower a)
  let b := utf8 (toLower b)
  globsMeet (a.length + b.length) a b

example : globsIntersect "iam:C*" "iam:Create*" = true := by decide +kernel

/-! ## Escalations -/

structure EscalationAction where
  pattern : String
  onWildcardResource : Bool

/-- `escalationCatalog`. -/
def escalationCatalog : List EscalationAction :=
  [⟨"iam:PassRole", true⟩, ⟨"iam:Create*", false⟩, ⟨"iam:Attach*", false⟩,
    ⟨"iam:Put*Policy", false⟩, ⟨"iam:UpdateAssumeRolePolicy", false⟩, ⟨"sts:AssumeRole", true⟩,
    ⟨"lambda:UpdateFunctionCode", true⟩]

/-- The statement grants the escalation. -/
def Statement.grantsEscalation (st : Statement) (e : EscalationAction) : Bool :=
  if e.onWildcardResource && !st.resourceIsWildcard then false
  else if st.isNotAction then
    !st.notAction.any fun n => equalFoldASCII n e.pattern ||
      patternCoversWholeNamespace n (((splitAction e.pattern).map Prod.fst).getD "")
  else st.action.any fun p => globsIntersect p e.pattern

/-- `EscalationsGranted`. -/
def escalationsGranted (st : Statement) : List String :=
  if st.effect ≠ .allow then []
  else sortOn id ((escalationCatalog.filter st.grantsEscalation).map EscalationAction.pattern)

end AuthSec

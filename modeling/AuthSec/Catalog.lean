import AuthSec.Policy.Narrow

/-!
# Catalogs

The services that a workload context depends on, and the resource forms that can carry a policy.
-/

namespace AuthSec

/-- `CatalogVersion`. -/
def catalogVersion : ℤ := 1

/-! ## Dependencies -/

/-- A way a role is used, with the facts the catalog needs. -/
structure DependencyContext where
  context : String
  tracingActive : Bool := false
  referencesSecrets : Bool := false
  deriving DecidableEq

/-- A service that a use of a role needs. -/
structure Dependency where
  service : String
  catalog : String
  reason : String
  deriving DecidableEq

/-- What a way to use a role needs. -/
structure DepRule where
  always : List String := []
  tracing : List String := []
  secrets : List String := []
  description : String

def dependencyCatalog : List (String × DepRule) :=
  [("lambda-execution",
      { always := ["logs"], tracing := ["xray"], description := "Lambda execution role" }),
    ("ecs-task-execution",
      { always := ["ecr", "logs"], secrets := ["kms", "secretsmanager", "ssm"],
        description := "ECS task execution role" }),
    ("ecs-task-role", { description := "ECS task role" }),
    ("ec2-instance-profile", { description := "EC2 instance profile role" }),
    ("bedrock-agent",
      { always := ["bedrock", "bedrock-agentcore", "logs"], description := "Bedrock agent role" }),
    ("agentcore-runtime",
      { always := ["bedrock", "bedrock-agentcore", "logs"],
        description := "AgentCore runtime role" }),
    ("kms-via-service", { always := ["kms"], description := "statement using kms:ViaService" })]

def dependencyRule (context : String) : Option DepRule :=
  (dependencyCatalog.find? (·.1 == context)).map Prod.snd

/-- `DependencyRef`. -/
def dependencyRef (context : String) : String :=
  context ++ "@" ++ toString catalogVersion

/-- `strconv.Atoi`, without its limit. -/
def atoi (cs : List Char) : Option ℤ :=
  match cs with
  | '-' :: ds => (number ds).map fun n => -(n : ℤ)
  | '+' :: ds => (number ds).map fun n => (n : ℤ)
  | ds => (number ds).map fun n => (n : ℤ)
where
  number (ds : List Char) : Option ℕ :=
    if ds ≠ [] ∧ ds.all isDigitChar then
      some (ds.foldl (fun n d => n * 10 + (d.toNat - '0'.toNat)) 0)
    else none

/-- The parts around the last `@`. -/
def splitAtLast (s : String) : Option (List Char × List Char) :=
  match s.toList.reverse.span (· != '@') with
  | (version, _ :: context) => some (context.reverse, version.reverse)
  | _ => none

/-- `ParseDependencyRef`. -/
def parseDependencyRef (ref : String) : Except String (String × ℤ) :=
  match splitAtLast ref with
  | some (c :: cs, digits) =>
    match atoi digits with
    | some version =>
      if version < 1 ∨ catalogVersion < version then .error (bad " names an unknown catalog version")
      else if (dependencyRule (String.ofList (c :: cs))).isNone then
        .error (bad " names an unknown context")
      else .ok (String.ofList (c :: cs), version)
    | none => .error (bad " names an unknown catalog version")
  | _ => .error (bad " is not <context>@<version>")
where
  bad (why : String) : String :=
    "catalog reference " ++ quote ref ++ why

/-- The services that one context needs. -/
def DependencyContext.dependencies (c : DependencyContext) : List Dependency :=
  match dependencyRule c.context with
  | none => []
  | some rule =>
    let ref := dependencyRef c.context
    rule.always.map (⟨·, ref, rule.description⟩) ++
      (if c.tracingActive then
        rule.tracing.map (⟨·, ref, rule.description ++ " with active tracing"⟩) else []) ++
      (if c.referencesSecrets then
        rule.secrets.map (⟨·, ref, rule.description ++ " referencing secrets"⟩) else [])

/-- The first element of every key. -/
def keepFirst {α κ : Type} [DecidableEq κ] (key : α → κ) : List α → List α
  | [] => []
  | a :: l => a :: (keepFirst key l).filter fun b => key b ≠ key a

/-- `Dependencies`. -/
def dependencies (ctxs : List DependencyContext) : List Dependency :=
  sortOn Dependency.service (keepFirst Dependency.service
    ((sortOn DependencyContext.context ctxs).flatMap DependencyContext.dependencies))

/-- `IsDependency`. -/
def isDependency (service : String) (ctxs : List DependencyContext) : Option Dependency :=
  (dependencies ctxs).find? (·.service == service)

/-! ## Forms that carry a policy -/

inductive FormState where
  | collected
  | uncollected
  deriving DecidableEq

inductive FormScope where
  | region
  | account
  deriving DecidableEq

/-- A form of resource that has a policy. -/
structure PolicyBearingForm where
  name : String
  ns : String
  state : FormState
  scope : FormScope
  deriving DecidableEq

def policyBearingForms : List PolicyBearingForm :=
  [⟨"s3_bucket", "s3", .collected, .account⟩,
    ⟨"s3_directory_bucket", "s3express", .collected, .region⟩,
    ⟨"s3_access_point", "s3", .collected, .region⟩,
    ⟨"s3_multi_region_access_point", "s3", .collected, .account⟩,
    ⟨"s3_object_lambda_access_point", "s3-object-lambda", .collected, .region⟩,
    ⟨"kms_key", "kms", .collected, .region⟩,
    ⟨"sqs_queue", "sqs", .collected, .region⟩,
    ⟨"sns_topic", "sns", .collected, .region⟩,
    ⟨"lambda_function", "lambda", .collected, .region⟩,
    ⟨"lambda_function_version", "lambda", .collected, .region⟩,
    ⟨"lambda_alias", "lambda", .collected, .region⟩,
    ⟨"lambda_layer_version", "lambda", .collected, .region⟩,
    ⟨"secretsmanager_secret", "secretsmanager", .collected, .region⟩,
    ⟨"ecr_repository", "ecr", .uncollected, .region⟩,
    ⟨"ecr_registry", "ecr", .uncollected, .region⟩,
    ⟨"events_event_bus", "events", .uncollected, .region⟩,
    ⟨"apigateway_rest_api", "execute-api", .uncollected, .region⟩,
    ⟨"glue_data_catalog", "glue", .uncollected, .region⟩,
    ⟨"backup_vault", "backup", .uncollected, .region⟩,
    ⟨"opensearch_domain", "es", .uncollected, .region⟩,
    ⟨"logs_resource_policy", "logs", .uncollected, .region⟩,
    ⟨"logs_destination", "logs", .uncollected, .region⟩,
    ⟨"dynamodb_table", "dynamodb", .uncollected, .region⟩,
    ⟨"dynamodb_stream", "dynamodb", .uncollected, .region⟩,
    ⟨"kinesis_stream", "kinesis", .uncollected, .region⟩,
    ⟨"efs_file_system", "elasticfilesystem", .uncollected, .region⟩,
    ⟨"glacier_vault", "glacier", .uncollected, .region⟩,
    ⟨"codeartifact_domain", "codeartifact", .uncollected, .region⟩,
    ⟨"codeartifact_repository", "codeartifact", .uncollected, .region⟩,
    ⟨"ses_identity", "ses", .uncollected, .region⟩,
    ⟨"serverlessrepo_application", "serverlessrepo", .uncollected, .region⟩]

/-- `FormsForNamespace`. -/
def formsForNamespace (ns : String) : List PolicyBearingForm :=
  sortOn PolicyBearingForm.name (policyBearingForms.filter (·.ns == ns))

/-- `AllForms`. -/
def allForms : List PolicyBearingForm :=
  sortOn PolicyBearingForm.name policyBearingForms

end AuthSec

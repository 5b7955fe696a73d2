import AuthSec.Go.Time
import AuthSec.Routes

/-!
# Coverage of a form

What a collector counts while it lists the resources of a form and reads their policies, and the
state that it decides from the counts.
-/

namespace AuthSec

/-! ## Errors of calls -/

/-- An unresolved name, as the resolver reports it. -/
structure DNSError where
  name : String
  isNotFound : Bool
  isTimeout : Bool
  isTemporary : Bool
  deriving DecidableEq

/-- What the collector looks at in an error. -/
structure CallError where
  /-- it is, or wraps, `ErrCollectionBudget` -/
  budget : Bool := false
  /-- the code that AWS sent, empty if it sent none -/
  apiCode : String := ""
  /-- it is, or wraps, `ErrThrottled` -/
  throttled : Bool := false
  /-- it is the exception of a key that does not exist -/
  keyNotFound : Bool := false
  dns : Option DNSError := none
  /-- a failed connection, and whether it timed out -/
  connection : Option Bool := none
  /-- the label of an error with none of the above -/
  label : String := "UnknownError"
  deriving DecidableEq

/-- `ErrCollectionBudget`, as it is or wrapped. -/
def errCollectionBudget : CallError :=
  { budget := true }

def budgetText : String := "the scan budget ran out before this form finished"

def deniedCodes : List String :=
  ["AccessDenied", "AccessDeniedException", "UnauthorizedOperation", "AuthorizationError",
    "AuthorizationErrorException"]

def throttleCodes : List String :=
  ["Throttling", "ThrottlingException", "RequestLimitExceeded", "TooManyRequestsException",
    "SlowDown", "RequestThrottled", "Throttled", "ThrottledException", "RequestThrottledException"]

/-- The codes of a resource without a policy. -/
def absentCodes : List String :=
  ["NoSuchBucketPolicy", "NoSuchAccessPointPolicy", "NoSuchAccessPointPolicyForObjectLambda",
    "NoSuchMultiRegionAccessPointPolicy", "ResourceNotFoundException", "NotFoundException",
    "NotFound", "QueueDoesNotExist", "AWS.SimpleQueueService.NonExistentQueue"]

namespace CallError

variable (e : CallError)

/-- `isDeniedErr`. -/
def isDenied : Bool :=
  deniedCodes.contains e.apiCode

/-- `isThrottleErr`. -/
def isThrottle : Bool :=
  throttleCodes.contains e.apiCode || e.throttled

/-- `isNoSuchPolicy`. -/
def isNoSuchPolicy : Bool :=
  e.keyNotFound || e.apiCode == "NoSuchBucketPolicy"

/-- `isAbsentErr`. -/
def isAbsent : Bool :=
  absentCodes.contains e.apiCode || e.isNoSuchPolicy

/-- `resolverCode`. -/
def resolverCode : String :=
  match e.dns, e.connection with
  | some d, _ =>
    if d.isTimeout then "DNSTimeout" else if d.isNotFound then "DNSNameNotFound" else "DNSFailure"
  | none, some timeout => if timeout then "ConnectionTimeout" else "ConnectionFailed"
  | none, none => ""

/-- `codeOf`. -/
def code : String :=
  if e.budget then "BudgetExhausted"
  else if e.apiCode ≠ "" then e.apiCode
  else if e.resolverCode ≠ "" then e.resolverCode
  else e.label

end CallError

/-! ## Services that a region does not have -/

def formS3Bucket : String := "s3_bucket"
def formS3DirectoryBucket : String := "s3_directory_bucket"
def formS3AccessPoint : String := "s3_access_point"
def formS3MultiRegionAccessPoint : String := "s3_multi_region_access_point"
def formS3ObjectLambdaAccessPoint : String := "s3_object_lambda_access_point"
def formKMSKey : String := "kms_key"
def formSQSQueue : String := "sqs_queue"
def formSNSTopic : String := "sns_topic"
def formLambdaFunction : String := "lambda_function"
def formLambdaFunctionVersion : String := "lambda_function_version"
def formLambdaAlias : String := "lambda_alias"
def formLambdaLayerVersion : String := "lambda_layer_version"
def formSecretsManagerSecret : String := "secretsmanager_secret"

/-- The endpoint of a form that some regions do not have, and the regions that have it. -/
def regionLimitedForms : List (String × String × List String) :=
  [(formS3DirectoryBucket, "s3express-control",
    ["us-east-1", "us-west-2", "ap-northeast-1", "ap-south-1", "eu-north-1"])]

def awsDNSSuffixes : List String := ["amazonaws.com", "amazonaws.com.cn"]

/-- `strings.TrimSuffix` of a dot. -/
def trimDot (s : String) : String :=
  match s.toList.reverse with
  | '.' :: cs => String.ofList cs.reverse
  | _ => s

/-- `FormNotOfferedIn`. -/
def formNotOfferedIn (form region : String) (e : CallError) : Bool :=
  match regionLimitedForms.lookup form, e.dns with
  | some (endpoint, documented), some d =>
    !documented.contains region && region != "" &&
      d.isNotFound && !d.isTimeout && !d.isTemporary &&
      awsDNSSuffixes.any fun suffix =>
        trimDot (toLower d.name) == endpoint ++ "." ++ region ++ "." ++ suffix
  | _, _ => false

/-! ## Coverage -/

/-- A policy that was read, or that there is none. -/
structure PolicyRead where
  arn : String
  present : Bool
  text : String
  readAt : Time
  deriving DecidableEq

structure ReadFailure where
  arn : String
  call : String
  code : String
  denied : Bool
  throttled : Bool
  listing : Bool
  deriving DecidableEq

/-- What was collected of a form. -/
structure FormCoverage where
  form : String
  region : String
  state : CoverageState
  enumerated : ℕ := 0
  readOK : ℕ := 0
  readFailed : ℕ := 0
  reason : String := ""
  reads : List PolicyRead := []
  failures : List ReadFailure := []
  api : String := ""
  errorCode : String := ""
  deriving DecidableEq

/-- `NotCollected`. -/
def notCollected (form region reason : String) : FormCoverage :=
  { form, region, state := .notCollected, reason }

def notOfferedReason (region : String) : String :=
  "service not offered in " ++ region ++ " (not among the regions AWS documents it in)"

/-! ## The accumulator -/

/-- The counts of a form under way; its coverage has no state yet. -/
structure FormAcc where
  form : String
  region : String
  listCall : String
  enumerated : ℕ := 0
  readOK : ℕ := 0
  readFailed : ℕ := 0
  reads : List PolicyRead := []
  failures : List ReadFailure := []
  api : String := ""
  errorCode : String := ""
  listErr : Option CallError := none
  notOffered : Bool := false
  noClient : Bool := false
  childListAttempts : ℕ := 0
  childListFailed : ℕ := 0
  childListDenied : ℕ := 0
  seen : List String := []

/-- `newAcc`. -/
def newAcc (form region listCall : String) : FormAcc :=
  { form, region, listCall }

/-- The result of reading one policy: whether there is one, and its text. -/
abbrev PolicyResult := Except CallError (Bool × String)

namespace FormAcc

variable (a : FormAcc)

def noteFirst (call : String) (e : CallError) : FormAcc :=
  if a.api = "" then { a with api := call, errorCode := e.code } else a

def listFailed (e : CallError) : FormAcc :=
  if a.enumerated = 0 ∧ formNotOfferedIn a.form a.region e = true then { a with notOffered := true }
  else noteFirst { a with listErr := some e } a.listCall e

/-- The resource has an identifier and was not listed before. -/
def isNew (arn : String) : Bool :=
  arn != "" && !a.seen.contains arn

/-- `enumerate`, of a resource that is new. -/
def enumerate (arn : String) : FormAcc :=
  { a with seen := arn :: a.seen, enumerated := a.enumerated + 1 }

def childListing (parentARN call : String) (err : Option CallError) : FormAcc :=
  match err with
  | none => { a with childListAttempts := a.childListAttempts + 1 }
  | some e =>
    let b := noteFirst
      { a with childListAttempts := a.childListAttempts + 1
               childListFailed := a.childListFailed + 1
               childListDenied := a.childListDenied + if e.isDenied then 1 else 0 } call e
    { b with failures := b.failures ++
        [⟨parentARN, call, e.code, e.isDenied, e.isThrottle, true⟩] }

/-- Spaces only, or nothing. -/
def blank (text : String) : Bool :=
  (trimSpaceBytes (utf8 text)).isEmpty

def read (arn call : String) (result : PolicyResult) (readAt : Time) : FormAcc :=
  match result with
  | .ok (present, text) =>
    { a with readOK := a.readOK + 1
             reads := a.reads ++ [⟨arn, present && !blank text, text, readAt⟩] }
  | .error e =>
    if e.isAbsent then
      { a with readOK := a.readOK + 1, reads := a.reads ++ [⟨arn, false, "", readAt⟩] }
    else
      let b := noteFirst { a with readFailed := a.readFailed + 1 } call e
      { b with failures := b.failures ++ [⟨arn, call, e.code, e.isDenied, e.isThrottle, false⟩] }

/-- The failures by call and code, each with its number. -/
def failureSummary : String :=
  let keys := a.failures.map fun f => f.call ++ " " ++ f.code
  ", ".intercalate ((sortedUnique keys).map fun k => k ++ " x" ++ toString (keys.count k))

def allDenied (fs : List ReadFailure) : Bool :=
  !fs.isEmpty && fs.all ReadFailure.denied

/-- The coverage in a state and for a reason. -/
def cover (state : CoverageState) (reason : String) : FormCoverage :=
  { form := a.form, region := a.region, state, enumerated := a.enumerated, readOK := a.readOK
    readFailed := a.readFailed, reason, reads := a.reads, failures := a.failures, api := a.api
    errorCode := a.errorCode }

/-- The state where the form's own listing failed. -/
def finishListing (e : CallError) : FormCoverage :=
  if e.budget then
    a.cover .incomplete (a.listCall ++ " stopped: " ++ budgetText ++ " (" ++
      toString a.enumerated ++ " listed, " ++ toString a.readOK ++ " read)")
  else if e.isDenied && a.enumerated == 0 then
    a.cover .denied (a.listCall ++ " refused (" ++ e.code ++ ")")
  else
    a.cover .incomplete (a.listCall ++ " failed (" ++ e.code ++ ") after " ++
      toString a.enumerated ++ " listed; the set is not known to be whole")

/-- The state where the listings are whole, but for those of parents. -/
def finishReads : FormCoverage :=
  if 0 < a.childListFailed ∧ a.childListDenied = a.childListAttempts ∧ a.enumerated = 0 then
    a.cover .denied ("listing refused: " ++ a.failureSummary)
  else if 0 < a.childListFailed then
    a.cover .incomplete (toString a.childListFailed ++ " of " ++ toString a.childListAttempts ++
      " listings failed (" ++ a.failureSummary ++ "); the set is not known to be whole")
  else if 0 < a.readFailed ∧ a.readOK = 0 ∧ allDenied a.failures = true then
    a.cover .denied ("every policy read refused (" ++ a.failureSummary ++ ")")
  else if 0 < a.readFailed then
    a.cover .incomplete (toString a.readFailed ++ " of " ++ toString a.enumerated ++
      " policies could not be read (" ++ a.failureSummary ++ ")")
  else if a.readOK ≠ a.enumerated then
    a.cover .incomplete (toString a.readOK ++ " of " ++ toString a.enumerated ++ " policies read" ++
      if a.errorCode = "BudgetExhausted" then ": " ++ budgetText else "")
  else a.cover .complete ""

def finish : FormCoverage :=
  if a.noClient then a.cover .notCollected ("no client for this service in " ++ a.region)
  else if a.notOffered then a.cover .complete (notOfferedReason a.region)
  else
    match a.listErr with
    | some e => a.finishListing e
    | none => a.finishReads

end FormAcc

end AuthSec

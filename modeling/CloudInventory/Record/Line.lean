import CloudInventory.Json.Printer
import CloudInventory.Record.Basic

/-!
Records as lines of text: the document on one line, which ends it. No line break can stand inside,
since text in a document is escaped.
-/

namespace CloudInventory.Record

/-- The document of a record as text. -/
def render (r : Record) : String := (Json.ofDict r.document).render

/-- The line of a record. -/
def line (r : Record) : String := r.render ++ "\n"

end CloudInventory.Record

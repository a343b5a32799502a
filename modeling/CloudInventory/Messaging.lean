import CloudInventory.Record.Patch
import CloudInventory.Warning

/-!
Messages between the inventory and whoever uses it. A record is sent under its subject, and one
that has none is dropped with a warning. A subscription is a pattern of subjects: subjects are cut
at their dots, a star stands for any one piece, and a closing angle bracket for all pieces that
are left, of which there has to be one.
-/

namespace CloudInventory

/-- A value that is sent under a subject. -/
structure Message where
  subject : String
  body : Json
  deriving DecidableEq

namespace Message

/-- The message of a record. -/
def ofRecord (r : Record) : Except Warning Message :=
  match r.subject? with
  | some subject => .ok ⟨subject, .ofDict r.document⟩
  | none => .error .unroutable

/-- The messages of records, in their order. -/
def ofRecords (rs : List Record) : List Message := rs.filterMap fun r => (ofRecord r).toOption

/-- The warnings of sending records. -/
def warnings (rs : List Record) : List Warning :=
  rs.filterMap fun r => match ofRecord r with | .error w => some w | .ok _ => none

end Message

/-- A pattern of subjects, in pieces. -/
abbrev Subscription := List String

namespace Subscription

/-- The pattern that a text says. -/
def ofText (s : String) : Subscription := Text.fields '.' s

/-- A subject, in pieces, is one of the pattern. -/
def admits : Subscription → List String → Bool
  | [], subject => subject.isEmpty
  | [">"], subject => !subject.isEmpty
  | _ :: _, [] => false
  | piece :: pieces, first :: rest => (piece = "*" || piece = first) && admits pieces rest

/-- The messages that a subscription receives, in the order in which they are sent. -/
def received (s : Subscription) (sent : List Message) : List Message :=
  sent.filter fun m => s.admits (Text.fields '.' m.subject)

end Subscription

end CloudInventory

import CloudInventory.Json.Lexer
import CloudInventory.Json.Term

/-!
Reading a JSON text. Tokens are taken one at a time on a stack of the lists and objects that are
still open; the text must hold one value and nothing after it. A list or an object with too many
others around it is closed like any other, but cannot be read.
-/

namespace CloudInventory

namespace Term

/-- A list or an object that is still open; its parts are kept last first. A member name that
cannot be read is `none`. -/
inductive Frame where
  | list (items : List Term)
  | object (members : List (Option String × Term)) (key : Option String)

/-- What may come next. -/
inductive Next where
  | value
  | firstItem
  | afterItem
  | key
  | firstKey
  | colon
  | finish (t : Term)

/-- The reader: what is open, the innermost first, and what may come next. -/
structure Reader where
  frames : List Frame
  next : Next

/-- The members of an object, when every name can be read. -/
def namedMembers? : List (Option String × Term) → Option (List (String × Term))
  | [] => some []
  | (some k, t) :: rest => (namedMembers? rest).map ((k, t) :: ·)
  | (none, _) :: _ => none

/-- The object with the given members; unreadable when a name is. -/
def ofMembers (members : List (Option String × Term)) : Term :=
  match namedMembers? members with
  | some members => .obj members
  | none => .unreadable

/-- Take a whole value. -/
def Reader.put (t : Term) : List Frame → Reader
  | [] => ⟨[], .finish t⟩
  | .list items :: rest => ⟨.list (t :: items) :: rest, .afterItem⟩
  | .object members key :: rest => ⟨.object ((key, t) :: members) key :: rest, .afterItem⟩

/-- How many lists and objects may stand inside one another to be read. -/
def nesting : Nat := 127

/-- What is read inside of `frames`; nothing can be when there are too many of them. -/
def within (frames : List Frame) (t : Term) : Term :=
  if (frames.drop (nesting - 1)).isEmpty then t else .unreadable

/-- Close the innermost list. -/
def Reader.closeList? : List Frame → Option Reader
  | .list items :: rest => some (Reader.put (within rest (.arr items.reverse)) rest)
  | _ => none

/-- Close the innermost object. -/
def Reader.closeObject? : List Frame → Option Reader
  | .object members _ :: rest => some (Reader.put (within rest (ofMembers members.reverse)) rest)
  | _ => none

/-- Take a token where a value has to begin. -/
def Reader.begin? (frames : List Frame) : Token → Option Reader
  | .beginList => some ⟨.list [] :: frames, .firstItem⟩
  | .beginObject => some ⟨.object [] none :: frames, .firstKey⟩
  | .null => some (Reader.put .null frames)
  | .bool b => some (Reader.put (.bool b) frames)
  | .num (some n) => some (Reader.put (.num n) frames)
  | .str (some s) => some (Reader.put (.str s) frames)
  | .num none | .str none => some (Reader.put .unreadable frames)
  | _ => none

/-- Take a member name. -/
def Reader.name? (frames : List Frame) (key : Option String) : Option Reader :=
  match frames with
  | .object members _ :: rest => some ⟨.object members key :: rest, .colon⟩
  | _ => none

/-- Take one token. -/
def Reader.step? (r : Reader) (t : Token) : Option Reader :=
  match r.next, t with
  | .firstItem, .endList => Reader.closeList? r.frames
  | .value, t | .firstItem, t => Reader.begin? r.frames t
  | .firstKey, .endObject => Reader.closeObject? r.frames
  | .key, .str k | .firstKey, .str k => Reader.name? r.frames k
  | .colon, .colon => some ⟨r.frames, .value⟩
  | .afterItem, .comma =>
    match r.frames with
    | .list _ :: _ => some ⟨r.frames, .value⟩
    | .object _ _ :: _ => some ⟨r.frames, .key⟩
    | [] => none
  | .afterItem, .endList => Reader.closeList? r.frames
  | .afterItem, .endObject => Reader.closeObject? r.frames
  | _, _ => none

/-- The value that a list of tokens says. -/
def ofTokens? (tokens : List Token) : Option Term :=
  match tokens.foldlM Reader.step? ⟨[], .value⟩ with
  | some ⟨_, .finish t⟩ => some t
  | _ => none

/-- The value that a text says. -/
def read? (text : String) : Option Term := (Token.scan? text.toList).bind ofTokens?

end Term

namespace Json

/-- The value that a text says. -/
def read? (text : String) : Option Json := (Term.read? text).bind Term.value?

end Json

end CloudInventory

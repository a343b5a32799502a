import CloudInventory.Clock
import CloudInventory.Dict

/-!
A bounded cache whose entries expire. It maps links, which are how one resource names another, to
what is known of the resource behind them. An entry is live until its time has come; one that has
expired is never seen again, whether or not it is still stored. When a new link finds the cache
full, the expired entries go, and only if there are none the one that was touched longest ago.

Every touch has a number of its own. `recency` lists the numbers with their links, oldest first,
and each stored entry knows the number of its last touch. Times are readings of the clock, in
milliseconds.
-/

namespace CloudInventory

/-- A stored entry: a value, when it expires, and the number of its last touch. -/
structure CacheEntry (α : Type) where
  value : α
  expiresAt : Nat
  touched : Nat
  deriving DecidableEq

/-- A cache. -/
structure Cache (α : Type) where
  capacity : Nat
  entries : Dict (CacheEntry α)
  /-- The number and the link of each stored entry's last touch, oldest first. -/
  recency : List (Nat × String)
  /-- The number of the last touch. -/
  clock : Nat
  capacity_pos : 0 < capacity

namespace Cache

variable {α : Type}

/-- The capacity of a cache for which none is chosen. -/
def defaultCapacity : Nat := 8192

/-- A cache without entries; a capacity of zero counts as one. -/
def withCapacity (n : Nat) : Cache α where
  capacity := max n 1
  entries := .empty
  recency := []
  clock := 0
  capacity_pos := by omega

instance : Inhabited (Cache α) := ⟨withCapacity defaultCapacity⟩

/-- An entry can still be seen. -/
def isLive (now : Nat) (e : CacheEntry α) : Bool := now < e.expiresAt

/-- Remove a link. -/
def remove (c : Cache α) (link : String) : Cache α :=
  match c.entries.get? link with
  | none => c
  | some e =>
    { c with
      entries := c.entries.erase link
      recency := c.recency.filter fun r => r.1 ≠ e.touched }

/-- The links of the stored entries that have expired. -/
def expired (c : Cache α) (now : Nat) : List String :=
  (c.entries.toList.filter fun p => !isLive now p.2).map (·.1)

/-- Remove the entries that have expired. -/
def purge (c : Cache α) (now : Nat) : Cache α := (c.expired now).foldl remove c

/-- Remove the entry that was touched longest ago. -/
def evictOldest (c : Cache α) : Cache α :=
  match c.recency with
  | [] => c
  | (_, link) :: rest => { c with entries := c.entries.erase link, recency := rest }

/-- Touch a stored entry and answer its value. -/
def touch (c : Cache α) (link : String) : Option α × Cache α :=
  let clock := c.clock + 1
  match c.entries.get? link with
  | none => (none, { c with clock })
  | some e =>
    (some e.value,
      { c with
        clock
        entries := c.entries.insert link { e with touched := clock }
        recency := (c.recency.filter fun r => r.1 ≠ e.touched) ++ [(clock, link)] })

/-- Make room for a link that is not stored. -/
def makeRoom (c : Cache α) (now : Nat) : Cache α :=
  if c.entries.size < c.capacity then c
  else if c.expired now = [] then c.evictOldest
  else c.purge now

/-- Make room for a link: its own entry goes, or else another one if the cache is full. -/
def roomFor (c : Cache α) (link : String) (now : Nat) : Cache α :=
  if (c.entries.get? link).isSome then c.remove link else c.makeRoom now

/-- List a link with the next number. -/
def number (c : Cache α) (link : String) : Cache α :=
  { c with
    clock := c.clock + 1
    recency := c.recency ++ [(c.clock + 1, link)] }

/-- Store a value under a link, to expire after `ttl`, and whether that has been done. The clock is
asked for the time of expiry when the link has got its number. If it cannot tell that time, the put
breaks off there: the link is listed, and nothing is stored under it. -/
def put (c : Cache α) (link : String) (value : α) (ttl now : Nat) : Bool × Cache α :=
  let numbered := (c.roomFor link now).number link
  if Clock.tells now ttl then
    (true, { numbered with
      entries := numbered.entries.insert link ⟨value, now + ttl, numbered.clock⟩ })
  else (false, numbered)

/-- Look a link up, which touches its entry. -/
def get (c : Cache α) (link : String) (now : Nat) : Option α × Cache α :=
  match c.entries.get? link with
  | none => (none, c)
  | some e => if isLive now e then c.touch link else (none, c.remove link)

/-- How many entries are live. -/
def size (c : Cache α) (now : Nat) : Nat := (c.entries.values.filter (isLive now)).length

/-- No entry is live. -/
def isEmpty (c : Cache α) (now : Nat) : Bool := c.size now = 0

/-- Touch links in turn; the ones that are stored, with their values. -/
def touchAll (c : Cache α) : List String → List (String × α) × Cache α
  | [] => ([], c)
  | link :: links =>
    let (value, c) := c.touch link
    let (rest, c) := touchAll c links
    match value with
    | some value => ((link, value) :: rest, c)
    | none => (rest, c)

/-- Every live entry in the order of the links, which touches them in that order. -/
def listing (c : Cache α) (now : Nat) : List (String × α) × Cache α :=
  let c := c.purge now
  c.touchAll c.entries.keys

end Cache

end CloudInventory

import SocialGraph.Id.Uuid
import SocialGraph.Text.Quoted
import SocialGraph.Text.Space

/-!
# Record identifiers

Users, profiles and posts are keyed by UUIDs. Member tiers are keyed by one of two names,
`basic` and `business`. An identifier is checked when it enters, so a malformed one never
reaches a store: the empty text is refused first, then a text that is not a UUID (or not a tier
name), each with its own message. A UUID's text with white space before or after it is refused
before it is read.

Reading and printing UUIDs is the work of a UUID library (`UuidCodec`): reading a UUID from
text, and printing it hyphenated. The identifiers here are read and printed with any such
library; the program runs with `UuidCodec.standard`.

A record key (`RecordId`) is either kind of identifier. Keys are ordered tier keys first, then
UUID keys, each by its own order; a batch of keys sent to a store is sorted in this order.
-/

namespace SocialGraph

/-- A membership tier. -/
inductive Tier where
  | basic
  | business
  deriving DecidableEq, Repr

namespace Tier

/-- Every tier, in order. -/
def all : List Tier := [basic, business]

/-- The name of a tier. -/
def name : Tier → String
  | basic => "basic"
  | business => "business"

/-- The place of a tier in the order of tiers. -/
def rank : Tier → Nat
  | basic => 0
  | business => 1

instance : Ord Tier := ⟨fun a b => compare a.rank b.rank⟩

end Tier

/-- The kinds of keyed records a store holds. Subscriptions are not keyed, and are reached only
by scanning associations, so they have no kind. -/
inductive RecordKind where
  | memberTier
  | user
  | profile
  | post
  deriving DecidableEq, Repr

namespace RecordKind

/-- Every kind, in order. -/
def all : List RecordKind := [memberTier, user, profile, post]

/-- The name of a kind in store calls and messages. -/
def name : RecordKind → String
  | memberTier => "member_tier"
  | user => "user"
  | profile => "profile"
  | post => "post"

/-- The kind with the given name. -/
def ofName? (s : String) : Option RecordKind := all.find? (·.name == s)

/-- The place of a kind in the order of kinds. -/
def rank : RecordKind → Nat
  | memberTier => 0
  | user => 1
  | profile => 2
  | post => 3

end RecordKind

/-- Why an identifier was refused. -/
inductive IdError where
  | empty
  | invalidUuid (raw : String)
  | unknownTier (raw : String)
  deriving DecidableEq, Repr

/-- The message of a refused identifier. -/
def IdError.message : IdError → String
  | .empty => "identifier must not be empty"
  | .invalidUuid raw => "identifier \"" ++ raw ++ "\" must be a valid UUID"
  | .unknownTier raw =>
    "member type \"" ++ raw ++ "\" is not one of: " ++ ", ".intercalate (Tier.all.map Tier.name)

/-- What the program takes from a UUID library: reading a UUID from text (`parse_str`), and
printing it hyphenated (`hyphenated`). -/
structure UuidCodec where
  parseStr : String → Option Uuid
  hyphenated : Uuid → String

/-- The UUID library the program runs with: it reads the four spellings of `Uuid.parse?` and
prints the lowercase hyphenated spelling. -/
def UuidCodec.standard : UuidCodec := ⟨Uuid.parse?, Uuid.render⟩

/-- Reads the identifier of a user, profile or post with a UUID library. -/
def Uuid.parseIdWith (c : UuidCodec) (raw : String) : Except IdError Uuid :=
  if raw.isEmpty then .error .empty
  else if Text.trim raw != raw then .error (.invalidUuid raw)
  else
    match c.parseStr raw with
    | some u => .ok u
    | none => .error (.invalidUuid raw)

/-- Reads the identifier of a user, profile or post. -/
def Uuid.parseId (raw : String) : Except IdError Uuid := Uuid.parseIdWith .standard raw

/-- Reads the identifier of a tier: exactly its name. -/
def Tier.parseId (raw : String) : Except IdError Tier :=
  if raw.isEmpty then .error .empty
  else
    match Tier.all.find? (·.name == raw) with
    | some t => .ok t
    | none => .error (.unknownTier raw)

/-- The key of a record within its kind. -/
inductive RecordId where
  | tier (t : Tier)
  | entity (u : Uuid)
  deriving DecidableEq

namespace RecordId

/-- Reads a key in the format of a kind with a UUID library: a tier name for tiers, a UUID
otherwise. -/
def parseWith (c : UuidCodec) (kind : RecordKind) (raw : String) : Except IdError RecordId :=
  match kind with
  | .memberTier => tier <$> Tier.parseId raw
  | .user | .profile | .post => entity <$> Uuid.parseIdWith c raw

/-- The printed form of a key, with a UUID library. -/
def renderWith (c : UuidCodec) : RecordId → String
  | tier t => t.name
  | entity u => c.hyphenated u

/-- Reads a key in the format of a kind. -/
def parse (kind : RecordKind) (raw : String) : Except IdError RecordId :=
  parseWith .standard kind raw

/-- The printed form of a key. -/
def render (id : RecordId) : String := renderWith .standard id

/-- Keys in order: tiers before UUIDs. -/
def order : RecordId → RecordId → Ordering
  | tier a, tier b => compare a b
  | tier _, entity _ => .lt
  | entity _, tier _ => .gt
  | entity a, entity b => compare a b

instance : Ord RecordId := ⟨order⟩

end RecordId

end SocialGraph

import SocialGraph.Id.Basic
import SocialGraph.Json.Basic

/-!
# Records

The records a store holds: member tiers, users, profiles and posts, each keyed, and
subscriptions, which are unkeyed rows linking a subscriber to an author. A `Record` is any
keyed record; it knows its kind, its key, and the value of each of its scalar columns by the
column's name in responses. Foreign keys are plain identifiers: nothing checks that they point
at a record.
-/

namespace SocialGraph

/-- A membership tier: its discount in percent and how many posts it allows a month. -/
structure MemberTier where
  id : Tier
  discount : Float
  postsLimitPerMonth : Nat

/-- A registered user. -/
structure User where
  id : Uuid
  name : String
  balance : Float

/-- The profile of a user; a user has at most one. -/
structure Profile where
  id : Uuid
  isMale : Bool
  yearOfBirth : Int
  userId : Uuid
  memberTypeId : Tier

/-- A post written by a user. -/
structure Post where
  id : Uuid
  title : String
  content : String
  authorId : Uuid

/-- A row saying that `subscriberId` follows `authorId`. -/
structure Subscription where
  subscriberId : Uuid
  authorId : Uuid

/-- Any keyed record. -/
inductive Record where
  | memberTier (t : MemberTier)
  | user (u : User)
  | profile (p : Profile)
  | post (p : Post)

namespace Record

/-- The kind of a record. -/
def kind : Record → RecordKind
  | memberTier _ => .memberTier
  | user _ => .user
  | profile _ => .profile
  | post _ => .post

/-- The key of a record. -/
def id : Record → RecordId
  | memberTier t => .tier t.id
  | user u => .entity u.id
  | profile p => .entity p.id
  | post p => .entity p.id

/-- The value of a scalar column, by its name in responses; `none` when the record has no such
column. -/
def scalar : Record → String → Option Json
  | memberTier t, "id" => some (.str t.id.name)
  | memberTier t, "discount" => some (.ofDouble t.discount)
  | memberTier t, "postsLimitPerMonth" => some (.num (.unsigned t.postsLimitPerMonth))
  | user u, "id" => some (.str u.id.render)
  | user u, "name" => some (.str u.name)
  | user u, "balance" => some (.ofDouble u.balance)
  | profile p, "id" => some (.str p.id.render)
  | profile p, "isMale" => some (.bool p.isMale)
  | profile p, "yearOfBirth" => some (.num (.ofInt p.yearOfBirth))
  | profile p, "userId" => some (.str p.userId.render)
  | profile p, "memberTypeId" => some (.str p.memberTypeId.name)
  | post p, "id" => some (.str p.id.render)
  | post p, "title" => some (.str p.title)
  | post p, "content" => some (.str p.content)
  | post p, "authorId" => some (.str p.authorId.render)
  | _, _ => none

end Record

end SocialGraph

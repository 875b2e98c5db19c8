import SocialGraph.Record.Basic
import SocialGraph.Json.Decode

/-!
# Datasets

A dataset is the records of a store grouped by kind, as a JSON object with the members
`memberTypes`, `users`, `profiles`, `posts` and `subscriptions`. Each member may be left out
and then stands for an empty list; any other member is refused. The records themselves ignore
members they do not declare. The same dataset may also be written as an array of the five
lists, in that order.

Reading goes in two steps: the JSON is decoded at the dataset's shape (`Dataset.shape`), which
makes every refusal exactly as the shape rules give it, and the decoded value, which then has
every field present and well typed, is turned into records.
-/

namespace SocialGraph

/-- The records of a store, grouped by kind, each list in the order given. -/
structure Dataset where
  memberTypes : List MemberTier
  users : List User
  profiles : List Profile
  posts : List Post
  subscriptions : List Subscription

namespace Dataset

/-- The dataset with no records. -/
def empty : Dataset := ⟨[], [], [], [], []⟩

/-! ### Shapes -/

/-- The refusal of an identifier, as a check on a string. -/
def idCheck {α : Type} (parse : String → Except IdError α) (s : String) : Option String :=
  match parse s with
  | .ok _ => none
  | .error e => some e.message

/-- A UUID-keyed identifier field. -/
def uuidShape : Json.Expect := .string (idCheck Uuid.parseId)

/-- A tier identifier field. -/
def tierShape : Json.Expect := .string (idCheck Tier.parseId)

/-- A record whose fields are all required and whose undeclared members are ignored. -/
def recordShape (name : String) (fields : List (String × Json.Expect)) : Json.Expect :=
  .record name (fields.map fun (n, e) => (n, e, none)) false

/-- The shape of a member tier. -/
def memberTierShape : Json.Expect :=
  recordShape "MemberTier" [("id", tierShape), ("discount", .float), ("postsLimitPerMonth", .unsigned32)]

/-- The shape of a user. -/
def userShape : Json.Expect :=
  recordShape "User" [("id", uuidShape), ("name", .text), ("balance", .float)]

/-- The shape of a profile. -/
def profileShape : Json.Expect :=
  recordShape "Profile" [("id", uuidShape), ("isMale", .boolean), ("yearOfBirth", .signed32),
    ("userId", uuidShape), ("memberTypeId", tierShape)]

/-- The shape of a post. -/
def postShape : Json.Expect :=
  recordShape "Post" [("id", uuidShape), ("title", .text), ("content", .text), ("authorId", uuidShape)]

/-- The shape of a subscription. -/
def subscriptionShape : Json.Expect :=
  recordShape "Subscription" [("subscriberId", uuidShape), ("authorId", uuidShape)]

/-- The shape of a dataset: five lists, each empty when left out, and nothing else. -/
def shape : Json.Expect :=
  .record "Dataset"
    [("memberTypes", .list memberTierShape, some (.arr [])),
     ("users", .list userShape, some (.arr [])),
     ("profiles", .list profileShape, some (.arr [])),
     ("posts", .list postShape, some (.arr [])),
     ("subscriptions", .list subscriptionShape, some (.arr []))] true

/-! ### From decoded values to records -/

/-- A member of a decoded record. -/
def member (j : Json) (key : String) : Option Json := j.get? key

/-- A UUID member of a decoded record. -/
def uuidMember (j : Json) (key : String) : Option Uuid :=
  ((member j key).bind Json.getStr?).bind fun s => (Uuid.parseId s).toOption

/-- A tier member of a decoded record. -/
def tierMember (j : Json) (key : String) : Option Tier :=
  ((member j key).bind Json.getStr?).bind fun s => (Tier.parseId s).toOption

/-- A string member of a decoded record. -/
def stringMember (j : Json) (key : String) : Option String := (member j key).bind Json.getStr?

/-- A member tier from its decoded value. -/
def memberTierOf (j : Json) : Option MemberTier := do
  let n ← (member j "postsLimitPerMonth").bind Json.getInt?
  return ⟨← tierMember j "id", ← (member j "discount").bind Json.getFloat?, n.toNat⟩

/-- A user from its decoded value. -/
def userOf (j : Json) : Option User := do
  return ⟨← uuidMember j "id", ← stringMember j "name", ← (member j "balance").bind Json.getFloat?⟩

/-- A profile from its decoded value. -/
def profileOf (j : Json) : Option Profile := do
  return ⟨← uuidMember j "id", ← (member j "isMale").bind Json.getBool?,
    ← (member j "yearOfBirth").bind Json.getInt?, ← uuidMember j "userId",
    ← tierMember j "memberTypeId"⟩

/-- A post from its decoded value. -/
def postOf (j : Json) : Option Post := do
  return ⟨← uuidMember j "id", ← stringMember j "title", ← stringMember j "content",
    ← uuidMember j "authorId"⟩

/-- A subscription from its decoded value. -/
def subscriptionOf (j : Json) : Option Subscription := do
  return ⟨← uuidMember j "subscriberId", ← uuidMember j "authorId"⟩

/-- The records of one decoded list. -/
def listOf {α : Type} (j : Json) (key : String) (f : Json → Option α) : Option (List α) :=
  ((member j key).bind Json.getArr?).bind (·.mapM f)

/-- A dataset from its decoded value. -/
def ofDecoded (j : Json) : Option Dataset := do
  return ⟨← listOf j "memberTypes" memberTierOf, ← listOf j "users" userOf,
    ← listOf j "profiles" profileOf, ← listOf j "posts" postOf,
    ← listOf j "subscriptions" subscriptionOf⟩

/-- The turning of a decoded value into records, which cannot fail on a value of the shape. -/
def finish (decoded : Except Json.Error Json) : Except Json.Error Dataset := do
  match ofDecoded (← decoded) with
  | some d => .ok d
  | none => .error ⟨.custom "dataset does not have the shape of a dataset", none⟩

/-- Reads a dataset from a JSON value. -/
def ofJson (v : Json) : Except Json.Error Dataset :=
  finish ((shape.decodeValue v).mapError fun f => ⟨f, none⟩)

/-- Reads a dataset from JSON text. -/
def ofText (s : String) : Except Json.Error Dataset := finish (shape.decodeDocument s)

/-! ### Back to JSON -/

/-- The JSON form of a member tier. -/
def memberTierJson (t : MemberTier) : Json :=
  .obj [("id", .str t.id.name), ("discount", .ofDouble t.discount),
    ("postsLimitPerMonth", .num (.unsigned t.postsLimitPerMonth))]

/-- The JSON form of a user. -/
def userJson (u : User) : Json :=
  .obj [("id", .str u.id.render), ("name", .str u.name), ("balance", .ofDouble u.balance)]

/-- The JSON form of a profile. -/
def profileJson (p : Profile) : Json :=
  .obj [("id", .str p.id.render), ("isMale", .bool p.isMale),
    ("yearOfBirth", .num (.ofInt p.yearOfBirth)), ("userId", .str p.userId.render),
    ("memberTypeId", .str p.memberTypeId.name)]

/-- The JSON form of a post. -/
def postJson (p : Post) : Json :=
  .obj [("id", .str p.id.render), ("title", .str p.title), ("content", .str p.content),
    ("authorId", .str p.authorId.render)]

/-- The JSON form of a subscription. -/
def subscriptionJson (s : Subscription) : Json :=
  .obj [("subscriberId", .str s.subscriberId.render), ("authorId", .str s.authorId.render)]

/-- The JSON form of a dataset. -/
def toJson (d : Dataset) : Json :=
  .obj [("memberTypes", .arr (d.memberTypes.map memberTierJson)),
    ("users", .arr (d.users.map userJson)),
    ("profiles", .arr (d.profiles.map profileJson)),
    ("posts", .arr (d.posts.map postJson)),
    ("subscriptions", .arr (d.subscriptions.map subscriptionJson))]

end Dataset

end SocialGraph

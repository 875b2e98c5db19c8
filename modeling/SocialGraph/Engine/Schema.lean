import SocialGraph.Id.Basic

/-!
# The schema

The object types a query can reach, and the fields of each. The root type `Query` has a list
field and a look-up field for every kind of record. A member type, user, profile or post has
its scalar columns and its relations: a profile's member type, a user's profile, posts and
subscriptions in both directions, and a post's author. Every type answers `__typename`.

Each field says how it is resolved, what it gives (a leaf value, one object, or a list of
objects) and whether it may be null. Scalars and `__typename` are never null; the root fields
and the relations are nullable, except a post's author.
-/

namespace SocialGraph

/-- The object types. -/
inductive ObjectType where
  | query
  | memberType
  | user
  | profile
  | post
  deriving DecidableEq, Repr

/-- The relations between records that fields follow. -/
inductive Relation where
  | profileMemberType
  | userProfile
  | userPosts
  | userSubscribedTo
  | userSubscribedFrom
  | postAuthor
  deriving DecidableEq, Repr

/-- How a field is resolved. -/
inductive FieldResolver where
  | typename
  | scalar
  | relation (r : Relation)
  | rootList (kind : RecordKind)
  | rootLookup (kind : RecordKind)
  deriving DecidableEq, Repr

/-- What a field gives. -/
inductive Shape where
  | leaf
  | object (t : ObjectType)
  | list (t : ObjectType)
  deriving DecidableEq, Repr

/-- A field of an object type. -/
structure FieldDef where
  resolver : FieldResolver
  shape : Shape
  nullable : Bool
  deriving DecidableEq, Repr

namespace FieldDef

/-- A scalar column. -/
def scalar : FieldDef := ⟨.scalar, .leaf, false⟩

/-- The list of every record of a kind. -/
def rootList (kind : RecordKind) (t : ObjectType) : FieldDef := ⟨.rootList kind, .list t, true⟩

/-- The record of a key of a kind. -/
def rootLookup (kind : RecordKind) (t : ObjectType) : FieldDef := ⟨.rootLookup kind, .object t, true⟩

end FieldDef

namespace ObjectType

/-- The name of an object type. -/
def name : ObjectType → String
  | query => "Query"
  | memberType => "MemberType"
  | user => "User"
  | profile => "Profile"
  | post => "Post"

/-- The field of a type with a given name. -/
def field (t : ObjectType) (name : String) : Option FieldDef :=
  if name == "__typename" then some ⟨.typename, .leaf, false⟩
  else
    match t, name with
    | query, "memberTypes" => some (.rootList .memberTier memberType)
    | query, "users" => some (.rootList .user user)
    | query, "profiles" => some (.rootList .profile profile)
    | query, "posts" => some (.rootList .post post)
    | query, "memberType" => some (.rootLookup .memberTier memberType)
    | query, "user" => some (.rootLookup .user user)
    | query, "profile" => some (.rootLookup .profile profile)
    | query, "post" => some (.rootLookup .post post)
    | memberType, "id" | memberType, "discount" | memberType, "postsLimitPerMonth" =>
      some .scalar
    | user, "id" | user, "name" | user, "balance" => some .scalar
    | user, "profile" => some ⟨.relation .userProfile, .object profile, true⟩
    | user, "posts" => some ⟨.relation .userPosts, .list post, true⟩
    | user, "subscribedTo" => some ⟨.relation .userSubscribedTo, .list user, true⟩
    | user, "subscribedFrom" => some ⟨.relation .userSubscribedFrom, .list user, true⟩
    | profile, "id" | profile, "isMale" | profile, "yearOfBirth" | profile, "userId"
    | profile, "memberTypeId" => some .scalar
    | profile, "memberType" => some ⟨.relation .profileMemberType, .object memberType, true⟩
    | post, "id" | post, "title" | post, "content" | post, "authorId" => some .scalar
    | post, "author" => some ⟨.relation .postAuthor, .object user, false⟩
    | _, _ => none

end ObjectType

end SocialGraph

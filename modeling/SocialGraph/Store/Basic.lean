import SocialGraph.Record.Dataset

/-!
# The record store

A store holds the keyed records of a dataset, in the order they were loaded (member tiers,
then users, profiles and posts, each in the dataset's order), and its subscription rows. It
answers five questions: the record of a key, the records of several keys, every record of a
kind, the records of a kind whose foreign key holds a value, and the subscription rows with a
given user at one end. Scans answer in load order.

Each kind has a table: its rows, and an index from the key of each row to its position. Loading
files the records one after another into the tables of their kinds, and refuses a dataset in
which two records of one kind share a key: it stops at the first record whose key its table's
index holds already, and reports that record.
-/

namespace SocialGraph

/-- A foreign-key column that can be scanned: the user of a profile, or the author of a post. -/
inductive ForeignKey where
  | profileUser
  | postAuthor
  deriving DecidableEq, Repr

namespace ForeignKey

/-- The kind of the records that hold the column. -/
def kind : ForeignKey → RecordKind
  | profileUser => .profile
  | postAuthor => .post

/-- The column's name, qualified by its record. -/
def name : ForeignKey → String
  | profileUser => "profile.userId"
  | postAuthor => "post.authorId"

/-- Whether a record's column holds a key. -/
def holds (fk : ForeignKey) (r : Record) (value : RecordId) : Bool :=
  match fk, r with
  | profileUser, .profile p => RecordId.entity p.userId == value
  | postAuthor, .post p => RecordId.entity p.authorId == value
  | _, _ => false

end ForeignKey

/-- An end of a subscription row: the subscriber, or the author followed. -/
inductive SubscriptionEnd where
  | subscriber
  | author
  deriving DecidableEq, Repr

namespace SubscriptionEnd

/-- The name of an end. -/
def name : SubscriptionEnd → String
  | subscriber => "subscriber"
  | author => "author"

/-- The user at this end of a row. -/
def user : SubscriptionEnd → Subscription → Uuid
  | subscriber, s => s.subscriberId
  | author, s => s.authorId

end SubscriptionEnd

/-- Why a dataset could not be loaded into a store. -/
inductive LoadError where
  /-- Two records of one kind have the same key. -/
  | duplicateId (kind : RecordKind) (id : RecordId)

/-- The message of a load error. -/
def LoadError.message : LoadError → String
  | .duplicateId k i => "dataset contains duplicate " ++ k.name ++ " id " ++ i.render

/-- The table of one kind: its rows in load order, and its index, which sends the key of each
row to the row's position. The index is the table's hash map read as the list of its entries;
an entry filed later stands after the earlier ones. A table holds records of its own kind
only. -/
structure Table (kind : RecordKind) where
  rows : List Record
  index : List (RecordId × Nat)
  kinded : ∀ r ∈ rows, r.kind = kind

namespace Table

variable {kind : RecordKind}

theorem kinded_nil : ∀ r ∈ ([] : List Record), r.kind = kind :=
  fun _ h => absurd h List.not_mem_nil

theorem kinded_append {rows : List Record} (h : ∀ r ∈ rows, r.kind = kind) {r : Record}
    (hr : r.kind = kind) : ∀ x ∈ rows ++ [r], x.kind = kind := by
  intro x hx
  cases List.mem_append.mp hx with
  | inl hx => exact h x hx
  | inr hx =>
    rw [List.mem_singleton.mp hx]
    exact hr

/-- The table with no rows. -/
def empty : Table kind := ⟨[], [], kinded_nil⟩

/-- The row of a key: the position the index holds for it, then the row at that position. -/
def get (t : Table kind) (id : RecordId) : Option Record :=
  (t.index.lookup id).bind fun pos => t.rows[pos]?

/-- Files a record of the table's kind, as loading does: its key goes into the index at the
position the row will take, and a key the index held already stops loading with the duplicate;
otherwise the row is pushed. -/
def file (t : Table kind) (r : Record) (hr : r.kind = kind) : Except LoadError (Table kind) :=
  match t.index.lookup r.id with
  | some _ => .error (.duplicateId r.kind r.id)
  | none => .ok ⟨t.rows ++ [r], t.index ++ [(r.id, t.rows.length)], kinded_append t.kinded hr⟩

end Table

/-- The tables of a store, one per kind; a kind that no record was filed under has the empty
table. -/
structure Tables where
  memberTier : Table .memberTier
  user : Table .user
  profile : Table .profile
  post : Table .post

namespace Tables

/-- Every kind with the empty table. -/
def empty : Tables := ⟨.empty, .empty, .empty, .empty⟩

/-- The table of a kind. -/
def get (ts : Tables) : (kind : RecordKind) → Table kind
  | .memberTier => ts.memberTier
  | .user => ts.user
  | .profile => ts.profile
  | .post => ts.post

/-- Puts a table in place of a kind's table. -/
def set (ts : Tables) : (kind : RecordKind) → Table kind → Tables
  | .memberTier, t => { ts with memberTier := t }
  | .user, t => { ts with user := t }
  | .profile, t => { ts with profile := t }
  | .post, t => { ts with post := t }

end Tables

/-- The tables of the keyed records of a dataset and its subscription rows. -/
structure Store where
  tables : Tables
  subscriptions : List Subscription

namespace Store

/-- The keyed records of a dataset in load order. -/
def recordsOf (d : Dataset) : List Record :=
  d.memberTypes.map .memberTier ++ d.users.map .user ++ d.profiles.map .profile ++
    d.posts.map .post

/-- Files records one after another into the tables of their kinds, stopping at the first whose
key its table holds already. -/
def fileAll (ts : Tables) : List Record → Except LoadError Tables
  | [] => .ok ts
  | r :: rest => do
    let t ← (ts.get r.kind).file r rfl
    fileAll (ts.set r.kind t) rest

/-- Loads a dataset, refusing repeated keys. -/
def ofDataset (d : Dataset) : Except LoadError Store :=
  (fileAll .empty (recordsOf d)).map fun ts => ⟨ts, d.subscriptions⟩

/-- The number of keyed records, over the tables of all kinds. -/
def size (s : Store) : Nat := RecordKind.all.foldr (fun k n => (s.tables.get k).rows.length + n) 0

/-- The records of a kind, in load order. -/
def rows (s : Store) (kind : RecordKind) : List Record := (s.tables.get kind).rows

/-- The record of a key, found through its kind's index. -/
def get (s : Store) (kind : RecordKind) (id : RecordId) : Option Record :=
  (s.tables.get kind).get id

/-- The records of several keys, each with the key asked for; keys without a record are left
out. -/
def getMany (s : Store) (kind : RecordKind) (ids : List RecordId) : List (RecordId × Record) :=
  ids.filterMap fun id => (s.get kind id).map (id, ·)

/-- The records of a kind whose foreign key holds a value, in load order. -/
def scanByForeignKey (s : Store) (fk : ForeignKey) (value : RecordId) : List Record :=
  (s.rows fk.kind).filter (fk.holds · value)

/-- The subscription rows with a user at one end, in load order. -/
def scanAssociation (s : Store) (e : SubscriptionEnd) (user : Uuid) : List Subscription :=
  s.subscriptions.filter (e.user · == user)

end Store

end SocialGraph

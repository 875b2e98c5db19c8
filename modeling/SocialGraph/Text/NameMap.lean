/-!
# Maps keyed by names

Arguments, object values and variables are looked up by name, and where they are listed they
come out sorted by name, one entry per name. Such a map is held as a list of entries sorted by
name; putting an entry whose name is already there replaces the old entry. Names are ordered by
their characters' code points, which is also the order of their UTF-8 bytes.
-/

namespace SocialGraph.NameMap

/-- Puts an entry into a list sorted by name, replacing an entry of the same name. -/
def insert {α : Type} (key : String) (v : α) : List (String × α) → List (String × α)
  | [] => [(key, v)]
  | (k, w) :: rest =>
    if key < k then (key, v) :: (k, w) :: rest
    else if key = k then (key, v) :: rest
    else (k, w) :: insert key v rest

/-- The entries sorted by name, the last of each name kept. -/
def ofList {α : Type} (entries : List (String × α)) : List (String × α) :=
  entries.foldl (fun acc (k, v) => insert k v acc) []

end SocialGraph.NameMap

import SocialGraph.Engine.Cache

/-!
# The order of record keys

A window of keys is sent to the store sorted, one key once: `insertKey` puts a key into a
sorted list unless it is there. That rests on the order of keys being a strict total order,
which is proved here from the orders it is built of: tiers by rank, UUIDs by their digits
compared lexicographically (which is the standard comparison of digit lists), and tiers
before UUIDs.

The main facts are `mem_insertKey` (inserting adds exactly the key) and `sorted_insertKey`
(inserting keeps a list strictly sorted), and their consequences for a list of keys built by
inserting one key after another (`mem_insertKeys`, `sorted_insertKeys`): it holds each key
once, and nothing else.
-/

namespace SocialGraph

open Std

/-- Digits compare as lists of digits do. -/
theorem Uuid.compareDigits_eq_compare (ds es : List (Fin 16)) :
    Uuid.compareDigits ds es = compare ds es := by
  induction ds generalizing es with
  | nil => cases es <;> rfl
  | cons d ds ih =>
    cases es with
    | nil => rfl
    | cons e es =>
      rw [List.compare_cons_cons, Uuid.compareDigits, ← ih]
      show _ = (compare d.val e.val).then _
      cases compare d.val e.val <;> rfl

namespace RecordId

theorem order_tier_tier (a b : Tier) : order (.tier a) (.tier b) = compare a.rank b.rank :=
  rfl

theorem order_entity_entity (a b : Uuid) :
    order (.entity a) (.entity b) = compare a.digits b.digits :=
  Uuid.compareDigits_eq_compare a.digits b.digits

instance : OrientedCmp order where
  eq_swap {a b} := by
    cases a <;> cases b
    · simp only [order_tier_tier]
      exact OrientedCmp.eq_swap
    · rfl
    · rfl
    · simp only [order_entity_entity]
      exact OrientedCmp.eq_swap

instance : TransCmp order where
  isLE_trans {a b c} hab hbc := by
    -- tiers come before UUIDs, and each kind of key is ordered by its own comparison
    cases a with
    | tier a =>
      cases c with
      | entity c => rfl
      | tier c =>
        cases b with
        | tier b =>
          simp only [order_tier_tier] at hab hbc ⊢
          exact TransCmp.isLE_trans hab hbc
        | entity b => simp [order] at hbc
    | entity a =>
      cases b with
      | tier b => simp [order] at hab
      | entity b =>
        cases c with
        | tier c => simp [order] at hbc
        | entity c =>
          simp only [order_entity_entity] at hab hbc ⊢
          exact TransCmp.isLE_trans hab hbc

instance : LawfulEqCmp order where
  eq_of_compare {a b} h := by
    cases a with
    | tier a =>
      cases b with
      | tier b =>
        rw [order_tier_tier] at h
        have hr : a.rank = b.rank := LawfulEqCmp.eq_of_compare h
        cases a <;> cases b <;> simp_all [Tier.rank]
      | entity b => simp [order] at h
    | entity a =>
      cases b with
      | tier b => simp [order] at h
      | entity b =>
        rw [order_entity_entity] at h
        have hd : a.digits = b.digits := LawfulEqCmp.eq_of_compare h
        obtain ⟨da, _⟩ := a
        obtain ⟨db, _⟩ := b
        subst hd
        rfl

end RecordId

/-! ### Inserting keys -/

/-- A list of keys in strictly increasing order. -/
def KeysSorted (ids : List RecordId) : Prop :=
  ids.Pairwise fun a b => RecordId.order a b = .lt

/-- Inserting adds the key and nothing else. -/
theorem mem_insertKey {x id : RecordId} {ids : List RecordId} :
    x ∈ insertKey id ids ↔ x = id ∨ x ∈ ids := by
  induction ids with
  | nil => simp [insertKey]
  | cons k ks ih =>
    rw [insertKey]
    split
    · simp
    · next heq =>
      have hk : id = k := LawfulEqCmp.eq_of_compare heq
      subst hk
      simp
    · rw [List.mem_cons, ih, List.mem_cons]
      exact or_left_comm

/-- Inserting into a strictly sorted list keeps it strictly sorted. -/
theorem sorted_insertKey (id : RecordId) {ids : List RecordId} (h : KeysSorted ids) :
    KeysSorted (insertKey id ids) := by
  induction ids with
  | nil => simp [insertKey, KeysSorted]
  | cons k ks ih =>
    obtain ⟨hk, hks⟩ := List.pairwise_cons.mp h
    rw [insertKey]
    split
    · next hlt =>
      refine List.pairwise_cons.mpr ⟨?_, h⟩
      intro x hx
      rcases List.mem_cons.mp hx with rfl | hx
      · exact hlt
      · exact TransCmp.lt_trans hlt (hk x hx)
    · exact h
    · next hgt =>
      refine List.pairwise_cons.mpr ⟨?_, ih hks⟩
      intro x hx
      rcases mem_insertKey.mp hx with rfl | hx
      · exact OrientedCmp.gt_iff_lt.mp hgt
      · exact hk x hx

/-- The keys built by inserting one key after another into a sorted list. -/
theorem mem_insertKeys {x : RecordId} (ids acc : List RecordId) :
    x ∈ ids.foldl (fun acc id => insertKey id acc) acc ↔ x ∈ acc ∨ x ∈ ids := by
  induction ids generalizing acc with
  | nil => simp
  | cons id ids ih =>
    rw [List.foldl_cons, ih, mem_insertKey, List.mem_cons, or_assoc]
    exact or_left_comm

theorem sorted_insertKeys (ids : List RecordId) {acc : List RecordId} (h : KeysSorted acc) :
    KeysSorted (ids.foldl (fun acc id => insertKey id acc) acc) := by
  induction ids generalizing acc with
  | nil => exact h
  | cons id ids ih => exact ih (sorted_insertKey id h)

/-- A strictly sorted list holds each key once. -/
theorem KeysSorted.nodup {ids : List RecordId} (h : KeysSorted ids) : ids.Nodup :=
  h.imp fun hlt heq => by
    subst heq
    simp [ReflCmp.compare_self] at hlt

end SocialGraph

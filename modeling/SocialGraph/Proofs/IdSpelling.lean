import SocialGraph.Proofs.PrunedValues
import SocialGraph.Text.Space

/-!
# Printing and reading record keys

A key is printed in one spelling and read from several. A tier is printed and read as its name
and nothing else. A UUID is printed and read by the UUID library (`UuidCodec`), after the key's
text has been checked to be non-empty and its own trimmed text.

What the program relies on of its UUID library is what the library documents
(`UuidCodec.Documented`): a UUID is printed in its canonical spelling (`Uuid.IsCanonical`: 36
characters, hyphens after the 8th, 12th, 16th and 20th digit, lowercase hex digits elsewhere),
and that spelling reads back as the same UUID. From this alone, with any such library, printing
then reading gives a key back, and no text that is empty or has white space before or after it
is read as a key (`record_id_spelling_round_trip`). The library the program runs with, which
reads hyphenated, simple, braced and `urn:uuid:` spellings in either letter case, does what is
documented (`UuidCodec.documented_standard`).

Its printed spelling is laid out by `Uuid.hyphenate`, which puts hyphens between the groups of
8, 4, 4, 4 and 12 digits. Every fact about it comes from one lemma that says where each of its
characters stands (`Uuid.mem_zipIdx_hyphenate`).
-/

namespace SocialGraph

namespace Uuid

/-! ### Hex digits -/

/-- A lowercase hex digit. -/
def IsLowerHex (c : Char) : Prop := ('0' ≤ c ∧ c ≤ '9') ∨ ('a' ≤ c ∧ c ≤ 'f')

theorem hexDigit?_hexChar : ∀ d : Fin 16, hexDigit? (hexChar d) = some d := by decide

theorem hexChar_ne_hyphen : ∀ d : Fin 16, hexChar d ≠ '-' := by decide

theorem isLowerHex_hexChar : ∀ d : Fin 16, IsLowerHex (hexChar d) := by
  unfold IsLowerHex
  decide

theorem toNat_hexChar_lt : ∀ d : Fin 16, (hexChar d).toNat < 128 := by decide

theorem hexRun_map_hexChar (ds : List (Fin 16)) : hexRun (ds.map hexChar) = some ds := by
  rw [hexRun, List.mapM_map]
  have hsome : hexDigit? ∘ hexChar = pure := funext hexDigit?_hexChar
  rw [hsome, List.mapM_pure, List.map_id']
  rfl

/-! ### The hyphenated layout -/

/-- Characters laid out in groups of 8, 4, 4, 4 and the rest, with a hyphen between groups. -/
def hyphenate (cs : List Char) : List Char :=
  cs.take 8 ++ '-' :: ((cs.drop 8).take 4 ++ '-' :: ((cs.drop 12).take 4 ++ '-' ::
    ((cs.drop 16).take 4 ++ '-' :: cs.drop 20)))

/-- Where the hyphens of the hyphenated spelling stand. -/
def hyphenPlaces : List Nat := [8, 13, 18, 23]

theorem toList_render (u : Uuid) : u.render.toList = hyphenate (u.digits.map hexChar) := by
  simp [render, hyphenate]

theorem length_hyphenate {cs : List Char} (h : cs.length = 32) : (hyphenate cs).length = 36 := by
  simp only [hyphenate, List.length_append, List.length_cons, List.length_take, List.length_drop, h]
  omega

/-- The hyphenated layout of 32 characters: each character is a hyphen at one of the hyphens'
places, or one of the characters laid out at another place. -/
theorem mem_zipIdx_hyphenate {cs : List Char} (h : cs.length = 32) {c : Char} {i : Nat}
    (hc : (c, i) ∈ (hyphenate cs).zipIdx) :
    (c = '-' ∧ i ∈ hyphenPlaces) ∨ (c ∈ cs ∧ i ∉ hyphenPlaces ∧ i < 36) := by
  simp only [hyphenate, List.zipIdx_append, List.zipIdx_cons, List.mem_append, List.mem_cons,
    Prod.mk.injEq, List.length_take, List.length_drop, h] at hc
  -- a character of one of the five groups stands within the group's span, clear of hyphens
  have group : ∀ {seg : List Char} {k : Nat}, (c, i) ∈ seg.zipIdx k → seg ⊆ cs →
      (∀ j, k ≤ j → j < k + seg.length → j ∉ hyphenPlaces ∧ j < 36) →
      (c = '-' ∧ i ∈ hyphenPlaces) ∨ (c ∈ cs ∧ i ∉ hyphenPlaces ∧ i < 36) := by
    intro seg k hseg hsub hspan
    obtain ⟨hk, hi, -⟩ := List.mem_zipIdx hseg
    exact .inr ⟨hsub (List.fst_mem_of_mem_zipIdx hseg), hspan i hk hi⟩
  have hyphen : ∀ {j : Nat}, j ∈ hyphenPlaces → c = '-' → i = j →
      (c = '-' ∧ i ∈ hyphenPlaces) ∨ (c ∈ cs ∧ i ∉ hyphenPlaces ∧ i < 36) := by
    rintro j hj rfl rfl
    exact .inl ⟨rfl, hj⟩
  have inTake : ∀ {n m x}, x ∈ (cs.drop n).take m → x ∈ cs :=
    fun hx ↦ List.mem_of_mem_drop (List.mem_of_mem_take hx)
  rcases hc with hc | ⟨hc, hi⟩ | hc | ⟨hc, hi⟩ | hc | ⟨hc, hi⟩ | hc | ⟨hc, hi⟩ | hc
  · refine group hc (fun _ hx ↦ List.mem_of_mem_take hx) fun j hk hj ↦ ?_
    simp only [List.length_take, h, hyphenPlaces, List.mem_cons, List.not_mem_nil,
      or_false] at hj ⊢
    omega
  · exact hyphen (by simp [hyphenPlaces]) hc hi
  · refine group hc (fun _ hx ↦ inTake hx) fun j hk hj ↦ ?_
    simp only [List.length_take, List.length_drop, h, hyphenPlaces, List.mem_cons,
      List.not_mem_nil, or_false] at hk hj ⊢
    omega
  · exact hyphen (by simp [hyphenPlaces]) hc hi
  · refine group hc (fun _ hx ↦ inTake hx) fun j hk hj ↦ ?_
    simp only [List.length_take, List.length_drop, h, hyphenPlaces, List.mem_cons,
      List.not_mem_nil, or_false] at hk hj ⊢
    omega
  · exact hyphen (by simp [hyphenPlaces]) hc hi
  · refine group hc (fun _ hx ↦ inTake hx) fun j hk hj ↦ ?_
    simp only [List.length_take, List.length_drop, h, hyphenPlaces, List.mem_cons,
      List.not_mem_nil, or_false] at hk hj ⊢
    omega
  · exact hyphen (by simp [hyphenPlaces]) hc hi
  · refine group hc (fun _ hx ↦ List.mem_of_mem_drop hx) fun j hk hj ↦ ?_
    simp only [List.length_drop, h, hyphenPlaces, List.mem_cons, List.not_mem_nil,
      or_false] at hk hj ⊢
    omega

theorem mem_hyphenate {cs : List Char} (h : cs.length = 32) {c : Char} (hc : c ∈ hyphenate cs) :
    c = '-' ∨ c ∈ cs := by
  obtain ⟨i, hi⟩ := List.mem_iff_getElem?.mp hc
  have hplace := mem_zipIdx_hyphenate h (List.mk_mem_zipIdx_iff_getElem?.mpr hi)
  rcases hplace with ⟨hc, -⟩ | ⟨hc, -⟩
  · exact .inl hc
  · exact .inr hc

/-- Taking the hyphens out of the layout gives back what was laid out. -/
theorem filter_hyphenate {cs : List Char} (hcs : '-' ∉ cs) :
    (hyphenate cs).filter (· != '-') = cs := by
  have keep : ∀ {seg : List Char}, seg ⊆ cs → seg.filter (· != '-') = seg := fun hseg ↦
    List.filter_eq_self.mpr fun c hc ↦ by
      have hne : c ≠ '-' := fun h ↦ hcs (h ▸ hseg hc)
      simpa using hne
  have inTake : ∀ n m, (cs.drop n).take m ⊆ cs :=
    fun _ _ _ hx ↦ List.mem_of_mem_drop (List.mem_of_mem_take hx)
  simp only [hyphenate, List.filter_append, List.filter_cons, bne_self_eq_false,
    Bool.false_eq_true, if_false, keep (fun _ hx ↦ List.mem_of_mem_take hx), keep (inTake 8 4),
    keep (inTake 12 4), keep (inTake 16 4), keep (fun _ hx ↦ List.mem_of_mem_drop hx)]
  -- the five groups put back together, from the last
  have h20 : cs.drop 20 = (cs.drop 16).drop 4 := by rw [List.drop_drop]
  have h16 : cs.drop 16 = (cs.drop 12).drop 4 := by rw [List.drop_drop]
  have h12 : cs.drop 12 = (cs.drop 8).drop 4 := by rw [List.drop_drop]
  rw [h20, List.take_append_drop, h16, List.take_append_drop, h12, List.take_append_drop,
    List.take_append_drop]

theorem hyphenAt_eq_true_iff (i : Nat) : hyphenAt i = true ↔ i ∈ hyphenPlaces := by
  simp [hyphenAt, hyphenPlaces, or_assoc]

/-- The printed spelling passes the check the hyphenated reading makes, and reads back. -/
theorem parseHyphenated_hyphenate {ds : List (Fin 16)} (h : ds.length = 32) :
    parseHyphenated (hyphenate (ds.map hexChar)) = some ⟨ds, h⟩ := by
  have hlen : (ds.map hexChar).length = 32 := by rw [List.length_map, h]
  have hplain : '-' ∉ ds.map hexChar := fun hmem ↦ by
    obtain ⟨d, -, hd⟩ := List.mem_map.mp hmem
    exact hexChar_ne_hyphen d hd
  rw [parseHyphenated, if_pos, filter_hyphenate hplain, parseSimple, hexRun_map_hexChar,
    Option.bind_some, ofDigits?, dif_pos h]
  -- left: the check on where the hyphens stand
  refine ⟨length_hyphenate hlen, List.all_eq_true.mpr ?_⟩
  rintro ⟨c, i⟩ hmem
  rcases mem_zipIdx_hyphenate hlen hmem with ⟨rfl, hi⟩ | ⟨hc, hi, -⟩
  · simp [(hyphenAt_eq_true_iff i).mpr hi]
  · have hne : c ≠ '-' := fun hc' ↦ hplain (hc' ▸ hc)
    have hoff : hyphenAt i = false := by
      simpa using fun h ↦ hi ((hyphenAt_eq_true_iff i).mp h)
    simp [hne, hoff]

theorem parse?_render (u : Uuid) : parse? u.render = some u := by
  obtain ⟨ds, h⟩ := u
  have hlen : (hyphenate (ds.map hexChar)).length = 36 := length_hyphenate (by simp [h])
  -- every character printed is a hyphen or a hex digit, all of them ASCII
  have hascii : (hyphenate (ds.map hexChar)).any (·.toNat ≥ 128) = false := by
    rw [List.any_eq_false]
    intro c hc
    rcases mem_hyphenate (by simp [h]) hc with rfl | hc
    · decide
    · obtain ⟨d, -, rfl⟩ := List.mem_map.mp hc
      simpa using toNat_hexChar_lt d
  rw [parse?, toList_render]
  simp only [hascii, hlen, Bool.false_eq_true, if_false]
  exact parseHyphenated_hyphenate h

/-! ### The canonical spelling -/

/-- A text spells a UUID canonically: 36 characters, hyphens exactly at the places after the
8th, 12th, 16th and 20th digit, and lowercase hex digits everywhere else. -/
def IsCanonical (s : String) : Prop :=
  s.length = 36 ∧
    ∀ i c, s.toList[i]? = some c →
      (c = '-' ↔ i ∈ hyphenPlaces) ∧ (c ≠ '-' → IsLowerHex c)

theorem isCanonical_render (u : Uuid) : IsCanonical u.render := by
  have hlen : (u.digits.map hexChar).length = 32 := by rw [List.length_map, u.length_eq]
  refine ⟨by rw [← String.length_toList, toList_render, length_hyphenate hlen],
    fun i c hc ↦ ?_⟩
  rw [toList_render, ← List.mk_mem_zipIdx_iff_getElem?] at hc
  rcases mem_zipIdx_hyphenate hlen hc with ⟨rfl, hi⟩ | ⟨hc, hi, -⟩
  · exact ⟨iff_of_true rfl hi, fun h ↦ absurd rfl h⟩
  · obtain ⟨d, -, rfl⟩ := List.mem_map.mp hc
    exact ⟨iff_of_false (hexChar_ne_hyphen d) hi, fun _ ↦ isLowerHex_hexChar d⟩

theorem ne_empty_of_isCanonical {s : String} (h : IsCanonical s) : s ≠ "" := by
  rintro rfl
  cases h.1

/-- A canonical spelling holds hyphens and lowercase hex digits only: no white space. -/
theorem isWhite_of_isCanonical {s : String} (h : IsCanonical s) :
    ∀ c ∈ s.toList, Text.isWhite c = false := by
  intro c hc
  obtain ⟨i, hi⟩ := List.mem_iff_getElem?.mp hc
  obtain ⟨-, hhex⟩ := h.2 i c hi
  by_cases hyph : c = '-'
  · rw [hyph]
    decide
  · -- a lowercase hex digit is a decimal digit or a letter from `a` to `f`
    have hlow := hhex hyph
    simp only [IsLowerHex, Char.le_def, UInt32.le_iff_toNat_le] at hlow
    have hn : c.toNat = c.val.toNat := rfl
    simp only [Text.isWhite, Bool.or_eq_false_iff, Bool.and_eq_false_iff, decide_eq_false_iff_not,
      beq_eq_false_iff_ne]
    have h0 : '0'.val.toNat = 48 := rfl
    have h9 : '9'.val.toNat = 57 := rfl
    have ha : 'a'.val.toNat = 97 := rfl
    have hf : 'f'.val.toNat = 102 := rfl
    omega

end Uuid

/-! ### Trimming -/

namespace Text

/-- What is left after dropping the characters that pass a test starts with one that fails
it. -/
theorem head?_dropWhile {p : Char → Bool} (l : List Char) :
    ∀ c ∈ (l.dropWhile p).head?, p c = false := by
  induction l with
  | nil => simp
  | cons a l ih =>
    cases hp : p a
    · rw [List.dropWhile_cons_of_neg (by simp [hp])]
      intro c hc
      cases hc
      exact hp
    · rw [List.dropWhile_cons_of_pos hp]
      exact ih

theorem toList_trim (s : String) :
    (trim s).toList = ((s.toList.dropWhile isWhite).reverse.dropWhile isWhite).reverse := by
  rw [trim, String.toList_ofList]

/-- A trimmed text starts with no white space: it is a start of what is left after the white
space at the front is dropped. -/
theorem head?_trim (s : String) : ∀ c ∈ (trim s).toList.head?, isWhite c = false := by
  rw [toList_trim]
  generalize hy : s.toList.dropWhile isWhite = y
  -- `y` is the trimmed text followed by the white space dropped from its end
  have hsplit : y = ((y.reverse.dropWhile isWhite).reverse ++
      (y.reverse.takeWhile isWhite).reverse) := by
    rw [← List.reverse_append, List.takeWhile_append_dropWhile, List.reverse_reverse]
  intro c hc
  have hy' : c ∈ y.head? := by
    rw [hsplit, List.head?_append, hc]
    rfl
  rw [← hy] at hy'
  exact head?_dropWhile _ c hy'

/-- A trimmed text ends with no white space. -/
theorem getLast?_trim (s : String) : ∀ c ∈ (trim s).toList.getLast?, isWhite c = false := by
  rw [toList_trim, List.getLast?_reverse]
  exact head?_dropWhile _

/-- A text with no white space in it is its own trimmed text. -/
theorem trim_eq_self {s : String} (h : ∀ c ∈ s.toList, isWhite c = false) : trim s = s := by
  have hkeep : ∀ l : List Char, (∀ c ∈ l, isWhite c = false) → l.dropWhile isWhite = l := by
    intro l hl
    cases l with
    | nil => rfl
    | cons a l => exact List.dropWhile_cons_of_neg (by simp [hl a List.mem_cons_self])
  rw [trim, hkeep _ h, hkeep _ (fun c hc ↦ h c (List.mem_reverse.mp hc)), List.reverse_reverse,
    String.ofList_toList]

/-- A text that its trimmed text leaves as it is has no white space at its ends. -/
theorem not_isWhite_ends_of_trim_eq {s : String} (h : trim s = s) :
    (∀ c rest, s.toList = c :: rest → isWhite c = false) ∧
      (∀ c rest, s.toList = rest ++ [c] → isWhite c = false) := by
  constructor
  · intro c rest hs
    apply head?_trim s c
    rw [h, hs]
    rfl
  · intro c rest hs
    apply getLast?_trim s c
    rw [h, hs, List.getLast?_append_of_ne_nil _ (List.cons_ne_nil c [])]
    rfl

end Text

/-! ### The UUID library -/

/-- What the program relies on of its UUID library, as the library documents it: `hyphenated`
writes a UUID in the canonical spelling, and `parse_str` reads the 128 bits that `hyphenated`
writes back as the same UUID. -/
structure UuidCodec.Documented (c : UuidCodec) : Prop where
  isCanonical_hyphenated : ∀ u, Uuid.IsCanonical (c.hyphenated u)
  parseStr_hyphenated : ∀ u, c.parseStr (c.hyphenated u) = some u

@[simp] theorem UuidCodec.parseStr_standard : UuidCodec.standard.parseStr = Uuid.parse? := rfl

@[simp] theorem UuidCodec.hyphenated_standard : UuidCodec.standard.hyphenated = Uuid.render := rfl

/-- The library the program runs with does what is documented. -/
theorem UuidCodec.documented_standard : UuidCodec.standard.Documented := by
  constructor
  · intro u
    rw [hyphenated_standard]
    exact Uuid.isCanonical_render u
  · intro u
    rw [parseStr_standard, hyphenated_standard]
    exact Uuid.parse?_render u

namespace Uuid

variable {c : UuidCodec}

/-- A UUID written by a documented library reads back as itself: the canonical spelling is not
empty and has no white space to trim. -/
theorem parseIdWith_hyphenated (hc : c.Documented) (u : Uuid) :
    parseIdWith c (c.hyphenated u) = .ok u := by
  have hcanon := hc.isCanonical_hyphenated u
  have hne : (c.hyphenated u).isEmpty = false := by
    simpa using ne_empty_of_isCanonical hcanon
  rw [parseIdWith, if_neg (by simp [hne]),
    Text.trim_eq_self (isWhite_of_isCanonical hcanon), if_neg (by simp),
    hc.parseStr_hyphenated]

/-- An identifier that is read is not empty, is its own trimmed text, and is a spelling the
library reads as the UUID. -/
theorem parseIdWith_eq_ok {s : String} {u : Uuid} (h : parseIdWith c s = .ok u) :
    s ≠ "" ∧ Text.trim s = s ∧ c.parseStr s = some u := by
  unfold parseIdWith at h
  split at h
  · cases h
  · next hne =>
    split at h
    · cases h
    · next htrim =>
      refine ⟨by simpa using hne, by simpa using htrim, ?_⟩
      split at h
      · next u' hu =>
        cases h
        exact hu
      · cases h

end Uuid

namespace Tier

theorem parseId_name (t : Tier) : parseId t.name = .ok t := by
  cases t <;> rfl

/-- A tier is read from its name and from nothing else. -/
theorem eq_name_of_parseId {s : String} {t : Tier} (h : parseId s = .ok t) : s = t.name := by
  unfold parseId at h
  split at h
  · cases h
  · split at h
    · next t' ht' =>
      cases h
      have hname := List.find?_some ht'
      simp only [beq_iff_eq] at hname
      exact hname.symm
    · cases h

theorem isWhite_name (t : Tier) : ∀ c ∈ t.name.toList, Text.isWhite c = false := by
  cases t <;> simp [Tier.name, Text.isWhite]

theorem name_ne_empty (t : Tier) : t.name ≠ "" := by
  cases t <;> decide

end Tier

namespace RecordId

variable {c : UuidCodec}

/-- A key is in the format of a kind: a tier for member tiers, a UUID for every other kind. -/
def FitsKind : RecordId → RecordKind → Prop
  | .tier _, k => k = .memberTier
  | .entity _, k => k ≠ .memberTier

/-- The canonical spelling of a key: a tier's name, or a UUID spelled canonically. -/
def IsCanonical : RecordId → String → Prop
  | .tier t, s => s = t.name
  | .entity _, s => Uuid.IsCanonical s

theorem isCanonical_renderWith (hc : c.Documented) (id : RecordId) :
    id.IsCanonical (id.renderWith c) := by
  cases id with
  | tier t => rfl
  | entity u => exact hc.isCanonical_hyphenated u

/-- A key in the format of a kind reads back from its printed form. -/
theorem parseWith_renderWith (hc : c.Documented) {k : RecordKind} {id : RecordId}
    (h : id.FitsKind k) : parseWith c k (id.renderWith c) = .ok id := by
  cases id with
  | tier t =>
    cases h
    simp [parseWith, renderWith, Tier.parseId_name]
  | entity u =>
    cases k
    · exact absurd rfl h
    all_goals simp [parseWith, renderWith, Uuid.parseIdWith_hyphenated hc]

/-- A key that is read has the format of its kind, and its text is not empty and is its own
trimmed text. -/
theorem parseWith_eq_ok {k : RecordKind} {s : String} {id : RecordId}
    (h : parseWith c k s = .ok id) : id.FitsKind k ∧ s ≠ "" ∧ Text.trim s = s := by
  cases k
  case memberTier =>
    obtain ⟨t, ht, rfl⟩ : ∃ t, Tier.parseId s = .ok t ∧ id = .tier t := by
      cases ht : Tier.parseId s <;> simp_all [parseWith]
    have hname := Tier.eq_name_of_parseId ht
    subst hname
    exact ⟨rfl, Tier.name_ne_empty t, Text.trim_eq_self (Tier.isWhite_name t)⟩
  all_goals
    obtain ⟨u, hu, rfl⟩ : ∃ u, Uuid.parseIdWith c s = .ok u ∧ id = .entity u := by
      cases hu : Uuid.parseIdWith c s <;> simp_all [parseWith]
    obtain ⟨hne, htrim, -⟩ := Uuid.parseIdWith_eq_ok hu
    exact ⟨nofun, hne, htrim⟩

end RecordId

/-- With any UUID library that does what it documents, printing a key and reading it in the
format of its kind gives it back; every key that is read prints in its canonical spelling, which
reads back as the same key; and no text that is empty or has white space before or after it is
read as a key. -/
theorem record_id_spelling_round_trip (c : UuidCodec) (hc : c.Documented) :
    (∀ k (id : RecordId), id.FitsKind k → RecordId.parseWith c k (id.renderWith c) = .ok id) ∧
    (∀ k s (id : RecordId), RecordId.parseWith c k s = .ok id →
      id.FitsKind k ∧ id.IsCanonical (id.renderWith c) ∧
        RecordId.parseWith c k (id.renderWith c) = .ok id) ∧
    (∀ k s, (s = "" ∨ (∃ ch rest, s.toList = ch :: rest ∧ Text.isWhite ch = true) ∨
        (∃ ch rest, s.toList = rest ++ [ch] ∧ Text.isWhite ch = true)) →
      ∃ e, RecordId.parseWith c k s = .error e) := by
  refine ⟨fun k id h ↦ RecordId.parseWith_renderWith hc h, fun k s id h ↦ ?_, fun k s hbad ↦ ?_⟩
  · have hfits := (RecordId.parseWith_eq_ok h).1
    exact ⟨hfits, id.isCanonical_renderWith hc, RecordId.parseWith_renderWith hc hfits⟩
  · cases hp : RecordId.parseWith c k s with
    | error e => exact ⟨e, rfl⟩
    | ok id =>
      -- a key's text is not empty, and trimming leaves it as it is
      obtain ⟨-, hne, htrim⟩ := RecordId.parseWith_eq_ok hp
      obtain ⟨hhead, hlast⟩ := Text.not_isWhite_ends_of_trim_eq htrim
      rcases hbad with rfl | ⟨ch, rest, hs, hch⟩ | ⟨ch, rest, hs, hch⟩
      · exact absurd rfl hne
      · rw [hhead ch rest hs] at hch
        cases hch
      · rw [hlast ch rest hs] at hch
        cases hch

/-- The program's own UUID library does what is documented, so its keys read back from their
printed form. -/
theorem standard_spelling_round_trip :
    UuidCodec.standard.Documented ∧
      ∀ k (id : RecordId), id.FitsKind k → RecordId.parse k id.render = .ok id :=
  ⟨UuidCodec.documented_standard,
    (record_id_spelling_round_trip _ UuidCodec.documented_standard).1⟩

end SocialGraph

/-
An ordered map with unique keys, the shape of `std::map`: the entries are a list sorted strictly
by key, and the order is a field of the structure, so an unsorted map cannot be built. Lookup
determines the map (`ext_find?`), hence every operation is specified by its effect on `find?`.
The two ends are the least and the greatest key; a scan from either end that removes entries while
a test on the key holds removes exactly the keys passing the test, when the test is closed towards
that end.
-/
import Mathlib.Data.List.DropRight
import Mathlib.Data.List.Nodup
import Mathlib.Data.List.Sort
import Mathlib.Order.Lattice
import Mathlib.Tactic.Common

namespace Container

/-- A map from an ordered key type, entries sorted strictly by key. -/
structure SortedMap (κ β : Type) [LinearOrder κ] where
  entries : List (κ × β)
  sorted : entries.Pairwise fun a b => a.1 < b.1
deriving DecidableEq

namespace SortedMap

variable {κ β γ : Type} [LinearOrder κ]

/-! ## Operations -/

def empty : SortedMap κ β := ⟨[], .nil⟩

instance : Inhabited (SortedMap κ β) := ⟨empty⟩

def find? (m : SortedMap κ β) (k : κ) : Option β :=
  (m.entries.find? fun e => decide (e.1 = k)).map (·.2)

def keys (m : SortedMap κ β) : List κ := m.entries.map (·.1)

/-- Sorted insertion, replacing the entry of an equal key. -/
def insertEntry (k : κ) (v : β) : List (κ × β) → List (κ × β)
  | [] => [(k, v)]
  | e :: rest => if k < e.1 then (k, v) :: e :: rest else if k = e.1 then (k, v) :: rest else e :: insertEntry k v rest

theorem mem_insertEntry {k : κ} {v : β} {a : κ × β} :
    ∀ {l : List (κ × β)}, a ∈ insertEntry k v l → a = (k, v) ∨ a ∈ l
  | [], h => by simpa [insertEntry] using h
  | e :: rest, h => by
    unfold insertEntry at h
    split_ifs at h with h1 h2
    · simpa using h
    · rcases List.mem_cons.1 h with h | h
      · exact .inl h
      · exact .inr (List.mem_cons_of_mem _ h)
    · rcases List.mem_cons.1 h with h | h
      · exact .inr (h ▸ List.mem_cons_self ..)
      · exact (mem_insertEntry h).imp id (List.mem_cons_of_mem _)

theorem insertEntry_sorted (k : κ) (v : β) :
    ∀ {l : List (κ × β)}, l.Pairwise (fun a b => a.1 < b.1) → (insertEntry k v l).Pairwise fun a b => a.1 < b.1
  | [], _ => List.pairwise_singleton _ _
  | e :: rest, h => by
    obtain ⟨h1, h2⟩ := List.pairwise_cons.1 h
    unfold insertEntry
    split_ifs with hk he
    · refine .cons (fun b hb => ?_) h
      rcases List.mem_cons.1 hb with rfl | hb
      · exact hk
      · exact hk.trans (h1 b hb)
    · exact .cons (fun b hb => he ▸ h1 b hb) h2
    · refine .cons (fun b hb => ?_) (insertEntry_sorted k v h2)
      rcases mem_insertEntry hb with rfl | hb
      · exact lt_of_le_of_ne (not_lt.1 hk) (Ne.symm he)
      · exact h1 b hb

def insert (m : SortedMap κ β) (k : κ) (v : β) : SortedMap κ β :=
  ⟨insertEntry k v m.entries, insertEntry_sorted k v m.sorted⟩

def erase (m : SortedMap κ β) (k : κ) : SortedMap κ β :=
  ⟨m.entries.filter fun e => decide (e.1 ≠ k), m.sorted.filter _⟩

/-- The entry of the least key. -/
def min? (m : SortedMap κ β) : Option (κ × β) := m.entries.head?

/-- The entry of the greatest key. -/
def max? (m : SortedMap κ β) : Option (κ × β) := m.entries.getLast?

/-- Remove entries from the least key upwards while their key passes `t`: the removed entries,
in that order, and the rest. -/
def popMinWhile (m : SortedMap κ β) (t : κ → Bool) : List (κ × β) × SortedMap κ β :=
  (m.entries.takeWhile (t ·.1), ⟨m.entries.dropWhile (t ·.1), m.sorted.sublist (List.dropWhile_sublist _)⟩)

/-- Remove entries from the greatest key downwards while their key passes `t`: the removed
entries, in that order, and the rest. -/
def popMaxWhile (m : SortedMap κ β) (t : κ → Bool) : List (κ × β) × SortedMap κ β :=
  (m.entries.reverse.takeWhile (t ·.1),
    ⟨m.entries.rdropWhile (t ·.1), m.sorted.sublist (List.rdropWhile_prefix _ _).sublist⟩)

/-- The map with every value replaced by its image. -/
def mapVals (f : β → γ) (m : SortedMap κ β) : SortedMap κ γ :=
  ⟨m.entries.map fun e => (e.1, f e.2), List.pairwise_map.2 m.sorted⟩

/-- The map with every value replaced by its image, the entries without one removed. -/
def filterMapVals (f : β → Option γ) (m : SortedMap κ β) : SortedMap κ γ :=
  ⟨m.entries.filterMap fun e => (f e.2).map (e.1, ·), by
    refine List.pairwise_filterMap.2 (m.sorted.imp fun {a b} hab a' ha' b' hb' => ?_)
    obtain ⟨x, -, rfl⟩ := Option.map_eq_some_iff.1 ha'
    obtain ⟨y, -, rfl⟩ := Option.map_eq_some_iff.1 hb'
    exact hab⟩

/-- The set of the members of a list, as a map to `Unit`. -/
def ofKeys (l : List κ) : SortedMap κ Unit := l.foldl (fun m k => m.insert k ()) empty

/-! ## Lookup -/

theorem nodup_keys (m : SortedMap κ β) : m.keys.Nodup :=
  List.pairwise_map.2 (m.sorted.imp fun h => ne_of_lt h)

theorem find?_eq_some_iff {m : SortedMap κ β} {k : κ} {v : β} : m.find? k = some v ↔ (k, v) ∈ m.entries := by
  unfold find?
  constructor
  · intro h
    obtain ⟨e, he, rfl⟩ := Option.map_eq_some_iff.1 h
    have hk : e.1 = k := by simpa using List.find?_some he
    exact hk ▸ List.mem_of_find?_eq_some he
  · intro h
    cases hf : m.entries.find? (fun e => decide (e.1 = k)) with
    | none => simpa using List.find?_eq_none.1 hf _ h
    | some e =>
      have hk : e.1 = k := by simpa using List.find?_some hf
      have he : e = (k, v) := List.inj_on_of_nodup_map m.nodup_keys (List.mem_of_find?_eq_some hf) h hk
      rw [he]; rfl

theorem find?_eq_none_iff {m : SortedMap κ β} {k : κ} : m.find? k = none ↔ ∀ v, (k, v) ∉ m.entries := by
  rw [Option.eq_none_iff_forall_ne_some]
  exact forall_congr' fun v => not_congr find?_eq_some_iff

theorem mem_keys_iff {m : SortedMap κ β} {k : κ} : k ∈ m.keys ↔ ∃ v, m.find? k = some v := by
  simp only [keys, List.mem_map, find?_eq_some_iff]
  constructor
  · rintro ⟨e, he, rfl⟩; exact ⟨e.2, he⟩
  · rintro ⟨v, hv⟩; exact ⟨(k, v), hv, rfl⟩

/-- Lookup determines the map. -/
theorem ext_find? {m₁ m₂ : SortedMap κ β} (h : ∀ k, m₁.find? k = m₂.find? k) : m₁ = m₂ := by
  have hmem : ∀ e, e ∈ m₁.entries ↔ e ∈ m₂.entries := fun e => by
    rw [← find?_eq_some_iff (k := e.1), ← find?_eq_some_iff (k := e.1), h]
  have hnd : ∀ m : SortedMap κ β, m.entries.Nodup := fun m => List.Nodup.of_map _ m.nodup_keys
  have hp := (List.perm_ext_iff_of_nodup (hnd m₁) (hnd m₂)).2 hmem
  have he : m₁.entries = m₂.entries :=
    hp.eq_of_pairwise (fun _ _ _ _ hab hba => absurd hab (not_lt.2 hba.le)) m₁.sorted m₂.sorted
  cases m₁; cases m₂; cases he; rfl

@[simp] theorem find?_empty (k : κ) : (empty : SortedMap κ β).find? k = none := rfl

theorem mem_insertEntry_self (k : κ) (v : β) : ∀ l : List (κ × β), (k, v) ∈ insertEntry k v l
  | [] => List.mem_singleton_self _
  | e :: rest => by
    unfold insertEntry
    split_ifs
    · exact List.mem_cons_self ..
    · exact List.mem_cons_self ..
    · exact List.mem_cons_of_mem _ (mem_insertEntry_self k v rest)

theorem mem_insertEntry_of_ne {k : κ} {v : β} {a : κ × β} (hne : a.1 ≠ k) :
    ∀ {l : List (κ × β)}, a ∈ l → a ∈ insertEntry k v l
  | e :: rest, h => by
    unfold insertEntry
    rcases List.mem_cons.1 h with rfl | h
    · split_ifs with h1 h2
      · simp
      · exact absurd h2.symm hne
      · simp
    · split_ifs with h1 h2
      · simp [h]
      · simp [h]
      · exact List.mem_cons_of_mem _ (mem_insertEntry_of_ne hne h)

theorem find?_insert (m : SortedMap κ β) (k k' : κ) (v : β) :
    (m.insert k v).find? k' = if k' = k then some v else m.find? k' := by
  split_ifs with h
  · rw [h, find?_eq_some_iff]; exact mem_insertEntry_self k v _
  · ext w
    rw [find?_eq_some_iff, find?_eq_some_iff]
    constructor
    · intro hw
      rcases mem_insertEntry hw with hw | hw
      · exact absurd (congrArg Prod.fst hw) h
      · exact hw
    · exact mem_insertEntry_of_ne h

theorem find?_erase (m : SortedMap κ β) (k k' : κ) :
    (m.erase k).find? k' = if k' = k then none else m.find? k' := by
  split_ifs with h
  · rw [find?_eq_none_iff]; intro v; simp [erase, h]
  · ext w; simp [find?_eq_some_iff, erase, h]

@[simp] theorem find?_insert_self (m : SortedMap κ β) (k : κ) (v : β) : (m.insert k v).find? k = some v := by
  simp [find?_insert]

/-- Erasing a key that is there removes an entry. -/
theorem length_erase_lt {m : SortedMap κ β} {k : κ} {v : β} (h : m.find? k = some v) :
    (m.erase k).entries.length < m.entries.length := by
  refine List.length_filter_lt_length_iff_exists.2 ⟨(k, v), find?_eq_some_iff.1 h, ?_⟩
  simp

/-- Writing back the value a key already has changes nothing. -/
theorem insert_eq_self {m : SortedMap κ β} {k : κ} {v : β} (h : m.find? k = some v) : m.insert k v = m := by
  apply ext_find?
  intro k'
  rw [find?_insert]
  split_ifs with hk
  · rw [hk, h]
  · rfl

theorem find?_mapVals (f : β → γ) (m : SortedMap κ β) (k : κ) : (m.mapVals f).find? k = (m.find? k).map f := by
  ext w
  simp only [find?_eq_some_iff, Option.map_eq_some_iff, mapVals, List.mem_map, Prod.mk.injEq, Prod.exists]
  constructor
  · rintro ⟨k', v, hv, rfl, rfl⟩; exact ⟨v, hv, rfl⟩
  · rintro ⟨v, hv, rfl⟩; exact ⟨k, v, hv, rfl, rfl⟩

theorem find?_filterMapVals (f : β → Option γ) (m : SortedMap κ β) (k : κ) :
    (m.filterMapVals f).find? k = (m.find? k).bind f := by
  ext v
  rw [find?_eq_some_iff, Option.bind_eq_some_iff]
  show (k, v) ∈ List.filterMap _ _ ↔ _
  simp only [List.mem_filterMap, Option.map_eq_some_iff, Prod.mk.injEq, find?_eq_some_iff]
  constructor
  · rintro ⟨⟨k', w⟩, he, x, hx, rfl, rfl⟩; exact ⟨w, he, hx⟩
  · rintro ⟨w, he, hw⟩; exact ⟨(k, w), he, v, hw, rfl, rfl⟩

theorem mem_keys_ofKeys {l : List κ} {k : κ} : k ∈ (ofKeys l).keys ↔ k ∈ l := by
  have h : ∀ (l : List κ) (m : SortedMap κ Unit),
      (∃ v, (l.foldl (fun m k => m.insert k ()) m).find? k = some v) ↔ k ∈ l ∨ ∃ v, m.find? k = some v := by
    intro l
    induction l with
    | nil => intro m; simp
    | cons a l ih =>
      intro m
      rw [List.foldl_cons, ih, List.mem_cons, find?_insert]
      split_ifs with ha
      · simp [ha]
      · simp [ha]
  rw [mem_keys_iff, ofKeys, h]
  simp

/-! ## The two ends -/

theorem min?_eq_some_iff {m : SortedMap κ β} {e : κ × β} :
    m.min? = some e ↔ m.find? e.1 = some e.2 ∧ ∀ k v, m.find? k = some v → e.1 ≤ k := by
  obtain ⟨l, hl⟩ := m
  cases l with
  | nil => simp [min?, find?]
  | cons a l =>
    obtain ⟨h1, -⟩ := List.pairwise_cons.1 hl
    simp only [min?, List.head?_cons, Option.some.injEq, find?_eq_some_iff, Prod.eta]
    constructor
    · rintro rfl
      refine ⟨List.mem_cons_self .., fun k v h => ?_⟩
      rcases List.mem_cons.1 h with h | h
      · exact le_of_eq (congrArg Prod.fst h).symm
      · exact (h1 _ h).le
    · rintro ⟨he, hmin⟩
      rcases List.mem_cons.1 he with he | he
      · exact he.symm
      · exact absurd (hmin a.1 a.2 (List.mem_cons_self ..)) (not_le.2 (h1 _ he))

theorem max?_eq_some_iff {m : SortedMap κ β} {e : κ × β} :
    m.max? = some e ↔ m.find? e.1 = some e.2 ∧ ∀ k v, m.find? k = some v → k ≤ e.1 := by
  obtain ⟨l, hl⟩ := m
  rcases List.eq_nil_or_concat l with rfl | ⟨l, a, rfl⟩
  · simp [max?, find?]
  · have h1 : ∀ x ∈ l, x.1 < a.1 := by
      intro x hx
      exact (List.pairwise_append.1 (by simpa using hl)).2.2 x hx a (by simp)
    simp only [max?, List.concat_eq_append, List.getLast?_concat, Option.some.injEq, find?_eq_some_iff,
      Prod.eta, List.mem_append, List.mem_singleton]
    constructor
    · rintro rfl
      refine ⟨.inr rfl, fun k v h => ?_⟩
      rcases h with h | h
      · exact (h1 _ h).le
      · exact le_of_eq (congrArg Prod.fst h)
    · rintro ⟨he | he, hmax⟩
      · exact absurd (hmax a.1 a.2 (.inr rfl)) (not_le.2 (h1 _ he))
      · exact he.symm

theorem min?_eq_none_iff {m : SortedMap κ β} : m.min? = none ↔ ∀ k, m.find? k = none := by
  simp only [min?, List.head?_eq_none_iff, find?_eq_none_iff]
  constructor
  · intro h; simp [h]
  · intro h; exact List.eq_nil_iff_forall_not_mem.2 fun e => h e.1 e.2

theorem max?_eq_none_iff {m : SortedMap κ β} : m.max? = none ↔ ∀ k, m.find? k = none := by
  rw [← min?_eq_none_iff, max?, min?, List.getLast?_eq_none_iff, List.head?_eq_none_iff]

/-! ## Scans from the ends -/

theorem takeWhile_eq_filter {α : Type} {t : α → Bool} :
    ∀ {l : List α}, l.Pairwise (fun a b => t b = true → t a = true) →
      l.takeWhile t = l.filter t ∧ l.dropWhile t = l.filter fun a => !t a
  | [], _ => ⟨rfl, rfl⟩
  | a :: l, h => by
    obtain ⟨h1, h2⟩ := List.pairwise_cons.1 h
    obtain ⟨i1, i2⟩ := takeWhile_eq_filter h2
    cases ha : t a with
    | true => simp [ha, i1, i2]
    | false =>
      have hno : ∀ b ∈ l, t b = false := fun b hb => by
        by_contra hc
        rw [h1 b hb (by simpa using hc)] at ha; cases ha
      have hself : l.filter (fun a => !t a) = l := List.filter_eq_self.2 fun b hb => by simp [hno b hb]
      simpa [ha, hself] using hno

/-- A scan from the least key with a downward closed test removes exactly the keys passing it. -/
theorem popMinWhile_eq {m : SortedMap κ β} {t : κ → Bool} (ht : ∀ a b, a ≤ b → t b = true → t a = true) :
    (m.popMinWhile t).1 = m.entries.filter (t ·.1) ∧
      ∀ k, (m.popMinWhile t).2.find? k = if t k = true then none else m.find? k := by
  obtain ⟨h1, h2⟩ := takeWhile_eq_filter (m.sorted.imp fun {a b} hab => ht a.1 b.1 hab.le)
  refine ⟨h1, fun k => ?_⟩
  split_ifs with hk
  · rw [find?_eq_none_iff]; intro v; simp [popMinWhile, h2, hk]
  · ext v; simp [find?_eq_some_iff, popMinWhile, h2, hk]

/-- A scan from the greatest key with an upward closed test removes exactly the keys passing it. -/
theorem popMaxWhile_eq {m : SortedMap κ β} {t : κ → Bool} (ht : ∀ a b, a ≤ b → t a = true → t b = true) :
    (m.popMaxWhile t).1 = (m.entries.filter (t ·.1)).reverse ∧
      ∀ k, (m.popMaxWhile t).2.find? k = if t k = true then none else m.find? k := by
  have hs : m.entries.reverse.Pairwise fun a b => t b.1 = true → t a.1 = true :=
    List.pairwise_reverse.2 (m.sorted.imp fun {a b} hab => ht a.1 b.1 hab.le)
  obtain ⟨h1, h2⟩ := takeWhile_eq_filter hs
  refine ⟨by rw [popMaxWhile, h1, List.filter_reverse], fun k => ?_⟩
  split_ifs with hk
  · rw [find?_eq_none_iff]; intro v; simp [popMaxWhile, List.rdropWhile, h2, hk]
  · ext v; simp [find?_eq_some_iff, popMaxWhile, List.rdropWhile, h2, hk]

theorem popMaxWhile_eq_self {m : SortedMap κ β} {t : κ → Bool} (h : ∀ e ∈ m.entries, t e.1 = false) :
    m.popMaxWhile t = ([], m) := by
  have hnone : m.entries.reverse.takeWhile (t ·.1) = [] := by
    refine List.takeWhile_eq_nil_iff.2 fun hlen hp => ?_
    rw [h _ (List.mem_reverse.1 (List.get_mem _ ⟨0, hlen⟩))] at hp
    cases hp
  have hall : m.entries.rdropWhile (t ·.1) = m.entries := by
    refine List.rdropWhile_eq_self_iff.2 fun hne hp => ?_
    rw [h _ (List.getLast_mem hne)] at hp
    cases hp
  unfold popMaxWhile
  simp only [hnone, hall]

/-- Scans look at keys only, so they commute with a map of the values. -/
theorem popMinWhile_mapVals (f : β → γ) (m : SortedMap κ β) (t : κ → Bool) :
    (m.mapVals f).popMinWhile t = ((m.popMinWhile t).1.map fun e => (e.1, f e.2), (m.popMinWhile t).2.mapVals f) := by
  unfold popMinWhile mapVals
  simp only [List.takeWhile_map, List.dropWhile_map]
  rfl

theorem popMaxWhile_mapVals (f : β → γ) (m : SortedMap κ β) (t : κ → Bool) :
    (m.mapVals f).popMaxWhile t = ((m.popMaxWhile t).1.map fun e => (e.1, f e.2), (m.popMaxWhile t).2.mapVals f) := by
  unfold popMaxWhile mapVals
  simp only [List.rdropWhile, ← List.map_reverse, List.takeWhile_map, List.dropWhile_map]
  rfl

omit [LinearOrder κ] in
/-- A test on the key and a map of the values that may drop entries commute. -/
theorem filter_filterMap_key (f : β → Option γ) (t : κ → Bool) (l : List (κ × β)) :
    (l.filterMap fun e => (f e.2).map (e.1, ·)).filter (t ·.1) =
      (l.filter (t ·.1)).filterMap fun e => (f e.2).map (e.1, ·) := by
  rw [List.filter_filterMap, List.filterMap_filter]
  refine List.filterMap_congr fun e _ => ?_
  cases ht : t e.1 <;> cases hf : f e.2 <;> simp [ht]

/-- Such scans commute with a map of the values that drops entries. -/
theorem popMinWhile_filterMapVals (f : β → Option γ) (m : SortedMap κ β) {t : κ → Bool}
    (ht : ∀ a b, a ≤ b → t b = true → t a = true) :
    (m.filterMapVals f).popMinWhile t =
      ((m.popMinWhile t).1.filterMap fun e => (f e.2).map (e.1, ·), (m.popMinWhile t).2.filterMapVals f) := by
  obtain ⟨h1, h2⟩ := popMinWhile_eq (m := m) ht
  obtain ⟨h1', h2'⟩ := popMinWhile_eq (m := m.filterMapVals f) ht
  refine Prod.ext ?_ (ext_find? fun k => ?_)
  · rw [h1', h1]
    exact filter_filterMap_key f t m.entries
  · rw [h2', find?_filterMapVals, find?_filterMapVals, h2]
    split_ifs <;> rfl

theorem popMaxWhile_filterMapVals (f : β → Option γ) (m : SortedMap κ β) {t : κ → Bool}
    (ht : ∀ a b, a ≤ b → t a = true → t b = true) :
    (m.filterMapVals f).popMaxWhile t =
      ((m.popMaxWhile t).1.filterMap fun e => (f e.2).map (e.1, ·), (m.popMaxWhile t).2.filterMapVals f) := by
  obtain ⟨h1, h2⟩ := popMaxWhile_eq (m := m) ht
  obtain ⟨h1', h2'⟩ := popMaxWhile_eq (m := m.filterMapVals f) ht
  refine Prod.ext ?_ (ext_find? fun k => ?_)
  · rw [h1', h1]
    show (List.filter _ (List.filterMap _ m.entries)).reverse = _
    rw [filter_filterMap_key f t m.entries, List.filterMap_reverse]
  · rw [h2', find?_filterMapVals, find?_filterMapVals, h2]
    split_ifs <;> rfl

end SortedMap

end Container

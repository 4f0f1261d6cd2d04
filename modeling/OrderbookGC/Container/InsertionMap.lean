/-
A map that keeps its entries in the order in which their keys came, the shape of a JavaScript `Map`. No key has two
entries, and setting a key again changes its value in place. Two ways of filling one are described by lookup: the last
value for each key (`find?_foldl_set`), and the members of a list grouped by a key (`mem_entries_groupBy`).
-/
import Mathlib.Data.List.Induction
import Mathlib.Data.List.Nodup
import Mathlib.Data.List.Sort
import Mathlib.Order.Lattice
import Mathlib.Tactic.Common

namespace Container

/-- A map whose entries stand in the order of their insertion. -/
structure InsertionMap (κ β : Type) where
  entries : List (κ × β)
  nodup : (entries.map (·.1)).Nodup
deriving DecidableEq

namespace InsertionMap

variable {κ β α : Type}

def empty : InsertionMap κ β := ⟨[], .nil⟩

instance : Inhabited (InsertionMap κ β) := ⟨empty⟩

def values (m : InsertionMap κ β) : List β := m.entries.map (·.2)

/-! ## In the order of the keys -/

section Sorted

variable [LinearOrder κ]

/-- The entries sorted by key. -/
def sorted (m : InsertionMap κ β) : List (κ × β) := m.entries.insertionSort fun a b => a.1 ≤ b.1

theorem mem_sorted {m : InsertionMap κ β} {e : κ × β} : e ∈ m.sorted ↔ e ∈ m.entries := List.mem_insertionSort _

theorem sorted_lt (m : InsertionMap κ β) : m.sorted.Pairwise fun a b => a.1 < b.1 := by
  have hle : m.sorted.Pairwise fun a b => a.1 ≤ b.1 := List.pairwise_insertionSort _ _
  have hne : m.sorted.Pairwise fun a b => a.1 ≠ b.1 :=
    List.pairwise_map.1 (((List.perm_insertionSort _ m.entries).map _).nodup_iff.2 m.nodup)
  exact (hle.and hne).imp fun h => lt_of_le_of_ne h.1 h.2

end Sorted

/-! ## Operations -/

variable [DecidableEq κ]

def find? (m : InsertionMap κ β) (k : κ) : Option β := (m.entries.find? fun e => decide (e.1 = k)).map (·.2)

/-- The entry of an equal key is replaced where it stands; another key comes last. -/
def setEntry (k : κ) (v : β) : List (κ × β) → List (κ × β)
  | [] => [(k, v)]
  | e :: rest => if e.1 = k then (k, v) :: rest else e :: setEntry k v rest

theorem keys_setEntry (k : κ) (v : β) (l : List (κ × β)) :
    (setEntry k v l).map (·.1) = if k ∈ l.map (·.1) then l.map (·.1) else l.map (·.1) ++ [k] := by
  induction l with
  | nil => rfl
  | cons e rest ih =>
    unfold setEntry
    by_cases he : e.1 = k
    · simp [he]
    · rw [if_neg he, List.map_cons, ih]
      have hmem : k ∈ (e :: rest).map (·.1) ↔ k ∈ rest.map (·.1) := by
        rw [List.map_cons, List.mem_cons]
        exact or_iff_right fun h => he h.symm
      by_cases hr : k ∈ rest.map (·.1)
      · rw [if_pos hr, if_pos (hmem.2 hr), List.map_cons]
      · rw [if_neg hr, if_neg (mt hmem.1 hr), List.map_cons, List.cons_append]

def set (m : InsertionMap κ β) (k : κ) (v : β) : InsertionMap κ β :=
  ⟨setEntry k v m.entries, by
    rw [keys_setEntry]
    split_ifs with h
    · exact m.nodup
    · refine List.nodup_append.2 ⟨m.nodup, List.nodup_singleton k, ?_⟩
      rintro a ha b hb rfl
      exact h (List.mem_singleton.1 hb ▸ ha)⟩

/-! ## Lookup -/

@[simp] theorem find?_empty (k : κ) : (empty : InsertionMap κ β).find? k = none := rfl

theorem find?_eq_some_iff {m : InsertionMap κ β} {k : κ} {v : β} : m.find? k = some v ↔ (k, v) ∈ m.entries := by
  unfold find?
  constructor
  · intro h
    obtain ⟨e, he, rfl⟩ := Option.map_eq_some_iff.1 h
    have hk : e.1 = k := by simpa using List.find?_some he
    exact hk ▸ List.mem_of_find?_eq_some he
  · intro h
    cases hf : m.entries.find? (fun e => decide (e.1 = k)) with
    | none => simpa using List.find?_eq_none.1 hf _ h
    | some e =>
      have hk : e.1 = k := by simpa using List.find?_some hf
      have he : e = (k, v) := List.inj_on_of_nodup_map m.nodup (List.mem_of_find?_eq_some hf) h hk
      rw [he]; rfl

theorem mem_setEntry {k : κ} {v : β} {l : List (κ × β)} (hl : (l.map (·.1)).Nodup) {e : κ × β} :
    e ∈ setEntry k v l ↔ e = (k, v) ∨ e.1 ≠ k ∧ e ∈ l := by
  induction l with
  | nil => simp [setEntry]
  | cons e' rest ih =>
    rw [List.map_cons, List.nodup_cons] at hl
    unfold setEntry
    by_cases he : e'.1 = k
    · have hrest : e ∈ rest → e.1 ≠ k := fun hm hk => hl.1 (he.trans hk.symm ▸ List.mem_map_of_mem hm)
      rw [if_pos he, List.mem_cons, List.mem_cons]
      constructor
      · exact Or.imp_right fun hm => ⟨hrest hm, .inr hm⟩
      · rintro (h | ⟨hk, rfl | hm⟩)
        · exact .inl h
        · exact absurd he hk
        · exact .inr hm
    · rw [if_neg he, List.mem_cons, List.mem_cons, ih hl.2]
      constructor
      · rintro (rfl | h | ⟨hk, hm⟩)
        · exact .inr ⟨he, .inl rfl⟩
        · exact .inl h
        · exact .inr ⟨hk, .inr hm⟩
      · rintro (h | ⟨hk, rfl | hm⟩)
        · exact .inr (.inl h)
        · exact .inl rfl
        · exact .inr (.inr ⟨hk, hm⟩)

theorem find?_set (m : InsertionMap κ β) (k : κ) (v : β) (k' : κ) :
    (m.set k v).find? k' = if k = k' then some v else m.find? k' := by
  refine Option.ext fun w => ?_
  rw [find?_eq_some_iff, show (m.set k v).entries = setEntry k v m.entries from rfl, mem_setEntry m.nodup]
  split_ifs with hk
  · subst hk
    simp [eq_comm]
  · rw [find?_eq_some_iff]
    constructor
    · rintro (h | ⟨-, h⟩)
      · exact absurd (Prod.mk.inj h).1.symm hk
      · exact h
    · exact fun h => .inr ⟨Ne.symm hk, h⟩

/-- After setting every member of a list, a key has the value of the last member with the key. -/
theorem find?_foldl_set (key : α → κ) (f : α → β) (l : List α) (k : κ) :
    (l.foldl (fun m a => m.set (key a) (f a)) empty).find? k = (l.filter (key · = k)).getLast?.map f := by
  induction l using List.reverseRecOn with
  | nil => rfl
  | append_singleton l a ih =>
    rw [List.foldl_append, List.foldl_cons, List.foldl_nil, find?_set, List.filter_append]
    by_cases hk : key a = k
    · rw [if_pos hk, List.filter_cons_of_pos (by simpa using hk), List.filter_nil, List.getLast?_append_of_ne_nil _ (by simp)]
      rfl
    · rw [if_neg hk, ih, List.filter_cons_of_neg (by simpa using hk), List.filter_nil, List.append_nil]

/-! ## Groups -/

/-- The member is added to the group of its key. -/
def push (key : α → κ) (m : InsertionMap κ (List α)) (a : α) : InsertionMap κ (List α) :=
  m.set (key a) ((m.find? (key a)).getD [] ++ [a])

/-- The members of a list by their keys. -/
def groupBy (key : α → κ) (l : List α) : InsertionMap κ (List α) := l.foldl (push key) empty

theorem find?_groupBy (key : α → κ) (l : List α) (k : κ) :
    (groupBy key l).find? k = if l.filter (key · = k) = [] then none else some (l.filter (key · = k)) := by
  unfold groupBy
  induction l using List.reverseRecOn with
  | nil => rfl
  | append_singleton l a ih =>
    rw [List.foldl_append, List.foldl_cons, List.foldl_nil, push, find?_set, List.filter_append]
    by_cases hk : key a = k
    · rw [if_pos hk, hk, ih, List.filter_cons_of_pos (by simpa using hk), List.filter_nil]
      split_ifs with h1 h2 <;> simp_all
    · rw [if_neg hk, ih, List.filter_cons_of_neg (by simpa using hk), List.filter_nil, List.append_nil]

theorem mem_entries_groupBy {key : α → κ} {l : List α} {e : κ × List α} :
    e ∈ (groupBy key l).entries ↔ e.2 = l.filter (key · = e.1) ∧ e.2 ≠ [] := by
  rw [← find?_eq_some_iff, find?_groupBy]
  split_ifs with h
  · simp only [false_iff, not_and, not_not]
    exact fun he => he.trans h
  · rw [Option.some.injEq]
    constructor
    · intro he
      exact ⟨he.symm, he ▸ h⟩
    · intro he
      exact he.1.symm

end InsertionMap

end Container

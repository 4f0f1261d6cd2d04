/-
Line-based text over any alphabet that contains ASCII: bytes, characters, code points. A text is a
list of its symbols; literals are written as strings. `lines` is what reading a stream line by line
gives, and the lemmas say how lines `key=value` are told apart by their keys and read.
-/
import Mathlib.Data.List.Basic
import Mathlib.Data.List.TakeWhile
import Mathlib.Tactic.Common

namespace Text

/-- Symbols with a code, the ASCII characters among them under their own codes. -/
class Alphabet (α : Type) where
  code : α → Nat
  ofChar : Char → α
  code_inj : ∀ {a b : α}, code a = code b → a = b
  code_ofChar : ∀ {c : Char}, c.toNat < 128 → code (ofChar c) = c.toNat

instance : Alphabet Char where
  code := Char.toNat
  ofChar := id
  code_inj := Char.toNat_inj.1
  code_ofChar _ := rfl

instance : Alphabet UInt8 where
  code := UInt8.toNat
  ofChar c := UInt8.ofNat c.toNat
  code_inj := UInt8.toNat_inj.1
  code_ofChar h := UInt8.toNat_ofNat_of_lt' (by simp [UInt8.size]; omega)

open Alphabet (code ofChar)

variable {α : Type} [Alphabet α]

/-- A literal. -/
def lit (s : String) : List α := s.toList.map ofChar

def newline : α := ofChar '\n'

/-- `key` and `value` on a line of their own. -/
def line (key : String) (value : List α) : List α := lit key ++ value ++ [newline]

/-! ## Literals -/

/-- What holds of every character of a text is decided one character after the other. -/
instance (priority := 2000) decidableChars {p : Char → Prop} [DecidablePred p] (l : List Char) : Decidable (∀ c ∈ l, p c) :=
  List.decidableBAll p l

/-- All characters are ASCII. -/
def IsAscii (s : String) : Prop := ∀ c ∈ s.toList, c.toNat < 128

instance (s : String) : Decidable (IsAscii s) := inferInstanceAs (Decidable (∀ c ∈ s.toList, c.toNat < 128))

/-- A literal on one line. -/
def IsPlain (s : String) : Prop := ∀ c ∈ s.toList, c.toNat < 128 ∧ c ≠ '\n'

instance (s : String) : Decidable (IsPlain s) := inferInstanceAs (Decidable (∀ c ∈ s.toList, c.toNat < 128 ∧ c ≠ '\n'))

theorem IsPlain.ascii {s : String} (h : IsPlain s) : IsAscii s := fun c hc => (h c hc).1

theorem ofChar_inj {a b : Char} (ha : a.toNat < 128) (hb : b.toNat < 128) : (ofChar a : α) = ofChar b ↔ a = b := by
  refine ⟨fun h => ?_, fun h => by rw [h]⟩
  have := congrArg code h
  rw [Alphabet.code_ofChar ha, Alphabet.code_ofChar hb] at this
  exact Char.toNat_inj.1 this

theorem mem_lit {c : Char} (hc : c.toNat < 128) {s : String} (hs : IsAscii s) :
    (ofChar c : α) ∈ (lit s : List α) ↔ c ∈ s.toList := by
  unfold lit
  rw [List.mem_map]
  constructor
  · rintro ⟨x, hx, he⟩
    rw [← (ofChar_inj (hs x hx) hc).1 he]; exact hx
  · exact fun h => ⟨c, h, rfl⟩

/-- A literal begins a text that begins with another literal only if one begins the other. -/
theorem lit_prefix {s t : List Char} (hs : ∀ c ∈ s, c.toNat < 128) (ht : ∀ c ∈ t, c.toNat < 128) {v : List α}
    (h : s.map (ofChar : Char → α) <+: t.map ofChar ++ v) : s <+: t ∨ t <+: s := by
  induction s generalizing t with
  | nil => exact .inl (List.nil_prefix)
  | cons x s ih =>
    cases t with
    | nil => exact .inr (List.nil_prefix)
    | cons y t =>
      rw [List.map_cons, List.map_cons, List.cons_append, List.cons_prefix_cons] at h
      have hxy := (ofChar_inj (hs x (List.mem_cons_self ..)) (ht y (List.mem_cons_self ..))).1 h.1
      rw [hxy]
      exact (ih (fun c hc => hs c (List.mem_cons_of_mem _ hc)) (fun c hc => ht c (List.mem_cons_of_mem _ hc)) h.2).imp
        (fun h => List.cons_prefix_cons.2 ⟨rfl, h⟩) fun h => List.cons_prefix_cons.2 ⟨rfl, h⟩

theorem lit_ne {s k : String} (hs : IsAscii s) (hk : IsAscii k) (h : ¬ k.toList <+: s.toList)
    (v : List α) : lit k ++ v ≠ (lit s : List α) := by
  intro he
  have hpre : k.toList.map (ofChar : Char → α) <+: s.toList.map ofChar ++ [] := by
    rw [List.append_nil]; exact ⟨v, he⟩
  rcases lit_prefix hk hs hpre with hp | hp
  · exact h hp
  · have hlen := congrArg List.length he
    unfold lit at hlen
    rw [List.length_append, List.length_map, List.length_map] at hlen
    have hle := hp.length_le
    exact h (hp.eq_of_length (by omega) ▸ List.prefix_refl _)

theorem lit_inj {s t : String} (hs : IsAscii s) (ht : IsAscii t) : (lit s : List α) = lit t ↔ s = t := by
  refine ⟨fun h => ?_, fun h => by rw [h]⟩
  have hpre : s.toList <+: t.toList := by
    by_contra hn
    exact lit_ne (α := α) ht hs hn [] (by rw [List.append_nil]; exact h)
  have hlen := congrArg List.length h
  unfold lit at hlen
  rw [List.length_map, List.length_map] at hlen
  exact String.toList_inj.1 (hpre.eq_of_length hlen)

theorem newline_not_mem_lit {k : String} (hk : IsPlain k) : newline ∉ (lit k : List α) :=
  fun hm => (hk _ ((mem_lit (by decide) hk.ascii).1 hm)).2 rfl

/-! ## Keys -/

variable [DecidableEq α]

def startsWith (key : String) (l : List α) : Bool := (lit key).isPrefixOf l

theorem startsWith_self (k : String) (v : List α) : startsWith k (lit k ++ v) = true :=
  List.isPrefixOf_iff_prefix.2 (List.prefix_append ..)

theorem startsWith_other {k k' : String} (hk : IsAscii k) (hk' : IsAscii k') (h : ¬ k.toList <+: k'.toList)
    (h' : ¬ k'.toList <+: k.toList) (v : List α) : startsWith k (lit k' ++ v) = false := by
  rw [Bool.eq_false_iff]
  intro hp
  rcases lit_prefix hk hk' (List.isPrefixOf_iff_prefix.1 hp) with hp | hp
  · exact h hp
  · exact h' hp

theorem startsWith_lit {k s : String} (hk : IsAscii k) (hs : IsAscii s) (h : ¬ k.toList <+: s.toList) :
    startsWith k (lit s : List α) = false := by
  rw [Bool.eq_false_iff]
  intro hp
  obtain ⟨v, hv⟩ := List.isPrefixOf_iff_prefix.1 hp
  exact lit_ne hs hk h v hv

/-- The text after the first `=`, empty when there is none. -/
def afterEquals (l : List α) : List α := (l.dropWhile (· ≠ ofChar '=')).drop 1

theorem mem_of_mem_afterEquals {a : α} {l : List α} (h : a ∈ afterEquals l) : a ∈ l :=
  (List.dropWhile_sublist _).subset (List.mem_of_mem_drop h)

theorem afterEquals_lit {k : String} (hk : IsAscii k) (h : k.toList.dropWhile (· ≠ '=') = ['=']) (v : List α) :
    afterEquals (lit k ++ v) = v := by
  unfold afterEquals lit
  have hd : ∀ l : List Char, (∀ c ∈ l, c.toNat < 128) → l.dropWhile (· ≠ '=') = ['='] →
      (l.map (ofChar : Char → α) ++ v).dropWhile (· ≠ ofChar '=') = ofChar '=' :: v := by
    intro l hl he
    induction l with
    | nil => cases he
    | cons c l ih =>
      by_cases hc : c = '='
      · subst hc
        rw [List.dropWhile_cons_of_neg (by simp)] at he
        rw [(List.cons.inj he).2, List.map_cons, List.cons_append, List.dropWhile_cons_of_neg (by simp)]
        rfl
      · have hne : (ofChar c : α) ≠ ofChar '=' := fun he => hc ((ofChar_inj (hl c (List.mem_cons_self ..)) (by decide)).1 he)
        rw [List.dropWhile_cons_of_pos (by simp [hc])] at he
        rw [List.map_cons, List.cons_append, List.dropWhile_cons_of_pos (by simp [hne])]
        exact ih (fun c hc => hl c (List.mem_cons_of_mem _ hc)) he
  rw [hd _ hk h]
  rfl

/-! ## Lines -/

/-- The lines read one by one until the stream fails: a text that ends in a newline has no line after it. -/
def lines (s : List α) : List (List α) :=
  let parts := s.splitOn newline
  if parts.getLast? = some [] then parts.dropLast else parts

@[simp] theorem lines_nil : lines ([] : List α) = [] := rfl

theorem lines_append {s : List α} (hs : newline ∉ s) (rest : List α) : lines (s ++ newline :: rest) = s :: lines rest := by
  unfold lines
  rw [List.splitOn_append_cons_self, List.splitOn_eq_singleton hs]
  obtain ⟨x, l, hl⟩ := List.exists_cons_of_ne_nil (List.splitOn_ne_nil (newline : α) rest)
  dsimp only
  rw [hl, List.singleton_append, List.getLast?_cons_cons]
  split_ifs <;> simp

theorem lines_last {s : List α} (hs : newline ∉ s) (hne : s ≠ []) : lines s = [s] := by
  unfold lines
  rw [List.splitOn_eq_singleton hs]
  simp [hne]

/-- A last line without a newline after it, whatever is before it. -/
theorem lines_concat (s : List α) {last : List α} (hl : newline ∉ last) (hne : last ≠ []) :
    lines (s ++ newline :: last) = s.splitOn newline ++ [last] := by
  unfold lines
  rw [List.splitOn_append_cons_self, List.splitOn_eq_singleton hl]
  simp [hne]

/-- A line holds no newline. -/
theorem newline_not_mem_of_mem_lines {s l : List α} (h : l ∈ lines s) : newline ∉ l := by
  have hparts : ∀ l ∈ s.splitOn newline, newline ∉ l := by
    clear h
    induction s with
    | nil => simp
    | cons a s ih =>
      obtain ⟨x, rest, hx⟩ := List.exists_cons_of_ne_nil (List.splitOn_ne_nil (newline : α) s)
      rw [List.splitOn_cons_eq_if_modifyHead, hx]
      rw [hx] at ih
      intro l hl
      by_cases ha : a = newline
      · rw [if_pos (by simp [ha])] at hl
        rcases List.mem_cons.1 hl with rfl | hl
        · exact List.not_mem_nil
        · exact ih l hl
      · rw [if_neg (by simp [ha])] at hl
        rcases List.mem_cons.1 hl with rfl | hl
        · intro hm
          rcases List.mem_cons.1 hm with he | hm
          · exact ha he.symm
          · exact ih x (List.mem_cons_self ..) hm
        · exact ih l (List.mem_cons_of_mem _ hl)
  unfold lines at h
  dsimp only at h
  by_cases hlast : (s.splitOn newline).getLast? = some []
  · rw [if_pos hlast] at h
    exact hparts l ((List.dropLast_sublist _).subset h)
  · rw [if_neg hlast] at h
    exact hparts l h

/-- A line of a text is read as its key followed by its value. -/
theorem lines_line {k : String} (hk : IsPlain k) {v : List α} (hv : newline ∉ v) (rest : List α) :
    lines (line k v ++ rest) = (lit k ++ v) :: lines rest := by
  have hkv : newline ∉ lit k ++ v := fun hm => (List.mem_append.1 hm).elim (newline_not_mem_lit hk) hv
  unfold line
  rw [List.append_assoc, List.singleton_append]
  exact lines_append hkv rest

/-- The last line, without a newline after it. -/
theorem lines_lit {k : String} (hk : IsPlain k) (hne : k ≠ "") {v : List α} (hv : newline ∉ v) :
    lines (lit k ++ v) = [lit k ++ v] := by
  refine lines_last (fun hm => (List.mem_append.1 hm).elim (newline_not_mem_lit hk) hv) fun he => hne ?_
  have := (List.append_eq_nil_iff.1 he).1
  unfold lit at this
  exact String.toList_eq_nil_iff.1 (List.map_eq_nil_iff.1 this)

end Text

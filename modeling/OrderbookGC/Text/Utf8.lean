/-
UTF-8 as a map between texts: the encoding of characters, and a decoder that replaces what is not
UTF-8. An encoding keeps concatenation and ASCII literals; everything that is written with these two
is encoded piece by piece (`TextHom`).
-/
import OrderbookGC.Text.Decimal

namespace Text

open Alphabet (code ofChar)

def encodeUtf8 (s : List Char) : List UInt8 := s.flatMap String.utf8EncodeChar

/-- The continuation bytes a first byte asks for: how many, and the range of the first of them. -/
def continuations (a : UInt8) : Nat × UInt8 × UInt8 :=
  if 0xC2 ≤ a && a ≤ 0xDF then (1, 0x80, 0xBF)
  else if a = 0xE0 then (2, 0xA0, 0xBF)
  else if a = 0xED then (2, 0x80, 0x9F)
  else if 0xE1 ≤ a && a ≤ 0xEF then (2, 0x80, 0xBF)
  else if a = 0xF0 then (3, 0x90, 0xBF)
  else if 0xF1 ≤ a && a ≤ 0xF3 then (3, 0x80, 0xBF)
  else if a = 0xF4 then (3, 0x80, 0x8F)
  else (0, 0x80, 0xBF)

/-- The length of the ill-formed sequence at the front: the longest beginning of a character, one byte at least. -/
def illFormedLength : List UInt8 → Nat
  | [] => 1
  | [_] => 1
  | a :: b :: rest =>
    let (n, lo, hi) := continuations a
    if n = 0 || b < lo || hi < b then 1
    else 2 + ((rest.take (n - 1)).takeWhile fun x => 0x80 ≤ x && x ≤ 0xBF).length

/-- Decoding with `errors="replace"`; `n` bounds the number of steps. -/
def decodeLoop : Nat → List UInt8 → List Char
  | 0, _ => []
  | _ + 1, [] => []
  | n + 1, bytes =>
    match bytes.toByteArray.utf8DecodeChar? 0 with
    | some c => c :: decodeLoop n (bytes.drop c.utf8Size)
    | none => '\uFFFD' :: decodeLoop n (bytes.drop (illFormedLength bytes))

def decodeUtf8 (bytes : List UInt8) : List Char := decodeLoop bytes.length bytes

theorem decodeLoop_encode (s : List Char) : ∀ n, (encodeUtf8 s).length ≤ n → decodeLoop n (encodeUtf8 s) = s := by
  induction s with
  | nil => intro n _; cases n <;> rfl
  | cons c s ih =>
    intro n hn
    have hpos := c.utf8Size_pos
    have hsplit : encodeUtf8 (c :: s) = String.utf8EncodeChar c ++ encodeUtf8 s := List.flatMap_cons
    rw [hsplit, List.length_append, String.length_utf8EncodeChar] at hn
    cases n with
    | zero => omega
    | succ n =>
      have hne : String.utf8EncodeChar c ++ encodeUtf8 s ≠ [] := fun h => by
        have := congrArg List.length h
        rw [List.length_append, String.length_utf8EncodeChar, List.length_nil] at this
        omega
      obtain ⟨b, rest, hb⟩ := List.exists_cons_of_ne_nil hne
      have hdec : (b :: rest).toByteArray.utf8DecodeChar? 0 = some c := by
        rw [← hb, List.toByteArray_append]
        exact ByteArray.utf8DecodeChar?_utf8EncodeChar_append
      have hdrop : (b :: rest).drop c.utf8Size = encodeUtf8 s := by
        rw [← hb, ← String.length_utf8EncodeChar c, List.drop_left]
      rw [hsplit, hb]
      unfold decodeLoop
      rw [hdec]
      dsimp only
      rw [hdrop, ih n (by omega)]

@[simp] theorem decodeUtf8_encodeUtf8 (s : List Char) : decodeUtf8 (encodeUtf8 s) = s :=
  decodeLoop_encode s _ le_rfl

theorem encodeUtf8_inj {s t : List Char} (h : encodeUtf8 s = encodeUtf8 t) : s = t := by
  rw [← decodeUtf8_encodeUtf8 s, h, decodeUtf8_encodeUtf8]

theorem encodeUtf8_append (s t : List Char) : encodeUtf8 (s ++ t) = encodeUtf8 s ++ encodeUtf8 t := List.flatMap_append

/-- An ASCII character is one byte, its code. -/
theorem utf8EncodeChar_ascii {c : Char} (h : c.toNat < 128) : String.utf8EncodeChar c = [ofChar c] := by
  have hv : c.val.toNat ≤ 0x7f := by
    have : c.val.toNat = c.toNat := rfl
    omega
  unfold String.utf8EncodeChar
  dsimp only
  rw [if_pos hv]
  rfl

/-- The bytes of any other character lie above ASCII. -/
theorem utf8EncodeChar_high {c : Char} (h : 128 ≤ c.toNat) {b : UInt8} (hb : b ∈ String.utf8EncodeChar c) :
    128 ≤ b.toNat := by
  have hv : ¬ c.val.toNat ≤ 0x7f := by
    have : c.val.toNat = c.toNat := rfl
    omega
  have hbyte : ∀ n, 128 ≤ n → n < 256 → 128 ≤ (UInt8.ofNat n).toNat := fun n h1 h2 => by
    rw [UInt8.toNat_ofNat_of_lt' (by simpa [UInt8.size] using h2)]; exact h1
  unfold String.utf8EncodeChar at hb
  dsimp only at hb
  rw [if_neg hv] at hb
  -- two, three or four bytes
  split_ifs at hb <;> simp only [List.mem_cons, List.not_mem_nil, or_false] at hb
  · rcases hb with rfl | rfl <;> exact hbyte _ (by omega) (by omega)
  · rcases hb with rfl | rfl | rfl <;> exact hbyte _ (by omega) (by omega)
  · rcases hb with rfl | rfl | rfl | rfl <;> exact hbyte _ (by omega) (by omega)

/-- An ASCII character stands in the bytes of a text exactly when it stands in the text. -/
theorem ofChar_mem_encodeUtf8 {c : Char} (hc : c.toNat < 128) (s : List Char) :
    (ofChar c : UInt8) ∈ encodeUtf8 s ↔ c ∈ s := by
  unfold encodeUtf8
  rw [List.mem_flatMap]
  constructor
  · rintro ⟨d, hd, hm⟩
    by_cases hasc : d.toNat < 128
    · rw [utf8EncodeChar_ascii hasc, List.mem_singleton] at hm
      rw [(ofChar_inj hc hasc).1 hm]; exact hd
    · have h1 : 128 ≤ code (ofChar c : UInt8) := utf8EncodeChar_high (by omega) hm
      rw [Alphabet.code_ofChar hc] at h1
      omega
  · exact fun h => ⟨c, h, by rw [utf8EncodeChar_ascii hc]; exact List.mem_singleton.2 rfl⟩

theorem ofChar_mem_of_mem_decodeLoop {c : Char} (hc : c.toNat < 128) :
    ∀ (n : Nat) (bytes : List UInt8), c ∈ decodeLoop n bytes → (ofChar c : UInt8) ∈ bytes
  | 0, _, h => by cases h
  | _ + 1, [], h => by cases h
  | n + 1, b :: bytes, h => by
    unfold decodeLoop at h
    cases hd : (b :: bytes).toByteArray.utf8DecodeChar? 0 with
    | none =>
      rw [hd] at h
      rcases List.mem_cons.1 h with rfl | h
      · exact absurd hc (by decide)
      · exact List.mem_of_mem_drop (ofChar_mem_of_mem_decodeLoop hc n _ h)
    | some d =>
      rw [hd] at h
      rcases List.mem_cons.1 h with rfl | h
      · -- a decoded character is encoded at the front
        obtain ⟨rest, hrest⟩ := ByteArray.exists_of_utf8DecodeChar?_eq_some hd
        have hbytes := congrArg (fun a : ByteArray => a.data.toList) hrest
        simp only [List.data_toByteArray, ByteArray.data_append, Array.toList_append] at hbytes
        rw [hbytes]
        refine List.mem_append_left _ ?_
        simp [utf8EncodeChar_ascii hc]
      · exact List.mem_of_mem_drop (ofChar_mem_of_mem_decodeLoop hc n _ h)

/-- An ASCII character that is decoded stands in the bytes, whatever else they hold. -/
theorem ofChar_mem_of_mem_decodeUtf8 {c : Char} (hc : c.toNat < 128) {bytes : List UInt8} (h : c ∈ decodeUtf8 bytes) :
    (ofChar c : UInt8) ∈ bytes := ofChar_mem_of_mem_decodeLoop hc _ _ h

/-! ## Maps between texts -/

/-- A map of texts that keeps concatenation and ASCII. -/
structure TextHom (α β : Type) [Alphabet α] [Alphabet β] where
  apply : List α → List β
  append : ∀ s t, apply (s ++ t) = apply s ++ apply t
  lit : ∀ {s : String}, IsAscii s → apply (Text.lit s) = Text.lit s

variable {α β : Type} [Alphabet α] [Alphabet β]

namespace TextHom

variable (f : TextHom α β)

theorem nil : f.apply [] = [] := f.lit (s := "") (by decide)

theorem chars {l : List Char} (hl : ∀ c ∈ l, c.toNat < 128) : f.apply (l.map ofChar) = l.map ofChar := by
  have h := f.lit (s := String.ofList l) (by unfold IsAscii; rw [String.toList_ofList]; exact hl)
  unfold Text.lit at h
  rwa [String.toList_ofList] at h

theorem line {k : String} (hk : IsAscii k) (v : List α) : f.apply (Text.line k v) = Text.line k (f.apply v) := by
  unfold Text.line newline
  rw [f.append, f.append, f.lit hk]
  congr 1
  exact f.chars (l := ['\n']) (by decide)

theorem showNat (n : Nat) : f.apply (Text.showNat n) = Text.showNat n :=
  f.chars fun c hc => by
    obtain ⟨-, -, h⟩ := code_digit (α := α) (Nat.isDigit_of_mem_toDigits (by decide) (by decide) hc)
    omega

theorem showInt (i : Int) : f.apply (Text.showInt i) = Text.showInt i := by
  unfold Text.showInt
  split_ifs
  · have h := f.append [ofChar '-'] (Text.showNat i.natAbs)
    have hm := f.chars (l := ['-']) (by decide)
    rw [List.map_singleton] at hm
    rw [hm, f.showNat] at h
    exact h
  · exact f.showNat _

theorem showFixed2 (x : ℚ) : f.apply (Text.showFixed2 x) = Text.showFixed2 x := by
  have hdig : ∀ d, d < 10 → d.digitChar.toNat < 128 := fun d hd => by
    obtain ⟨-, -, h⟩ := code_digit (α := α) (digitChar_isDigit ⟨d, hd⟩)
    simp only at h
    omega
  have hfrac : ∀ n : Nat, f.apply [ofChar '.', ofChar (n / 10 % 10).digitChar, ofChar (n % 10).digitChar] =
      [ofChar '.', ofChar (n / 10 % 10).digitChar, ofChar (n % 10).digitChar] := fun n =>
    f.chars (l := ['.', (n / 10 % 10).digitChar, (n % 10).digitChar]) fun c hc => by
      simp only [List.mem_cons, List.not_mem_nil, or_false] at hc
      rcases hc with rfl | rfl | rfl
      · decide
      · exact hdig _ (by omega)
      · exact hdig _ (by omega)
  have hsign : f.apply (if x < 0 then [ofChar '-'] else []) = if x < 0 then [ofChar '-'] else [] := by
    split_ifs
    · exact f.chars (l := ['-']) (by decide)
    · exact f.nil
  unfold Text.showFixed2
  dsimp only
  rw [f.append, f.append, hsign, f.showNat, hfrac]

end TextHom

/-- The encoding as a map of texts. -/
def utf8Hom : TextHom Char UInt8 where
  apply := encodeUtf8
  append := encodeUtf8_append
  lit {s} hs := by
    unfold encodeUtf8 lit
    rw [List.flatMap_map]
    have h : ∀ l : List Char, (∀ c ∈ l, c.toNat < 128) → (l.flatMap fun c => String.utf8EncodeChar (ofChar c)) = l.map ofChar := by
      intro l hl
      induction l with
      | nil => rfl
      | cons c l ih =>
        rw [List.flatMap_cons, ih fun d hd => hl d (List.mem_cons_of_mem _ hd), List.map_cons]
        exact congrArg (· ++ _) (utf8EncodeChar_ascii (hl c (List.mem_cons_self ..)))
    exact h _ hs

/-! ## Code points -/

/-- A text that may hold surrogates, as Python's `str` may. -/
abbrev CodePoint := Fin 0x110000

namespace CodePoint

instance : Alphabet CodePoint where
  code := Fin.val
  ofChar c := ⟨c.toNat, c.valid.elim (Nat.lt_trans · (by decide)) (·.2)⟩
  code_inj := Fin.ext
  code_ofChar _ := rfl

/-- No character, so UTF-8 does not encode it. -/
def isSurrogate (c : CodePoint) : Bool := 0xD800 ≤ c.val && c.val ≤ 0xDFFF

/-- The character of a code point; a surrogate has none and gets the replacement character. -/
def toChar (c : CodePoint) : Char := if h : c.val.isValidChar then Char.ofNatAux c.val h else '\uFFFD'

/-- The bytes of a text without surrogates. -/
def encode (s : List CodePoint) : List UInt8 := encodeUtf8 (s.map toChar)

/-- `s.encode("utf-8")`; `none` is a `UnicodeEncodeError`. -/
def encodeStrict (s : List CodePoint) : Option (List UInt8) := if s.any isSurrogate then none else some (encode s)

theorem toChar_ofChar (c : Char) : toChar (ofChar c) = c := by
  unfold toChar
  rw [dif_pos (show (ofChar c : CodePoint).val.isValidChar from c.valid)]
  exact Char.toNat_inj.1 rfl

/-- The encoding as a map of texts. -/
def encodeHom : TextHom CodePoint UInt8 where
  apply := encode
  append s t := by
    unfold encode
    rw [List.map_append, encodeUtf8_append]
  lit {s} hs := by
    have h : (lit s : List CodePoint).map toChar = lit s := by
      unfold lit
      rw [List.map_map]
      exact List.map_congr_left fun c _ => toChar_ofChar c
    unfold encode
    rw [h]
    exact utf8Hom.lit hs

/-- An ASCII character stands in the bytes of a text exactly when it stands in the text. -/
theorem ofChar_mem_encode {c : Char} (hc : c.toNat < 128) (s : List CodePoint) :
    (ofChar c : UInt8) ∈ encode s ↔ ofChar c ∈ s := by
  unfold encode
  rw [ofChar_mem_encodeUtf8 hc, List.mem_map]
  constructor
  · rintro ⟨d, hd, he⟩
    by_cases hv : d.val.isValidChar
    · have hval : d.toChar.toNat = d.val := by
        unfold toChar
        rw [dif_pos hv]; rfl
      have : ofChar c = d := Fin.ext (by rw [← hval, he]; rfl)
      rw [this]; exact hd
    · unfold toChar at he
      rw [dif_neg hv] at he
      rw [← he] at hc
      exact absurd hc (by decide)
  · exact fun h => ⟨_, h, toChar_ofChar c⟩

end CodePoint

end Text

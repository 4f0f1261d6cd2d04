/-
Identifiers and credentials: `generateUuid` of `uuid.cpp` as a function of what the random
generator draws, `c_str`, and the password hashing of `password_hash.h`.
-/
import Mathlib.Data.List.Infix
import Mathlib.Data.List.TakeWhile
import Mathlib.Data.String.Basic
import Mathlib.Data.UInt
import Mathlib.Tactic.Common

namespace OrderbookGC

/-- There are hexadecimal digits. -/
instance neZero_sixteen : NeZero 16 := ⟨by decide⟩

def hexDigit (n : Fin 16) : Char := "0123456789abcdef".toList.get ⟨n, n.isLt⟩

/-! ## Uuids -/

/-- The draws of one call of `generateUuid`: thirty of `dis(0, 15)` and one of `dis2(8, 11)`. -/
structure UuidDraws where
  digits : Fin 30 → Fin 16
  variant : Fin 4

/-- The digits from the `i`th on, as text. -/
def UuidDraws.hex (d : UuidDraws) (i n : Nat) : List Char :=
  (List.finRange 30).filterMap fun k => if i ≤ k.val ∧ k.val < i + n then some (hexDigit (d.digits k)) else none

def UuidDraws.variantDigit (d : UuidDraws) : Char := hexDigit ⟨8 + d.variant.val, by omega⟩

def generateUuid (d : UuidDraws) : String :=
  String.ofList (d.hex 0 8 ++ '-' :: d.hex 8 4 ++ ['-', '4'] ++ d.hex 12 3 ++
    ['-', d.variantDigit] ++ d.hex 15 3 ++ '-' :: d.hex 18 12)

/-- The text a C string carries: up to the first NUL. -/
def cStr (s : String) : String := String.ofList (s.toList.takeWhile (· ≠ '\x00'))

theorem cStr_of_free {s : String} (h : '\x00' ∉ s.toList) : cStr s = s := by
  have : s.toList.takeWhile (· ≠ '\x00') = s.toList :=
    List.takeWhile_eq_self_iff.2 fun c hc => decide_eq_true fun he => h (he ▸ hc)
  unfold cStr
  rw [this]
  exact String.ofList_toList

theorem cStr_cStr (s : String) : cStr (cStr s) = cStr s := by
  refine cStr_of_free fun h => ?_
  unfold cStr at h
  rw [String.toList_ofList] at h
  simpa using List.mem_takeWhile_imp h

theorem hexDigit_ne_nul : ∀ n, hexDigit n ≠ '\x00' := by decide

theorem generateUuid_free (d : UuidDraws) : '\x00' ∉ (generateUuid d).toList := by
  have hhex : ∀ i n, '\x00' ∉ d.hex i n := by
    intro i n h
    obtain ⟨k, -, hk⟩ := List.mem_filterMap.1 h
    split_ifs at hk
    exact hexDigit_ne_nul _ (Option.some.inj hk)
  have hvar : d.variantDigit ≠ '\x00' := hexDigit_ne_nul _
  unfold generateUuid
  rw [String.toList_ofList]
  simp only [List.mem_append, List.mem_cons, List.not_mem_nil, or_false, not_or]
  exact ⟨⟨⟨⟨⟨⟨hhex _ _, by decide, hhex _ _⟩, by decide, by decide⟩, hhex _ _⟩, by decide, hvar.symm⟩, hhex _ _⟩, by decide,
    hhex _ _⟩

@[simp] theorem cStr_generateUuid (d : UuidDraws) : cStr (generateUuid d) = generateUuid d :=
  cStr_of_free (generateUuid_free d)

theorem generateUuid_ne_empty (d : UuidDraws) : generateUuid d ≠ "" := by
  intro h
  have hmem : '-' ∈ (generateUuid d).toList := by
    unfold generateUuid
    rw [String.toList_ofList]
    simp
  rw [h] at hmem
  simp at hmem

/-! ## Password hashing -/

namespace Sha256

def rotr (x n : UInt32) : UInt32 := (x >>> n) ||| (x <<< (32 - n))

/-- The round constants `K`. -/
def roundConstants : List UInt32 :=
  [0x428a2f98, 0x71374491, 0xb5c0fbcf, 0xe9b5dba5, 0x3956c25b, 0x59f111f1, 0x923f82a4, 0xab1c5ed5,
    0xd807aa98, 0x12835b01, 0x243185be, 0x550c7dc3, 0x72be5d74, 0x80deb1fe, 0x9bdc06a7, 0xc19bf174,
    0xe49b69c1, 0xefbe4786, 0x0fc19dc6, 0x240ca1cc, 0x2de92c6f, 0x4a7484aa, 0x5cb0a9dc, 0x76f988da,
    0x983e5152, 0xa831c66d, 0xb00327c8, 0xbf597fc7, 0xc6e00bf3, 0xd5a79147, 0x06ca6351, 0x14292967,
    0x27b70a85, 0x2e1b2138, 0x4d2c6dfc, 0x53380d13, 0x650a7354, 0x766a0abb, 0x81c2c92e, 0x92722c85,
    0xa2bfe8a1, 0xa81a664b, 0xc24b8b70, 0xc76c51a3, 0xd192e819, 0xd6990624, 0xf40e3585, 0x106aa070,
    0x19a4c116, 0x1e376c08, 0x2748774c, 0x34b0bcb5, 0x391c0cb3, 0x4ed8aa4a, 0x5b9cca4f, 0x682e6ff3,
    0x748f82ee, 0x78a5636f, 0x84c87814, 0x8cc70208, 0x90befffa, 0xa4506ceb, 0xbef9a3f7, 0xc67178f2]

def initialHash : List UInt32 :=
  [0x6a09e667, 0xbb67ae85, 0x3c6ef372, 0xa54ff53a, 0x510e527f, 0x9b05688c, 0x1f83d9ab, 0x5be0cd19]

/-- The message with the bit 1, zeros up to 56 modulo 64 bytes, and the bit length in eight bytes. -/
def pad (input : List UInt8) : List UInt8 :=
  let bitLen : UInt64 := UInt64.ofNat input.length * 8
  input ++ (0x80 :: List.replicate ((119 - input.length % 64) % 64) (0 : UInt8)) ++
    ([7, 6, 5, 4, 3, 2, 1, 0] : List UInt64).map fun i => (bitLen >>> (i * 8)).toUInt8

/-- Big-endian words of four bytes. -/
def words : List UInt8 → List UInt32
  | a :: b :: c :: d :: rest => (a.toUInt32 <<< 24 ||| b.toUInt32 <<< 16 ||| c.toUInt32 <<< 8 ||| d.toUInt32) :: words rest
  | _ => []

/-- The message schedule: the words of a block extended to sixty-four. -/
def schedule (w : List UInt32) : List UInt32 :=
  (List.range 48).foldl (fun w i =>
    let w15 := w.getD (i + 1) 0
    let w2 := w.getD (i + 14) 0
    let s0 := rotr w15 7 ^^^ rotr w15 18 ^^^ (w15 >>> 3)
    let s1 := rotr w2 17 ^^^ rotr w2 19 ^^^ (w2 >>> 10)
    w ++ [w.getD i 0 + s0 + w.getD (i + 9) 0 + s1]) w

/-- One round on the working variables `a` to `h`. -/
def round (v : List UInt32) (kw : UInt32 × UInt32) : List UInt32 :=
  match v with
  | [a, b, c, d, e, f, g, h] =>
    let s1 := rotr e 6 ^^^ rotr e 11 ^^^ rotr e 25
    let ch := (e &&& f) ^^^ (~~~e &&& g)
    let temp1 := h + s1 + ch + kw.1 + kw.2
    let s0 := rotr a 2 ^^^ rotr a 13 ^^^ rotr a 22
    let maj := (a &&& b) ^^^ (a &&& c) ^^^ (b &&& c)
    [temp1 + (s0 + maj), a, b, c, d + temp1, e, f, g]
  | v => v

/-- One block of sixty-four bytes. -/
def compress (hash : List UInt32) (block : List UInt8) : List UInt32 :=
  hash.zipWith (· + ·) ((roundConstants.zip (schedule (words block))).foldl round hash)

/-- The blocks of a padded message; `n` bounds their number. -/
def blocks : Nat → List UInt8 → List (List UInt8)
  | 0, _ => []
  | n + 1, bytes => if bytes.isEmpty then [] else bytes.take 64 :: blocks n (bytes.drop 64)

def hexWord (w : UInt32) : List Char :=
  ([28, 24, 20, 16, 12, 8, 4, 0] : List UInt32).map fun i => hexDigit (Fin.ofNat 16 (w >>> i).toNat)

end Sha256

open Sha256 in
def sha256 (input : String) : String :=
  let padded := pad input.toUTF8.toList
  String.ofList (((blocks padded.length padded).foldl compress initialHash).flatMap hexWord)

/-- The draws of one call of `generateSalt`. -/
abbrev SaltDraws := Fin 32 → Fin 16

def generateSalt (d : SaltDraws) : String := String.ofList ((List.finRange 32).map fun i => hexDigit (d i))

def hashPassword (password : String) (d : SaltDraws) : String :=
  let salt := generateSalt d
  "sha256:" ++ salt ++ ":" ++ sha256 (salt ++ password)

/-- `verifyPassword`: the salt stands between the seventh character and the next colon. -/
def verifyPassword (password stored : String) : Bool :=
  let tail := stored.toList.drop 7
  if ':' ∈ tail then
    let salt := String.ofList (tail.takeWhile (· ≠ ':'))
    let expectedHash := String.ofList ((tail.dropWhile (· ≠ ':')).drop 1)
    sha256 (salt ++ password) = expectedHash
  else false

end OrderbookGC

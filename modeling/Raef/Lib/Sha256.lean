import Raef.Lib.Text

/-!
# SHA-256 of a text

`hashlib.sha256(text.encode("utf-8")).hexdigest()`, on 32-bit words kept as
numbers below `2 ^ 32`.  The rounds run over a window of sixteen words.
-/

namespace Raef.Sha256

def word : ℕ := 2 ^ 32

def roundConstants : List ℕ := [
  0x428a2f98, 0x71374491, 0xb5c0fbcf, 0xe9b5dba5, 0x3956c25b, 0x59f111f1, 0x923f82a4, 0xab1c5ed5,
  0xd807aa98, 0x12835b01, 0x243185be, 0x550c7dc3, 0x72be5d74, 0x80deb1fe, 0x9bdc06a7, 0xc19bf174,
  0xe49b69c1, 0xefbe4786, 0x0fc19dc6, 0x240ca1cc, 0x2de92c6f, 0x4a7484aa, 0x5cb0a9dc, 0x76f988da,
  0x983e5152, 0xa831c66d, 0xb00327c8, 0xbf597fc7, 0xc6e00bf3, 0xd5a79147, 0x06ca6351, 0x14292967,
  0x27b70a85, 0x2e1b2138, 0x4d2c6dfc, 0x53380d13, 0x650a7354, 0x766a0abb, 0x81c2c92e, 0x92722c85,
  0xa2bfe8a1, 0xa81a664b, 0xc24b8b70, 0xc76c51a3, 0xd192e819, 0xd6990624, 0xf40e3585, 0x106aa070,
  0x19a4c116, 0x1e376c08, 0x2748774c, 0x34b0bcb5, 0x391c0cb3, 0x4ed8aa4a, 0x5b9cca4f, 0x682e6ff3,
  0x748f82ee, 0x78a5636f, 0x84c87814, 0x8cc70208, 0x90befffa, 0xa4506ceb, 0xbef9a3f7, 0xc67178f2]

structure Digest where
  (a b c d e f g h : ℕ)

def initial : Digest :=
  ⟨0x6a09e667, 0xbb67ae85, 0x3c6ef372, 0xa54ff53a, 0x510e527f, 0x9b05688c, 0x1f83d9ab, 0x5be0cd19⟩

def rotr (n x : ℕ) : ℕ := ((x >>> n) ||| (x <<< (32 - n))) % word

def bigSigma0 (x : ℕ) : ℕ := rotr 2 x ^^^ rotr 13 x ^^^ rotr 22 x
def bigSigma1 (x : ℕ) : ℕ := rotr 6 x ^^^ rotr 11 x ^^^ rotr 25 x
def smallSigma0 (x : ℕ) : ℕ := rotr 7 x ^^^ rotr 18 x ^^^ (x >>> 3)
def smallSigma1 (x : ℕ) : ℕ := rotr 17 x ^^^ rotr 19 x ^^^ (x >>> 10)

def choose (x y z : ℕ) : ℕ := (x &&& y) ^^^ ((word - 1 - x) &&& z)
def majority (x y z : ℕ) : ℕ := (x &&& y) ^^^ (x &&& z) ^^^ (y &&& z)

/-- One round with constant `k` and message word `w`. -/
def round (k w : ℕ) (s : Digest) : Digest :=
  let t1 := s.h + bigSigma1 s.e + choose s.e s.f s.g + k + w
  let t2 := bigSigma0 s.a + majority s.a s.b s.c
  ⟨(t1 + t2) % word, s.a, s.b, s.c, (s.d + t1) % word, s.e, s.f, s.g⟩

/-- The window moved on by one word. -/
def slide (window : List ℕ) : List ℕ :=
  window.tail ++ [(smallSigma1 (window.getD 14 0) + window.getD 9 0 + smallSigma0 (window.getD 1 0) +
    window.getD 0 0) % word]

def rounds : List ℕ → List ℕ → Digest → Digest
  | [], _, s => s
  | k :: ks, window, s => rounds ks (slide window) (round k (window.getD 0 0) s)

def compress (s : Digest) (block : List ℕ) : Digest :=
  let t := rounds roundConstants block s
  ⟨(s.a + t.a) % word, (s.b + t.b) % word, (s.c + t.c) % word, (s.d + t.d) % word,
    (s.e + t.e) % word, (s.f + t.f) % word, (s.g + t.g) % word, (s.h + t.h) % word⟩

/-! ## Padding -/

def bytesOf (s : String) : List ℕ := (s.toList.flatMap String.utf8EncodeChar).map UInt8.toNat

/-- `n` as eight bytes, the greatest first. -/
def lengthBytes (n : ℕ) : List ℕ := (List.range 8).map fun i => n >>> (8 * (7 - i)) % 256

def pad (bytes : List ℕ) : List ℕ :=
  bytes ++ 0x80 :: List.replicate ((119 - bytes.length % 64) % 64) 0 ++ lengthBytes (8 * bytes.length)

def wordsOf : List ℕ → List ℕ
  | a :: b :: c :: d :: rest => (((a * 256 + b) * 256 + c) * 256 + d) :: wordsOf rest
  | _ => []

/-- The message in blocks of sixteen words; the fuel is the number of words. -/
def digestWords : ℕ → Digest → List ℕ → Digest
  | fuel + 1, s, w :: ws => digestWords fuel (compress s ((w :: ws).take 16)) ((w :: ws).drop 16)
  | _, s, _ => s

def digest (s : String) : Digest :=
  let words := wordsOf (pad (bytesOf s))
  digestWords words.length initial words

/-! ## Hexadecimal text -/

def hexOfWord (w : ℕ) : List Char :=
  (List.range 8).map fun i => Nat.digitChar (w >>> (4 * (7 - i)) % 16)

def hexChars (s : String) : List Char :=
  let t := digest s
  [t.a, t.b, t.c, t.d, t.e, t.f, t.g, t.h].flatMap hexOfWord

@[irreducible] def hexdigest (s : String) : String := String.ofList (hexChars s)

theorem isSpace_digitChar (n : ℕ) : Text.isSpace (Nat.digitChar (n % 16)) = false := by
  have key : ∀ k < 16, Text.isSpace (Nat.digitChar k) = false := by decide
  exact key _ (Nat.mod_lt n (by decide))

/-- A digest has no white space in it. -/
theorem isSpace_of_mem_hexdigest {s : String} {c : Char} (h : c ∈ (hexdigest s).toList) :
    Text.isSpace c = false := by
  unfold hexdigest hexChars at h
  rw [String.toList_ofList, List.mem_flatMap] at h
  obtain ⟨w, -, hw⟩ := h
  unfold hexOfWord at hw
  rw [List.mem_map] at hw
  obtain ⟨i, -, rfl⟩ := hw
  exact isSpace_digitChar _

theorem length_hexdigest (s : String) : (hexdigest s).toList.length = 64 := by
  simp [hexdigest, hexChars, hexOfWord]

example : hexdigest "abc" = "ba7816bf8f01cfea414140de5dae2223b00361a396177a9cb410ff61f20015ad" := by
  decide +kernel

end Raef.Sha256

import QuantWorkbench.Lib.Text

/-!
SHA-256 on byte strings, and the hexadecimal digest of a text in UTF-8.
-/

namespace QuantWorkbench.Lib.Sha256

def roundConstants : List UInt32 :=
  [0x428a2f98, 0x71374491, 0xb5c0fbcf, 0xe9b5dba5, 0x3956c25b, 0x59f111f1, 0x923f82a4,
    0xab1c5ed5, 0xd807aa98, 0x12835b01, 0x243185be, 0x550c7dc3, 0x72be5d74, 0x80deb1fe,
    0x9bdc06a7, 0xc19bf174, 0xe49b69c1, 0xefbe4786, 0x0fc19dc6, 0x240ca1cc, 0x2de92c6f,
    0x4a7484aa, 0x5cb0a9dc, 0x76f988da, 0x983e5152, 0xa831c66d, 0xb00327c8, 0xbf597fc7,
    0xc6e00bf3, 0xd5a79147, 0x06ca6351, 0x14292967, 0x27b70a85, 0x2e1b2138, 0x4d2c6dfc,
    0x53380d13, 0x650a7354, 0x766a0abb, 0x81c2c92e, 0x92722c85, 0xa2bfe8a1, 0xa81a664b,
    0xc24b8b70, 0xc76c51a3, 0xd192e819, 0xd6990624, 0xf40e3585, 0x106aa070, 0x19a4c116,
    0x1e376c08, 0x2748774c, 0x34b0bcb5, 0x391c0cb3, 0x4ed8aa4a, 0x5b9cca4f, 0x682e6ff3,
    0x748f82ee, 0x78a5636f, 0x84c87814, 0x8cc70208, 0x90befffa, 0xa4506ceb, 0xbef9a3f7,
    0xc67178f2]

structure State where
  a : UInt32
  b : UInt32
  c : UInt32
  d : UInt32
  e : UInt32
  f : UInt32
  g : UInt32
  h : UInt32

def State.initial : State where
  a := 0x6a09e667
  b := 0xbb67ae85
  c := 0x3c6ef372
  d := 0xa54ff53a
  e := 0x510e527f
  f := 0x9b05688c
  g := 0x1f83d9ab
  h := 0x5be0cd19

def rotateRight (x : UInt32) (n : UInt32) : UInt32 := (x >>> n) ||| (x <<< (32 - n))

/-- The message, a one bit, zeros and the bit length in eight bytes. -/
def pad (message : List UInt8) : List UInt8 :=
  message ++ 0x80 :: List.replicate ((119 - message.length % 64) % 64) 0 ++
    (List.range 8).map fun i => UInt8.ofNat (8 * message.length / 256 ^ (7 - i))

/-- Big-endian words. -/
def words : List UInt8 → List UInt32
  | a :: b :: c :: d :: rest =>
      (a.toUInt32 <<< 24 ||| b.toUInt32 <<< 16 ||| c.toUInt32 <<< 8 ||| d.toUInt32) ::
        words rest
  | _ => []

def schedule (block : List UInt32) : Array UInt32 :=
  (List.range 48).foldl
    (fun w t =>
      let x := w.getD (t + 1) 0
      let y := w.getD (t + 14) 0
      let small0 := rotateRight x 7 ^^^ rotateRight x 18 ^^^ (x >>> 3)
      let small1 := rotateRight y 17 ^^^ rotateRight y 19 ^^^ (y >>> 10)
      w.push (small1 + w.getD (t + 9) 0 + small0 + w.getD t 0))
    block.toArray

def round (s : State) (input : UInt32 × UInt32) : State :=
  let big1 := rotateRight s.e 6 ^^^ rotateRight s.e 11 ^^^ rotateRight s.e 25
  let choice := (s.e &&& s.f) ^^^ (~~~s.e &&& s.g)
  let t1 := s.h + big1 + choice + input.1 + input.2
  let big0 := rotateRight s.a 2 ^^^ rotateRight s.a 13 ^^^ rotateRight s.a 22
  let majority := (s.a &&& s.b) ^^^ (s.a &&& s.c) ^^^ (s.b &&& s.c)
  { a := t1 + (big0 + majority)
    b := s.a
    c := s.b
    d := s.c
    e := s.d + t1
    f := s.e
    g := s.f
    h := s.g }

def compress (s : State) (block : List UInt32) : State :=
  let r := (roundConstants.zip (schedule block).toList).foldl round s
  { a := s.a + r.a
    b := s.b + r.b
    c := s.c + r.c
    d := s.d + r.d
    e := s.e + r.e
    f := s.f + r.f
    g := s.g + r.g
    h := s.h + r.h }

def hash (message : List UInt8) : List UInt32 :=
  let input := words (pad message)
  let s := (List.range (input.length / 16)).foldl
    (fun s i => compress s ((input.drop (16 * i)).take 16)) State.initial
  [s.a, s.b, s.c, s.d, s.e, s.f, s.g, s.h]

def hexWord (word : UInt32) : Text :=
  (List.range 8).map fun i => Nat.digitChar (word.toNat / 16 ^ (7 - i) % 16)

/-- `hashlib.sha256(message).hexdigest()`. -/
def hexdigest (message : List UInt8) : Text := (hash message).flatMap hexWord

/-- The digest of a text encoded in UTF-8. -/
def ofText (text : Text) : Text := hexdigest text.utf8

theorem hexdigest_digits (message : List UInt8) :
    ∀ c ∈ hexdigest message, ∃ n < 16, c = Nat.digitChar n := by
  intro c hc
  obtain ⟨word, _, hword⟩ := List.mem_flatMap.mp hc
  obtain ⟨i, _, rfl⟩ := List.mem_map.mp hword
  exact ⟨_, Nat.mod_lt _ (by decide), rfl⟩

theorem hexdigest_length (message : List UInt8) : (hexdigest message).length = 64 := by
  have hword : ∀ word : UInt32, (hexWord word).length = 8 := by simp [hexWord]
  simp [hexdigest, hash, hword]

example : ofText "abc".toList =
    "ba7816bf8f01cfea414140de5dae2223b00361a396177a9cb410ff61f20015ad".toList := by
  decide +kernel

end QuantWorkbench.Lib.Sha256

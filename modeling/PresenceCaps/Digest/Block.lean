/-! What the two SHA functions share: padding a message to blocks, and words in big-endian order. -/
namespace PresenceCaps.Sha

def rotl (x n : UInt32) : UInt32 := (x <<< n) ||| (x >>> (32 - n))

def rotr (x n : UInt32) : UInt32 := (x >>> n) ||| (x <<< (32 - n))

/-- The low bytes of a number, highest first. -/
def bigEndian (width n : Nat) : List UInt8 :=
  (List.range width).map fun i => UInt8.ofNat (n >>> (8 * (width - 1 - i)))

/-- A one bit, zeros, and the length in bits, up to a multiple of 64 bytes. -/
def pad (msg : List UInt8) : List UInt8 :=
  msg ++ [0x80] ++ List.replicate ((119 - msg.length % 64) % 64) 0 ++ bigEndian 8 (8 * msg.length)

def word (b₀ b₁ b₂ b₃ : UInt8) : UInt32 :=
  b₀.toUInt32 <<< 24 ||| b₁.toUInt32 <<< 16 ||| b₂.toUInt32 <<< 8 ||| b₃.toUInt32

def toWords : List UInt8 → List UInt32
  | b₀ :: b₁ :: b₂ :: b₃ :: rest => word b₀ b₁ b₂ b₃ :: toWords rest
  | _ => []

def ofWords (ws : List UInt32) : List UInt8 := ws.flatMap fun w => bigEndian 4 w.toNat

/-- Groups of sixteen words. -/
def blocks (ws : List UInt32) : List (List UInt32) :=
  (List.range (ws.length / 16)).map fun i => (ws.drop (16 * i)).take 16

/-- Lengthens a block to `n` words, each computed from those before it. -/
def schedule (next : Array UInt32 → Nat → UInt32) (n : Nat) (block : List UInt32) : Array UInt32 :=
  (List.range (n - 16)).foldl (fun w i => w.push (next w (16 + i))) block.toArray

end PresenceCaps.Sha

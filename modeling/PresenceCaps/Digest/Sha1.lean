import PresenceCaps.Digest.Block

/-! SHA-1. -/
namespace PresenceCaps.Sha1
open Sha

structure State where
  a : UInt32
  b : UInt32
  c : UInt32
  d : UInt32
  e : UInt32

def initial : State := ⟨0x67452301, 0xefcdab89, 0x98badcfe, 0x10325476, 0xc3d2e1f0⟩

def nextWord (w : Array UInt32) (t : Nat) : UInt32 :=
  rotl (w.getD (t - 3) 0 ^^^ w.getD (t - 8) 0 ^^^ w.getD (t - 14) 0 ^^^ w.getD (t - 16) 0) 1

/-- The mixing function and the constant of a round. -/
def mix (t : Nat) (b c d : UInt32) : UInt32 × UInt32 :=
  if t < 20 then ((b &&& c) ||| (~~~b &&& d), 0x5a827999)
  else if t < 40 then (b ^^^ c ^^^ d, 0x6ed9eba1)
  else if t < 60 then ((b &&& c) ||| (b &&& d) ||| (c &&& d), 0x8f1bbcdc)
  else (b ^^^ c ^^^ d, 0xca62c1d6)

def round (w : Array UInt32) (s : State) (t : Nat) : State :=
  let (f, k) := mix t s.b s.c s.d
  ⟨rotl s.a 5 + f + s.e + k + w.getD t 0, s.a, rotl s.b 30, s.c, s.d⟩

def compress (s : State) (block : List UInt32) : State :=
  let r := (List.range 80).foldl (round (schedule nextWord 80 block)) s
  ⟨s.a + r.a, s.b + r.b, s.c + r.c, s.d + r.d, s.e + r.e⟩

def digest (msg : List UInt8) : List UInt8 :=
  let s := (blocks (toWords (pad msg))).foldl compress initial
  ofWords [s.a, s.b, s.c, s.d, s.e]

end PresenceCaps.Sha1

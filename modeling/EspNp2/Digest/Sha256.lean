import EspNp2.Library.Sha256Standard

/-!
The streaming SHA-256 of the host tools. A context keeps the chaining state, the number of bits
it was given and a buffer of 64 bytes for the block that is not yet full. A write past the
buffer is a failure of the model.
-/

namespace EspNp2.Digest.Sha256

def roundConstants : List UInt32 :=
  [0x428a2f98, 0x71374491, 0xb5c0fbcf, 0xe9b5dba5, 0x3956c25b, 0x59f111f1, 0x923f82a4, 0xab1c5ed5,
   0xd807aa98, 0x12835b01, 0x243185be, 0x550c7dc3, 0x72be5d74, 0x80deb1fe, 0x9bdc06a7, 0xc19bf174,
   0xe49b69c1, 0xefbe4786, 0x0fc19dc6, 0x240ca1cc, 0x2de92c6f, 0x4a7484aa, 0x5cb0a9dc, 0x76f988da,
   0x983e5152, 0xa831c66d, 0xb00327c8, 0xbf597fc7, 0xc6e00bf3, 0xd5a79147, 0x06ca6351, 0x14292967,
   0x27b70a85, 0x2e1b2138, 0x4d2c6dfc, 0x53380d13, 0x650a7354, 0x766a0abb, 0x81c2c92e, 0x92722c85,
   0xa2bfe8a1, 0xa81a664b, 0xc24b8b70, 0xc76c51a3, 0xd192e819, 0xd6990624, 0xf40e3585, 0x106aa070,
   0x19a4c116, 0x1e376c08, 0x2748774c, 0x34b0bcb5, 0x391c0cb3, 0x4ed8aa4a, 0x5b9cca4f, 0x682e6ff3,
   0x748f82ee, 0x78a5636f, 0x84c87814, 0x8cc70208, 0x90befffa, 0xa4506ceb, 0xbef9a3f7, 0xc67178f2]

def rotateRight (value count : UInt32) : UInt32 :=
  (value >>> count) ||| (value <<< (32 - count))

def readU32be (bytes : List UInt8) : UInt32 :=
  ((bytes.getD 0 0).toUInt32 <<< 24) ||| ((bytes.getD 1 0).toUInt32 <<< 16) |||
    ((bytes.getD 2 0).toUInt32 <<< 8) ||| (bytes.getD 3 0).toUInt32

def writeU32be (value : UInt32) : List UInt8 :=
  [(value >>> 24).toUInt8, (value >>> 16).toUInt8, (value >>> 8).toUInt8, value.toUInt8]

structure Context where
  state : Vector UInt32 8
  bitCount : UInt64
  buffer : Vector UInt8 64
  bufferSize : ℕ

section Transform

/-- The word after the words written so far. -/
def nextWord (words : List UInt32) : UInt32 :=
  let i := words.length
  let s0 := rotateRight (words.getD (i - 15) 0) 7 ^^^ rotateRight (words.getD (i - 15) 0) 18 ^^^
    (words.getD (i - 15) 0 >>> 3)
  let s1 := rotateRight (words.getD (i - 2) 0) 17 ^^^ rotateRight (words.getD (i - 2) 0) 19 ^^^
    (words.getD (i - 2) 0 >>> 10)
  words.getD (i - 16) 0 + s0 + words.getD (i - 7) 0 + s1

def extendWords : ℕ → List UInt32 → List UInt32
  | 0, words => words
  | count + 1, words => extendWords count (words ++ [nextWord words])

def blockWords (block : List UInt8) : List UInt32 :=
  extendWords 48 ((List.range 16).map fun i => readU32be (block.drop (i * 4)))

/-- The eight locals of the rounds. -/
structure Locals where
  a : UInt32
  b : UInt32
  c : UInt32
  d : UInt32
  e : UInt32
  f : UInt32
  g : UInt32
  h : UInt32

def roundStep (constant word : UInt32) (v : Locals) : Locals :=
  let s1 := rotateRight v.e 6 ^^^ rotateRight v.e 11 ^^^ rotateRight v.e 25
  let choose := (v.e &&& v.f) ^^^ (~~~v.e &&& v.g)
  let temporary1 := v.h + s1 + choose + constant + word
  let s0 := rotateRight v.a 2 ^^^ rotateRight v.a 13 ^^^ rotateRight v.a 22
  let majority := (v.a &&& v.b) ^^^ (v.a &&& v.c) ^^^ (v.b &&& v.c)
  let temporary2 := s0 + majority
  { a := temporary1 + temporary2
    b := v.a
    c := v.b
    d := v.c
    e := v.d + temporary1
    f := v.e
    g := v.f
    h := v.g }

def roundLoop (words : List UInt32) (v : Locals) : ℕ → Locals
  | 0 => v
  | i + 1 => roundStep (roundConstants.getD i 0) (words.getD i 0) (roundLoop words v i)

def loadState (state : Vector UInt32 8) : Locals where
  a := state[0]
  b := state[1]
  c := state[2]
  d := state[3]
  e := state[4]
  f := state[5]
  g := state[6]
  h := state[7]

def addState (state : Vector UInt32 8) (v : Locals) : Vector UInt32 8 :=
  #v[state[0] + v.a, state[1] + v.b, state[2] + v.c, state[3] + v.d,
    state[4] + v.e, state[5] + v.f, state[6] + v.g, state[7] + v.h]

def transform (context : Context) (block : List UInt8) : Context :=
  { context with
    state := addState context.state
      (roundLoop (blockWords block) (loadState context.state) 64) }

end Transform

section Calls

def initialState : Vector UInt32 8 :=
  #v[0x6a09e667, 0xbb67ae85, 0x3c6ef372, 0xa54ff53a, 0x510e527f, 0x9b05688c, 0x1f83d9ab,
    0x5be0cd19]

/-- The buffer keeps what it held. -/
def init (context : Context) : Context :=
  { context with state := initialState, bitCount := 0, bufferSize := 0 }

/-- A copy into the buffer; it fails past the end of the buffer. -/
def store (buffer : Vector UInt8 64) (offset : ℕ) (data : List UInt8) :
    Option (Vector UInt8 64) :=
  if h : offset + data.length ≤ 64 then
    some ⟨(buffer.toList.take offset ++ data ++ buffer.toList.drop (offset + data.length)).toArray,
      by simp; omega⟩
  else
    none

def copyIn (context : Context) (data : List UInt8) : Option Context := do
  let buffer ← store context.buffer context.bufferSize data
  some { context with buffer := buffer, bufferSize := context.bufferSize + data.length }

/-- A full buffer is a block. -/
def drainFull (context : Context) : Context :=
  if context.bufferSize == 64 then
    { transform context context.buffer.toList with bufferSize := 0 }
  else
    context

/-- The copying loop; a pass that copies nothing is one the loop would never leave. -/
def updateLoop : ℕ → Context → List UInt8 → Option Context
  | _, context, [] => some context
  | 0, _, _ :: _ => none
  | passes + 1, context, byte :: rest => do
      let available := 64 - context.bufferSize
      let copied := min (byte :: rest).length available
      let context ← copyIn context ((byte :: rest).take copied)
      updateLoop passes (drainFull context) ((byte :: rest).drop copied)

def update (context : Context) (data : List UInt8) : Option Context :=
  updateLoop data.length
    { context with bitCount := context.bitCount + UInt64.ofNat data.length * 8 } data

/-- A number of zeros, one at a time. -/
def padZeros : ℕ → Context → Option Context
  | 0, context => some context
  | count + 1, context => do
      let context ← copyIn context [0]
      padZeros count context

/-- A block that has no room for the count of bits is closed with zeros. -/
def closeBlock (context : Context) : Option Context :=
  if context.bufferSize > 56 then do
    let context ← padZeros (64 - context.bufferSize) context
    some { transform context context.buffer.toList with bufferSize := 0 }
  else
    some context

/-- A byte of the count of bits, the most significant first. -/
def countByte (bitCount : UInt64) (i : ℕ) : UInt8 :=
  (bitCount >>> (56 - UInt64.ofNat i * 8)).toUInt8

def storeCount (buffer : Vector UInt8 64) (bitCount : UInt64) : Option (Vector UInt8 64) :=
  (List.range 8).foldlM
    (fun buffer i => store buffer (56 + i) [countByte bitCount i]) buffer

def writeDigest (state : Vector UInt32 8) : List UInt8 :=
  state.toList.flatMap writeU32be

def final (context : Context) : Option (Context × List UInt8) := do
  let bitCount := context.bitCount
  let context ← copyIn context [0x80]
  let context ← closeBlock context
  let context ← padZeros (56 - context.bufferSize) context
  let buffer ← storeCount context.buffer bitCount
  let context := transform { context with buffer := buffer } buffer.toList
  some (context, writeDigest context.state)

/-- A call of `update` for every part of a message. -/
def updates (context : Context) : List (List UInt8) → Option Context
  | [] => some context
  | part :: parts => do
      let context ← update context part
      updates context parts

end Calls

end EspNp2.Digest.Sha256
